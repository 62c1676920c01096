/-
ProcBook/Proofs/Disk.lean

What the operations on a file tree do, in terms of places.

A path denotes a place (`Tree.location`), which depends on its spelling and on the working directory
alone, and `Reaches` says that a walk along the path gets there.  Every operation that succeeds has
reached the place of its path, and changes the tree at most there: `read_eq_ok_iff` and
`list_of_isDirectory` for looking, `write_eq_ok` and `makeDirectory_eq_ok` for changing.

Trees only ever grow by directories and keep their working directory (`Keeps`), so a path that could be
walked once can be walked later and leads to the same place.
-/
import Mathlib.Data.List.Nodup
import ProcBook.Disk.Tree
import ProcBook.Proofs.Text

namespace ProcBook.Tree

/-! ### Places -/

/-- Where steps lead, one after the other. -/
def follow (location : Location) (steps : List Step) : Location := steps.foldl Step.move location

/-- The place that a path denotes. -/
def location (tree : Tree) (path : Path) : Location :=
  follow (tree.start path) (path.pieces.filterMap step?)

/-- A walk along a path gets to the place that the path denotes.  The place itself may be empty. -/
def Reaches (tree : Tree) (path : Path) : Prop :=
  ∃ steps, Tree.steps path = .ok steps ∧
    tree.walk (tree.start path) steps = .ok (tree.location path)

/-- What a tree keeps while files are written and directories are made. -/
structure Keeps (tree later : Tree) : Prop where
  home : later.home = tree.home
  unlisted : later.unlisted = tree.unlisted
  directory : ∀ location, tree.find? location = some .directory →
    later.find? location = some .directory

theorem Keeps.refl (tree : Tree) : tree.Keeps tree := ⟨rfl, rfl, fun _ h => h⟩

/-- Whatever is kept twice is kept in all. -/
theorem Keeps.trans {tree between later : Tree} (h : tree.Keeps between)
    (h' : between.Keeps later) : tree.Keeps later where
  home := h'.home.trans h.home
  unlisted := h'.unlisted.trans h.unlisted
  directory location hdir := h'.directory location (h.directory location hdir)

/-- Where walks start depends on the working directory only. -/
theorem start_eq_of_home {tree other : Tree} (h : other.home = tree.home) (path : Path) :
    other.start path = tree.start path := by
  rw [start, start, h]

/-- A path denotes the same place in all trees with the same working directory. -/
theorem location_eq_of_home {tree other : Tree} (h : other.home = tree.home) (path : Path) :
    other.location path = tree.location path := by
  rw [location, location, start_eq_of_home h]

/-- Walks start in a directory. -/
theorem find?_start (tree : Tree) (path : Path) : tree.find? (tree.start path) = some .directory := by
  rw [start]
  split
  · rfl
  · exact tree.homed

/-! ### Walks -/

/-- A walk can begin along any path that is not empty, takes no forbidden character and is short
enough; its steps are those of the pieces between the slashes. -/
theorem steps_eq_ok {path : Path} {steps : List Step} (h : Tree.steps path = .ok steps) :
    path ≠ "" ∧ steps = path.pieces.filterMap step? := by
  unfold Tree.steps at h
  split at h
  · cases h
  · split at h
    · cases h
    · split at h
      · cases h
      · next hne => exact ⟨by simpa using hne, (Except.ok.inj h).symm⟩

/-- A step that can be taken can be taken in any tree with the same directory. -/
theorem enter_of_directory {tree later : Tree} {location next : Location} {step : Step}
    (h : tree.enter location step = .ok next) (hdir : later.find? location = some .directory) :
    later.enter location step = .ok next := by
  unfold enter at h ⊢
  rw [(enter_eq_ok h).1] at h
  rw [hdir]
  exact h

/-- A walk takes its first step and goes on from there. -/
theorem walk_cons_eq_ok {tree : Tree} {location last : Location} {step : Step} {steps : List Step} :
    tree.walk location (step :: steps) = .ok last ↔
      ∃ next, tree.enter location step = .ok next ∧ tree.walk next steps = .ok last := by
  rw [walk]
  cases tree.enter location step <;> simp

/-- A walk that is possible leads where its steps lead, whatever stands on the way. -/
theorem walk_eq_ok {tree : Tree} {location last : Location} {steps : List Step}
    (h : tree.walk location steps = .ok last) : last = follow location steps := by
  induction steps generalizing location with
  | nil => exact (Except.ok.inj h).symm
  | cons step steps ih =>
    obtain ⟨next, hnext, hrest⟩ := walk_cons_eq_ok.1 h
    obtain ⟨-, rfl⟩ := enter_eq_ok hnext
    exact ih hrest

/-- A walk can be broken off anywhere and taken up again. -/
theorem walk_append_eq_ok {tree : Tree} {location last : Location} {front back : List Step} :
    tree.walk location (front ++ back) = .ok last ↔
      ∃ middle, tree.walk location front = .ok middle ∧ tree.walk middle back = .ok last := by
  induction front generalizing location with
  | nil => simp [walk]
  | cons step front ih =>
    rw [List.cons_append, walk_cons_eq_ok]
    constructor
    · rintro ⟨next, hnext, hrest⟩
      obtain ⟨middle, hfront, hback⟩ := ih.1 hrest
      exact ⟨middle, walk_cons_eq_ok.2 ⟨next, hnext, hfront⟩, hback⟩
    · rintro ⟨middle, hfront, hback⟩
      obtain ⟨next, hnext, hrest⟩ := walk_cons_eq_ok.1 hfront
      exact ⟨next, hnext, ih.2 ⟨middle, hrest, hback⟩⟩

/-- Whoever walks on from a place stands in a directory. -/
theorem directory_of_walk {tree : Tree} {location last : Location} {front back : List Step}
    (h : tree.walk location (front ++ back) = .ok last) (hback : back ≠ []) :
    tree.find? (follow location front) = some .directory := by
  obtain ⟨middle, hfront, hrest⟩ := walk_append_eq_ok.1 h
  obtain rfl := walk_eq_ok hfront
  cases back with
  | nil => exact absurd rfl hback
  | cons step back =>
    obtain ⟨next, hnext, -⟩ := walk_cons_eq_ok.1 hrest
    exact (enter_eq_ok hnext).1

/-- A walk that was possible stays possible. -/
theorem Keeps.walk {tree later : Tree} (h : tree.Keeps later) {location last : Location}
    {steps : List Step} (hw : tree.walk location steps = .ok last) :
    later.walk location steps = .ok last := by
  induction steps generalizing location with
  | nil => exact hw
  | cons step steps ih =>
    obtain ⟨next, hnext, hrest⟩ := walk_cons_eq_ok.1 hw
    have hdir := h.directory location (enter_eq_ok hnext).1
    exact walk_cons_eq_ok.2 ⟨next, enter_of_directory hnext hdir, ih hrest⟩

theorem Keeps.location {tree later : Tree} (h : tree.Keeps later) (path : Path) :
    later.location path = tree.location path :=
  location_eq_of_home h.home path

/-- A path that could be walked along still can. -/
theorem Keeps.reaches {tree later : Tree} (h : tree.Keeps later) {path : Path}
    (hr : tree.Reaches path) : later.Reaches path := by
  obtain ⟨steps, hsteps, hwalk⟩ := hr
  refine ⟨steps, hsteps, ?_⟩
  rw [start_eq_of_home h.home, h.location]
  exact h.walk hwalk

/-- A walk along the steps of a path gets to the place of the path and nowhere else. -/
theorem reaches_of_walk {tree : Tree} {path : Path} {steps : List Step} {last : Location}
    (hsteps : Tree.steps path = .ok steps) (hwalk : tree.walk (tree.start path) steps = .ok last) :
    tree.Reaches path ∧ last = tree.location path := by
  have hlast : last = tree.location path := by
    rw [walk_eq_ok hwalk, (steps_eq_ok hsteps).2]
    rfl
  rw [hlast] at hwalk
  exact ⟨⟨steps, hsteps, hwalk⟩, hlast⟩

/-! ### Looking -/

/-- What a path leads to stands at its place, and a path that ends with a slash leads to no file. -/
theorem node_eq_ok_iff {tree : Tree} {path : Path} {location : Location} {node : Node} :
    tree.node path = .ok (location, node) ↔ tree.Reaches path ∧ location = tree.location path ∧
      tree.find? location = some node ∧ (node ≠ .directory → path.endsWithSlash = false) := by
  constructor
  · intro h
    -- The walk, then what stands at its end, then the slash, in the order in which they can fail.
    unfold Tree.node at h
    split at h
    · cases h
    · next steps hsteps =>
      split at h
      · cases h
      · next last hwalk =>
        obtain ⟨hreaches, rfl⟩ := reaches_of_walk hsteps hwalk
        split at h
        · cases h
        · next hfind =>
          obtain ⟨rfl, rfl⟩ := Prod.mk.inj (Except.ok.inj h)
          exact ⟨hreaches, rfl, hfind, fun hne => absurd rfl hne⟩
        · next bytes hfind =>
          split at h
          · cases h
          · next hslash =>
            obtain ⟨rfl, rfl⟩ := Prod.mk.inj (Except.ok.inj h)
            exact ⟨hreaches, rfl, hfind, fun _ => by simpa using hslash⟩
  · rintro ⟨⟨steps, hsteps, hwalk⟩, rfl, hfind, hslash⟩
    unfold Tree.node
    rw [hsteps]
    simp only [hwalk, hfind]
    cases node with
    | directory => rfl
    | file bytes => simp [hslash]

theorem node_eq_directory_iff {tree : Tree} {path : Path} :
    tree.node path = .ok (tree.location path, .directory) ↔
      tree.Reaches path ∧ tree.find? (tree.location path) = some .directory := by
  rw [node_eq_ok_iff]
  simp

/-- A file is read exactly if a walk gets to its place and the path does not end with a slash. -/
theorem read_eq_ok_iff {tree : Tree} {path : Path} {bytes : ByteArray} :
    tree.read path = .ok bytes ↔ tree.Reaches path ∧
      tree.find? (tree.location path) = some (.file bytes) ∧ path.endsWithSlash = false := by
  have hread : tree.read path = .ok bytes ↔
      tree.node path = .ok (tree.location path, .file bytes) := by
    constructor
    · intro h
      unfold Tree.read at h
      split at h
      · cases h
      · cases h
      · next location bytes' hnode =>
        obtain rfl := Except.ok.inj h
        obtain ⟨-, rfl, -⟩ := node_eq_ok_iff.1 hnode
        exact hnode
    · intro h
      rw [Tree.read, h]
  rw [hread, node_eq_ok_iff]
  simp

/-- A path leads to a directory exactly if a walk gets to its place and one stands there. -/
theorem isDirectory_iff {tree : Tree} {path : Path} : tree.isDirectory path = true ↔
    tree.Reaches path ∧ tree.find? (tree.location path) = some .directory := by
  constructor
  · intro h
    unfold isDirectory at h
    split at h
    · next location hnode =>
      obtain ⟨hreaches, rfl, hfind, -⟩ := node_eq_ok_iff.1 hnode
      exact ⟨hreaches, hfind⟩
    · cases h
  · intro h
    rw [isDirectory, node_eq_directory_iff.2 h]

/-- Files are what can be read. -/
theorem isFile_iff {tree : Tree} {path : Path} :
    tree.isFile path = true ↔ ∃ bytes, tree.read path = .ok bytes := by
  unfold isFile Tree.read
  rcases tree.node path with error | ⟨location, directory | bytes⟩ <;> simp

/-- A text is read from the bytes that encode it, and from no others. -/
theorem readText_eq_ok_iff {tree : Tree} {path : Path} {text : String} :
    tree.readText path = .ok text ↔ tree.read path = .ok text.toUTF8 := by
  unfold readText
  cases tree.read path with
  | error error => simp
  | ok bytes =>
    dsimp only
    rw [Except.ok.injEq, ← Text.decode_eq_ok_iff]
    cases Text.decode bytes with
    | error fault => simp
    | ok other => simp

/-- Nothing is a file and a directory at once. -/
theorem not_isDirectory_of_isFile {tree : Tree} {path : Path} (h : tree.isFile path = true) :
    tree.isDirectory path = false := by
  unfold isFile at h
  unfold isDirectory
  split at h
  · next hnode => rw [hnode]
  · cases h

/-- A path that leads to a directory still does so later. -/
theorem Keeps.isDirectory {tree later : Tree} (h : tree.Keeps later) {path : Path}
    (hdir : tree.isDirectory path = true) : later.isDirectory path = true := by
  obtain ⟨hreaches, hfind⟩ := isDirectory_iff.1 hdir
  refine isDirectory_iff.2 ⟨h.reaches hreaches, ?_⟩
  rw [h.location]
  exact h.directory _ hfind

/-- The names of a directory are those at its place, unless they cannot be read. -/
theorem list_of_isDirectory {tree : Tree} {path : Path} (h : tree.isDirectory path = true) :
    tree.list path =
      match tree.unlisted.lookup (tree.location path) with
      | some error => .error error
      | none => .ok (tree.children (tree.location path)) := by
  have hnode := node_eq_directory_iff.2 (isDirectory_iff.1 h)
  cases hlookup : tree.unlisted.lookup (tree.location path) with
  | none => simp only [list, hnode, hlookup]
  | some error => simp only [list, hnode, hlookup]

/-- Only a directory has names, and they are those at its place. -/
theorem list_eq_ok {tree : Tree} {path : Path} {names : List String}
    (h : tree.list path = .ok names) :
    tree.isDirectory path = true ∧ names = tree.children (tree.location path) := by
  have hdir : tree.isDirectory path = true := by
    unfold list at h
    split at h
    · cases h
    · cases h
    · next hnode => rw [isDirectory, hnode]
  refine ⟨hdir, ?_⟩
  rw [list_of_isDirectory hdir] at h
  split at h
  · cases h
  · exact (Except.ok.inj h).symm

/-! ### Names in a directory -/

/-- The name of an entry of a directory, if a place is one. -/
def entryName? (location place : Location) : Option String :=
  match place.getLast? with
  | some name => if place.dropLast == location then some name else none
  | none => none

theorem children_eq (tree : Tree) (location : Location) :
    tree.children location = (tree.entries.map Prod.fst).filterMap (entryName? location) := by
  rw [List.filterMap_map]
  rfl

/-- The places with an entry name in a directory are those with one more name. -/
theorem entryName?_eq_some_iff {location place : Location} {name : String} :
    entryName? location place = some name ↔ place = location ++ [name] := by
  unfold entryName?
  constructor
  · intro h
    split at h
    · next last hlast =>
      split at h
      · next hdrop =>
        obtain rfl := Option.some.inj h
        rw [← beq_iff_eq.1 hdrop]
        exact (List.dropLast_append_getLast? _ (Option.mem_def.2 hlast)).symm
      · cases h
    · cases h
  · rintro rfl
    simp

/-- A name is listed in a directory exactly if something stands there under it. -/
theorem mem_children_iff {tree : Tree} {location : Location} {name : String} :
    name ∈ tree.children location ↔ (tree.find? (location ++ [name])).isSome = true := by
  rw [children_eq, List.mem_filterMap]
  simp only [entryName?_eq_some_iff, exists_eq_right]
  rw [find?, nodeAt?, if_neg (by simp), isSome_lookup_iff]

/-- No name is listed twice, since no place has two entries. -/
theorem nodup_children (tree : Tree) (location : Location) : (tree.children location).Nodup := by
  rw [children_eq]
  apply List.Nodup.filterMap _ tree.nodup
  intro place place' name hplace hplace'
  rw [entryName?_eq_some_iff.1 hplace, entryName?_eq_some_iff.1 hplace']

theorem isName_of_mem_children {tree : Tree} {location : Location} {name : String}
    (h : name ∈ tree.children location) : Path.IsName name := by
  obtain ⟨node, hnode⟩ := Option.isSome_iff_exists.1 (mem_children_iff.1 h)
  exact isName_of_find? hnode name (by simp)

/-- Every name is listed once, and all of them can stand in a directory. -/
theorem names_of_list {tree : Tree} {path : Path} {names : List String}
    (h : tree.list path = .ok names) : names.Nodup ∧ ∀ name ∈ names, Path.IsName name := by
  obtain ⟨-, rfl⟩ := list_eq_ok h
  exact ⟨tree.nodup_children _, fun _ => isName_of_mem_children⟩

/-! ### Writing -/

/-- A slot stands where a step to its name leads. -/
theorem slot_eq_ok {tree : Tree} {parent : Location} {name : String} {isName : Path.IsName name}
    {slot : tree.Slot} (h : tree.slot parent name isName = .ok slot) :
    tree.enter parent (.down name isName) = .ok slot.location := by
  unfold Tree.slot at h
  split at h
  · cases h
  · next location henter =>
    obtain rfl := Except.ok.inj h
    exact henter

/-- A name has a slot wherever a step to it can be taken. -/
theorem exists_slot_of_enter {tree : Tree} {parent location : Location} {name : String}
    {isName : Path.IsName name} (h : tree.enter parent (.down name isName) = .ok location) :
    ∃ slot, tree.slot parent name isName = .ok slot ∧ slot.location = location := by
  unfold Tree.slot
  split
  · next herror => cases h.symm.trans herror
  · next found henter =>
    obtain rfl := Except.ok.inj (h.symm.trans henter)
    exact ⟨_, rfl, rfl⟩

/-- The slot of a path is the place that it denotes. -/
theorem target_eq_ok {tree : Tree} {special : FileError} {path : Path} {slot : tree.Slot}
    (h : tree.target special path = .ok slot) :
    tree.Reaches path ∧ slot.location = tree.location path := by
  unfold target at h
  split at h
  · cases h
  · next steps hsteps =>
    split at h
    · cases h
    · next parent name isName hwalk hlast =>
      have henter := slot_eq_ok h
      -- The walk to the parent and the step to the name are the walk along the path.
      have hsplit : steps = steps.dropLast ++ [.down name isName] :=
        (List.dropLast_append_getLast? _ (Option.mem_def.2 hlast)).symm
      have hall : tree.walk (tree.start path) steps = .ok slot.location := by
        rw [hsplit]
        exact walk_append_eq_ok.2 ⟨parent, hwalk, walk_cons_eq_ok.2 ⟨_, henter, rfl⟩⟩
      exact reaches_of_walk hsteps hall
    · split at h <;> cases h

/-- A path that can be reached has a slot, unless its last step goes to no name. -/
theorem target_of_reaches {tree : Tree} {path : Path} (h : tree.Reaches path) (special : FileError) :
    tree.target special path = .error special ∨
      ∃ slot, tree.target special path = .ok slot ∧ slot.location = tree.location path := by
  obtain ⟨steps, hsteps, hwalk⟩ := h
  rw [target, hsteps]
  dsimp only
  rcases List.eq_nil_or_concat steps with rfl | ⟨front, step, rfl⟩
  · -- The path goes nowhere, and it starts in a directory.
    left
    simp [walk, enter, tree.find?_start path]
  · rw [List.concat_eq_append] at hwalk ⊢
    obtain ⟨parent, hparent, hstep⟩ := walk_append_eq_ok.1 hwalk
    obtain ⟨location, henter, hlast⟩ := walk_cons_eq_ok.1 hstep
    obtain rfl : location = tree.location path := Except.ok.inj hlast
    rw [List.dropLast_concat, List.getLast?_concat, hparent]
    cases step with
    | down name isName =>
      obtain ⟨slot, hslot, hlocation⟩ := exists_slot_of_enter henter
      exact .inr ⟨slot, hslot, hlocation⟩
    | stay => exact .inl (by simp [enter, (enter_eq_ok henter).1])
    | up => exact .inl (by simp [enter, (enter_eq_ok henter).1])

/-- Putting a node where no directory is loses no directory. -/
theorem keeps_insert {tree : Tree} {slot : tree.Slot} {node : Node}
    (hfree : tree.find? slot.location ≠ some .directory) :
    tree.Keeps (tree.insert slot node hfree) where
  home := rfl
  unlisted := rfl
  directory _ := directory_withNode slot.isPlace.ne_root hfree

/-- What a successful write has met, and what it leaves. -/
theorem write_eq_ok {tree later : Tree} {path : Path} {bytes : ByteArray}
    (h : tree.write path bytes = .ok later) :
    tree.Reaches path ∧ path.endsWithSlash = false ∧
      tree.find? (tree.location path) ≠ some .directory ∧ tree.Keeps later ∧
      ∀ location, later.find? location =
        if location = tree.location path then some (.file bytes) else tree.find? location := by
  unfold write at h
  split at h
  · cases h
  · next slot htarget =>
    obtain ⟨hreaches, hlocation⟩ := target_eq_ok htarget
    split at h
    · cases h
    · next hslash =>
      split at h
      · cases h
      · next hfree =>
        obtain rfl := Except.ok.inj h
        rw [← hlocation]
        exact ⟨hreaches, by simpa using hslash, hfree, keeps_insert hfree, tree.find?_insert slot _ hfree⟩

theorem find?_write {tree later : Tree} {path : Path} {bytes : ByteArray}
    (h : tree.write path bytes = .ok later) (location : Location) :
    later.find? location =
      if location = tree.location path then some (.file bytes) else tree.find? location :=
  (write_eq_ok h).2.2.2.2 location

/-- Writing keeps the directories. -/
theorem keeps_of_write {tree later : Tree} {path : Path} {bytes : ByteArray}
    (h : tree.write path bytes = .ok later) : tree.Keeps later :=
  (write_eq_ok h).2.2.2.1

/-- Writing makes no directories. -/
theorem kept_of_write {tree later : Tree} {path : Path} {bytes : ByteArray}
    (h : tree.write path bytes = .ok later) : later.Keeps tree where
  home := (keeps_of_write h).home.symm
  unlisted := (keeps_of_write h).unlisted.symm
  directory location hdir := by
    rw [find?_write h] at hdir
    split at hdir
    · cases hdir
    · exact hdir

/-- What was written can be read. -/
theorem read_write_self {tree later : Tree} {path : Path} {bytes : ByteArray}
    (h : tree.write path bytes = .ok later) : later.read path = .ok bytes := by
  obtain ⟨hreaches, hslash, -, hkeeps, hfind⟩ := write_eq_ok h
  refine read_eq_ok_iff.2 ⟨hkeeps.reaches hreaches, ?_, hslash⟩
  rw [hkeeps.location, hfind, if_pos rfl]

/-- What can be read is still the same after something was written elsewhere. -/
theorem read_write_of_ne {tree later : Tree} {path other : Path} {bytes bytes' : ByteArray}
    (h : tree.write path bytes = .ok later) (hne : tree.location other ≠ tree.location path)
    (hread : tree.read other = .ok bytes') : later.read other = .ok bytes' := by
  obtain ⟨hreaches, hfile, hslash⟩ := read_eq_ok_iff.1 hread
  obtain ⟨-, -, -, hkeeps, hfind⟩ := write_eq_ok h
  refine read_eq_ok_iff.2 ⟨hkeeps.reaches hreaches, ?_, hslash⟩
  rw [hkeeps.location, hfind, if_neg hne, hfile]

/-- What it takes to make a directory, and what it leaves. -/
theorem makeDirectory_eq_ok {tree later : Tree} {path : Path}
    (h : tree.makeDirectory path = .ok later) :
    tree.Reaches path ∧ tree.find? (tree.location path) = none ∧ tree.Keeps later ∧
      ∀ location, later.find? location =
        if location = tree.location path then some .directory else tree.find? location := by
  unfold makeDirectory at h
  split at h
  · cases h
  · next slot htarget =>
    obtain ⟨hreaches, hlocation⟩ := target_eq_ok htarget
    split at h
    · next hnone =>
      obtain rfl := Except.ok.inj h
      rw [← hlocation]
      exact ⟨hreaches, hnone, keeps_insert _, tree.find?_insert slot _ _⟩
    · cases h

theorem find?_makeDirectory {tree later : Tree} {path : Path}
    (h : tree.makeDirectory path = .ok later) (location : Location) :
    later.find? location =
      if location = tree.location path then some .directory else tree.find? location :=
  (makeDirectory_eq_ok h).2.2.2 location

end ProcBook.Tree
