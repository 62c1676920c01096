/-
ProcBook/Disk/Tree.lean

File trees: the files and directories of a disk, and the working directory among them.

A tree is a finite map from places to nodes, `find?` is its view, and `find?_insert` says what `insert`
does to it.  What a tree has to be like is part of it: every place has one node, in a directory and under
a name that can stand there, and the working directory is a directory.  So whatever an operation returns
is a tree again.

Operations take paths as they are spelled and walk along them, from the root or from the working
directory, so that a name that is missing, a file in place of a directory and a name that is too long are
each met where the walk reaches them.  There are no links: a node stands at one place only, and above a
directory is the one that it stands in.
-/
import ProcBook.Disk.Path
import ProcBook.Text.Utf8

namespace ProcBook

/-! ### Places and what stands there -/

/-- A place: the names that lead to it from the root. -/
abbrev Location := List String

/-- A place other than the root, under names that can stand in a directory. -/
structure IsPlace (location : Location) : Prop where
  ne_root : location ≠ []
  names : ∀ name ∈ location, Path.IsName name

instance (location : Location) : Decidable (IsPlace location) :=
  decidable_of_iff (location ≠ [] ∧ ∀ name ∈ location, Path.IsName name)
    ⟨fun ⟨h₁, h₂⟩ => ⟨h₁, h₂⟩, fun ⟨h₁, h₂⟩ => ⟨h₁, h₂⟩⟩

/-- What stands at a place. -/
inductive Node where
  | directory
  | file (bytes : ByteArray)

instance : DecidableEq Node
  | .directory, .directory => isTrue rfl
  | .directory, .file _ => isFalse nofun
  | .file _, .directory => isFalse nofun
  | .file a, .file b =>
    match ByteArray.instDecidableEq a b with
    | isTrue h => isTrue (congrArg Node.file h)
    | isFalse h => isFalse fun he => h (Node.file.inj he)

/-- Why an operation on files fails. -/
inductive FileError where
  | notFound
  | inputOutput
  | denied
  | alreadyExists
  | notDirectory
  | isDirectory
  | nameTooLong
  /-- The path holds a character that no path can hold. -/
  | nulByte
  /-- The file is no text. -/
  | notText
deriving Repr, DecidableEq

/-- The wording of a file error. -/
def FileError.message : FileError → String
  | notFound => "No such file or directory (os error 2)"
  | inputOutput => "Input/output error (os error 5)"
  | denied => "Permission denied (os error 13)"
  | alreadyExists => "File exists (os error 17)"
  | notDirectory => "Not a directory (os error 20)"
  | isDirectory => "Is a directory (os error 21)"
  | nameTooLong => "File name too long (os error 36)"
  | nulByte => "file name contained an unexpected NUL byte"
  | notText => "stream did not contain valid UTF-8"

/-- What entries have at a place.  The root is a directory and needs no entry. -/
def nodeAt? (entries : List (Location × Node)) (location : Location) : Option Node :=
  if location = [] then some .directory else entries.lookup location

/-- The files and directories of a disk. -/
structure Tree where
  entries : List (Location × Node) := []
  /-- The working directory. -/
  home : Location := []
  /-- Directories whose names cannot be read, and why. -/
  unlisted : List (Location × FileError) := []
  nodup : (entries.map Prod.fst).Nodup := by decide
  places : ∀ place ∈ entries.map Prod.fst, IsPlace place := by decide
  /-- Whatever stands somewhere stands in a directory. -/
  nested : ∀ place ∈ entries.map Prod.fst, nodeAt? entries place.dropLast = some .directory := by decide
  homed : nodeAt? entries home = some .directory := by decide
  unlisted_directories : ∀ place ∈ unlisted.map Prod.fst, nodeAt? entries place = some .directory := by
    decide

theorem isSome_lookup_iff {α β : Type} [BEq α] [LawfulBEq α] {entries : List (α × β)} {key : α} :
    (entries.lookup key).isSome = true ↔ key ∈ entries.map Prod.fst := by
  rw [List.lookup_isSome_iff, List.mem_map]
  constructor
  · rintro ⟨entry, hentry, hkey⟩
    exact ⟨entry, hentry, (beq_iff_eq.1 hkey).symm⟩
  · rintro ⟨entry, hentry, rfl⟩
    exact ⟨entry, hentry, BEq.rfl⟩

/-! ### Putting a node somewhere -/

section

variable {entries : List (Location × Node)} {location other : Location} {node : Node}

/-- Some entries with a node put at a place, in place of the one there. -/
def withNode (entries : List (Location × Node)) (location : Location) (node : Node) :
    List (Location × Node) :=
  (location, node) :: entries.filter (·.1 != location)

theorem lookup_filter_ne (h : other ≠ location) :
    (entries.filter (·.1 != location)).lookup other = entries.lookup other := by
  induction entries with
  | nil => rfl
  | cons entry entries ih =>
    obtain ⟨place, node⟩ := entry
    by_cases hp : place = location
    · have : (other == location) = false := by simp [h]
      simp [hp, List.lookup_cons, ih, this]
    · simp only [List.filter_cons, bne_iff_ne, ne_eq, hp, not_false_eq_true, if_true,
        List.lookup_cons, ih]

theorem nodeAt?_withNode (h : location ≠ []) : nodeAt? (withNode entries location node) other =
    if other = location then some node else nodeAt? entries other := by
  unfold nodeAt? withNode
  by_cases ho : other = []
  · simp [ho, h.symm]
  · by_cases hl : other = location
    · simp [hl, h]
    · have : (other == location) = false := by simp [hl]
      simp [ho, hl, List.lookup_cons, lookup_filter_ne hl, this]

/-- No directory is lost where a node is put at a place without one. -/
theorem directory_withNode (h : location ≠ []) (hfree : nodeAt? entries location ≠ some .directory)
    (hother : nodeAt? entries other = some .directory) :
    nodeAt? (withNode entries location node) other = some .directory := by
  rw [nodeAt?_withNode h, if_neg, hother]
  rintro rfl
  exact hfree hother

theorem mem_places_withNode {place : Location}
    (h : place ∈ (withNode entries location node).map Prod.fst) :
    place = location ∨ place ∈ entries.map Prod.fst := by
  rcases List.mem_cons.1 h with rfl | h
  · exact .inl rfl
  · obtain ⟨entry, hentry, rfl⟩ := List.mem_map.1 h
    exact .inr (List.mem_map_of_mem (List.mem_filter.1 hentry).1)

theorem nodup_withNode (h : (entries.map Prod.fst).Nodup) :
    ((withNode entries location node).map Prod.fst).Nodup := by
  have hkept : ((entries.filter (·.1 != location)).map Prod.fst).Nodup :=
    h.sublist (List.filter_sublist.map _)
  -- An entry at the same place is taken out before the new one comes in.
  rw [withNode, List.map_cons, List.nodup_cons]
  refine ⟨?_, hkept⟩
  intro hmem
  obtain ⟨entry, hentry, hfst⟩ := List.mem_map.1 hmem
  have := (List.mem_filter.1 hentry).2
  simp [hfst] at this

end

namespace Tree

/-! ### The map -/

/-- What stands at a location. -/
def find? (tree : Tree) (location : Location) : Option Node := nodeAt? tree.entries location

/-- A place where a node can be put: it stands in a directory. -/
structure Slot (tree : Tree) where
  location : Location
  isPlace : IsPlace location
  inside : tree.find? location.dropLast = some .directory

/-- The tree with a node put into a slot that holds no directory. -/
def insert (tree : Tree) (slot : tree.Slot) (node : Node)
    (hfree : tree.find? slot.location ≠ some .directory) : Tree :=
  { tree with
    entries := withNode tree.entries slot.location node
    nodup := nodup_withNode tree.nodup
    places := by
      intro place hplace
      rcases mem_places_withNode hplace with rfl | hplace
      · exact slot.isPlace
      · exact tree.places place hplace
    nested := by
      intro place hplace
      apply directory_withNode slot.isPlace.ne_root hfree
      rcases mem_places_withNode hplace with rfl | hplace
      · exact slot.inside
      · exact tree.nested place hplace
    homed := directory_withNode slot.isPlace.ne_root hfree tree.homed
    unlisted_directories := fun place hplace =>
      directory_withNode slot.isPlace.ne_root hfree (tree.unlisted_directories place hplace) }

/-- The names directly below a location. -/
def children (tree : Tree) (location : Location) : List String :=
  tree.entries.filterMap fun (place, _) =>
    match place.getLast? with
    | some name => if place.dropLast == location then some name else none
    | none => none

/-- The greatest number of names that lead to a place of a tree. -/
def depth (tree : Tree) : Nat := (tree.entries.map (·.1.length)).foldr max 0

/-- What a tree holds after an insertion. -/
theorem find?_insert (tree : Tree) (slot : tree.Slot) (node : Node)
    (hfree : tree.find? slot.location ≠ some .directory) (other : Location) :
    (tree.insert slot node hfree).find? other =
      if other = slot.location then some node else tree.find? other :=
  nodeAt?_withNode slot.isPlace.ne_root

/-- What stands somewhere has a name that can stand in a directory, and so has all above it. -/
theorem isName_of_find? {tree : Tree} {location : Location} {node : Node}
    (h : tree.find? location = some node) : ∀ name ∈ location, Path.IsName name := by
  by_cases hroot : location = []
  · simp [hroot]
  · rw [find?, nodeAt?, if_neg hroot] at h
    apply (tree.places location (isSome_lookup_iff.1 _)).names
    rw [h]
    rfl

/-! ### Walking along a path -/

/-- A step of a walk. -/
inductive Step where
  | stay
  | up
  | down (name : String) (isName : Path.IsName name)

/-- The greatest number of bytes in a name. -/
def maxName : Nat := 255

/-- The number of bytes that a path has to stay below. -/
def maxPath : Nat := 4096

/-- The step of a piece of a path; an empty piece is none. -/
def step? (piece : String) : Option Step :=
  if h : Path.IsName piece then some (.down piece h)
  else if piece == "." then some .stay
  else if piece == ".." then some .up
  else none

/-- The steps of a path, unless no walk along it can begin. -/
def steps (path : Path) : Except FileError (List Step) :=
  if path.toList.contains '\x00' then .error .nulByte
  else if maxPath ≤ path.utf8ByteSize then .error .nameTooLong
  else if path == "" then .error .notFound
  else .ok (path.pieces.filterMap step?)

/-- Where a walk along a path starts. -/
def start (tree : Tree) (path : Path) : Location := if path.isAbsolute then [] else tree.home

/-- Takes one step from a location, which has to be a directory.  Where the step leads need not
exist.  Above the root is the root. -/
def enter (tree : Tree) (location : Location) (step : Step) : Except FileError Location :=
  match tree.find? location with
  | none => .error .notFound
  | some (.file _) => .error .notDirectory
  | some .directory =>
    match step with
    | .stay => .ok location
    | .up => .ok location.dropLast
    | .down name _ =>
      if maxName < name.utf8ByteSize then .error .nameTooLong else .ok (location ++ [name])

/-- Where a step leads. -/
def Step.move (location : Location) : Step → Location
  | stay => location
  | up => location.dropLast
  | down name _ => location ++ [name]

theorem enter_eq_ok {tree : Tree} {location next : Location} {step : Step}
    (h : tree.enter location step = .ok next) :
    tree.find? location = some .directory ∧ next = step.move location := by
  unfold enter at h
  split at h
  · cases h
  · cases h
  · next hdir =>
    refine ⟨hdir, ?_⟩
    cases step with
    | stay => exact (Except.ok.inj h).symm
    | up => exact (Except.ok.inj h).symm
    | down name isName =>
      dsimp only at h
      split at h
      · cases h
      · exact (Except.ok.inj h).symm

/-- Takes steps one after the other. -/
def walk (tree : Tree) (location : Location) : List Step → Except FileError Location
  | [] => .ok location
  | step :: steps =>
    match tree.enter location step with
    | .error error => .error error
    | .ok next => walk tree next steps

/-! ### Looking -/

/-- What a path leads to.  A path that ends with a slash leads to a directory only. -/
def node (tree : Tree) (path : Path) : Except FileError (Location × Node) :=
  match steps path with
  | .error error => .error error
  | .ok steps =>
    match tree.walk (tree.start path) steps with
    | .error error => .error error
    | .ok location =>
      match tree.find? location with
      | none => .error .notFound
      | some .directory => .ok (location, .directory)
      | some (.file bytes) =>
        if path.endsWithSlash then .error .notDirectory else .ok (location, .file bytes)

/-- Whether a path leads to a file. -/
def isFile (tree : Tree) (path : Path) : Bool :=
  match tree.node path with
  | .ok (_, .file _) => true
  | _ => false

/-- Whether a path leads to a directory. -/
def isDirectory (tree : Tree) (path : Path) : Bool :=
  match tree.node path with
  | .ok (_, .directory) => true
  | _ => false

/-- The names in the directory that a path leads to. -/
def list (tree : Tree) (path : Path) : Except FileError (List String) :=
  match tree.node path with
  | .error error => .error error
  | .ok (_, .file _) => .error .notDirectory
  | .ok (location, .directory) =>
    match tree.unlisted.lookup location with
    | some error => .error error
    | none => .ok (tree.children location)

/-- The bytes of a file. -/
def read (tree : Tree) (path : Path) : Except FileError ByteArray :=
  match tree.node path with
  | .error error => .error error
  | .ok (_, .directory) => .error .isDirectory
  | .ok (_, .file bytes) => .ok bytes

/-- The text of a file. -/
def readText (tree : Tree) (path : Path) : Except FileError String :=
  match tree.read path with
  | .error error => .error error
  | .ok bytes =>
    match Text.decode bytes with
    | .ok text => .ok text
    | .error _ => .error .notText

/-! ### Changing -/

/-- The slot of a name in a directory. -/
def slot (tree : Tree) (parent : Location) (name : String) (isName : Path.IsName name) :
    Except FileError tree.Slot :=
  match h : tree.enter parent (.down name isName) with
  | .error error => .error error
  | .ok location => .ok {
      location
      isPlace := by
        obtain ⟨hparent, rfl⟩ := enter_eq_ok h
        refine ⟨by simp [Step.move], ?_⟩
        intro other hother
        rcases List.mem_append.1 hother with hother | hother
        · exact isName_of_find? hparent other hother
        · exact List.mem_singleton.1 hother ▸ isName
      inside := by
        obtain ⟨hparent, rfl⟩ := enter_eq_ok h
        simpa [Step.move] using hparent }

/-- The slot that the last step of a path leads to, if the steps before it lead to a directory.
`special` is the error for a path whose last step goes to no name.  Functions that write are compared
without the walk in it, so it is irreducible. -/
@[irreducible]
def target (tree : Tree) (special : FileError) (path : Path) : Except FileError tree.Slot :=
  match steps path with
  | .error error => .error error
  | .ok steps =>
    match tree.walk (tree.start path) steps.dropLast, steps.getLast? with
    | .error error, _ => .error error
    | .ok parent, some (.down name isName) => tree.slot parent name isName
    | .ok parent, _ =>
      match tree.enter parent .stay with
      | .error error => .error error
      | .ok _ => .error special

/-- Writes a file, which may exist already. -/
def write (tree : Tree) (path : Path) (bytes : ByteArray) : Except FileError Tree :=
  match tree.target .isDirectory path with
  | .error error => .error error
  | .ok slot =>
    if path.endsWithSlash then .error .isDirectory
    else if h : tree.find? slot.location = some .directory then .error .isDirectory
    else .ok (tree.insert slot (.file bytes) h)

/-- Writes a text. -/
def writeText (tree : Tree) (path : Path) (text : String) : Except FileError Tree :=
  tree.write path text.toUTF8

/-- Makes a directory inside an existing one. -/
def makeDirectory (tree : Tree) (path : Path) : Except FileError Tree :=
  match tree.target .alreadyExists path with
  | .error error => .error error
  | .ok slot =>
    if h : tree.find? slot.location = none then .ok (tree.insert slot .directory (by simp [h]))
    else .error .alreadyExists

/-- Makes a directory, given the paths of those above it, the nearest first, which are made where they
are missing.  What was made before a failure stays. -/
def makeAlong (tree : Tree) : List Path → Tree × Except FileError Unit
  | [] => (tree, .ok ())
  | path :: above =>
    match tree.makeDirectory path with
    | .ok tree => (tree, .ok ())
    | .error .notFound =>
      -- Something above is missing: make that first and try once more.
      match makeAlong tree above with
      | (tree, .error error) => (tree, .error error)
      | (tree, .ok ()) =>
        match tree.makeDirectory path with
        | .ok tree => (tree, .ok ())
        | .error error => (tree, if tree.isDirectory path then .ok () else .error error)
    -- Whatever the error, a directory that is there already will do.
    | .error error => (tree, if tree.isDirectory path then .ok () else .error error)

/-- Makes a directory and those above it where they are missing.  The empty path needs none. -/
def makeDirectories (tree : Tree) (path : Path) : Tree × Except FileError Unit :=
  if path == "" then (tree, .ok ()) else tree.makeAlong path.ancestors

end Tree

end ProcBook
