/-
ProcBook/Proofs/Directories.lean

Making a directory together with those above it.

A path passes another one (`Passes`) if whoever reaches the one has come through the place of the other.
A path passes all paths above it and each of these passes those above itself (`pairwise_ancestors`),
wherever the path starts and whatever is between its slashes.  So what `makeDirectories` adds stands on
the way to the path, and where nothing was before: `find?_makeDirectories`.
-/
import ProcBook.Proofs.Components

namespace ProcBook

namespace Tree

/-- Whoever reaches a path has come through the place of another one. -/
def Passes (path above : Path) : Prop :=
  ∀ tree : Tree, tree.Reaches path → tree.find? (tree.location above) = some .directory

end Tree

/-! ### The paths above a path -/

namespace Path

/-- Of components split in two, the first ones that come from pieces are those of some first pieces. -/
theorem exists_pieces_of_append {path : Path} {front back : List Component}
    (h : path.pieces.filterMap component? = front ++ back) (hback : back ≠ []) :
    ∃ first last, path.pieces = first ++ last ∧ first.filterMap component? = front ∧
      last.filterMap Tree.step? ≠ [] := by
  obtain ⟨first, last, hpieces, hfirst, hlast⟩ := List.filterMap_eq_append_iff.1 h
  refine ⟨first, last, hpieces, hfirst, ?_⟩
  intro hnil
  -- A component is left, and with it a step.
  obtain ⟨component, others, rfl⟩ := List.exists_cons_of_ne_nil hback
  have hmem : component ∈ last.filterMap component? := hlast ▸ List.mem_cons_self
  obtain ⟨piece, hpiece, hc⟩ := List.mem_filterMap.1 hmem
  have hslash : '/' ∉ piece.toList :=
    not_mem_of_mem_pieces (hpieces ▸ List.mem_append_right _ hpiece)
  obtain ⟨-, step, hs, -⟩ := step?_of_component? hslash hc
  rw [List.filterMap_eq_nil_iff.1 hnil piece hpiece] at hs
  cases hs

/-- Whoever reaches a path has come through the places of its first components. -/
theorem directory_of_reaches {path : Path} {tree : Tree} (hreaches : tree.Reaches path) {n : Nat}
    (hlt : n + 1 < path.components.length) :
    tree.find? ((path.components.take (n + 1)).foldl Component.move (tree.start path)) =
      some .directory := by
  obtain ⟨steps, hsteps, hwalk⟩ := hreaches
  obtain ⟨-, rfl⟩ := Tree.steps_eq_ok hsteps
  have hshort := path.length_leading_le
  have hsplit := List.take_append_drop (n + 1 - path.leading.length)
    (path.pieces.filterMap component?)
  have hback : (path.pieces.filterMap component?).drop (n + 1 - path.leading.length) ≠ [] := by
    rw [components, List.length_append] at hlt
    rw [ne_eq, List.drop_eq_nil_iff]
    omega
  obtain ⟨first, last, hpieces, hfirst, hlast⟩ := exists_pieces_of_append hsplit.symm hback
  rw [hpieces, List.filterMap_append] at hwalk
  have hdirectory := Tree.directory_of_walk hwalk hlast
  have hslash : ∀ piece ∈ first, '/' ∉ piece.toList := fun piece hpiece =>
    not_mem_of_mem_pieces (hpieces ▸ List.mem_append_left _ hpiece)
  -- The front of the path leads nowhere, so the first pieces lead where the components lead.
  rw [follow_pieces hslash, hfirst] at hdirectory
  rwa [components, List.take_append, List.take_of_length_le (by omega), List.foldl_append,
    foldl_leading]

/-- The path of the first components of a path denotes the place that they lead to. -/
theorem location_take (tree : Tree) {path : Path} {n : Nat} :
    tree.location (ofComponents (path.components.take (n + 1))) =
      (path.components.take (n + 1)).foldl Component.move (tree.start path) := by
  have hhead : (ofComponents (path.components.take (n + 1))).components.head? =
      path.components.head? := by
    rw [components_take, List.head?_take, if_neg (by omega)]
  rw [location_eq_components, components_take, start_eq_of_head? hhead]

/-- A path passes all paths of its first components. -/
theorem passes_take {path : Path} {n : Nat} (hlt : n + 1 < path.components.length) :
    Tree.Passes path (ofComponents (path.components.take (n + 1))) := by
  intro tree hreaches
  rw [location_take]
  exact directory_of_reaches hreaches hlt

/-- The paths above a path are those of its first components, at least one of them and not all. -/
theorem mem_ancestors_iff {path above : Path} : above ∈ path.ancestors ↔ above = path ∨
    ∃ n, n + 1 < path.components.length ∧ ofComponents (path.components.take (n + 1)) = above := by
  simp only [ancestors, List.mem_cons, List.mem_map, List.mem_reverse, List.mem_range,
    Nat.lt_sub_iff_add_lt]

/-- **A path passes those above it**, and so does each of these. -/
theorem pairwise_ancestors (path : Path) : path.ancestors.Pairwise Tree.Passes := by
  rw [ancestors, List.pairwise_cons, List.pairwise_map, List.pairwise_reverse]
  constructor
  · intro above habove
    obtain ⟨n, hn, rfl⟩ := List.mem_map.1 habove
    rw [List.mem_reverse, List.mem_range] at hn
    exact passes_take (by omega)
  · refine List.pairwise_lt_range.imp_of_mem ?_
    intro m n _ hn hlt
    rw [List.mem_range] at hn
    -- The shorter path is above the longer one, whose components are known.
    have hcomponents := path.components_take n
    have hpasses := @passes_take (ofComponents (path.components.take (n + 1))) m
    rw [hcomponents, List.length_take, List.take_take, Nat.min_eq_left (by omega),
      Nat.min_eq_left (by omega)] at hpasses
    exact hpasses (by omega)

end Path

/-! ### Making directories -/

namespace Tree

/-- A directory that is made or found in a tree stands at the place of its path, those above it are
there as well, and nothing is replaced. -/
theorem find?_directory {path : Path} {above : List Path} (hpass : ∀ a ∈ above, Passes path a)
    {tree later : Tree}
    (h : tree.makeDirectory path = .ok later ∨ later = tree ∧ tree.isDirectory path = true)
    (location : Location) :
    later.find? location = (tree.find? location).or
      (if location ∈ (path :: above).map tree.location then some .directory else none) := by
  have hreaches : tree.Reaches path := by
    rcases h with h | ⟨-, h⟩
    · exact (makeDirectory_eq_ok h).1
    · exact (isDirectory_iff.1 h).1
  -- The place itself is new or was found; a place above it has been passed on the way.
  by_cases hl : location = tree.location path
  · subst hl
    rw [List.map_cons, if_pos List.mem_cons_self]
    rcases h with h | ⟨rfl, h⟩
    · rw [find?_makeDirectory h, if_pos rfl, (makeDirectory_eq_ok h).2.1]
      rfl
    · rw [(isDirectory_iff.1 h).2]
      rfl
  · have hlater : later.find? location = tree.find? location := by
      rcases h with h | ⟨rfl, -⟩
      · rw [find?_makeDirectory h, if_neg hl]
      · rfl
    rw [hlater]
    by_cases hmem : location ∈ above.map tree.location
    · obtain ⟨a, ha, rfl⟩ := List.mem_map.1 hmem
      rw [hpass a ha tree hreaches]
      rfl
    · have hnot : location ∉ (path :: above).map tree.location := by
        rw [List.map_cons, List.mem_cons, not_or]
        exact ⟨hl, hmem⟩
      rw [if_neg hnot, Option.or_none]

/-- How a directory is made along paths: perhaps those above it first, and then it is made or found. -/
theorem makeAlong_cons_eq_ok {path : Path} {above : List Path} {tree later : Tree}
    (h : tree.makeAlong (path :: above) = (later, .ok ())) :
    ∃ between : Tree, (between = tree ∨ tree.makeAlong above = (between, .ok ())) ∧
      (between.makeDirectory path = .ok later ∨
        later = between ∧ between.isDirectory path = true) := by
  rw [makeAlong] at h
  -- The directory is made at once, or after those above it, or it was there.
  split at h
  · next made hmade =>
    obtain ⟨rfl, -⟩ := Prod.mk.inj h
    exact ⟨tree, .inl rfl, .inl hmade⟩
  · split at h
    · cases (Prod.mk.inj h).2
    · next between hbetween =>
      refine ⟨between, .inr hbetween, ?_⟩
      split at h
      · next made hmade =>
        obtain ⟨rfl, -⟩ := Prod.mk.inj h
        exact .inl hmade
      · obtain ⟨rfl, hdir⟩ := Prod.mk.inj h
        split at hdir
        · next hthere => exact .inr ⟨rfl, hthere⟩
        · cases hdir
  · obtain ⟨rfl, hdir⟩ := Prod.mk.inj h
    split at hdir
    · next hthere => exact ⟨tree, .inl rfl, .inr ⟨rfl, hthere⟩⟩
    · cases hdir

/-- Making directories loses none. -/
theorem keeps_of_makeAlong {paths : List Path} {tree later : Tree}
    (h : tree.makeAlong paths = (later, .ok ())) : tree.Keeps later := by
  induction paths generalizing tree later with
  | nil =>
    obtain ⟨rfl, -⟩ := Prod.mk.inj h
    exact .refl tree
  | cons path above ih =>
    obtain ⟨between, hbetween, hlast⟩ := makeAlong_cons_eq_ok h
    have hfirst : tree.Keeps between := by
      rcases hbetween with rfl | hbetween
      · exact .refl _
      · exact ih hbetween
    rcases hlast with hmade | ⟨rfl, -⟩
    · exact hfirst.trans (makeDirectory_eq_ok hmade).2.2.1
    · exact hfirst

/-- What is there after directories were made along paths, each of which passes those after it. -/
theorem find?_makeAlong {paths : List Path} (hpass : paths.Pairwise Passes) {tree later : Tree}
    (h : tree.makeAlong paths = (later, .ok ())) (location : Location) :
    later.find? location = (tree.find? location).or
      (if location ∈ paths.map tree.location then some .directory else none) := by
  induction paths generalizing tree later with
  | nil =>
    obtain ⟨rfl, -⟩ := Prod.mk.inj h
    simp
  | cons path above ih =>
    obtain ⟨hpath, habove⟩ := List.pairwise_cons.1 hpass
    obtain ⟨between, hbetween, hlast⟩ := makeAlong_cons_eq_ok h
    rw [find?_directory hpath hlast location]
    -- What the directories above add is also among what this one adds.
    rcases hbetween with rfl | hbetween
    · rfl
    · have hsame : between.location = tree.location :=
        funext (keeps_of_makeAlong hbetween).location
      rw [ih habove hbetween, Option.or_assoc, hsame]
      by_cases hmem : location ∈ above.map tree.location
      · simp [hmem]
      · simp [hmem]

theorem keeps_of_makeDirectories {tree later : Tree} {path : Path}
    (h : tree.makeDirectories path = (later, .ok ())) : tree.Keeps later := by
  unfold makeDirectories at h
  split at h
  · obtain ⟨rfl, -⟩ := Prod.mk.inj h
    exact .refl tree
  · exact keeps_of_makeAlong h

/-- **Making directories adds a directory at the place of a path and at those above it**, where
nothing was, and changes nothing else. -/
theorem find?_makeDirectories {tree later : Tree} {path : Path}
    (h : tree.makeDirectories path = (later, .ok ())) (location : Location) :
    later.find? location = (tree.find? location).or
      (if location ∈ path.ancestors.map tree.location then some .directory else none) := by
  unfold makeDirectories at h
  split at h
  · next hempty =>
    obtain rfl : path = "" := by simpa using hempty
    obtain ⟨rfl, -⟩ := Prod.mk.inj h
    -- The empty path stands for the working directory, which is always there.
    have hplaces : (Path.ancestors "").map tree.location = [tree.home] := rfl
    rw [hplaces]
    by_cases hl : location = tree.home
    · rw [hl, find?, tree.homed]
      rfl
    · simp [hl]
  · exact find?_makeAlong path.pairwise_ancestors h location

/-- What can be read is still the same after directories were made. -/
theorem read_makeDirectories {tree later : Tree} {path : Path}
    (h : tree.makeDirectories path = (later, .ok ())) {source : Path} {bytes : ByteArray}
    (hread : tree.read source = .ok bytes) : later.read source = .ok bytes := by
  obtain ⟨hreaches, hfind, hslash⟩ := read_eq_ok_iff.1 hread
  have hkeeps := keeps_of_makeDirectories h
  refine read_eq_ok_iff.2 ⟨hkeeps.reaches hreaches, ?_, hslash⟩
  rw [hkeeps.location, find?_makeDirectories h, hfind]
  rfl

theorem isDirectory_makeDirectory {tree later : Tree} {path : Path}
    (h : tree.makeDirectory path = .ok later) : later.isDirectory path = true := by
  obtain ⟨hreaches, -, hkeeps, hfind⟩ := makeDirectory_eq_ok h
  refine isDirectory_iff.2 ⟨hkeeps.reaches hreaches, ?_⟩
  rw [hkeeps.location, hfind, if_pos rfl]

/-- Once made, the directory is there.  The empty path is none. -/
theorem isDirectory_makeDirectories {tree later : Tree} {path : Path} (hne : path ≠ "")
    (h : tree.makeDirectories path = (later, .ok ())) : later.isDirectory path = true := by
  rw [makeDirectories, if_neg (by simpa using hne)] at h
  obtain ⟨between, -, hmade | ⟨rfl, hthere⟩⟩ := makeAlong_cons_eq_ok h
  · exact isDirectory_makeDirectory hmade
  · exact hthere

/-- A directory that is there already is not made, and nothing above it is missing. -/
theorem makeDirectory_of_isDirectory {tree : Tree} {path : Path} (h : tree.isDirectory path = true) :
    tree.makeDirectory path = .error .alreadyExists := by
  obtain ⟨hreaches, hfind⟩ := isDirectory_iff.1 h
  rcases target_of_reaches hreaches .alreadyExists with htarget | ⟨slot, htarget, hlocation⟩
  · rw [makeDirectory, htarget]
  · rw [makeDirectory, htarget]
    simp [hlocation, hfind]

/-- Making a directory that is there already changes nothing. -/
theorem makeDirectories_of_isDirectory {tree : Tree} {path : Path} (h : tree.isDirectory path = true) :
    tree.makeDirectories path = (tree, .ok ()) := by
  rw [makeDirectories]
  split
  · rfl
  · rw [Path.ancestors, makeAlong, makeDirectory_of_isDirectory h]
    simp [h]

end Tree

end ProcBook
