/-
ProcBook/Proofs/PathOrder.lean

The order of paths.

Components are ordered in a line, and paths by their components from the left.  So two paths come in no
order only if they have the same components, however they are spelled.  Sorting and dropping repetitions
therefore gives each path once, in ascending order (`pairwise_sortedOnce`), and what comes out does not
depend on the order of what goes in, but for the spelling (`components_eq_of_ascending`).
-/
import Mathlib.Data.List.Sort
import ProcBook.Disk.Path

namespace ProcBook

/-! ### Components -/

namespace Component

/-- The place of a kind of component in the order of kinds. -/
def rank : Component → Nat
  | root => 0
  | current => 1
  | parent => 2
  | name _ => 3

/-- Components are ordered by their kind, and those of one kind by their spelling. -/
theorem compare_eq : Component.compare = compareLex (compareOn rank) (compareOn spell) := by
  funext a b
  cases a <;> cases b <;> rfl

instance : Std.TransCmp Component.compare := by
  rw [compare_eq]
  infer_instance

instance : Std.LawfulEqCmp Component.compare where
  eq_of_compare {a b} h := by
    rw [compare_eq, compareLex_eq_eq] at h
    have hrank : a.rank = b.rank := Std.LawfulEqOrd.eq_of_compare h.1
    have hspell : a.spell = b.spell := Std.LawfulEqOrd.eq_of_compare h.2
    cases a <;> cases b <;> first | rfl | exact congrArg name hspell | cases hrank

end Component

namespace Path

/-- The comparison of lists of components is the lexicographic one of the library. -/
theorem compareComponents_eq : compareComponents = List.compareLex Component.compare := by
  funext as bs
  induction as generalizing bs with
  | nil => cases bs <;> rfl
  | cons a as ih =>
    cases bs with
    | nil => rfl
    | cons b bs => rw [compareComponents, List.compareLex_cons_cons, ih]

instance : Std.TransCmp compareComponents := by
  rw [compareComponents_eq]
  infer_instance

instance : Std.LawfulEqCmp compareComponents := by
  rw [compareComponents_eq]
  infer_instance

/-! ### Paths in order -/

/-- A path comes before another one. -/
def Before (a b : Path) : Prop := compareComponents a.components b.components = .lt

instance (a b : Path) : Decidable (Before a b) :=
  inferInstanceAs (Decidable (compareComponents a.components b.components = .lt))

theorem same_iff {a b : Path} : a.same b = true ↔ a.components = b.components := beq_iff_eq

/-- Of two paths that are not the same the one that does not come after comes before. -/
theorem before_of_le {a b : Path} (h : le a b = true) (hne : a.components ≠ b.components) :
    Before a b := by
  rcases Ordering.isLE_iff_eq_lt_or_eq_eq.1 h with hlt | heq
  · exact hlt
  · exact absurd (Std.LawfulEqCmp.eq_of_compare heq) hne

/-- Any two paths are ordered, so sorting them is sorting. -/
theorem le_total (a b : Path) : (le a b || le b a) = true := by
  have hswap : compareComponents b.components a.components =
      (compareComponents a.components b.components).swap := Std.OrientedCmp.eq_swap
  rw [le, le, hswap]
  cases compareComponents a.components b.components <;> rfl

theorem Before.trans_le {a b c : Path} (h : Before a b) (h' : le b c = true) : Before a c :=
  Std.TransCmp.lt_of_lt_of_isLE h h'

/-! ### Dropping repetitions -/

/-- Paths are only left out. -/
theorem dropRepeated_sublist (paths : List Path) : (dropRepeated paths).Sublist paths := by
  fun_induction dropRepeated paths with
  | case1 => exact .refl _
  | case2 => exact .refl _
  | case3 a b paths _ ih => exact ih.trans ((List.sublist_cons_self b paths).cons_cons a)
  | case4 a b paths _ ih => exact ih.cons_cons a

/-- Of a path that is dropped another spelling stays. -/
theorem exists_mem_dropRepeated {paths : List Path} {path : Path} (h : path ∈ paths) :
    ∃ kept ∈ dropRepeated paths, kept.components = path.components := by
  fun_induction dropRepeated paths generalizing path with
  | case1 => cases h
  | case2 a => exact ⟨path, h, rfl⟩
  | case3 a b paths hsame ih =>
    rcases List.mem_cons.1 h with rfl | h
    · exact ih List.mem_cons_self
    · rcases List.mem_cons.1 h with rfl | h
      · -- The path is dropped, and the one in front of it has the same components.
        obtain ⟨kept, hkept, hcomponents⟩ := ih List.mem_cons_self
        exact ⟨kept, hkept, hcomponents.trans (same_iff.1 hsame)⟩
      · exact ih (List.mem_cons_of_mem _ h)
  | case4 a b paths hsame ih =>
    rcases List.mem_cons.1 h with rfl | h
    · exact ⟨path, List.mem_cons_self, rfl⟩
    · obtain ⟨kept, hkept, hcomponents⟩ := ih h
      exact ⟨kept, List.mem_cons_of_mem _ hkept, hcomponents⟩

/-- In an ordered list only neighbours can be the same path, so without these the order is strict. -/
theorem pairwise_dropRepeated {paths : List Path}
    (h : paths.Pairwise fun a b => le a b = true) : (dropRepeated paths).Pairwise Before := by
  fun_induction dropRepeated paths with
  | case1 => exact .nil
  | case2 a => exact List.pairwise_singleton Before a
  | case3 a b paths _ ih => exact ih (h.sublist ((List.sublist_cons_self b paths).cons_cons a))
  | case4 a b paths hsame ih =>
    obtain ⟨hfirst, hrest⟩ := List.pairwise_cons.1 h
    obtain ⟨hnext, -⟩ := List.pairwise_cons.1 hrest
    have hbefore : Before a b :=
      before_of_le (hfirst b List.mem_cons_self) fun heq => hsame (same_iff.2 heq)
    refine List.pairwise_cons.2 ⟨?_, ih hrest⟩
    intro path hpath
    rcases List.mem_cons.1 ((dropRepeated_sublist _).subset hpath) with rfl | hpath
    · exact hbefore
    · exact hbefore.trans_le (hnext path hpath)

/-! ### Paths in order, each once -/

theorem mem_of_mem_sortedOnce {paths : List Path} {path : Path} (h : path ∈ sortedOnce paths) :
    path ∈ paths :=
  List.mem_mergeSort.1 ((dropRepeated_sublist _).subset h)

/-- Of paths that spell the same place one is kept. -/
theorem exists_mem_sortedOnce {paths : List Path} {path : Path} (h : path ∈ paths) :
    ∃ kept ∈ sortedOnce paths, kept.components = path.components :=
  exists_mem_dropRepeated (List.mem_mergeSort.2 h)

/-- Sorted paths are in strict order. -/
theorem pairwise_sortedOnce (paths : List Path) : (sortedOnce paths).Pairwise Before := by
  apply pairwise_dropRepeated
  apply List.pairwise_mergeSort
  · intro a b c hab hbc
    exact Std.TransCmp.isLE_trans hab hbc
  · exact le_total

/-- Two ascending lists of the same paths are the same list, but for the spelling. -/
theorem components_eq_of_ascending {paths paths' : List Path} (h : paths.Pairwise Before)
    (h' : paths'.Pairwise Before) (hsame : ∀ components,
      components ∈ paths.map Path.components ↔ components ∈ paths'.map Path.components) :
    paths.map Path.components = paths'.map Path.components := by
  let before (as bs : List Component) : Prop := compareComponents as bs = .lt
  have hirrefl : Std.Irrefl before := ⟨fun as hlt => by
    have hself : compareComponents as as = .eq := Std.ReflCmp.compare_self
    exact nomatch hself.symm.trans hlt⟩
  have hantisymm : Std.Antisymm before := ⟨fun as bs hlt hgt => by
    have hswap := Std.OrientedCmp.gt_of_lt hlt
    exact nomatch hswap.symm.trans hgt⟩
  exact (List.pairwise_map.2 h : (paths.map Path.components).Pairwise before).eq_of_mem_iff
    (List.pairwise_map.2 h') hsame

end Path

end ProcBook
