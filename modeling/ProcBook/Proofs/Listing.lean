/-
ProcBook/Proofs/Listing.lean

What does not depend on the order of the entries of a tree.

Two trees agree if they have the same at every place and the same working directory (`Tree.Agrees`).
They may still list their entries in different orders.  Whatever is looked up is then the same, errors
included, and the names in a directory are the same but for their order (`Agrees.list`).
-/
import ProcBook.Proofs.Disk

namespace ProcBook

/-- Where no key stands twice, look-up does not depend on the order of the entries. -/
theorem lookup_eq_of_perm {α β : Type} [BEq α] [LawfulBEq α] {entries entries' : List (α × β)}
    (h : entries.Perm entries') (hnodup : (entries.map Prod.fst).Nodup) (key : α) :
    entries.lookup key = entries'.lookup key := by
  induction h with
  | nil => rfl
  | cons entry _ ih =>
    obtain ⟨place, value⟩ := entry
    rw [List.lookup_cons, List.lookup_cons, ih (List.nodup_cons.1 hnodup).2]
  | swap first second entries =>
    obtain ⟨place, value⟩ := first
    obtain ⟨place', value'⟩ := second
    -- The key is not that of both.
    have hne : place' ≠ place := fun heq =>
      (List.nodup_cons.1 hnodup).1 (heq ▸ List.mem_cons_self)
    simp only [List.lookup_cons]
    by_cases hkey : key = place
    · have : (key == place') = false := beq_false_of_ne fun heq => hne (heq.symm.trans hkey)
      rw [this, beq_iff_eq.2 hkey]
    · rw [beq_false_of_ne hkey]
  | trans hfirst _ ih ih' =>
    exact (ih hnodup).trans (ih' ((hfirst.map Prod.fst).nodup_iff.1 hnodup))

namespace Tree

/-- Two trees have the same files and directories, and of these the same are the working directory and
those whose names cannot be read.  The order of their entries may differ. -/
structure Agrees (tree other : Tree) : Prop where
  node_at : ∀ location, tree.find? location = other.find? location
  home : tree.home = other.home
  unlisted : ∀ location, tree.unlisted.lookup location = other.unlisted.lookup location

/-- Trees that list the same entries in another order agree. -/
theorem agrees_of_perm {tree other : Tree} (h : tree.entries.Perm other.entries)
    (hhome : tree.home = other.home) (hunlisted : tree.unlisted = other.unlisted) :
    tree.Agrees other where
  node_at location := by rw [find?, find?, nodeAt?, nodeAt?, lookup_eq_of_perm h tree.nodup]
  home := hhome
  unlisted _ := by rw [hunlisted]

namespace Agrees

variable {tree other : Tree}

theorem symm (h : tree.Agrees other) : other.Agrees tree where
  node_at location := (h.node_at location).symm
  home := h.home.symm
  unlisted location := (h.unlisted location).symm

theorem start (h : tree.Agrees other) (path : Path) : tree.start path = other.start path :=
  start_eq_of_home h.home path

theorem location (h : tree.Agrees other) (path : Path) : tree.location path = other.location path :=
  location_eq_of_home h.home path

theorem enter (h : tree.Agrees other) (location : Location) (step : Step) :
    tree.enter location step = other.enter location step := by
  unfold Tree.enter
  rw [h.node_at]

/-- The same walks are possible in both trees, and fail alike. -/
theorem walk (h : tree.Agrees other) (location : Location) (steps : List Step) :
    tree.walk location steps = other.walk location steps := by
  induction steps generalizing location with
  | nil => rfl
  | cons step steps ih =>
    rw [Tree.walk, Tree.walk, h.enter]
    cases other.enter location step with
    | error error => rfl
    | ok next => exact ih next

/-- A path leads to the same in both trees, or fails with the same error. -/
theorem node (h : tree.Agrees other) (path : Path) : tree.node path = other.node path := by
  simp only [Tree.node, h.start, h.walk, h.node_at]

theorem isFile (h : tree.Agrees other) (path : Path) : tree.isFile path = other.isFile path := by
  rw [Tree.isFile, Tree.isFile, h.node]

theorem isDirectory (h : tree.Agrees other) (path : Path) :
    tree.isDirectory path = other.isDirectory path := by
  rw [Tree.isDirectory, Tree.isDirectory, h.node]

theorem readText (h : tree.Agrees other) (path : Path) :
    tree.readText path = other.readText path := by
  rw [Tree.readText, Tree.readText, Tree.read, Tree.read, h.node]

/-- The same names are listed in both trees, if not in the same order. -/
theorem mem_children_iff (h : tree.Agrees other) {location : Location} {name : String} :
    name ∈ tree.children location ↔ name ∈ other.children location := by
  rw [Tree.mem_children_iff, Tree.mem_children_iff, h.node_at]

/-- The names in a directory can be read in both trees or in neither. -/
theorem list_eq_error_iff (h : tree.Agrees other) {path : Path} {error : FileError} :
    tree.list path = .error error ↔ other.list path = .error error := by
  rw [Tree.list, Tree.list, h.node]
  split
  · exact Iff.rfl
  · exact Iff.rfl
  · next location _ =>
    rw [h.unlisted]
    split
    · exact Iff.rfl
    · simp

/-- A directory has the same names in both trees. -/
theorem list (h : tree.Agrees other) {path : Path} {names : List String}
    (hnames : tree.list path = .ok names) :
    ∃ names', other.list path = .ok names' ∧ ∀ name, name ∈ names ↔ name ∈ names' := by
  cases hnames' : other.list path with
  | error error =>
    rw [h.list_eq_error_iff.2 hnames'] at hnames
    cases hnames
  | ok names' =>
    refine ⟨names', rfl, ?_⟩
    obtain ⟨-, rfl⟩ := list_eq_ok hnames
    obtain ⟨-, rfl⟩ := list_eq_ok hnames'
    intro name
    rw [h.mem_children_iff, h.location]

end Agrees

end Tree

end ProcBook
