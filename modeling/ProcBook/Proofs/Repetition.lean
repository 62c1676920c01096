/-
ProcBook/Proofs/Repetition.lean

Lists of which every element is kept where it occurs first.  `eraseDups` leaves no repetition, it keeps the
order of first occurrences (`pairwise_eraseDups`), and it may as well be done before a choice of elements
as after it (`eraseDups_filter`).
-/
import Mathlib.Data.List.Basic

namespace ProcBook

variable {α : Type} [BEq α] [LawfulBEq α]

/-- `List.eraseDups` leaves no element twice. -/
theorem nodup_eraseDups (as : List α) : as.eraseDups.Nodup := by
  cases as with
  | nil => exact List.nodup_nil
  | cons a as =>
    rw [List.eraseDups_cons, List.nodup_cons, List.mem_eraseDups]
    exact ⟨by simp, nodup_eraseDups _⟩
termination_by as.length
decreasing_by exact Nat.lt_succ_of_le (List.length_filter_le _ _)

/-- Its value grows from the back as well, by an element that did not occur before. -/
theorem eraseDups_append_singleton (as : List α) (a : α) :
    (as ++ [a]).eraseDups = if a ∈ as then as.eraseDups else as.eraseDups ++ [a] := by
  rw [List.eraseDups_append, List.removeAll]
  by_cases ha : a ∈ as
  · simp [ha]
  · simp [ha, List.eraseDups_cons]

/-- What is chosen by a property is chosen with all its repetitions. -/
theorem eraseDups_filter (p : α → Bool) (as : List α) :
    (as.filter p).eraseDups = as.eraseDups.filter p := by
  cases as with
  | nil => rfl
  | cons a as =>
    have hrest := eraseDups_filter p (as.filter (!· == a))
    rw [List.filter_filter] at hrest
    by_cases ha : p a = true
    · rw [List.filter_cons_of_pos ha, List.eraseDups_cons, List.eraseDups_cons,
        List.filter_cons_of_pos ha, ← hrest, List.filter_filter]
      simp only [Bool.and_comm]
    · -- No element that is chosen equals the one that is not.
      have hsame : as.filter (fun b => p b && !b == a) = as.filter p := by
        apply List.filter_congr
        intro b _
        by_cases hb : b = a
        · simp [hb, ha]
        · simp [hb]
      rw [List.filter_cons_of_neg ha, List.eraseDups_cons, List.filter_cons_of_neg ha, ← hrest, hsame]
termination_by as.length
decreasing_by exact Nat.lt_succ_of_le (List.length_filter_le _ _)

/-- The element that is kept in front of another one occurs in front of all its occurrences. -/
theorem pairwise_eraseDups (as : List α) : as.eraseDups.Pairwise fun a b =>
    ∃ front back, as = front ++ a :: back ∧ b ∉ front ∧ a ≠ b := by
  cases as with
  | nil => exact .nil
  | cons a as =>
    rw [List.eraseDups_cons, List.pairwise_cons]
    constructor
    · intro b hb
      rw [List.mem_eraseDups, List.mem_filter] at hb
      have hne : b ≠ a := by simpa using hb.2
      exact ⟨[], as, rfl, List.not_mem_nil, hne.symm⟩
    · have hrest := pairwise_eraseDups (as.filter (!· == a))
      refine (List.Pairwise.and_mem.1 hrest).imp ?_
      rintro b c ⟨hb, hc, front, back, hfilter, hfront, hbc⟩
      have hca : c ≠ a := by
        rw [List.mem_eraseDups, List.mem_filter] at hc
        simpa using hc.2
      -- What was filtered out in front is the first element only.
      obtain ⟨front', rest, rfl, rfl, hrest⟩ := List.filter_eq_append_iff.1 hfilter
      obtain ⟨skipped, rest', rfl, hskipped, -, -⟩ := List.filter_eq_cons_iff.1 hrest
      refine ⟨a :: (front' ++ skipped), rest', by simp, ?_, hbc⟩
      rw [List.mem_cons, List.mem_append, not_or, not_or]
      refine ⟨hca, fun hmem => hfront ?_, fun hmem => hskipped c hmem ?_⟩
      · exact List.mem_filter.2 ⟨hmem, by simpa using hca⟩
      · simpa using hca
termination_by as.length
decreasing_by exact Nat.lt_succ_of_le (List.length_filter_le _ _)

end ProcBook
