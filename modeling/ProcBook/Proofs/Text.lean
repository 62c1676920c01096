/-
ProcBook/Proofs/Text.lean

Laws of cutting and trimming.  Each operation on texts is given where its cut is known: `after?` and
`splitOn` at a divider, `trimStart` and `trimEnd` at a character that is no blank.  `splitOn_intercalate`
says that splitting undoes joining.
-/
import Mathlib.Data.List.TakeWhile
import ProcBook.Text.Blank
import ProcBook.Text.Cut

namespace ProcBook.Text

/-! ### Cutting where a class of characters ends -/

theorem takeWhile_append_of_head {p : Char → Bool} {xs ys : List Char} (hx : ∀ c ∈ xs, p c = true)
    (hy : ys.head?.any p = false) : (xs ++ ys).takeWhile p = xs := by
  rw [List.takeWhile_append_of_pos hx]
  cases ys with
  | nil => simp
  | cons y ys =>
    have : p y = false := by simpa using hy
    simp [this]

theorem dropWhile_append_of_head {p : Char → Bool} {xs ys : List Char} (hx : ∀ c ∈ xs, p c = true)
    (hy : ys.head?.any p = false) : (xs ++ ys).dropWhile p = ys := by
  rw [List.dropWhile_append_of_pos hx]
  cases ys with
  | nil => simp
  | cons y ys =>
    have : p y = false := by simpa using hy
    simp [this]

theorem bne_of_not_mem {c : Char} {xs : List Char} (h : c ∉ xs) : ∀ d ∈ xs, (d != c) = true := by
  intro d hd
  rw [bne_iff_ne]
  rintro rfl
  exact h hd

theorem dropWhile_ne_of_not_mem {c : Char} {xs : List Char} (h : c ∉ xs) :
    xs.dropWhile (· != c) = [] :=
  List.dropWhile_eq_nil_iff.2 (bne_of_not_mem h)

theorem takeWhile_ne_append {c : Char} {xs : List Char} (h : c ∉ xs) (ys : List Char) :
    (xs ++ c :: ys).takeWhile (· != c) = xs :=
  takeWhile_append_of_head (bne_of_not_mem h) (by simp)

theorem dropWhile_ne_append {c : Char} {xs : List Char} (h : c ∉ xs) (ys : List Char) :
    (xs ++ c :: ys).dropWhile (· != c) = c :: ys :=
  dropWhile_append_of_head (bne_of_not_mem h) (by simp)

/-- What stands before the first occurrence of a character, and what stands behind it. -/
theorem append_cons_inj {c : Char} {xs xs' ys ys' : List Char} (hx : c ∉ xs) (hx' : c ∉ xs')
    (h : xs ++ c :: ys = xs' ++ c :: ys') : xs = xs' ∧ ys = ys' := by
  have htake := congrArg (List.takeWhile (· != c)) h
  have hdrop := congrArg (List.dropWhile (· != c)) h
  rw [takeWhile_ne_append hx, takeWhile_ne_append hx'] at htake
  rw [dropWhile_ne_append hx, dropWhile_ne_append hx'] at hdrop
  exact ⟨htake, List.tail_eq_of_cons_eq hdrop⟩

theorem any_head?_dropWhile (p : Char → Bool) (text : List Char) :
    (text.dropWhile p).head?.any p = false := by
  have hhead := List.head?_dropWhile_not p text
  cases hd : (text.dropWhile p).head? with
  | none => rfl
  | some c =>
    rw [hd] at hhead
    simpa using hhead

/-! ### Cutting at a divider -/

theorem after?_append {c : Char} {xs : List Char} (h : c ∉ xs) (ys : List Char) :
    after? c (xs ++ c :: ys) = some ys := by
  rw [after?, dropWhile_ne_append h]

theorem splitOn_ne_nil (c : Char) (text : List Char) : splitOn c text ≠ [] := by
  induction text with
  | nil => simp [splitOn]
  | cons d text ih =>
    rw [splitOn]
    split
    · simp
    · cases hs : splitOn c text with
      | nil => exact absurd hs ih
      | cons first others => simp

/-- A text is split at a separator first into what is before it and what is behind it. -/
theorem splitOn_append (c : Char) (xs ys : List Char) :
    splitOn c (xs ++ c :: ys) = splitOn c xs ++ splitOn c ys := by
  induction xs with
  | nil => simp [splitOn]
  | cons d xs ih =>
    rw [List.cons_append, splitOn, splitOn, ih]
    split
    · rfl
    · cases hs : splitOn c xs with
      | nil => exact absurd hs (splitOn_ne_nil c xs)
      | cons first others => rfl

theorem splitOn_of_not_mem {c : Char} {xs : List Char} (h : c ∉ xs) : splitOn c xs = [xs] := by
  induction xs with
  | nil => rfl
  | cons d xs ih =>
    have hd : (d == c) = false := by
      simp only [beq_eq_false_iff_ne]
      rintro rfl
      exact h (by simp)
    have hxs : c ∉ xs := fun hc => h (by simp [hc])
    simp [splitOn, hd, ih hxs]

theorem not_mem_of_mem_splitOn {c : Char} {text piece : List Char} (h : piece ∈ splitOn c text) :
    c ∉ piece := by
  induction text generalizing piece with
  | nil =>
    obtain rfl : piece = [] := by simpa [splitOn] using h
    simp
  | cons d text ih =>
    rw [splitOn] at h
    split at h
    · rcases List.mem_cons.1 h with rfl | h
      · simp
      · exact ih h
    · next hd =>
      -- A split is never empty, so there is a first piece.
      cases hsplit : splitOn c text with
      | nil => simp [hsplit] at h
      | cons first others =>
        -- The character goes in front of the first piece, the others stay as they are.
        rw [hsplit, List.modifyHead_cons] at h
        rcases List.mem_cons.1 h with rfl | h
        · have hfirst : c ∉ first := ih (by simp [hsplit])
          have hne : ¬ c = d := fun he => hd (by simp [he])
          simp [hne, hfirst]
        · exact ih (by simp [hsplit, h])

/-- Splitting undoes joining, as long as no piece holds the divider. -/
theorem splitOn_intercalate {c : Char} {pieces : List (List Char)} (hne : pieces ≠ [])
    (h : ∀ piece ∈ pieces, c ∉ piece) : splitOn c ([c].intercalate pieces) = pieces := by
  induction pieces with
  | nil => exact absurd rfl hne
  | cons piece pieces ih =>
    have hp : c ∉ piece := h piece (by simp)
    cases pieces with
    | nil => simpa [List.intercalate] using splitOn_of_not_mem hp
    | cons next pieces =>
      have := ih (by simp) (fun p hm => h p (by simp [hm]))
      rw [List.intercalate_cons_cons, List.append_assoc, List.singleton_append, splitOn_append,
        splitOn_of_not_mem hp, this, List.singleton_append]

/-! ### Trimming -/

/-- A text of blanks. -/
def Blanks (text : List Char) : Prop := ∀ c ∈ text, isBlank c = true

instance (text : List Char) : Decidable (Blanks text) := decidable_of_iff _ List.all_eq_true

theorem ne_of_isBlank {c d : Char} (hc : isBlank c = true) (hd : isBlank d = false) : c ≠ d := by
  rintro rfl
  rw [hd] at hc
  cases hc

/-- A text that starts and ends with something other than a blank. -/
def IsTrimmed (text : List Char) : Prop := trim text = text

instance (text : List Char) : Decidable (IsTrimmed text) :=
  inferInstanceAs (Decidable (trim text = text))

theorem trimStart_of_head {text : List Char} (h : text.head?.any isBlank = false) :
    trimStart text = text := by
  cases text with
  | nil => rfl
  | cons c text =>
    have : isBlank c = false := by simpa using h
    simp [trimStart, this]

theorem trimStart_append_blanks {blanks text : List Char} (hb : Blanks blanks) :
    trimStart (blanks ++ text) = trimStart text :=
  List.dropWhile_append_of_pos hb

/-- Trimming the start of a text stops at its first character that is no blank. -/
theorem trimStart_append {xs : List Char} (h : ∃ c ∈ xs, isBlank c = false) (ys : List Char) :
    trimStart (xs ++ ys) = trimStart xs ++ ys := by
  obtain ⟨c, hc, hb⟩ := h
  have hne : xs.dropWhile isBlank ≠ [] := by
    intro he
    rw [List.dropWhile_eq_nil_iff] at he
    simp [he c hc] at hb
  unfold trimStart
  rw [List.dropWhile_append]
  simp [hne]

theorem trimStart_append_of_head {ys : List Char} {c : Char} (hhead : ys.head? = some c)
    (hc : isBlank c = false) (xs : List Char) : trimStart (xs ++ ys) = trimStart xs ++ ys := by
  have hys : ys.dropWhile isBlank = ys := trimStart_of_head (by simpa [hhead] using hc)
  unfold trimStart
  rw [List.dropWhile_append, hys]
  split
  · next hnil => rw [List.isEmpty_iff.1 hnil, List.nil_append]
  · rfl

theorem trimEnd_append_blanks {text blanks : List Char} (hb : Blanks blanks) :
    trimEnd (text ++ blanks) = trimEnd text := by
  have hreverse : Blanks blanks.reverse := fun c hc => hb c (List.mem_reverse.1 hc)
  unfold trimEnd
  rw [List.reverse_append, List.dropWhile_append_of_pos hreverse]

theorem trimEnd_of_getLast {text : List Char} (h : text.getLast?.any isBlank = false) :
    trimEnd text = text := by
  have : (text.reverse).head?.any isBlank = false := by simpa using h
  unfold trimEnd
  rw [show text.reverse.dropWhile isBlank = text.reverse from trimStart_of_head this,
    List.reverse_reverse]

theorem blanks_of_not_exists {text : List Char} (h : ¬ ∃ c ∈ text, isBlank c = false) :
    Blanks text := by
  intro c hc
  by_contra hne
  exact h ⟨c, hc, by simpa using hne⟩

theorem trimEnd_eq_nil {text : List Char} (h : Blanks text) : trimEnd text = [] :=
  @trimEnd_append_blanks [] text h

theorem trim_eq_nil {text : List Char} (h : Blanks text) : trim text = [] := by
  have : trimStart text = [] := List.dropWhile_eq_nil_iff.2 h
  rw [trim, this]
  rfl

/-- Blanks are removed only up to a character that is none. -/
theorem trimEnd_append {xs : List Char} {c : Char} (hlast : xs.getLast? = some c)
    (hc : isBlank c = false) (ys : List Char) : trimEnd (xs ++ ys) = xs ++ trimEnd ys := by
  unfold trimEnd
  rw [List.reverse_append, List.dropWhile_append]
  by_cases hy : (ys.reverse.dropWhile isBlank) = []
  · -- Nothing of `ys` is left, and trimming stops at the last character of `xs`.
    rw [hy]
    have : xs.reverse.dropWhile isBlank = xs.reverse := by
      apply trimStart_of_head
      simpa [hlast] using hc
    simp [this]
  · simp [hy]

/-- Trimming the end stops at the last one. -/
theorem trimEnd_append_of_exists {ys : List Char} (h : ∃ c ∈ ys, isBlank c = false)
    (xs : List Char) : trimEnd (xs ++ ys) = xs ++ trimEnd ys := by
  have hreverse : ∃ c ∈ ys.reverse, isBlank c = false := by simpa using h
  have hstart : (ys.reverse ++ xs.reverse).dropWhile isBlank = _ :=
    trimStart_append hreverse xs.reverse
  unfold trimEnd
  rw [List.reverse_append, hstart, List.reverse_append, List.reverse_reverse]
  rfl

theorem exists_trimEnd_append (text : List Char) :
    ∃ blanks, Blanks blanks ∧ text = trimEnd text ++ blanks := by
  refine ⟨(text.reverse.takeWhile isBlank).reverse, ?_, ?_⟩
  · intro c hc
    exact List.mem_takeWhile_imp (List.mem_reverse.1 hc)
  · unfold trimEnd
    rw [← List.reverse_append, List.takeWhile_append_dropWhile, List.reverse_reverse]

theorem any_getLast?_trimEnd (text : List Char) : (trimEnd text).getLast?.any isBlank = false := by
  rw [trimEnd, List.getLast?_reverse]
  exact any_head?_dropWhile isBlank text.reverse

theorem head?_trimEnd {text : List Char} {c : Char} (hhead : text.head? = some c)
    (hc : isBlank c = false) : (trimEnd text).head? = some c := by
  obtain ⟨rest, rfl⟩ := List.head?_eq_some_iff.1 hhead
  have htrim : trimEnd ([c] ++ rest) = [c] ++ trimEnd rest := trimEnd_append rfl hc rest
  rw [← List.singleton_append, htrim]
  rfl

theorem head?_trim {text : List Char} {c : Char} (hhead : text.head? = some c)
    (hc : isBlank c = false) : (trim text).head? = some c := by
  rw [trim, trimStart_of_head (by simpa [hhead] using hc)]
  exact head?_trimEnd hhead hc

theorem mem_trimEnd {text : List Char} {c : Char} (hc : isBlank c = false) :
    c ∈ trimEnd text ↔ c ∈ text := by
  obtain ⟨blanks, hb, he⟩ := exists_trimEnd_append text
  constructor
  · intro h
    rw [he]
    exact List.mem_append_left _ h
  · intro h
    rw [he] at h
    rcases List.mem_append.1 h with h | h
    · exact h
    · simp [hb c h] at hc

theorem mem_trimStart {text : List Char} {c : Char} (hc : isBlank c = false) :
    c ∈ trimStart text ↔ c ∈ text := by
  have htext : text.takeWhile isBlank ++ trimStart text = text := List.takeWhile_append_dropWhile
  constructor
  · intro h
    rw [← htext]
    exact List.mem_append_right _ h
  · intro h
    rw [← htext] at h
    rcases List.mem_append.1 h with h | h
    · simp [List.mem_takeWhile_imp h] at hc
    · exact h

theorem trim_append_blanks {text blanks : List Char} (hb : Blanks blanks) :
    trim (text ++ blanks) = trim text := by
  by_cases h : ∃ c ∈ text, isBlank c = false
  · rw [trim, trimStart_append h, trimEnd_append_blanks hb, trim]
  · have htext := blanks_of_not_exists h
    have hall : Blanks (text ++ blanks) := by
      intro c hc
      rcases List.mem_append.1 hc with hc | hc
      · exact htext c hc
      · exact hb c hc
    rw [trim_eq_nil htext, trim_eq_nil hall]

theorem trim_trimEnd (text : List Char) : trim (trimEnd text) = trim text := by
  obtain ⟨blanks, hb, htext⟩ := exists_trimEnd_append text
  calc trim (trimEnd text) = trim (trimEnd text ++ blanks) := (trim_append_blanks hb).symm
    _ = trim text := by rw [← htext]

/-- Trimming at the end leaves the blanks in front of a trimmed text. -/
theorem exists_append_trim (text : List Char) :
    ∃ blanks, Blanks blanks ∧ trimEnd text = blanks ++ trim text := by
  by_cases h : ∃ c ∈ text, isBlank c = false
  · obtain ⟨c, hc, hb⟩ := h
    refine ⟨text.takeWhile isBlank, fun d hd => List.mem_takeWhile_imp hd, ?_⟩
    have htext : text.takeWhile isBlank ++ trimStart text = text := List.takeWhile_append_dropWhile
    calc trimEnd text = trimEnd (text.takeWhile isBlank ++ trimStart text) := by rw [htext]
      _ = text.takeWhile isBlank ++ trim text :=
          trimEnd_append_of_exists ⟨c, (mem_trimStart hb).2 hc, hb⟩ _
  · have hblanks := blanks_of_not_exists h
    exact ⟨[], by simp [Blanks], by rw [trimEnd_eq_nil hblanks, trim_eq_nil hblanks, List.nil_append]⟩

/-- Trimming finds a text between blanks. -/
theorem exists_blanks_trim (text : List Char) :
    ∃ left right, Blanks left ∧ Blanks right ∧ text = left ++ trim text ++ right := by
  obtain ⟨right, hright, htext⟩ := exists_trimEnd_append text
  obtain ⟨left, hleft, htrim⟩ := exists_append_trim text
  exact ⟨left, right, hleft, hright, by rw [← htrim, ← htext]⟩

theorem trim_ne_nil {text : List Char} (h : ∃ c ∈ text, isBlank c = false) : trim text ≠ [] := by
  obtain ⟨c, hc, hb⟩ := h
  exact List.ne_nil_of_mem ((mem_trimEnd hb).2 ((mem_trimStart hb).2 hc))

theorem isTrimmed_of_ends {text : List Char} (hs : text.head?.any isBlank = false)
    (he : text.getLast?.any isBlank = false) : IsTrimmed text := by
  unfold IsTrimmed trim
  rw [trimStart_of_head hs, trimEnd_of_getLast he]

/-- A trimmed text is trimmed. -/
theorem isTrimmed_trim (text : List Char) : IsTrimmed (trim text) := by
  apply isTrimmed_of_ends
  · have hstart : (trimStart text).head?.any isBlank = false := any_head?_dropWhile isBlank text
    cases hs : (trimStart text).head? with
    | none =>
      rw [trim, List.head?_eq_none_iff.1 hs]
      rfl
    | some c =>
      have hc : isBlank c = false := by simpa [hs] using hstart
      rw [trim, head?_trimEnd hs hc]
      exact hc
  · exact any_getLast?_trimEnd (trimStart text)

theorem IsTrimmed.head {text : List Char} (h : IsTrimmed text) : text.head?.any isBlank = false := by
  cases text with
  | nil => rfl
  | cons c text =>
    by_contra hc
    have hb : isBlank c = true := by simpa using hc
    -- Trimming would take the first character away, and never gives anything back.
    have h₁ : (trimEnd (trimStart (c :: text))).length ≤ text.length := by
      unfold trimEnd trimStart
      rw [List.dropWhile_cons_of_pos hb, List.length_reverse]
      calc ((text.dropWhile isBlank).reverse.dropWhile isBlank).length
          ≤ (text.dropWhile isBlank).reverse.length := length_dropWhile_le _ _
        _ = (text.dropWhile isBlank).length := List.length_reverse
        _ ≤ text.length := length_dropWhile_le _ _
    rw [show trimEnd (trimStart (c :: text)) = c :: text from h, List.length_cons] at h₁
    omega

theorem IsTrimmed.getLast {text : List Char} (h : IsTrimmed text) :
    text.getLast?.any isBlank = false := by
  have hs : trimEnd text = text := by
    have := h
    unfold IsTrimmed trim at this
    rwa [trimStart_of_head h.head] at this
  rw [← hs]
  exact any_getLast?_trimEnd text

/-- Trimming finds a trimmed text between blanks. -/
theorem IsTrimmed.trim_blanks {text : List Char} (h : IsTrimmed text) (hne : text ≠ [])
    (left right : List Char) (hl : Blanks left) (hr : Blanks right) :
    trim (left ++ text ++ right) = text := by
  have hhead : (text ++ right).head?.any isBlank = false := by
    have := h.head
    cases text with
    | nil => exact absurd rfl hne
    | cons c text => exact this
  unfold trim
  rw [List.append_assoc, trimStart_append_blanks hl, trimStart_of_head hhead,
    trimEnd_append_blanks hr, trimEnd_of_getLast h.getLast]

end ProcBook.Text
