/-
ProcBook/Proofs/Phrase.lean

What the search for a phrase finds, said without the search.  `Written phrase written` lists the ways
to write a phrase, and `HoldsAfter previous phrase text` says that the phrase stands in the text as
whole words, where `previous` is the character before the text.

Main results: `find?_eq_none_iff`, the search fails exactly where the phrase does not stand in the
text, and `find?_append_written`, a written phrase is found after a text that does not hold it.  What
could go wrong in the second is a match that starts in the text and ends beyond it; `Separates` is the
condition on the place between the two that rules this out.
-/
import Mathlib.Data.List.Forall2
import ProcBook.Proofs.Text
import ProcBook.Text.Phrase

namespace ProcBook.Text

/-- The ways to write a word: letter by letter, in any case. -/
def WordWritten (word written : List Char) : Prop :=
  List.Forall₂ (fun l c => sameLetter l c = true) word written

/-- The ways to write a phrase: its words in order, with blanks between them. -/
inductive Written : Phrase → List Char → Prop
  | last {word written} : WordWritten word written → Written [word] written
  | more {word next words written gap tail} : WordWritten word written → gap ≠ [] →
      Blanks gap → Written (next :: words) tail →
      Written (word :: next :: words) (written ++ gap ++ tail)

/-- A phrase stands in a text as whole words, where `previous` is the character before the text. -/
def HoldsAfter (previous : Option Char) (phrase : Phrase) (text : List Char) : Prop :=
  ∃ before written after, text = before ++ written ++ after ∧ Written phrase written ∧
    (before.getLast?.or previous).any isWord = false ∧ after.head?.any isWord = false

/-- A phrase stands in a text as whole words. -/
def Holds (phrase : Phrase) (text : List Char) : Prop := HoldsAfter none phrase text

/-- A phrase of words in lower-case letters. -/
def IsPlain (phrase : Phrase) : Prop := ∀ word ∈ phrase, word ≠ [] ∧ ∀ l ∈ word, l.isLower = true

instance (phrase : Phrase) : Decidable (IsPlain phrase) :=
  decidable_of_iff (∀ word ∈ phrase, word ≠ [] ∧ word.all Char.isLower = true)
    (by simp only [IsPlain, List.all_eq_true])

/-! ### Letters -/

/-- A letter is matched by itself in either case, and one character beyond ASCII folds to `s`. -/
theorem sameLetter_cases {l c : Char} (hl : l.isLower = true) (h : sameLetter l c = true) :
    c.isAlpha = true ∨ c = 'ſ' := by
  simp only [sameLetter, Bool.or_eq_true, beq_iff_eq, Bool.and_eq_true] at h
  rcases h with h | ⟨-, h⟩
  · left
    by_cases hc : c.isUpper = true
    · exact Bool.or_eq_true_iff.2 (.inl hc)
    · -- Any other character has no lower case of its own, so it is the letter itself.
      have : c.toLower = c := by
        unfold Char.toLower
        rw [dif_neg]
        intro hu
        exact hc (decide_eq_true hu)
      rw [← h, this] at hl
      exact Bool.or_eq_true_iff.2 (.inr hl)
  · exact .inr h

theorem toNat_lt_of_isAlpha {c : Char} (h : c.isAlpha = true) : 65 ≤ c.toNat ∧ c.toNat < 123 := by
  have hv : c.toNat = c.val.toNat := rfl
  rw [hv]
  rcases Bool.or_eq_true_iff.1 h with h | h
  · obtain ⟨h₁, h₂⟩ := of_decide_eq_true h
    exact ⟨UInt32.le_iff_toNat_le.1 h₁, Nat.lt_of_le_of_lt (UInt32.le_iff_toNat_le.1 h₂) (by decide)⟩
  · obtain ⟨h₁, h₂⟩ := Bool.and_eq_true_iff.1 h
    have hlow := UInt32.le_iff_toNat_le.1 (of_decide_eq_true h₁)
    have hhigh := UInt32.le_iff_toNat_le.1 (of_decide_eq_true h₂)
    exact ⟨Nat.le_trans (by decide) hlow, Nat.lt_of_le_of_lt hhigh (by decide)⟩

theorem isWord_of_sameLetter {l c : Char} (hl : l.isLower = true) (h : sameLetter l c = true) :
    isWord c = true := by
  rcases sameLetter_cases hl h with hc | rfl
  · have := toNat_lt_of_isAlpha hc
    have hlt : c.toNat < 0x80 := by omega
    simp [isWord, hlt, Char.isAlphanum, hc]
  · decide +kernel

theorem isBlank_of_sameLetter {l c : Char} (hl : l.isLower = true) (h : sameLetter l c = true) :
    isBlank c = false := by
  rcases sameLetter_cases hl h with hc | rfl
  · have := toNat_lt_of_isAlpha hc
    simp only [isBlank, Bool.or_eq_false_iff, Bool.and_eq_false_iff, decide_eq_false_iff_not,
      beq_eq_false_iff_ne]
    omega
  · decide

theorem WordWritten.isWord {word written : List Char} (hp : ∀ l ∈ word, l.isLower = true)
    (h : WordWritten word written) : ∀ c ∈ written, isWord c = true := by
  unfold WordWritten at h
  induction h with
  | nil => simp
  | cons hc _ ih =>
    intro c hmem
    rcases List.mem_cons.1 hmem with rfl | hmem
    · exact isWord_of_sameLetter (hp _ (by simp)) hc
    · exact ih (fun l hl => hp l (by simp [hl])) c hmem

/-- A written word starts with a letter. -/
theorem WordWritten.exists_cons {word written : List Char} (hne : word ≠ [])
    (hp : ∀ l ∈ word, l.isLower = true) (h : WordWritten word written) :
    ∃ c rest, written = c :: rest ∧ ProcBook.Text.isWord c = true ∧ isBlank c = false := by
  cases h with
  | nil => exact absurd rfl hne
  | cons hc _ =>
    have hl := hp _ List.mem_cons_self
    exact ⟨_, _, rfl, isWord_of_sameLetter hl hc, isBlank_of_sameLetter hl hc⟩

namespace IsPlain

variable {word : List Char} {words : Phrase}

theorem letters (h : IsPlain (word :: words)) : ∀ l ∈ word, l.isLower = true :=
  (h word List.mem_cons_self).2

theorem ne_nil (h : IsPlain (word :: words)) : word ≠ [] := (h word List.mem_cons_self).1

theorem tail (h : IsPlain (word :: words)) : IsPlain words :=
  fun w hw => h w (List.mem_cons_of_mem _ hw)

end IsPlain

/-- A written phrase starts with a letter. -/
theorem Written.exists_cons {phrase : Phrase} {written : List Char} (hp : IsPlain phrase)
    (h : Written phrase written) :
    ∃ c rest, written = c :: rest ∧ isWord c = true ∧ isBlank c = false := by
  cases h with
  | last hw => exact hw.exists_cons hp.ne_nil hp.letters
  | more hw _ _ _ =>
    obtain ⟨c, rest, rfl, hc⟩ := hw.exists_cons hp.ne_nil hp.letters
    exact ⟨c, _, rfl, hc⟩

/-! ### What is read at one place -/

/-- A word is read off a text exactly if the text begins with a spelling of it. -/
theorem readWord?_eq_some_iff {word text written rest : List Char} :
    readWord? word text = some (written, rest) ↔
      WordWritten word written ∧ text = written ++ rest := by
  constructor
  · intro h
    refine ⟨?_, (append_of_readWord? h).symm⟩
    induction word generalizing text written with
    | nil =>
      obtain ⟨rfl, -⟩ := Prod.mk.inj (Option.some.inj h)
      exact .nil
    | cons l ls ih =>
      cases text with
      | nil => simp [readWord?] at h
      | cons c text =>
        by_cases hc : sameLetter l c = true
        · simp only [readWord?, hc, if_true, Option.map_eq_some_iff] at h
          obtain ⟨⟨w, r⟩, hw, hr⟩ := h
          obtain ⟨rfl, rfl⟩ := Prod.mk.inj hr
          exact .cons hc (ih hw)
        · simp [readWord?, hc] at h
  · rintro ⟨h, rfl⟩
    unfold WordWritten at h
    induction h with
    | nil => rfl
    | cons hc _ ih => simp [readWord?, hc, ih]

/-- What is read as a phrase is a spelling of it. -/
theorem written_of_readPhrase? {phrase : Phrase} {text written rest : List Char}
    (hne : phrase ≠ []) (h : readPhrase? phrase text = some (written, rest)) :
    Written phrase written := by
  fun_induction readPhrase? phrase text generalizing written rest with
  | case1 => exact absurd rfl hne
  | case2 text word => exact .last (readWord?_eq_some_iff.1 h).1
  | case3 => simp at h
  | case4 => simp at h
  | case5 word words text hwords w r hw hgap ih =>
    obtain ⟨⟨tail, r'⟩, ht, hr⟩ := Option.map_eq_some_iff.1 h
    obtain ⟨rfl, rfl⟩ := Prod.mk.inj hr
    cases words with
    | nil => exact absurd rfl hwords
    | cons next words =>
      refine .more (readWord?_eq_some_iff.1 hw).1 hgap ?_ (ih (by simp) ht)
      intro c hc
      exact List.mem_takeWhile_imp hc

/-- A spelling of a phrase is read to its end: the blanks between its words are taken as far as they
go, and the next word begins with none. -/
theorem readPhrase?_written {phrase : Phrase} {written : List Char} (hp : IsPlain phrase)
    (h : Written phrase written) (rest : List Char) :
    readPhrase? phrase (written ++ rest) = some (written, rest) := by
  induction h with
  | last hw => exact readWord?_eq_some_iff.2 ⟨hw, rfl⟩
  | @more word next words written gap tail hw hne hgap ht ih =>
    -- The gap ends where the next word starts, since a word starts with no blank.
    obtain ⟨c, tail', rfl, -, hc⟩ := ht.exists_cons hp.tail
    have hhead : (c :: tail' ++ rest).head?.any isBlank = false := by simpa using hc
    have hread : readWord? word (written ++ gap ++ (c :: tail') ++ rest) =
        some (written, gap ++ (c :: tail' ++ rest)) :=
      readWord?_eq_some_iff.2 ⟨hw, by simp⟩
    rw [readPhrase?, hread]
    · simp only [takeWhile_append_of_head hgap hhead, dropWhile_append_of_head hgap hhead,
        ih hp.tail, Option.map_some]
    · simp

/-- Whether a text is a way to write a phrase can be computed. -/
theorem written_iff_readPhrase? {phrase : Phrase} {written : List Char} (hp : IsPlain phrase)
    (hne : phrase ≠ []) :
    Written phrase written ↔ readPhrase? phrase written = some (written, []) := by
  constructor
  · intro h
    simpa using readPhrase?_written hp h []
  · exact written_of_readPhrase? hne

/-- A phrase is read as a whole if no word is cut at either end. -/
theorem readWhole?_eq_some_iff {phrase : Phrase} {previous : Option Char}
    {text written rest : List Char} (hp : IsPlain phrase) (hne : phrase ≠ []) :
    readWhole? phrase previous text = some (written, rest) ↔
      Written phrase written ∧ text = written ++ rest ∧ previous.any isWord = false ∧
        rest.head?.any isWord = false := by
  constructor
  · intro h
    have htext := append_of_readWhole? h
    unfold readWhole? at h
    split at h
    · simp at h
    · next hprev =>
      split at h
      · simp at h
      · next w r hw =>
        split at h
        · simp at h
        · next hrest =>
          obtain ⟨rfl, rfl⟩ := Prod.mk.inj (Option.some.inj h)
          exact ⟨written_of_readPhrase? hne hw, htext.symm, by simpa using hprev, by simpa using hrest⟩
  · rintro ⟨hw, rfl, hprev, hrest⟩
    simp [readWhole?, hprev, readPhrase?_written hp hw, hrest]

/-! ### The search -/

theorem getLast?_cons_or (c : Char) (text : List Char) (previous : Option Char) :
    (c :: text).getLast?.or previous = text.getLast?.or (some c) := by
  rw [List.getLast?_cons]
  cases text.getLast? <;> rfl

theorem HoldsAfter.cons {previous : Option Char} {phrase : Phrase} {c : Char} {text : List Char}
    (h : HoldsAfter (some c) phrase text) : HoldsAfter previous phrase (c :: text) := by
  obtain ⟨before, written, after, rfl, hw, hleft, hright⟩ := h
  refine ⟨c :: before, written, after, by simp, hw, ?_, hright⟩
  rwa [getLast?_cons_or]

/-- A phrase stands at the front of a text or behind its first character. -/
theorem holdsAfter_cons_iff {previous : Option Char} {phrase : Phrase} {c : Char}
    {text : List Char} (hp : IsPlain phrase) (hne : phrase ≠ []) :
    HoldsAfter previous phrase (c :: text) ↔
      (∃ p, readWhole? phrase previous (c :: text) = some p) ∨ HoldsAfter (some c) phrase text := by
  constructor
  · rintro ⟨before, written, after, htext, hw, hleft, hright⟩
    cases before with
    | nil =>
      left
      exact ⟨(written, after), (readWhole?_eq_some_iff hp hne).2
        ⟨hw, by simpa using htext, by simpa using hleft, hright⟩⟩
    | cons d before =>
      right
      obtain ⟨rfl, rfl⟩ := List.cons.inj htext
      rw [getLast?_cons_or] at hleft
      exact ⟨before, written, after, rfl, hw, hleft, hright⟩
  · rintro (⟨⟨written, after⟩, h⟩ | h)
    · obtain ⟨hw, htext, hleft, hright⟩ := (readWhole?_eq_some_iff hp hne).1 h
      exact ⟨[], written, after, by simpa using htext, hw, by simpa using hleft, hright⟩
    · exact h.cons

/-- **The search fails exactly where the phrase does not stand in the text.** -/
theorem find?_eq_none_iff {previous : Option Char} {phrase : Phrase} {text : List Char}
    (hp : IsPlain phrase) (hne : phrase ≠ []) :
    find? phrase previous text = none ↔ ¬ HoldsAfter previous phrase text := by
  induction text generalizing previous with
  | nil =>
    -- A written phrase is not empty, so it does not stand in the empty text.
    refine ⟨fun _ => ?_, fun _ => rfl⟩
    rintro ⟨before, written, after, htext, hw, -, -⟩
    obtain ⟨c, rest, rfl, -⟩ := hw.exists_cons hp
    simp at htext
  | cons c text ih =>
    rw [holdsAfter_cons_iff hp hne, find?]
    rcases hr : readWhole? phrase previous (c :: text) with - | p
    · simp [ih]
    · simp

/-! ### Phrases and the pieces of a text -/

/-- A text can be cut between `left` and `right` without cutting a phrase: no word goes on across the
cut, and `right` does not go on with a later word of the phrase. -/
structure Separates (phrase : Phrase) (left right : List Char) : Prop where
  apart : ∀ c ∈ left.getLast?, ∀ d ∈ right.head?, isWord c = false ∨ isWord d = false
  fresh : ∀ word ∈ phrase.tail, readWord? word (right.dropWhile isBlank) = none

/-- Behind a character that belongs to no word, only a later word of the phrase can be in the way. -/
theorem Separates.of_getLast {phrase : Phrase} {left right : List Char} {c : Char}
    (hlast : left.getLast? = some c) (hc : isWord c = false)
    (hfresh : ∀ word ∈ phrase.tail, readWord? word (right.dropWhile isBlank) = none) :
    Separates phrase left right where
  apart := by
    intro d hd _ _
    rw [hlast] at hd
    cases hd
    exact .inl hc
  fresh := hfresh

/-- A character that belongs to no word separates in front of it as well. -/
theorem Separates.of_head {phrase : Phrase} {left right : List Char} {c : Char}
    (hc : isWord c = false)
    (hfresh : ∀ word ∈ phrase.tail, readWord? word ((c :: right).dropWhile isBlank) = none) :
    Separates phrase left (c :: right) where
  apart := by
    intro _ _ d hd
    cases hd
    exact .inr hc
  fresh := hfresh

/-- A written phrase starts with its first word. -/
theorem Written.exists_word {word : List Char} {words : Phrase} {text : List Char}
    (h : Written (word :: words) text) : ∃ written rest, WordWritten word written ∧
      text = written ++ rest := by
  cases h with
  | last hw => exact ⟨text, [], hw, by simp⟩
  | more hw _ _ _ => exact ⟨_, _, hw, List.append_assoc ..⟩

/-- A word is never cut where a word character is missing on one side. -/
theorem WordWritten.not_cut {word written left right : List Char}
    (hlow : ∀ l ∈ word, l.isLower = true) (hw : WordWritten word written)
    (htext : written = left ++ right) (hl : left ≠ []) (hr : right ≠ []) :
    ¬ ∀ c ∈ left.getLast?, ∀ d ∈ right.head?,
      ProcBook.Text.isWord c = false ∨ ProcBook.Text.isWord d = false := by
  intro hcut
  have hall := hw.isWord hlow
  have hc := hall (left.getLast hl) (by rw [htext]; simp)
  have hd := hall (right.head hr) (by rw [htext]; simp)
  rcases hcut _ (List.getLast?_eq_some_getLast hl) _ (List.head?_eq_some_head hr) with h | h
  · rw [hc] at h; cases h
  · rw [hd] at h; cases h

/-- Where a written phrase is cut between its words, it goes on with one of them. -/
theorem Written.of_cut {phrase : Phrase} {text left right : List Char} (hp : IsPlain phrase)
    (h : Written phrase text) (htext : text = left ++ right) (hl : left ≠ []) (hr : right ≠ [])
    (hcut : ∀ c ∈ left.getLast?, ∀ d ∈ right.head?, isWord c = false ∨ isWord d = false) :
    ∃ word ∈ phrase.tail, ∃ gap written rest, right = gap ++ (written ++ rest) ∧ Blanks gap ∧
      WordWritten word written := by
  -- The induction is on the words, with the cut in the first one or behind it.
  induction h generalizing left with
  | last hw => exact (hw.not_cut hp.letters htext hl hr hcut).elim
  | @more word next words written gap tail hw hgap hblank ht ih =>
    obtain ⟨first, rest, hfirst, rfl⟩ := ht.exists_word
    rw [List.append_assoc] at htext
    rcases List.append_eq_append_iff.1 htext with ⟨x, hx, htail⟩ | ⟨x, hx, hright⟩
    · -- The cut lies behind the first word: in the gap, or in what follows it.
      rcases List.append_eq_append_iff.1 htail with ⟨y, hy, htail⟩ | ⟨y, hy, hright⟩
      · by_cases hne : y = []
        · subst hne
          exact ⟨next, by simp, [], first, rest, by simpa using htail.symm, by decide, hfirst⟩
        · have hlast : left.getLast? = y.getLast? := by
            rw [hx, hy, ← List.append_assoc, List.getLast?_append_of_ne_nil _ hne]
          rw [hlast] at hcut
          obtain ⟨later, hlater, hcont⟩ := ih hp.tail htail hne hcut
          exact ⟨later, List.mem_cons_of_mem _ hlater, hcont⟩
      · refine ⟨next, by simp, y, first, rest, hright, ?_, hfirst⟩
        intro c hc
        exact hblank c (by rw [hy]; exact List.mem_append_right _ hc)
    · -- The cut lies in the first word or right behind it.
      by_cases hne : x = []
      · subst hne
        exact ⟨next, by simp, gap, first, rest, by simpa using hright, hblank, hfirst⟩
      · rw [hright, List.head?_append_of_ne_nil _ hne] at hcut
        exact (hw.not_cut hp.letters hx hl hne hcut).elim

/-- No phrase is written across a place that separates. -/
theorem Separates.not_written {phrase : Phrase} {left right written : List Char}
    (h : Separates phrase left right) (hp : IsPlain phrase) (hw : Written phrase written)
    {pre post : List Char} (hleft : left ≠ []) (htext : written = left ++ pre)
    (hright : right = pre ++ post) : pre = [] := by
  by_contra hne
  have hcut := h.apart
  rw [hright, List.head?_append_of_ne_nil _ hne] at hcut
  obtain ⟨word, hword, gap, first, more, rfl, hgap, hfirst⟩ :=
    hw.of_cut hp htext hleft hne hcut
  have hplain := hp word (List.mem_of_mem_tail hword)
  obtain ⟨c, first', rfl, -, hc⟩ := hfirst.exists_cons hplain.1 hplain.2
  -- Behind the cut the text goes on with a later word, and `fresh` says that it does not.
  have hdrop : right.dropWhile isBlank = c :: first' ++ (more ++ post) := by
    rw [hright, List.append_assoc, dropWhile_append_of_head hgap (by simpa using hc)]
    simp
  have hread := readWord?_eq_some_iff.2 ⟨hfirst, hdrop⟩
  rw [h.fresh word hword] at hread
  cases hread

theorem Separates.of_cons {phrase : Phrase} {c : Char} {left right : List Char}
    (h : Separates phrase (c :: left) right) : Separates phrase left right where
  apart := by
    intro d hd
    apply h.apart
    rw [List.getLast?_cons, Option.mem_def.1 hd]
    rfl
  fresh := h.fresh

/-- What is read in front of a place that separates does not reach beyond it. -/
theorem readWhole?_append {phrase : Phrase} {previous : Option Char}
    {left right written rest : List Char} (hp : IsPlain phrase) (hne : phrase ≠ [])
    (hsep : Separates phrase left right) (hleft : left ≠ [])
    (h : readWhole? phrase previous (left ++ right) = some (written, rest)) :
    ∃ rest', readWhole? phrase previous left = some (written, rest') := by
  obtain ⟨hw, htext, hprev, hrest⟩ := (readWhole?_eq_some_iff hp hne).1 h
  rcases List.append_eq_append_iff.1 htext with ⟨x, hx, hright⟩ | ⟨x, hx, hright⟩
  · -- The match ends at the cut or goes on behind it, and it cannot go on.
    have : x = [] := hsep.not_written hp hw hleft hx hright
    subst this
    refine ⟨[], (readWhole?_eq_some_iff hp hne).2 ⟨hw, by simpa using hx.symm, hprev, rfl⟩⟩
  · refine ⟨x, (readWhole?_eq_some_iff hp hne).2 ⟨hw, hx, hprev, ?_⟩⟩
    cases x with
    | nil => rfl
    | cons d x => simpa [hright] using hrest

/-- A phrase in a text that is cut at a place that separates stands in one of the pieces. -/
theorem HoldsAfter.of_append {phrase : Phrase} {previous : Option Char} {left right : List Char}
    (hp : IsPlain phrase) (hne : phrase ≠ []) (hsep : Separates phrase left right)
    (h : HoldsAfter previous phrase (left ++ right)) :
    HoldsAfter previous phrase left ∨ HoldsAfter (left.getLast?.or previous) phrase right := by
  induction left generalizing previous with
  | nil => exact .inr h
  | cons c left ih =>
    rw [List.cons_append, holdsAfter_cons_iff hp hne] at h
    rcases h with ⟨⟨written, rest⟩, hr⟩ | h
    · obtain ⟨rest', hr'⟩ := readWhole?_append hp hne hsep (by simp) hr
      exact .inl ((holdsAfter_cons_iff hp hne).2 (.inl ⟨_, hr'⟩))
    · rcases ih hsep.of_cons h with h | h
      · exact .inl h.cons
      · right
        rwa [getLast?_cons_or]

/-- A character that belongs to no word neither starts a phrase nor keeps one from starting. -/
theorem HoldsAfter.of_cons {phrase : Phrase} {previous : Option Char} {c : Char}
    {text : List Char} (hp : IsPlain phrase) (hne : phrase ≠ []) (hc : isWord c = false)
    (h : HoldsAfter previous phrase (c :: text)) : Holds phrase text := by
  rcases (holdsAfter_cons_iff hp hne).1 h with ⟨⟨written, rest⟩, hr⟩ | h
  · obtain ⟨hw, htext, -⟩ := (readWhole?_eq_some_iff hp hne).1 hr
    obtain ⟨d, written, rfl, hd, -⟩ := hw.exists_cons hp
    obtain ⟨rfl, -⟩ := List.cons.inj htext
    rw [hc] at hd
    cases hd
  · -- In front of a word the character is as good as the start of the text.
    obtain ⟨before, written, after, rfl, hw, hleft, hright⟩ := h
    refine ⟨before, written, after, rfl, hw, ?_, hright⟩
    cases hb : before.getLast? with
    | none => rfl
    | some d => simpa [hb] using hleft

/-- A text that starts with neither a letter nor a blank goes on with no word of a phrase. -/
theorem fresh_of_head {phrase : Phrase} (hp : IsPlain phrase) {c : Char} (hc : isWord c = false)
    (hb : isBlank c = false) (text : List Char) :
    ∀ word ∈ phrase.tail, readWord? word ((c :: text).dropWhile isBlank) = none := by
  intro word hword
  have hplain := hp word (List.mem_of_mem_tail hword)
  rw [List.dropWhile_cons_of_neg (by simp [hb])]
  rcases hr : readWord? word (c :: text) with - | ⟨written, rest⟩
  · rfl
  · obtain ⟨hw, htext⟩ := readWord?_eq_some_iff.1 hr
    obtain ⟨d, written, rfl, hd, -⟩ := hw.exists_cons hplain.1 hplain.2
    obtain ⟨rfl, -⟩ := List.cons.inj htext
    rw [hc] at hd
    cases hd

/-- A phrase in a text with a divider in it stands before or behind the divider. -/
theorem HoldsAfter.of_append_cons {phrase : Phrase} {previous : Option Char}
    {left right : List Char} {c : Char} (hp : IsPlain phrase) (hne : phrase ≠ [])
    (hc : isWord c = false)
    (hfresh : ∀ word ∈ phrase.tail, readWord? word ((c :: right).dropWhile isBlank) = none)
    (h : HoldsAfter previous phrase (left ++ c :: right)) :
    HoldsAfter previous phrase left ∨ Holds phrase right := by
  rcases h.of_append hp hne (.of_head hc hfresh) with h | h
  · exact .inl h
  · exact .inr (h.of_cons hp hne hc)

/-- **A written phrase is found after a text that does not hold it.** -/
theorem find?_append_written {phrase : Phrase} {previous : Option Char}
    {before written after : List Char} (hp : IsPlain phrase) (hne : phrase ≠ [])
    (hw : Written phrase written) (hbefore : ¬ HoldsAfter previous phrase before)
    (hsep : Separates phrase before (written ++ after))
    (hleft : (before.getLast?.or previous).any isWord = false)
    (hright : after.head?.any isWord = false) :
    find? phrase previous (before ++ (written ++ after)) = some ⟨before, written, after⟩ := by
  induction before generalizing previous with
  | nil =>
    have hread : readWhole? phrase previous (written ++ after) = some (written, after) :=
      (readWhole?_eq_some_iff hp hne).2 ⟨hw, rfl, by simpa using hleft, hright⟩
    obtain ⟨c, written, rfl, -⟩ := hw.exists_cons hp
    rw [List.cons_append] at hread
    rw [List.nil_append, List.cons_append, find?, hread]
  | cons c before ih =>
    -- What is read here would stand in `before` alone, which does not hold the phrase.
    have hnone : readWhole? phrase previous (c :: (before ++ (written ++ after))) = none := by
      rcases hr : readWhole? phrase previous (c :: before ++ (written ++ after)) with - | ⟨w, r⟩
      · exact hr
      · obtain ⟨r', hr'⟩ := readWhole?_append hp hne hsep (by simp) hr
        exact absurd ((holdsAfter_cons_iff hp hne).2 (.inl ⟨_, hr'⟩)) hbefore
    rw [getLast?_cons_or] at hleft
    rw [List.cons_append, find?, hnone]
    simp only
    rw [ih (fun h => hbefore h.cons) hsep.of_cons hleft]
    rfl

theorem findPair?_eq {opening closing : Phrase} {text : List Char} {first second : Found}
    (hfirst : find? opening none text = some first)
    (hsecond : find? closing first.matched.getLast? first.after = some second) :
    findPair? opening closing text = some (first, second) := by
  rw [findPair?, hfirst]
  simp only [hsecond, Option.map_some]

end ProcBook.Text
