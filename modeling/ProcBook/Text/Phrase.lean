/-
ProcBook/Text/Phrase.lean

Phrases in running text: one or more words, in any letter case, that touch no other word character.

`find?` gives the leftmost place of a phrase as a cut of the text into three pieces, and
`text_of_find?` says that the pieces put together are the text again.
-/
import ProcBook.Text.Blank
import ProcBook.Text.Word

namespace ProcBook.Text

/-- The words of a phrase, in lower case.  Between two of them stand one or more blanks. -/
abbrev Phrase := List (List Char)

/-- A text cut in three: what was found, what stands before it and what follows it. -/
structure Found where
  before : List Char
  matched : List Char
  after : List Char
deriving Repr, DecidableEq

namespace Found

/-- The text that was cut. -/
def text (f : Found) : List Char := f.before ++ f.matched ++ f.after

/-- The same find in a text with one more character in front. -/
def shift (c : Char) (f : Found) : Found := { f with before := c :: f.before }

@[simp]
theorem text_shift (c : Char) (f : Found) : (f.shift c).text = c :: f.text := by
  simp [text, shift]

end Found

/-! ### Reading at one place -/

/-- Whether `c` is the lower-case letter `l` in some case.  The long s counts as an `s`. -/
def sameLetter (l c : Char) : Bool := c.toLower == l || (l == 's' && c == 'ſ')

/-- Reads a word, in any case, off the front of a text: the word as it is written, and the rest. -/
def readWord? : List Char → List Char → Option (List Char × List Char)
  | [], text => some ([], text)
  | _ :: _, [] => none
  | l :: ls, c :: text =>
    if sameLetter l c then (readWord? ls text).map fun (word, rest) => (c :: word, rest) else none

/-- Reads the words of a phrase and the blanks between them off the front of a text. -/
def readPhrase? : Phrase → List Char → Option (List Char × List Char)
  | [], text => some ([], text)
  | [word], text => readWord? word text
  | word :: words, text =>
    match readWord? word text with
    | none => none
    | some (written, rest) =>
      match rest.takeWhile isBlank with
      | [] => none
      | gap =>
        (readPhrase? words (rest.dropWhile isBlank)).map fun (tail, rest) =>
          (written ++ gap ++ tail, rest)

/-- Reads a phrase off the front of a text, where `previous` is the character before that text.  No
word character may touch the phrase on either side. -/
def readWhole? (phrase : Phrase) (previous : Option Char) (text : List Char) :
    Option (List Char × List Char) :=
  if previous.any isWord then none
  else
    match readPhrase? phrase text with
    | none => none
    | some (written, rest) => if rest.head?.any isWord then none else some (written, rest)

/-! ### Searching -/

/-- The leftmost place of a phrase in a text that follows the character `previous`. -/
def find? (phrase : Phrase) (previous : Option Char) : List Char → Option Found
  | [] => none
  | c :: text =>
    match readWhole? phrase previous (c :: text) with
    | some (written, rest) => some ⟨[], written, rest⟩
    | none => (find? phrase (some c) text).map (Found.shift c)

/-- The place of the first phrase and then, after it, the place of the second. -/
def findPair? (opening closing : Phrase) (text : List Char) : Option (Found × Found) :=
  match find? opening none text with
  | none => none
  | some first =>
    (find? closing first.matched.getLast? first.after).map fun second => (first, second)

/-! ### Nothing is lost -/

theorem append_of_readWord? {word text written rest : List Char}
    (h : readWord? word text = some (written, rest)) : written ++ rest = text := by
  induction word generalizing text written with
  | nil => simp_all [readWord?]
  | cons l ls ih =>
    cases text with
    | nil => simp [readWord?] at h
    | cons c text =>
      by_cases hc : sameLetter l c = true
      · simp only [readWord?, hc, if_true, Option.map_eq_some_iff] at h
        obtain ⟨⟨w, r⟩, hw, hr⟩ := h
        obtain ⟨rfl, rfl⟩ := Prod.mk.inj hr
        simp [ih hw]
      · simp [readWord?, hc] at h

theorem append_of_readPhrase? {phrase : Phrase} {text written rest : List Char}
    (h : readPhrase? phrase text = some (written, rest)) : written ++ rest = text := by
  fun_induction readPhrase? phrase text generalizing written rest with
  | case1 => simp_all
  | case2 => exact append_of_readWord? h
  | case3 => simp at h
  | case4 => simp at h
  | case5 word words text _ w r hw _ ih =>
    obtain ⟨⟨tail, r'⟩, ht, hr⟩ := Option.map_eq_some_iff.1 h
    obtain ⟨rfl, rfl⟩ := Prod.mk.inj hr
    simp [List.append_assoc, ih ht, ← append_of_readWord? hw]

theorem append_of_readWhole? {phrase : Phrase} {previous : Option Char}
    {text written rest : List Char} (h : readWhole? phrase previous text = some (written, rest)) :
    written ++ rest = text := by
  unfold readWhole? at h
  split at h
  · simp at h
  · split at h
    · simp at h
    · next w r hw =>
      split at h
      · simp at h
      · obtain ⟨rfl, rfl⟩ := Prod.mk.inj (Option.some.inj h)
        exact append_of_readPhrase? hw

/-- A find cuts the text and loses nothing of it. -/
theorem text_of_find? {phrase : Phrase} {previous : Option Char} {text : List Char} {f : Found}
    (h : find? phrase previous text = some f) : f.text = text := by
  induction text generalizing previous f with
  | nil => simp [find?] at h
  | cons c text ih =>
    rw [find?] at h
    split at h
    · next w r hw =>
      obtain rfl := Option.some.inj h
      simpa [Found.text] using append_of_readWhole? hw
    · obtain ⟨g, hg, rfl⟩ := Option.map_eq_some_iff.1 h
      simp [ih hg]

end ProcBook.Text
