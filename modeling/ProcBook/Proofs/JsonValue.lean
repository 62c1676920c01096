/-
ProcBook/Proofs/JsonValue.lean

JSON values of any kind, and that they are passed over.

The grammar goes on where the one of records ends: `NumberText`, `PlainText` for words and numbers,
`ValueText` for values and `EntriesText` for what stands in a bracket, which is a list or an object.
Strings are taken as they are written (`Passable`), since nobody asks what they stand for.

`skipValue_of_valueText` says that a value is passed over whatever brackets are open around it,

    skipValue opened (text ++ rest) = skipOn opened true rest,

so that the list of open brackets never has to be looked at.  A number alone does not say where it ends;
`Ends rest` says that it does not go on.
-/
import ProcBook.Proofs.JsonGrammar

namespace ProcBook.Json

/-! ### The grammar of values -/

/-- What may stand between quotation marks if nobody asks what it stands for: escapes by number need
not come in pairs. -/
inductive Passable : List Char → Prop
  | nil : Passable []
  | plain {c : Char} {written : List Char} : c ≠ '"' → c ≠ '\\' → ¬ c < ' ' →
      Passable written → Passable (c :: written)
  | escape {e c : Char} {written : List Char} : simpleEscape? e = some c →
      Passable written → Passable ('\\' :: e :: written)
  | unit {digits : List Char} {n : Nat} {written : List Char} : Hex4 digits n →
      Passable written → Passable ('\\' :: 'u' :: (digits ++ written))

/-- Decimal digits, at least one of them. -/
def Digits (text : List Char) : Prop := text ≠ [] ∧ ∀ c ∈ text, c.isDigit = true

/-- The digits of a number before its point: no zero in front of others. -/
def Whole (text : List Char) : Prop := Digits text ∧ (text.head? = some '0' → text = ['0'])

/-- The point of a number and the digits behind it. -/
inductive Fraction : List Char → Prop
  | none : Fraction []
  | some {digits : List Char} : Digits digits → Fraction ('.' :: digits)

/-- The exponent of a number. -/
inductive Exponent : List Char → Prop
  | none : Exponent []
  | some {e : Char} {sign digits : List Char} : e ∈ ['e', 'E'] → sign ∈ [[], ['+'], ['-']] →
      Digits digits → Exponent (e :: (sign ++ digits))

/-- A number. -/
inductive NumberText : List Char → Prop
  | mk {sign whole fraction exponent : List Char} : sign ∈ [[], ['-']] → Whole whole →
      Fraction fraction → Exponent exponent →
      NumberText (sign ++ (whole ++ (fraction ++ exponent)))

/-- A word or a number. -/
inductive PlainText : List Char → Prop
  | word {text : List Char} : text ∈ ["null".toList, "true".toList, "false".toList] → PlainText text
  | number {text : List Char} : NumberText text → PlainText text

/-- The character that opens a bracket. -/
def Bracket.opening : Bracket → Char
  | list => '['
  | object => '\x7b'

/-- What stands in front of a value in a bracket: a key and its colon in an object, nothing in a
list. -/
inductive LabelText : Bracket → List Char → Prop
  | list : LabelText .list []
  | object {written gap : List Char} : Passable written → Spaces gap →
      LabelText .object ('"' :: (written ++ '"' :: (gap ++ [':'])))

mutual

/-- A value of any kind. -/
inductive ValueText : List Char → Prop
  | plain {text : List Char} : PlainText text → ValueText text
  | string {written : List Char} : Passable written → ValueText ('"' :: (written ++ ['"']))
  | empty (bracket : Bracket) {gap : List Char} : Spaces gap →
      ValueText (bracket.opening :: (gap ++ [bracket.closing]))
  | full (bracket : Bracket) {text : List Char} : EntriesText bracket text →
      ValueText (bracket.opening :: (text ++ [bracket.closing]))

/-- The values in a bracket, with commas between them and blanks wherever they may stand. -/
inductive EntriesText : Bracket → List Char → Prop
  | last {bracket : Bracket} {left label gap text right : List Char} : Spaces left →
      LabelText bracket label → Spaces gap → ValueText text → Spaces right →
      EntriesText bracket (left ++ (label ++ (gap ++ (text ++ right))))
  | more {bracket : Bracket} {left label gap text right rest : List Char} : Spaces left →
      LabelText bracket label → Spaces gap → ValueText text → Spaces right →
      EntriesText bracket rest →
      EntriesText bracket (left ++ (label ++ (gap ++ (text ++ (right ++ ',' :: rest)))))

end

/-! ### Numbers -/

/-- A text with which no number goes on. -/
def Ends (text : List Char) : Prop :=
  text.head?.any (fun c => c.isDigit || c == '.' || c == 'e' || c == 'E') = false

theorem Ends.digit {text : List Char} (h : Ends text) : text.head?.any Char.isDigit = false := by
  cases text with
  | nil => rfl
  | cons c text => simp_all [Ends]

/-- The digits before the point are taken off whatever follows them. -/
theorem scanWhole_append {whole rest : List Char} (h : Whole whole)
    (hrest : rest.head?.any Char.isDigit = false) (atEnd : Problem) :
    scanWhole atEnd (whole ++ rest) = .ok (whole, rest) := by
  obtain ⟨⟨hne, hdigits⟩, hzero⟩ := h
  cases whole with
  | nil => exact absurd rfl hne
  | cons c whole =>
    have hc : c.isDigit = true := hdigits c List.mem_cons_self
    have hwhole : ∀ d ∈ whole, d.isDigit = true := fun d hd => hdigits d (List.mem_cons_of_mem _ hd)
    by_cases he : c = '0'
    · obtain rfl : whole = [] := by simpa [he] using hzero
      simp [scanWhole, he, hrest]
    · simp [scanWhole, he, hc, Text.takeWhile_append_of_head hwhole hrest,
        Text.dropWhile_append_of_head hwhole hrest]

theorem scanFraction_append {fraction rest : List Char} (h : Fraction fraction)
    (hrest : rest.head?.any (fun c => c.isDigit || c == '.') = false) (atEnd : Problem) :
    ∃ digits, scanFraction atEnd (fraction ++ rest) = .ok (digits, rest) := by
  cases h with
  | none =>
    refine ⟨[], ?_⟩
    rw [List.nil_append, scanFraction]
    rintro tail rfl
    simp at hrest
  | @some digits hdigits =>
    have hdigit : rest.head?.any Char.isDigit = false := by
      cases rest with
      | nil => rfl
      | cons c rest => simp_all
    refine ⟨digits, ?_⟩
    rw [List.cons_append, scanFraction, Text.takeWhile_append_of_head hdigits.2 hdigit,
      Text.dropWhile_append_of_head hdigits.2 hdigit]
    have := hdigits.1
    cases digits with
    | nil => exact absurd rfl this
    | cons c digits => rfl

theorem scanExponentDigits_append {digits rest : List Char} (h : Digits digits)
    (hrest : rest.head?.any Char.isDigit = false) (atEnd : Problem) (negative : Bool) :
    scanExponentDigits atEnd negative (digits ++ rest) = .ok (some (negative, digits), rest) := by
  rw [scanExponentDigits, Text.takeWhile_append_of_head h.2 hrest,
    Text.dropWhile_append_of_head h.2 hrest]
  cases digits with
  | nil => exact absurd rfl h.1
  | cons c digits => rfl

/-- An exponent is taken off, and none is found where the number ends. -/
theorem scanExponent_append {exponent rest : List Char} (h : Exponent exponent) (hrest : Ends rest)
    (atEnd : Problem) : ∃ found, scanExponent atEnd (exponent ++ rest) = .ok (found, rest) := by
  unfold scanExponent
  -- Without an exponent the next character must not begin one.
  cases h with
  | none =>
    refine ⟨none, ?_⟩
    cases rest with
    | nil => rfl
    | cons c rest =>
      have hc : (c == 'e' || c == 'E') = false := by simp_all [Ends]
      simp only [List.nil_append, hc, Bool.false_eq_true, if_false]
  | @some e sign digits he hsign hdigits =>
    have hscan := scanExponentDigits_append hdigits hrest.digit atEnd
    have hletter : (e == 'e' || e == 'E') = true := by simpa using he
    simp only [List.cons_append, List.append_assoc, hletter, if_true]
    simp only [List.mem_cons, List.not_mem_nil, or_false] at hsign
    rcases hsign with rfl | rfl | rfl
    · -- Without a sign the first digit comes at once, and it is none.
      refine ⟨some (false, digits), ?_⟩
      rw [List.nil_append]
      obtain ⟨c, others, rfl⟩ := List.exists_cons_of_ne_nil hdigits.1
      have hc : c.isDigit = true := hdigits.2 c List.mem_cons_self
      split
      · next hsign =>
        obtain ⟨rfl, -⟩ := List.cons.inj hsign
        exact absurd hc (by decide)
      · next hsign =>
        obtain ⟨rfl, -⟩ := List.cons.inj hsign
        exact absurd hc (by decide)
      · exact hscan false
    · exact ⟨_, hscan false⟩
    · exact ⟨_, hscan true⟩

theorem head?_exponent_append {exponent rest : List Char} (h : Exponent exponent)
    (hrest : Ends rest) :
    (exponent ++ rest).head?.any (fun c => c.isDigit || c == '.') = false := by
  cases h with
  | none =>
    cases rest with
    | nil => rfl
    | cons c rest => simp_all [Ends]
  | @some e sign digits he _ _ =>
    simp only [List.mem_cons, List.not_mem_nil, or_false] at he
    rcases he with rfl | rfl <;> rfl

theorem head?_fraction_append {fraction rest : List Char} (h : Fraction fraction)
    (hrest : rest.head?.any (fun c => c.isDigit || c == '.') = false) :
    (fraction ++ rest).head?.any Char.isDigit = false := by
  cases h with
  | none =>
    cases rest with
    | nil => rfl
    | cons c rest => simp_all
  | some _ => rfl

/-- A number without its sign is read up to its end. -/
theorem scanNumeral_append {whole fraction exponent rest : List Char} (hwhole : Whole whole)
    (hfraction : Fraction fraction) (hexponent : Exponent exponent) (hrest : Ends rest)
    (atEnd : Problem) (negative : Bool) :
    (scanNumeral atEnd negative (whole ++ (fraction ++ (exponent ++ rest)))).map (·.2) = .ok rest := by
  have hhead := head?_exponent_append hexponent hrest
  obtain ⟨digits, hdigits⟩ := scanFraction_append hfraction hhead atEnd
  obtain ⟨found, hfound⟩ := scanExponent_append hexponent hrest atEnd
  rw [scanNumeral, scanWhole_append hwhole (head?_fraction_append hfraction hhead)]
  simp only [hdigits, hfound, Except.map]

/-! ### Strings -/

/-- A passable string is skipped, up to its quotation mark. -/
theorem skipString_of_passable {written : List Char} (h : Passable written) (rest : List Char) :
    skipString (written ++ '"' :: rest) = .ok rest := by
  -- An escape is skipped by itself, so the string goes on behind it.
  have hstep : ∀ {text rest' : List Char}, skipEscape text = .ok rest' →
      skipString ('\\' :: text) = skipString rest' := by
    intro text rest' hskip
    rw [skipString]
    simp only [show ('\\' == '"') = false from rfl, Bool.false_eq_true, if_false,
      beq_self_eq_true, if_true]
    split
    · next h' => rw [hskip] at h'; cases h'
    · next h' =>
      rw [hskip] at h'
      obtain rfl := Except.ok.inj h'
      rfl
  induction h with
  | nil => simp [skipString]
  | plain hq hb hc _ ih =>
    rw [List.cons_append, skipString]
    simp [hq, hb, hc, ih]
  | @escape e c written he _ ih =>
    have hskip : skipEscape (e :: (written ++ '"' :: rest)) = .ok (written ++ '"' :: rest) := by
      simp [skipEscape, he]
    rw [List.cons_append, List.cons_append, hstep hskip, ih]
  | @unit digits n written hx _ ih =>
    have hskip : skipEscape ('u' :: (digits ++ (written ++ '"' :: rest))) =
        .ok (written ++ '"' :: rest) := by
      simp [skipEscape, simpleEscape?, readHex_of_hex4 hx, Except.map]
    rw [List.cons_append, List.cons_append, List.append_assoc, hstep hskip, ih]

/-! ### Scalars -/

theorem readLetters_append (letters rest : List Char) :
    readLetters letters (letters ++ rest) = .ok rest := by
  induction letters with
  | nil => rfl
  | cons l letters ih => simp [readLetters, ih]

theorem skipScalar_string {written : List Char} (h : Passable written) (rest : List Char) :
    skipScalar ('"' :: (written ++ '"' :: rest)) = .ok rest :=
  skipString_of_passable h rest

theorem ne_of_isDigit {c d : Char} (hc : c.isDigit = true) (hd : d.isDigit = false) : c ≠ d := by
  rintro rfl
  rw [hc] at hd
  cases hd

theorem skipScalar_digit {c : Char} (h : c.isDigit = true) (rest : List Char) :
    skipScalar (c :: rest) = (scanNumeral .invalidNumber false (c :: rest)).map (·.2) := by
  -- A digit starts neither a word nor a string, and it is no sign.
  have hne : ∀ d : Char, d.isDigit = false → (c == d) = false := fun d hd =>
    beq_eq_false_iff_ne.2 (ne_of_isDigit h hd)
  simp only [skipScalar, hne 'n' rfl, hne 't' rfl, hne 'f' rfl, hne '"' rfl, hne '-' rfl, h,
    Bool.false_eq_true, if_false, if_true]

/-- A number is skipped if nothing behind it goes on with it. -/
theorem skipScalar_number {text rest : List Char} (h : NumberText text) (hrest : Ends rest) :
    skipScalar (text ++ rest) = .ok rest := by
  cases h with
  | @mk sign whole fraction exponent hsign hwhole hfraction hexponent =>
    have hscan := scanNumeral_append hwhole hfraction hexponent hrest .invalidNumber
    simp only [List.append_assoc]
    simp only [List.mem_cons, List.not_mem_nil, or_false] at hsign
    rcases hsign with rfl | rfl
    · obtain ⟨c, others, rfl⟩ := List.exists_cons_of_ne_nil hwhole.1.1
      have hc : c.isDigit = true := hwhole.1.2 c List.mem_cons_self
      rw [List.nil_append, List.cons_append, skipScalar_digit hc]
      exact hscan false
    · exact hscan true

/-- So is every value that is no container. -/
theorem skipScalar_plain {text rest : List Char} (h : PlainText text) (hrest : Ends rest) :
    skipScalar (text ++ rest) = .ok rest := by
  cases h with
  | word hword =>
    simp only [List.mem_cons, List.not_mem_nil, or_false] at hword
    rcases hword with rfl | rfl | rfl
    · exact readLetters_append ['u', 'l', 'l'] rest
    · exact readLetters_append ['r', 'u', 'e'] rest
    · exact readLetters_append ['a', 'l', 's', 'e'] rest
  | number hnumber => exact skipScalar_number hnumber hrest

/-! ### Brackets -/

/-- A closing bracket goes back to the container around. -/
theorem skipOn_close {bracket : Bracket} {opened : List Bracket} {filled : Bool}
    {gap rest : List Char} (hgap : Spaces gap) :
    skipOn (bracket :: opened) filled (gap ++ bracket.closing :: rest) = skipOn opened true rest := by
  have hskip : skipSpace (gap ++ bracket.closing :: rest) = bracket.closing :: rest :=
    skipSpace_append hgap (by cases bracket <;> rfl)
  rw [skipOn]
  split
  · next h => rw [hskip] at h; cases h
  · next h =>
    rw [hskip] at h
    obtain ⟨rfl, rfl⟩ := List.cons.inj h
    simp only [beq_self_eq_true, if_true]

/-- Passes over what stands in front of a value in a bracket, and goes on with the value. -/
def skipEntry (bracket : Bracket) (opened : List Bracket) (text : List Char) :
    Except Fault (List Char) :=
  match skipLabel bracket text with
  | .error fault => .error fault
  | .ok rest => skipValue (bracket :: opened) rest

theorem skipValue_nil {opened : List Bracket} {text : List Char} (h : skipSpace text = []) :
    skipValue opened text = .error (.here .endInValue []) := by
  rw [skipValue]
  split
  · rfl
  · next h' => rw [h] at h'; cases h'

theorem skipOn_nil {bracket : Bracket} {opened : List Bracket} {filled : Bool} {text : List Char}
    (h : skipSpace text = []) :
    skipOn (bracket :: opened) filled text = .error (.here bracket.atEnd []) := by
  rw [skipOn]
  split
  · rfl
  · next h' => rw [h] at h'; cases h'

/-- The first character of a value decides how it is passed over. -/
theorem skipValue_cons {opened : List Bracket} {text rest : List Char} {c : Char}
    (h : skipSpace text = c :: rest) :
    skipValue opened text =
      if c == '[' then skipOn (.list :: opened) false rest
      else if c == '\x7b' then skipOn (.object :: opened) false rest
      else
        match skipScalar (c :: rest) with
        | .error fault => .error fault
        | .ok rest' => skipOn opened true rest' := by
  rw [skipValue]
  split
  · next h' => rw [h] at h'; cases h'
  · next h' =>
    rw [h] at h'
    obtain ⟨rfl, rfl⟩ := List.cons.inj h'
    split
    · rfl
    · split
      · rfl
      · split
        · next hscalar => simp only [hscalar]
        · next hscalar => simp only [hscalar]

theorem skipSpace_gap {gap : List Char} (hgap : Spaces gap) (text : List Char) :
    skipSpace (gap ++ text) = skipSpace text :=
  List.dropWhile_append_of_pos hgap

theorem skipValue_gap {gap : List Char} (hgap : Spaces gap) (opened : List Bracket)
    (text : List Char) : skipValue opened (gap ++ text) = skipValue opened text := by
  have hskip := skipSpace_gap hgap text
  cases htext : skipSpace text with
  | nil => rw [skipValue_nil (hskip.trans htext), skipValue_nil htext]
  | cons c rest => rw [skipValue_cons (hskip.trans htext), skipValue_cons htext]

theorem skipEntry_gap {gap : List Char} (hgap : Spaces gap) (bracket : Bracket)
    (opened : List Bracket) (text : List Char) :
    skipEntry bracket opened (gap ++ text) = skipEntry bracket opened text := by
  cases bracket with
  | list => exact skipValue_gap hgap _ text
  | object =>
    have hkey : skipKey (gap ++ text) = skipKey text := by
      rw [skipKey, skipSpace_gap hgap, ← skipKey]
    simp only [skipEntry, skipLabel, hkey]

theorem skipOn_first {bracket : Bracket} {opened : List Bracket} {gap text : List Char} {c : Char}
    (hgap : Spaces gap) (hc : isSpace c = false) (hne : c ≠ bracket.closing) :
    skipOn (bracket :: opened) false (gap ++ c :: text) = skipEntry bracket opened (c :: text) := by
  have hskip : skipSpace (gap ++ c :: text) = c :: text :=
    skipSpace_append hgap (by simpa using hc)
  rw [skipOn]
  split
  · next h => rw [hskip] at h; cases h
  · next h =>
    rw [hskip] at h
    obtain ⟨rfl, rfl⟩ := List.cons.inj h
    simp only [beq_iff_eq, hne, if_false, Bool.false_eq_true]
    rw [skipEntry]
    split <;> simp_all

theorem skipOn_comma {bracket : Bracket} {opened : List Bracket} {gap text : List Char}
    (hgap : Spaces gap) :
    skipOn (bracket :: opened) true (gap ++ ',' :: text) = skipEntry bracket opened text := by
  have hskip : skipSpace (gap ++ ',' :: text) = ',' :: text := skipSpace_append hgap (by rfl)
  have hne : (',' == bracket.closing) = false := by cases bracket <;> rfl
  rw [skipOn]
  split
  · next h => rw [hskip] at h; cases h
  · next h =>
    rw [hskip] at h
    obtain ⟨rfl, rfl⟩ := List.cons.inj h
    simp only [hne, beq_self_eq_true, if_true, Bool.false_eq_true, if_false]
    rw [skipEntry]
    split <;> simp_all

/-- The value of an entry stands behind its label, within one more bracket. -/
theorem skipEntry_label {bracket : Bracket} {label : List Char} (h : LabelText bracket label)
    (opened : List Bracket) (text : List Char) :
    skipEntry bracket opened (label ++ text) = skipValue (bracket :: opened) text := by
  cases h with
  | list => rfl
  | @object written gap hwritten hgap =>
    have hkey : skipKey ('"' :: (written ++ '"' :: (gap ++ [':'])) ++ text) = .ok text := by
      rw [List.cons_append, List.append_assoc, List.cons_append, List.append_assoc, skipKey,
        skipSpace_of_head (by rfl)]
      simp only [beq_self_eq_true, if_true, skipString_of_passable hwritten, List.singleton_append,
        readColon_append hgap]
    simp only [skipEntry, skipLabel, hkey]

/-! ### Values -/

theorem skipValue_open (bracket : Bracket) (opened : List Bracket) (text : List Char) :
    skipValue opened (bracket.opening :: text) = skipOn (bracket :: opened) false text := by
  have hskip : skipSpace (bracket.opening :: text) = bracket.opening :: text :=
    skipSpace_of_head (by cases bracket <;> rfl)
  rw [skipValue_cons hskip]
  cases bracket <;> rfl

/-- A character that can start a value: it is no blank and closes no bracket. -/
def Starts (c : Char) : Prop := c ∉ [' ', '\n', '\t', '\r', ']', '\x7d']

instance (c : Char) : Decidable (Starts c) := inferInstanceAs (Decidable (¬ _))

theorem Starts.isSpace {c : Char} (h : Starts c) : isSpace c = false := by
  simp_all [Starts, Json.isSpace]

/-- No value begins like the end of a container. -/
theorem Starts.ne_closing {c : Char} (h : Starts c) (bracket : Bracket) : c ≠ bracket.closing := by
  rintro rfl
  cases bracket with
  | list => exact h (by decide)
  | object => exact h (by decide)

theorem starts_of_isDigit {c : Char} (h : c.isDigit = true) : Starts c := by
  intro hmem
  simp only [List.mem_cons, List.not_mem_nil, or_false] at hmem
  rcases hmem with hc | hc | hc | hc | hc | hc
  all_goals exact ne_of_isDigit h rfl hc

/-- A number starts with a sign or a digit. -/
theorem NumberText.exists_cons {text : List Char} (h : NumberText text) :
    ∃ c rest, text = c :: rest ∧ (c = '-' ∨ c.isDigit = true) := by
  cases h with
  | @mk sign whole fraction exponent hsign hwhole _ _ =>
    obtain ⟨c, others, rfl⟩ := List.exists_cons_of_ne_nil hwhole.1.1
    simp only [List.mem_cons, List.not_mem_nil, or_false] at hsign
    rcases hsign with rfl | rfl
    · exact ⟨c, _, rfl, .inr (hwhole.1.2 c List.mem_cons_self)⟩
    · exact ⟨'-', _, rfl, .inl rfl⟩

/-- The first character of a word or a number: it starts no string and opens no bracket. -/
theorem PlainText.exists_cons {text : List Char} (h : PlainText text) :
    ∃ c rest, text = c :: rest ∧ Starts c ∧ c ∉ ['"', '[', '\x7b'] := by
  cases h with
  | word hword =>
    simp only [List.mem_cons, List.not_mem_nil, or_false] at hword
    rcases hword with rfl | rfl | rfl
    all_goals exact ⟨_, _, rfl, by decide, by decide⟩
  | number hnumber =>
    obtain ⟨c, rest, rfl, rfl | hdigit⟩ := hnumber.exists_cons
    · exact ⟨_, _, rfl, by decide, by decide⟩
    · refine ⟨c, rest, rfl, starts_of_isDigit hdigit, ?_⟩
      simp only [List.mem_cons, List.not_mem_nil, or_false, not_or]
      exact ⟨ne_of_isDigit hdigit rfl, ne_of_isDigit hdigit rfl, ne_of_isDigit hdigit rfl⟩

theorem starts_opening (bracket : Bracket) : Starts bracket.opening := by
  cases bracket <;> decide

theorem ValueText.exists_cons {text : List Char} (h : ValueText text) :
    ∃ c rest, text = c :: rest ∧ Starts c := by
  cases h with
  | plain hplain =>
    obtain ⟨c, rest, rfl, hc, -⟩ := hplain.exists_cons
    exact ⟨c, rest, rfl, hc⟩
  | string _ => exact ⟨'"', _, rfl, by decide⟩
  | empty bracket => exact ⟨_, _, rfl, starts_opening bracket⟩
  | full bracket => exact ⟨_, _, rfl, starts_opening bracket⟩

theorem skipValue_scalar {c : Char} {text rest : List Char} (hc : Starts c)
    (hopening : c ∉ ['[', '\x7b']) (h : skipScalar (c :: text) = .ok rest)
    (opened : List Bracket) : skipValue opened (c :: text) = skipOn opened true rest := by
  simp only [List.mem_cons, List.not_mem_nil, or_false, not_or] at hopening
  have hskip : skipSpace (c :: text) = c :: text := skipSpace_of_head (by simpa using hc.isSpace)
  rw [skipValue_cons hskip]
  simp only [beq_iff_eq, hopening.1, hopening.2, if_false, h]

/-- The first token in a bracket does not close it. -/
theorem EntriesText.exists_cons {bracket : Bracket} {text : List Char}
    (h : EntriesText bracket text) (post : List Char) :
    ∃ gap c rest, Spaces gap ∧ Starts c ∧ text ++ post = gap ++ c :: rest := by
  have hentry : ∀ {left label gap text : List Char} (tail : List Char), Spaces left →
      LabelText bracket label → Spaces gap → ValueText text →
      ∃ gap' c rest, Spaces gap' ∧ Starts c ∧
        left ++ (label ++ (gap ++ (text ++ tail))) = gap' ++ c :: rest := by
    intro left label gap text tail hleft hlabel hgap htext
    cases hlabel with
    | list =>
      obtain ⟨c, rest, rfl, hc⟩ := htext.exists_cons
      exact ⟨left ++ gap, c, rest ++ tail, spaces_append hleft hgap, hc, by simp⟩
    | object _ _ => exact ⟨left, '"', _, hleft, by decide, rfl⟩
  cases h with
  | last hleft hlabel hgap htext _ =>
    simp only [List.append_assoc]
    exact hentry _ hleft hlabel hgap htext
  | more hleft hlabel hgap htext _ _ =>
    simp only [List.append_assoc]
    exact hentry _ hleft hlabel hgap htext

theorem ends_append {gap rest : List Char} (hgap : Spaces gap) (hrest : Ends rest) :
    Ends (gap ++ rest) := by
  cases gap with
  | nil => exact hrest
  | cons c gap =>
    have hc := hgap c List.mem_cons_self
    simp only [isSpace, Bool.or_eq_true, beq_iff_eq] at hc
    rcases hc with ((rfl | rfl) | rfl) | rfl <;> rfl

mutual

/-- **A value of any kind is passed over**, whatever brackets are open around it. -/
theorem skipValue_of_valueText {text : List Char} (h : ValueText text) {rest : List Char}
    (hrest : Ends rest) (opened : List Bracket) :
    skipValue opened (text ++ rest) = skipOn opened true rest := by
  cases h with
  | plain hplain =>
    have hskip := skipScalar_plain hplain hrest
    obtain ⟨c, others, rfl, hc, hopening⟩ := hplain.exists_cons
    exact skipValue_scalar hc (List.not_mem_of_not_mem_cons hopening) hskip opened
  | string hwritten =>
    rw [List.cons_append, List.append_assoc]
    exact skipValue_scalar (by decide) (by decide) (skipScalar_string hwritten rest) opened
  | @empty bracket gap hgap =>
    rw [List.cons_append, skipValue_open, List.append_assoc]
    exact skipOn_close hgap
  | @full bracket text hentries =>
    obtain ⟨gap, c, others, hgap, hc, htext⟩ := hentries.exists_cons (bracket.closing :: rest)
    rw [List.cons_append, skipValue_open, List.append_assoc, List.singleton_append, htext,
      skipOn_first hgap hc.isSpace (hc.ne_closing bracket), ← skipEntry_gap hgap, ← htext]
    exact skipEntry_of_entriesText hentries rest opened
termination_by 2 * text.length
decreasing_by simp only [List.length_cons, List.length_append]; omega

/-- Entries are skipped up to the bracket that closes them.  The brackets that are open around them do
not matter, which is what the induction over the values needs. -/
theorem skipEntry_of_entriesText {bracket : Bracket} {text : List Char}
    (h : EntriesText bracket text) (rest : List Char) (opened : List Bracket) :
    skipEntry bracket opened (text ++ bracket.closing :: rest) = skipOn opened true rest := by
  cases h with
  | @last _ left label gap text right hleft hlabel hgap hvalue hright =>
    have hends : Ends (right ++ bracket.closing :: rest) :=
      ends_append hright (by cases bracket <;> rfl)
    simp only [List.append_assoc]
    rw [skipEntry_gap hleft, skipEntry_label hlabel, skipValue_gap hgap,
      skipValue_of_valueText hvalue hends]
    exact skipOn_close hright
  | @more _ left label gap text right others hleft hlabel hgap hvalue hright hothers =>
    have hends : Ends (right ++ ',' :: (others ++ bracket.closing :: rest)) :=
      ends_append hright rfl
    simp only [List.append_assoc, List.cons_append]
    rw [skipEntry_gap hleft, skipEntry_label hlabel, skipValue_gap hgap,
      skipValue_of_valueText hvalue hends, skipOn_comma hright]
    exact skipEntry_of_entriesText hothers rest opened
termination_by 2 * text.length + 1
decreasing_by all_goals simp only [List.length_append, List.length_cons]; omega

end

/-! ### Contents are values -/

/-- A string that spells a text is passable. -/
theorem passable_of_spells {written value : List Char} (h : Spells written value) :
    Passable written := by
  induction h with
  | nil => exact .nil
  | plain hq hb hc _ ih => exact .plain hq hb hc ih
  | escape he _ ih => exact .escape he ih
  | unit hx _ _ _ ih => exact .unit hx ih
  | pair hm hn _ _ _ ih => exact .unit hm (.unit hn ih)

theorem valueText_of_stringText {text : List Char} {value : String} (h : StringText text value) :
    ValueText text := by
  cases h with
  | mk hspells => exact .string (passable_of_spells hspells)

theorem entriesText_of_elements {text : List Char} {values : List String}
    (h : Elements StringText text values) : EntriesText .list text := by
  induction h with
  | last hleft htext hright =>
    exact .last hleft .list spaces_nil (valueText_of_stringText htext) hright
  | more hleft htext hright _ ih =>
    exact .more hleft .list spaces_nil (valueText_of_stringText htext) hright ih

/-- What a field can hold is a value. -/
theorem valueText_of_contentText {text : List Char} {content : Content}
    (h : ContentText text content) : ValueText text := by
  cases h with
  | text hstring => exact valueText_of_stringText hstring
  | texts hlist =>
    cases hlist with
    | empty hgap => exact .empty .list hgap
    | full helems => exact .full .list (entriesText_of_elements helems)

end ProcBook.Json
