/-
ProcBook/Proofs/JsonGrammar.lean

A grammar of JSON texts, and that the readers read what it allows.

The grammar is a family of relations between a text and what it stands for: `StringText` for strings
with any of the escapes, `Enclosed` for the elements of a list or the members of an object with blanks
wherever they may stand, `RecordText` for a record as an object.  None of them mentions a reader.

`readText_of_stringText` and `readList_of_enclosed` say that a reader gives back what a text stands for
and leaves alone what follows it.  A reader of elements is asked for two facts only, `Reads`: where a text
of an element starts, and that it is read.  Lists of any readable thing can then be read (`Reads.list`),
as elements of further lists or as whole texts (`Reads.parse`).  Records are read as the objects that
they are, of which later modules say more.
-/
import ProcBook.Json.Record
import ProcBook.Proofs.Text

namespace ProcBook.Json

open Text (hexDigit?)

/-! ### The grammar of strings -/

/-- Blanks between tokens. -/
def Spaces (text : List Char) : Prop := ∀ c ∈ text, isSpace c = true

instance (text : List Char) : Decidable (Spaces text) := decidable_of_iff _ List.all_eq_true

/-- Four hexadecimal digits and their value. -/
inductive Hex4 : List Char → Nat → Prop
  | mk {a b c d : Char} {i j k l : Nat} : hexDigit? a = some i → hexDigit? b = some j →
      hexDigit? c = some k → hexDigit? d = some l →
      Hex4 [a, b, c, d] (((i * 16 + j) * 16 + k) * 16 + l)

/-- What may stand between quotation marks, and the text it stands for.  A character stands for
itself unless it has to be escaped; any character may be escaped by its number, which takes two
escapes beyond the first plane. -/
inductive Spells : List Char → List Char → Prop
  | nil : Spells [] []
  | plain {c : Char} {written value : List Char} : c ≠ '"' → c ≠ '\\' → ¬ c < ' ' →
      Spells written value → Spells (c :: written) (c :: value)
  | escape {e c : Char} {written value : List Char} : simpleEscape? e = some c →
      Spells written value → Spells ('\\' :: e :: written) (c :: value)
  | unit {digits : List Char} {n : Nat} {written value : List Char} : Hex4 digits n →
      isTrailing n = false → isLeading n = false → Spells written value →
      Spells ('\\' :: 'u' :: (digits ++ written)) (Char.ofNat n :: value)
  | pair {first second : List Char} {m n : Nat} {written value : List Char} : Hex4 first m →
      Hex4 second n → isLeading m = true → isTrailing n = true → Spells written value →
      Spells ('\\' :: 'u' :: (first ++ '\\' :: 'u' :: (second ++ written))) (ofPair m n :: value)

/-- A string in quotation marks, and the text it stands for. -/
inductive StringText : List Char → String → Prop
  | mk {written value : List Char} : Spells written value →
      StringText ('"' :: (written ++ ['"'])) (String.ofList value)

/-! ### The grammar of lists and records -/

/-- Elements with commas between them and blanks around each. -/
inductive Elements {α : Type} (item : List Char → α → Prop) : List Char → List α → Prop
  | last {left text right : List Char} {a : α} : Spaces left → item text a → Spaces right →
      Elements item (left ++ (text ++ right)) [a]
  | more {left text right rest : List Char} {a : α} {as : List α} : Spaces left → item text a →
      Spaces right → Elements item rest as →
      Elements item (left ++ (text ++ (right ++ ',' :: rest))) (a :: as)

/-- Elements in brackets. -/
inductive Enclosed {α : Type} (opening closing : Char) (item : List Char → α → Prop) :
    List Char → List α → Prop
  | empty {gap : List Char} : Spaces gap → Enclosed opening closing item (opening :: (gap ++ [closing])) []
  | full {text : List Char} {as : List α} : Elements item text as →
      Enclosed opening closing item (opening :: (text ++ [closing])) as

/-- The shape of a content. -/
def Content.shape : Content → Shape
  | text _ => .text
  | texts _ => .texts

/-- The content of a field. -/
inductive ContentText : List Char → Content → Prop
  | text {t : List Char} {value : String} : StringText t value → ContentText t (.text value)
  | texts {t : List Char} {values : List String} : Enclosed '[' ']' StringText t values →
      ContentText t (.texts values)

/-- A key of a record, its colon and its content.  The key may be any that the layout knows the field
by. -/
inductive MemberText (layout : Layout) : List Char → String × Content → Prop
  | mk {name left right text : List Char} {key : String} {field : Field} {content : Content} :
      StringText name key → layout.field? key = some field → content.shape = field.shape →
      Spaces left → Spaces right → ContentText text content →
      MemberText layout (name ++ (left ++ ':' :: (right ++ text))) (field.key, content)

/-- A record as an object, and its fields in the order in which they are written. -/
abbrev RecordText (layout : Layout) : List Char → Fields → Prop :=
  Enclosed '\x7b' '\x7d' (MemberText layout)

/-! ### Blanks -/

theorem spaces_nil : Spaces [] := by
  intro c hc
  cases hc

theorem spaces_append {front back : List Char} (hfront : Spaces front) (hback : Spaces back) :
    Spaces (front ++ back) := by
  intro c hc
  rcases List.mem_append.1 hc with hc | hc
  · exact hfront c hc
  · exact hback c hc

theorem skipSpace_append {gap text : List Char} (hgap : Spaces gap)
    (h : text.head?.any isSpace = false) : skipSpace (gap ++ text) = text :=
  Text.dropWhile_append_of_head hgap h

theorem skipSpace_of_head {text : List Char} (h : text.head?.any isSpace = false) :
    skipSpace text = text :=
  skipSpace_append spaces_nil h

/-! ### Strings -/

theorem readHex_of_hex4 {digits : List Char} {n : Nat} (h : Hex4 digits n) (rest : List Char) :
    readHex (digits ++ rest) = .ok (n, rest) := by
  cases h with
  | mk ha hb hc hd => simp [readHex, ha, hb, hc, hd]

theorem readEscape_unit {digits : List Char} {n : Nat} (h : Hex4 digits n)
    (ht : isTrailing n = false) (hl : isLeading n = false) (rest : List Char) :
    readEscape ('u' :: (digits ++ rest)) = .ok (Char.ofNat n, rest) := by
  simp [readEscape, simpleEscape?, readHex_of_hex4 h, ht, hl]

/-- Two units that belong together are one character. -/
theorem readEscape_pair {first second : List Char} {m n : Nat} (hm : Hex4 first m)
    (hn : Hex4 second n) (hl : isLeading m = true) (ht : isTrailing n = true) (rest : List Char) :
    readEscape ('u' :: (first ++ '\\' :: 'u' :: (second ++ rest))) = .ok (ofPair m n, rest) := by
  -- The two ranges are disjoint, so the first half is not taken for a second one.
  have hm' : isTrailing m = false := by
    simp only [isLeading, isTrailing, Bool.and_eq_true, decide_eq_true_eq, Bool.and_eq_false_iff,
      decide_eq_false_iff_not] at hl ⊢
    omega
  simp [readEscape, simpleEscape?, readHex_of_hex4 hm, hm', hl, readSecondHalf, readHex_of_hex4 hn,
    ht]

/-- A backslash and what is read after it stand for one character of a string. -/
theorem readString_escape {text rest : List Char} {c : Char}
    (h : readEscape text = .ok (c, rest)) :
    readString ('\\' :: text) = (readString rest).map fun (value, rest) => (c :: value, rest) := by
  rw [readString]
  simp only [show ('\\' == '"') = false from rfl, Bool.false_eq_true, if_false, beq_self_eq_true,
    if_true]
  split
  · next h' => rw [h] at h'; cases h'
  · next h' =>
    rw [h] at h'
    obtain ⟨rfl, rfl⟩ := Prod.mk.inj (Except.ok.inj h')
    rfl

/-- What is spelled between quotation marks is read up to the closing mark. -/
theorem readString_of_spells {written value : List Char} (h : Spells written value)
    (rest : List Char) : readString (written ++ '"' :: rest) = .ok (value, rest) := by
  -- One case for each way to spell a character; all escapes are read by `readEscape`.
  induction h with
  | nil => simp [readString]
  | plain hq hb hc _ ih =>
    rw [List.cons_append, readString]
    simp [hq, hb, hc, ih, Except.map]
  | @escape e c written value he _ ih =>
    have hread : readEscape (e :: (written ++ '"' :: rest)) = .ok (c, written ++ '"' :: rest) := by
      simp [readEscape, he]
    rw [List.cons_append, List.cons_append, readString_escape hread, ih]
    rfl
  | unit hx ht hl _ ih =>
    rw [List.cons_append, List.cons_append, List.append_assoc,
      readString_escape (readEscape_unit hx ht hl _), ih]
    rfl
  | pair hm hn hl ht _ ih =>
    rw [List.cons_append, List.cons_append, List.append_assoc, List.cons_append, List.cons_append,
      List.append_assoc, readString_escape (readEscape_pair hm hn hl ht _), ih]
    rfl

/-! ### What a reader of elements has to do -/

/-- A reader reads the texts of `item`, none of which could be taken for a blank or for the end of a
list. -/
structure Reads {α : Type} (reader : Reader α) (item : List Char → α → Prop) : Prop where
  starts : ∀ {text : List Char} {a : α}, item text a →
    ∃ c rest, text = c :: rest ∧ isSpace c = false ∧ c ≠ ']'
  run : ∀ {text : List Char} {a : α}, item text a →
    ∀ rest, reader.run (text ++ rest) = .ok (a, rest)

/-- A readable text with blanks behind it is a whole text. -/
theorem Reads.parse {α : Type} {reader : Reader α} {item : List Char → α → Prop}
    (h : Reads reader item) {text : List Char} {a : α} (ha : item text a) {post : List Char}
    (hpost : Spaces post) : reader.parse (text ++ post) = .ok a := by
  have hskip : skipSpace post = [] := List.dropWhile_eq_nil_iff.2 hpost
  rw [Reader.parse, h.run ha]
  simp only [hskip]

/-- The reader of texts accepts whatever the grammar of strings allows. -/
theorem readText_of_stringText {text : List Char} {value : String} (h : StringText text value)
    (rest : List Char) : readText (text ++ rest) = .ok (value, rest) := by
  cases h with
  | mk hs =>
    rw [readText, List.cons_append, List.append_assoc, skipSpace_of_head (by rfl)]
    simp only [List.singleton_append, readString_of_spells hs, Except.map]

theorem reads_text : Reads Reader.text StringText where
  starts := by
    rintro text value ⟨-⟩
    exact ⟨'"', _, rfl, rfl, by decide⟩
  run := readText_of_stringText

/-! ### Lists -/

theorem nextElement_first {gap text : List Char} {c : Char} (hgap : Spaces gap)
    (hc : isSpace c = false) (hne : c ≠ ']') :
    nextElement true (gap ++ c :: text) = .ok (.element (c :: text)) := by
  rw [nextElement, skipSpace_append hgap (by simpa using hc)]
  simp [hne]

theorem nextElement_comma {before gap text : List Char} {c : Char} (hbefore : Spaces before)
    (hgap : Spaces gap) (hc : isSpace c = false) (hne : c ≠ ']') :
    nextElement false (before ++ ',' :: (gap ++ c :: text)) = .ok (.element (c :: text)) := by
  have hskip : skipSpace (gap ++ c :: text) = c :: text := skipSpace_append hgap (by simpa using hc)
  rw [nextElement, skipSpace_append hbefore (by rfl)]
  simp [hskip, hne]

theorem nextElement_close {first : Bool} {gap rest : List Char} (hgap : Spaces gap) :
    nextElement first (gap ++ ']' :: rest) = .ok (.closed rest) := by
  rw [nextElement, skipSpace_append hgap (by rfl)]
  rfl

/-- A list ends at its bracket, blanks in front of it or not, also if it is empty. -/
theorem readElements_close {α : Type} (reader : Reader α) {first : Bool} {gap rest : List Char}
    (hgap : Spaces gap) : readElements reader first (gap ++ ']' :: rest) = .ok ([], rest) := by
  have hnext : nextElement first (gap ++ ']' :: rest) = .ok (.closed rest) := nextElement_close hgap
  rw [readElements]
  split
  · next h => rw [hnext] at h; cases h
  · next h =>
    rw [hnext] at h
    cases h
    rfl
  · next h => rw [hnext] at h; cases h

/-- One step of a list: an element is read, and the reader goes on behind it. -/
theorem readElements_element {α : Type} {reader : Reader α} {first : Bool}
    {text rest rest' : List Char} {a : α} (hnext : nextElement first text = .ok (.element rest))
    (hrun : reader.run rest = .ok (a, rest')) :
    readElements reader first text =
      (readElements reader false rest').map fun (as, rest) => (a :: as, rest) := by
  rw [readElements]
  split
  · next h => rw [hnext] at h; cases h
  · next h => rw [hnext] at h; cases h
  · next h =>
    rw [hnext] at h
    cases h
    split
    · next h' => rw [hrun] at h'; cases h'
    · next h' =>
      rw [hrun] at h'
      cases h'
      rfl

/-- The first token of some elements is that of the first one. -/
theorem Elements.exists_cons {α : Type} {item : List Char → α → Prop} {P : Char → Prop}
    (hstart : ∀ {text a}, item text a → ∃ c rest, text = c :: rest ∧ P c)
    {text : List Char} {as : List α} (h : Elements item text as) (post : List Char) :
    ∃ gap c rest, Spaces gap ∧ P c ∧ text ++ post = gap ++ c :: rest := by
  cases h with
  | @last left text right _ hleft hitem _ =>
    obtain ⟨c, rest, rfl, hc⟩ := hstart hitem
    exact ⟨left, c, rest ++ (right ++ post), hleft, hc, by simp⟩
  | @more left text right more _ _ hleft hitem _ _ =>
    obtain ⟨c, rest, rfl, hc⟩ := hstart hitem
    exact ⟨left, c, rest ++ (right ++ ',' :: (more ++ post)), hleft, hc, by simp⟩

/-- Elements are read in order up to the closing bracket.  The reader may stand before the first of
them or behind an earlier one, which `hnext` leaves open: it says only where the first element is. -/
theorem readElements_of_elements {α : Type} {reader : Reader α} {item : List Char → α → Prop}
    (hreads : Reads reader item) {text : List Char} {as : List α} (h : Elements item text as)
    (rest : List Char) {first : Bool} {input : List Char}
    (hnext : nextElement first input = .ok (.element (skipSpace (text ++ ']' :: rest)))) :
    readElements reader first input = .ok (as, rest) := by
  induction h generalizing first input with
  | @last left text right a hleft hitem hright =>
    obtain ⟨c, text, rfl, hc, -⟩ := hreads.starts hitem
    have hskip : skipSpace (left ++ (c :: text ++ right) ++ ']' :: rest) =
        c :: text ++ (right ++ ']' :: rest) := by
      rw [List.append_assoc, List.append_assoc]
      exact skipSpace_append hleft (by simpa using hc)
    rw [hskip] at hnext
    rw [readElements_element hnext (hreads.run hitem _), readElements_close reader hright]
    rfl
  | @more left text right more a as hleft hitem hright hmore ih =>
    obtain ⟨c, text, rfl, hc, -⟩ := hreads.starts hitem
    have hskip : skipSpace (left ++ (c :: text ++ (right ++ ',' :: more)) ++ ']' :: rest) =
        c :: text ++ (right ++ ',' :: (more ++ ']' :: rest)) := by
      simp only [List.append_assoc, List.cons_append]
      exact skipSpace_append hleft (by simpa using hc)
    rw [hskip] at hnext
    -- Behind the comma the reader stands before the first of the other elements.
    obtain ⟨gap, d, tail, hgap, ⟨hd, hne⟩, htail⟩ :=
      hmore.exists_cons (P := fun c => isSpace c = false ∧ c ≠ ']') hreads.starts (']' :: rest)
    have hnext' : nextElement false (right ++ ',' :: (more ++ ']' :: rest)) =
        .ok (.element (skipSpace (more ++ ']' :: rest))) := by
      rw [htail, skipSpace_append hgap (by simpa using hd)]
      exact nextElement_comma hright hgap hd hne
    rw [readElements_element hnext (hreads.run hitem _), ih hnext']
    rfl

/-- A list of readable elements is read. -/
theorem readList_of_enclosed {α : Type} {reader : Reader α} {item : List Char → α → Prop}
    (hreads : Reads reader item) {text : List Char} {as : List α}
    (h : Enclosed '[' ']' item text as) (rest : List Char) :
    readList reader (text ++ rest) = .ok (as, rest) := by
  rw [readList]
  cases h with
  | empty hgap =>
    rw [List.cons_append, skipSpace_of_head (by rfl), List.append_assoc]
    exact readElements_close reader hgap
  | @full text as helems =>
    rw [List.cons_append, skipSpace_of_head (by rfl), List.append_assoc]
    refine readElements_of_elements hreads helems rest ?_
    obtain ⟨gap, c, tail, hgap, ⟨hc, hne⟩, htail⟩ :=
      helems.exists_cons (P := fun c => isSpace c = false ∧ c ≠ ']') hreads.starts (']' :: rest)
    rw [List.singleton_append, htail, skipSpace_append hgap (by simpa using hc)]
    exact nextElement_first hgap hc hne

/-- A reader that accepts its elements accepts lists of them. -/
theorem Reads.list {α : Type} {reader : Reader α} {item : List Char → α → Prop}
    (h : Reads reader item) : Reads reader.list (Enclosed '[' ']' item) where
  starts := by
    rintro text as (- | -)
    · exact ⟨'[', _, rfl, rfl, by decide⟩
    · exact ⟨'[', _, rfl, rfl, by decide⟩
  run := readList_of_enclosed h

/-! ### Keys -/

/-- In front of the first key there is no comma. -/
theorem nextKey_first {gap text : List Char} (hgap : Spaces gap) :
    nextKey true (gap ++ '"' :: text) = .ok (.element text) := by
  rw [nextKey, skipSpace_append hgap (by rfl)]
  rfl

/-- In front of any other there is one. -/
theorem nextKey_comma {before gap text : List Char} (hbefore : Spaces before) (hgap : Spaces gap) :
    nextKey false (before ++ ',' :: (gap ++ '"' :: text)) = .ok (.element text) := by
  have hskip : skipSpace (gap ++ '"' :: text) = '"' :: text := skipSpace_append hgap (by rfl)
  rw [nextKey, skipSpace_append hbefore (by rfl)]
  simp [hskip]

theorem nextKey_close {first : Bool} {gap rest : List Char} (hgap : Spaces gap) :
    nextKey first (gap ++ '\x7d' :: rest) = .ok (.closed rest) := by
  rw [nextKey, skipSpace_append hgap (by rfl)]
  rfl

theorem readColon_append {gap rest : List Char} (hgap : Spaces gap) :
    readColon (gap ++ ':' :: rest) = .ok rest := by
  rw [readColon, skipSpace_append hgap (by rfl)]
  rfl

end ProcBook.Json
