/-
ProcBook/Proofs/JsonContent.lean

What the readers make of any value.

`Reads` says that a reader reads every text of a grammar.  `Decides` says more, for texts of a wider
grammar `form`: the reader yields what `gives` allows and fails on everything else,

    reader.run (text ++ rest) = .ok (a, left) ↔ gives b a ∧ left = rest.

In particular nothing is read in part.  Such readers can be put into lists (`Decides.list`) and applied to
whole texts (`Decides.parse_iff`, `Decides.parse_eq_error`).

Strings and lists of strings are decided on values of any kind: a string whose escapes are not paired, or
a list with a number in it, is a value but no content.  `contents_iff` is the result for the fields of a
record.
-/
import Mathlib.Data.List.Forall2
import ProcBook.Proofs.JsonValue

namespace ProcBook.Json

theorem map_eq_ok_iff {α β : Type} {result : Except Fault α} {f : α → β} {b : β} :
    result.map f = .ok b ↔ ∃ a, result = .ok a ∧ f a = b := by
  cases result with
  | error fault => simp [Except.map]
  | ok a => simp [Except.map]

/-! ### Readers on texts of a form -/

/-- On texts of a form a reader yields what `gives` says and nothing else.  It passes over blanks in front
and leaves alone what follows. -/
structure Decides {α β : Type} (reader : Reader α) (form : List Char → β → Prop)
    (gives : β → α → Prop) : Prop where
  starts : ∀ {text : List Char} {b : β}, form text b → ∃ c rest, text = c :: rest ∧ Starts c
  blanks : ∀ {gap : List Char} (text : List Char), Spaces gap →
    reader.run (gap ++ text) = reader.run text
  run : ∀ {text : List Char} {b : β}, form text b → ∀ {rest left : List Char} {a : α},
    reader.run (text ++ rest) = .ok (a, left) ↔ gives b a ∧ left = rest

/-- A whole text is read if the reader leaves only blanks. -/
theorem parse_eq_ok_iff {α : Type} (reader : Reader α) (text : List Char) (a : α) :
    reader.parse text = .ok a ↔ ∃ left, reader.run text = .ok (a, left) ∧ Spaces left := by
  have hspaces : ∀ left, skipSpace left = [] ↔ Spaces left := fun left => List.dropWhile_eq_nil_iff
  rw [Reader.parse]
  constructor
  · intro h
    split at h
    · cases h
    · next b left hrun =>
      split at h
      · next hskip =>
        cases h
        exact ⟨left, hrun, (hspaces left).1 hskip⟩
      · cases h
  · rintro ⟨left, hrun, hleft⟩
    simp only [hrun, (hspaces left).2 hleft]

/-- One element of a list: it is read, and the reader goes on behind it. -/
theorem readElements_element_iff {α : Type} {reader : Reader α} {first : Bool}
    {input text left : List Char} {as : List α}
    (hnext : nextElement first input = .ok (.element text)) :
    readElements reader first input = .ok (as, left) ↔
      ∃ a rest as', reader.run text = .ok (a, rest) ∧
        readElements reader false rest = .ok (as', left) ∧ as = a :: as' := by
  cases hrun : reader.run text with
  | error fault =>
    have hread : readElements reader first input = .error fault := by
      rw [readElements]
      split
      · next h => rw [hnext] at h; cases h
      · next h => rw [hnext] at h; cases h
      · next h =>
        rw [hnext] at h
        cases h
        split
        · next h' => rw [hrun] at h'; cases h'; rfl
        · next h' => rw [hrun] at h'; cases h'
    simp [hread]
  | ok found =>
    obtain ⟨a, rest⟩ := found
    rw [readElements_element hnext hrun, map_eq_ok_iff]
    constructor
    · rintro ⟨⟨as', left'⟩, hrest, h⟩
      cases h
      exact ⟨a, rest, as', rfl, hrest, rfl⟩
    · rintro ⟨b, rest', as', h, hrest, rfl⟩
      cases h
      exact ⟨(as', left), hrest, rfl⟩

section Decides

variable {α β γ : Type} {reader : Reader α} {form : List Char → β → Prop} {gives : β → α → Prop}

/-- A whole text may have blanks around it. -/
theorem Decides.parse_iff (h : Decides reader form gives) {text : List Char} {b : β}
    (htext : form text b) {left right : List Char} (hleft : Spaces left) (hright : Spaces right)
    (a : α) : reader.parse (left ++ (text ++ right)) = .ok a ↔ gives b a := by
  rw [parse_eq_ok_iff, h.blanks _ hleft]
  constructor
  · rintro ⟨rest, hrun, -⟩
    exact ((h.run htext).1 hrun).1
  · intro hgives
    exact ⟨right, (h.run htext).2 ⟨hgives, rfl⟩, hright⟩

/-- A text of the form that gives nothing is refused as a whole. -/
theorem Decides.parse_eq_error (h : Decides reader form gives) {text : List Char} {b : β}
    (htext : form text b) {left right : List Char} (hleft : Spaces left) (hright : Spaces right)
    (hnone : ∀ a, ¬ gives b a) :
    ∃ error, reader.parse (left ++ (text ++ right)) = .error error := by
  cases hparse : reader.parse (left ++ (text ++ right)) with
  | error error => exact ⟨error, rfl⟩
  | ok a => exact absurd ((h.parse_iff htext hleft hright a).1 hparse) (hnone a)

theorem Decides.map (h : Decides reader form gives) (f : α → γ) :
    Decides (reader.map f) form fun b c => ∃ a, gives b a ∧ f a = c where
  starts := h.starts
  blanks := by
    intro gap text hgap
    show (reader.run (gap ++ text)).map _ = (reader.run text).map _
    rw [h.blanks text hgap]
  run := by
    intro text b hform rest left c
    show (reader.run (text ++ rest)).map _ = _ ↔ _
    rw [map_eq_ok_iff]
    constructor
    · rintro ⟨⟨a, left'⟩, hrun, hmap⟩
      cases hmap
      obtain ⟨hgives, hleft⟩ := (h.run hform).1 hrun
      exact ⟨⟨a, hgives, rfl⟩, hleft⟩
    · rintro ⟨⟨a, hgives, rfl⟩, rfl⟩
      exact ⟨(a, left), (h.run hform).2 ⟨hgives, rfl⟩, rfl⟩

theorem Decides.skipSpace_append (h : Decides reader form gives) {gap text : List Char} {b : β}
    (hgap : Spaces gap) (htext : form text b) (tail : List Char) :
    skipSpace (gap ++ (text ++ tail)) = text ++ tail := by
  obtain ⟨c, rest, rfl, hc⟩ := h.starts htext
  exact Json.skipSpace_append hgap (by simpa using hc.isSpace)

/-- Elements of a form are read one by one up to the closing bracket. -/
theorem Decides.readElements_iff (h : Decides reader form gives) {text : List Char} {bs : List β}
    (helems : Elements form text bs) (rest : List Char) {first : Bool} {input : List Char}
    (hnext : nextElement first input = .ok (.element (skipSpace (text ++ ']' :: rest))))
    {as : List α} {left : List Char} :
    readElements reader first input = .ok (as, left) ↔ List.Forall₂ gives bs as ∧ left = rest := by
  -- The induction is on the elements, where the reader stands at the first of those left.
  induction helems generalizing first input as with
  | @last gap text right b hgap hitem hright =>
    have hskip : skipSpace (gap ++ (text ++ right) ++ ']' :: rest) = text ++ (right ++ ']' :: rest) := by
      rw [List.append_assoc, List.append_assoc]
      exact h.skipSpace_append hgap hitem _
    have hclose : readElements reader false (right ++ ']' :: rest) = .ok ([], rest) :=
      readElements_close reader hright
    rw [readElements_element_iff hnext, hskip]
    constructor
    · rintro ⟨a, left', as', hrun, hmore, rfl⟩
      obtain ⟨hgives, rfl⟩ := (h.run hitem).1 hrun
      rw [hclose] at hmore
      cases hmore
      exact ⟨.cons hgives .nil, rfl⟩
    · rintro ⟨hall, rfl⟩
      obtain ⟨a, as', hgives, hnil, rfl⟩ := List.forall₂_cons_left_iff.1 hall
      obtain rfl := List.forall₂_nil_left_iff.1 hnil
      exact ⟨a, _, [], (h.run hitem).2 ⟨hgives, rfl⟩, hclose, rfl⟩
  | @more gap text right others b bs hgap hitem hright hothers ih =>
    have hskip : skipSpace (gap ++ (text ++ (right ++ ',' :: others)) ++ ']' :: rest) =
        text ++ (right ++ ',' :: (others ++ ']' :: rest)) := by
      simp only [List.append_assoc, List.cons_append]
      exact h.skipSpace_append hgap hitem _
    -- Behind the comma the reader stands before the first of the other elements.
    obtain ⟨gap', c, tail, hgap', hc, htail⟩ := hothers.exists_cons h.starts (']' :: rest)
    have hnext' : nextElement false (right ++ ',' :: (others ++ ']' :: rest)) =
        .ok (.element (skipSpace (others ++ ']' :: rest))) := by
      rw [htail, Json.skipSpace_append hgap' (by simpa using hc.isSpace)]
      exact nextElement_comma hright hgap' hc.isSpace (hc.ne_closing .list)
    rw [readElements_element_iff hnext, hskip]
    constructor
    · rintro ⟨a, left', as', hrun, hmore, rfl⟩
      obtain ⟨hgives, rfl⟩ := (h.run hitem).1 hrun
      obtain ⟨hall, rfl⟩ := (ih hnext').1 hmore
      exact ⟨.cons hgives hall, rfl⟩
    · rintro ⟨hall, rfl⟩
      obtain ⟨a, as', hgives, hmore, rfl⟩ := List.forall₂_cons_left_iff.1 hall
      exact ⟨a, _, as', (h.run hitem).2 ⟨hgives, rfl⟩, (ih hnext').2 ⟨hmore, rfl⟩, rfl⟩

/-- A reader that decides its elements decides lists of them. -/
theorem Decides.list (h : Decides reader form gives) :
    Decides reader.list (Enclosed '[' ']' form) (List.Forall₂ gives) where
  starts := by
    rintro text bs (- | -)
    · exact ⟨'[', _, rfl, by decide⟩
    · exact ⟨'[', _, rfl, by decide⟩
  blanks := by
    intro gap text hgap
    show readList reader (gap ++ text) = readList reader text
    rw [readList, skipSpace_gap hgap, ← readList]
  run := by
    rintro text bs hlist rest left as
    show readList reader (text ++ rest) = _ ↔ _
    rw [readList]
    -- An empty list is closed at once. In any other the reader stands before its first element.
    cases hlist with
    | @empty gap hgap =>
      rw [List.cons_append, skipSpace_of_head (by rfl), List.append_assoc]
      show readElements reader true (gap ++ ']' :: rest) = _ ↔ _
      rw [readElements_close reader hgap]
      simp [eq_comm]
    | @full text bs helems =>
      rw [List.cons_append, skipSpace_of_head (by rfl), List.append_assoc]
      apply h.readElements_iff helems
      obtain ⟨gap, c, tail, hgap, hc, htail⟩ := helems.exists_cons h.starts (']' :: rest)
      rw [List.singleton_append, htail, Json.skipSpace_append hgap (by simpa using hc.isSpace)]
      exact nextElement_first hgap hc.isSpace (hc.ne_closing .list)

end Decides

/-! ### Strings -/

theorem readHex_sound {text rest : List Char} {n : Nat} (h : readHex text = .ok (n, rest)) :
    ∃ digits, Hex4 digits n ∧ text = digits ++ rest := by
  unfold readHex at h
  split at h
  · split at h
    · next ha hb hc hd =>
      cases h
      exact ⟨_, .mk ha hb hc hd, rfl⟩
    · cases h
  · cases h

/-- The second half of a pair, if it can be read, is an escape by number. -/
theorem readSecondHalf_sound {text rest : List Char} {leading : Nat} {c : Char}
    (h : readSecondHalf leading text = .ok (c, rest)) :
    ∃ digits n, Hex4 digits n ∧ isTrailing n = true ∧ c = ofPair leading n ∧
      text = '\\' :: 'u' :: (digits ++ rest) := by
  unfold readSecondHalf at h
  split at h
  · cases h
  · split at h
    · cases h
    · next n rest' hread =>
      split at h
      · next htrailing =>
        obtain ⟨rfl, rfl⟩ := Prod.mk.inj (Except.ok.inj h)
        obtain ⟨digits, hdigits, rfl⟩ := readHex_sound hread
        exact ⟨digits, n, hdigits, htrailing, rfl, rfl⟩
      · cases h
  · cases h
  · cases h
  · cases h

/-- An escape, if it can be read, stands for one character, perhaps with the escape behind it. -/
theorem readEscape_sound {text rest : List Char} {c : Char} (h : readEscape text = .ok (c, rest)) :
    ∃ written, text = written ++ rest ∧
      ∀ {others value : List Char}, Spells others value →
        Spells ('\\' :: (written ++ others)) (c :: value) := by
  -- A letter, one unit, or a pair of which the second half is an escape of its own.
  unfold readEscape at h
  split at h
  · cases h
  · next e text =>
    split at h
    · next d hsimple =>
      cases h
      exact ⟨[e], rfl, .escape hsimple⟩
    · split at h
      · next hunit =>
        obtain rfl := eq_of_beq hunit
        split at h
        · cases h
        · next n rest' hread =>
          obtain ⟨digits, hdigits, rfl⟩ := readHex_sound hread
          split at h
          · cases h
          · next htrailing =>
            split at h
            · next hleading =>
              obtain ⟨second, m, hsecond, hm, hc, rfl⟩ := readSecondHalf_sound h
              refine ⟨'u' :: (digits ++ '\\' :: 'u' :: second), by simp, fun hothers => ?_⟩
              rw [hc]
              simpa using Spells.pair hdigits hsecond hleading hm hothers
            · next hleading =>
              obtain ⟨rfl, rfl⟩ := Prod.mk.inj (Except.ok.inj h)
              refine ⟨'u' :: digits, rfl, fun hothers => ?_⟩
              exact .unit hdigits (Bool.eq_false_iff.2 htrailing) (Bool.eq_false_iff.2 hleading) hothers
      · cases h

/-- What is read up to a quotation mark is spelled there. -/
theorem readString_sound {text value rest : List Char} (h : readString text = .ok (value, rest)) :
    ∃ written, Spells written value ∧ text = written ++ '"' :: rest := by
  fun_induction readString text generalizing value rest with
  | case1 | case3 | case5 => cases h
  | case2 c text hquote =>
    cases h
    obtain rfl := eq_of_beq hquote
    exact ⟨[], .nil, rfl⟩
  | case4 c text _ hslash d text' hread _ ih =>
    obtain ⟨⟨value', left⟩, hrest, h⟩ := map_eq_ok_iff.1 h
    cases h
    obtain rfl := eq_of_beq hslash
    obtain ⟨escape, rfl, hescape⟩ := readEscape_sound hread
    obtain ⟨written, hspells, rfl⟩ := ih hrest
    exact ⟨'\\' :: (escape ++ written), hescape hspells, by simp⟩
  | case6 c text hquote hslash hcontrol ih =>
    obtain ⟨⟨value', left⟩, hrest, h⟩ := map_eq_ok_iff.1 h
    cases h
    obtain ⟨written, hspells, rfl⟩ := ih hrest
    exact ⟨c :: written, .plain (by simpa using hquote) (by simpa using hslash) hcontrol hspells, rfl⟩

/-- A string is read to its end or not at all: escapes that are not paired are faults. -/
theorem spells_of_readString {written rest left value : List Char} (hwritten : Passable written)
    (h : readString (written ++ '"' :: rest) = .ok (value, left)) :
    Spells written value ∧ left = rest := by
  obtain ⟨written', hspells, htext⟩ := readString_sound h
  -- Whatever a string stands for, it is passed over up to one place only.
  have hskip := skipString_of_passable hwritten rest
  rw [htext, skipString_of_passable (passable_of_spells hspells)] at hskip
  cases hskip
  obtain rfl := List.append_cancel_right htext
  exact ⟨hspells, rfl⟩

theorem readText_ne_ok {c : Char} (hc : Starts c) (hne : c ≠ '"') (text : List Char)
    (result : String × List Char) : readText (c :: text) ≠ .ok result := by
  rw [readText, skipSpace_of_head (by simpa using hc.isSpace)]
  split
  · next h => exact absurd (List.cons.inj h).1 hne
  · intro h
    cases h

/-- Among the values only a string is read as a text, and it is read to its end. -/
theorem stringText_of_readText {text rest left : List Char} {value : String} (htext : ValueText text)
    (h : readText (text ++ rest) = .ok (value, left)) : StringText text value ∧ left = rest := by
  cases htext with
  | plain hplain =>
    obtain ⟨c, others, rfl, hc, hopening⟩ := hplain.exists_cons
    exact absurd h (readText_ne_ok hc (List.ne_of_not_mem_cons hopening) _ _)
  | @string written hwritten =>
    rw [readText, List.cons_append, List.append_assoc, skipSpace_of_head (by rfl)] at h
    obtain ⟨⟨value', left'⟩, hread, h⟩ := map_eq_ok_iff.1 h
    cases h
    obtain ⟨hspells, hleft⟩ := spells_of_readString hwritten hread
    exact ⟨.mk hspells, hleft⟩
  | empty bracket =>
    have hne : bracket.opening ≠ '"' := by cases bracket <;> decide
    exact absurd h (readText_ne_ok (starts_opening bracket) hne _ _)
  | full bracket =>
    have hne : bracket.opening ≠ '"' := by cases bracket <;> decide
    exact absurd h (readText_ne_ok (starts_opening bracket) hne _ _)

/-- Values of any kind, each standing for its own text. -/
inductive AnyValue : List Char → List Char → Prop
  | mk {text : List Char} : ValueText text → AnyValue text text

/-- On values the reader of texts yields exactly what strings stand for. -/
theorem decides_text : Decides Reader.text AnyValue StringText where
  starts := by
    rintro text value ⟨htext⟩
    exact htext.exists_cons
  blanks := by
    intro gap text hgap
    show readText (gap ++ text) = readText text
    rw [readText, skipSpace_gap hgap, ← readText]
  run := by
    rintro text value ⟨htext⟩ rest left string
    constructor
    · exact stringText_of_readText htext
    · rintro ⟨hstring, rfl⟩
      exact readText_of_stringText hstring left

/-! ### Lists of strings -/

/-- What stands in the brackets of a list are values. -/
theorem elements_of_entriesText {text : List Char} (h : EntriesText .list text) :
    ∃ values, Elements AnyValue text values := by
  cases h with
  | @last _ left label gap text right hleft hlabel hgap hvalue hright =>
    cases hlabel
    refine ⟨[text], ?_⟩
    have hlast := Elements.last (spaces_append hleft hgap) (AnyValue.mk hvalue) hright
    simpa only [List.append_assoc, List.nil_append] using hlast
  | @more _ left label gap text right others hleft hlabel hgap hvalue hright hothers =>
    cases hlabel
    obtain ⟨values, hvalues⟩ := elements_of_entriesText hothers
    refine ⟨text :: values, ?_⟩
    have hmore := Elements.more (spaces_append hleft hgap) (AnyValue.mk hvalue) hright hvalues
    simpa only [List.append_assoc, List.nil_append] using hmore
termination_by text.length
decreasing_by
  subst_vars
  simp only [List.length_append, List.length_cons]
  omega

/-- Values that are strings one by one are a list of strings. -/
theorem Elements.of_forall₂ {text : List Char} {values : List (List Char)} {strings : List String}
    (h : Elements AnyValue text values) (hall : List.Forall₂ StringText values strings) :
    Elements StringText text strings := by
  induction h generalizing strings with
  | last hleft hvalue hright =>
    cases hvalue
    obtain ⟨string, others, hstring, hnil, rfl⟩ := List.forall₂_cons_left_iff.1 hall
    obtain rfl := List.forall₂_nil_left_iff.1 hnil
    exact .last hleft hstring hright
  | more hleft hvalue hright _ ih =>
    cases hvalue
    obtain ⟨string, others, hstring, hothers, rfl⟩ := List.forall₂_cons_left_iff.1 hall
    exact .more hleft hstring hright (ih hothers)

theorem readList_ne_ok {c : Char} (hc : Starts c) (hne : c ≠ '[') (text : List Char)
    (result : List String × List Char) : readList Reader.text (c :: text) ≠ .ok result := by
  rw [readList, skipSpace_of_head (by simpa using hc.isSpace)]
  split
  · next h => exact absurd (List.cons.inj h).1 hne
  · intro h
    cases h

/-- Among the values only a list of strings is read as one. -/
theorem enclosed_of_readList {text rest left : List Char} {strings : List String}
    (htext : ValueText text) (h : readList Reader.text (text ++ rest) = .ok (strings, left)) :
    Enclosed '[' ']' StringText text strings ∧ left = rest := by
  cases htext with
  | plain hplain =>
    obtain ⟨c, others, rfl, hc, hopening⟩ := hplain.exists_cons
    have hne : c ≠ '[' := List.ne_of_not_mem_cons (List.not_mem_of_not_mem_cons hopening)
    exact absurd h (readList_ne_ok hc hne _ _)
  | string _ => exact absurd h (readList_ne_ok (by decide) (by decide) _ _)
  | empty bracket hgap =>
    cases bracket with
    | list =>
      obtain ⟨hnil, rfl⟩ := (decides_text.list.run (.empty hgap)).1 h
      obtain rfl := List.forall₂_nil_left_iff.1 hnil
      exact ⟨.empty hgap, rfl⟩
    | object => exact absurd h (readList_ne_ok (by decide) (by decide) _ _)
  | full bracket hentries =>
    cases bracket with
    | list =>
      obtain ⟨values, hvalues⟩ := elements_of_entriesText hentries
      obtain ⟨hall, rfl⟩ := (decides_text.list.run (.full hvalues)).1 h
      exact ⟨.full (hvalues.of_forall₂ hall), rfl⟩
    | object => exact absurd h (readList_ne_ok (by decide) (by decide) _ _)

/-- On values the reader of lists yields exactly what lists of strings stand for. -/
theorem decides_texts : Decides Reader.text.list AnyValue (Enclosed '[' ']' StringText) where
  starts := decides_text.starts
  blanks := decides_text.list.blanks
  run := by
    rintro text value ⟨htext⟩ rest left strings
    constructor
    · exact enclosed_of_readList htext
    · rintro ⟨hstrings, rfl⟩
      exact readList_of_enclosed reads_text hstrings left

/-! ### Contents -/

/-- **A value is read as the content of a field if and only if it is one.** -/
theorem contents_iff {gap value : List Char} (hgap : Spaces gap) (hvalue : ValueText value)
    (shape : Shape) {rest left : List Char} {content : Content} :
    shape.reader.run (gap ++ (value ++ rest)) = .ok (content, left) ↔
      (ContentText value content ∧ content.shape = shape) ∧ left = rest := by
  cases shape with
  | text =>
    have htext := decides_text.map Content.text
    show (Reader.text.map Content.text).run _ = _ ↔ _
    rw [htext.blanks _ hgap, htext.run (.mk hvalue)]
    refine and_congr_left fun _ => ⟨?_, ?_⟩
    · rintro ⟨string, hstring, rfl⟩
      exact ⟨.text hstring, rfl⟩
    · rintro ⟨hcontent, hshape⟩
      cases hcontent with
      | text hstring => exact ⟨_, hstring, rfl⟩
      | texts _ => cases hshape
  | texts =>
    have htexts := decides_texts.map Content.texts
    show (Reader.text.list.map Content.texts).run _ = _ ↔ _
    rw [htexts.blanks _ hgap, htexts.run (.mk hvalue)]
    refine and_congr_left fun _ => ⟨?_, ?_⟩
    · rintro ⟨strings, hstrings, rfl⟩
      exact ⟨.texts hstrings, rfl⟩
    · rintro ⟨hcontent, hshape⟩
      cases hcontent with
      | text _ => cases hshape
      | texts hstrings => exact ⟨_, hstrings, rfl⟩

end ProcBook.Json
