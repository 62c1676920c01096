/-
ProcBook/Proofs/JsonSound.lean

What is read has been written.

The texts of the grammar are read; this is the converse.  Whatever is taken off a text is a text of the
grammar, perhaps with blanks in front of it (`Leads`).  That goes for values of any kind that are passed
over (`skipValue_sound`) as well as for what readers read, which is `Sound` for strings, for lists of what
a sound reader reads and for the contents of fields.

A value is passed over with a list of the brackets that are open around it.  It takes what belongs to it,
and what follows is left to `skipOn`:

    skipValue opened text = .ok rest →
      ∃ text', Leads ValueText text text' ∧ skipOn opened true text' = .ok rest.
-/
import ProcBook.Proofs.JsonContent

namespace ProcBook.Json

/-! ### What leads a text -/

/-- Behind blanks stands a text of a form, and then the rest. -/
def Leads (form : List Char → Prop) (text rest : List Char) : Prop :=
  ∃ gap token, Spaces gap ∧ form token ∧ text = gap ++ (token ++ rest)

/-- What a reader takes off a text is a text of `item`. -/
structure Sound {α : Type} (reader : Reader α) (item : List Char → α → Prop) : Prop where
  leads : ∀ {text rest : List Char} {a : α}, reader.run text = .ok (a, rest) →
    Leads (item · a) text rest

theorem exists_skipSpace (text : List Char) : ∃ gap, Spaces gap ∧ text = gap ++ skipSpace text :=
  ⟨text.takeWhile isSpace, fun _ hc => List.mem_takeWhile_imp hc, List.takeWhile_append_dropWhile.symm⟩

section Leads

variable {form form' : List Char → Prop} {text token rest : List Char}

/-- Blanks in front belong to those the reader passes over. -/
theorem Leads.gap {gap : List Char} (hgap : Spaces gap) (h : Leads form text rest) :
    Leads form (gap ++ text) rest := by
  obtain ⟨gap', token, hgap', htoken, rfl⟩ := h
  exact ⟨gap ++ gap', token, spaces_append hgap hgap', htoken, by rw [List.append_assoc]⟩

theorem Leads.mono (himp : ∀ token, form token → form' token) (h : Leads form text rest) :
    Leads form' text rest := by
  obtain ⟨gap, token, hgap, htoken, rfl⟩ := h
  exact ⟨gap, token, hgap, himp token htoken, rfl⟩

/-- What stands behind the blanks of a text leads it. -/
theorem leads_of_skipSpace (htoken : form token) (h : skipSpace text = token ++ rest) :
    Leads form text rest := by
  obtain ⟨gap, hgap, htext⟩ := exists_skipSpace text
  rw [h] at htext
  exact ⟨gap, token, hgap, htoken, htext⟩

end Leads

/-- A single character that is looked for behind blanks is none itself. -/
theorem exists_gap {text rest : List Char} {c : Char} (h : skipSpace text = c :: rest) :
    ∃ gap, Spaces gap ∧ isSpace c = false ∧ text = gap ++ c :: rest := by
  obtain ⟨gap, hgap, htext⟩ := exists_skipSpace text
  have hc := List.head?_dropWhile_not isSpace text
  rw [← skipSpace, h] at hc
  rw [h] at htext
  exact ⟨gap, hgap, hc, htext⟩

/-! ### Numbers and words -/

theorem digits_takeWhile {text : List Char} (h : text.takeWhile Char.isDigit ≠ []) :
    Digits (text.takeWhile Char.isDigit) :=
  ⟨h, fun _ hc => List.mem_takeWhile_imp hc⟩

/-- The digits before the point are a zero or do not begin with one. -/
theorem scanWhole_sound {atEnd : Problem} {text whole rest : List Char}
    (h : scanWhole atEnd text = .ok (whole, rest)) : Whole whole ∧ text = whole ++ rest := by
  unfold scanWhole at h
  split at h
  · cases h
  · next c text =>
    -- A zero stands alone: the scan fails at a digit behind it.
    split at h
    · next hzero =>
      obtain rfl := eq_of_beq hzero
      split at h
      · cases h
      · cases h
        exact ⟨⟨⟨List.cons_ne_nil _ _, List.all_eq_true.1 rfl⟩, fun _ => rfl⟩, rfl⟩
    · next hzero =>
      split at h
      · next hdigit =>
        cases h
        refine ⟨⟨⟨List.cons_ne_nil _ _, ?_⟩, fun hhead => ?_⟩, ?_⟩
        · intro d hd
          rcases List.mem_cons.1 hd with rfl | hd
          · exact hdigit
          · exact List.mem_takeWhile_imp hd
        · exact absurd (Option.some.inj hhead) (by simpa using hzero)
        · rw [List.cons_append, List.takeWhile_append_dropWhile]
      · cases h

/-- The part behind the point is none or has digits. -/
theorem scanFraction_sound {atEnd : Problem} {text digits rest : List Char}
    (h : scanFraction atEnd text = .ok (digits, rest)) :
    ∃ fraction, Fraction fraction ∧ text = fraction ++ rest := by
  unfold scanFraction at h
  split at h
  · next text =>
    split at h
    · cases h
    · next hdigits =>
      cases h
      refine ⟨'.' :: text.takeWhile Char.isDigit, .some (digits_takeWhile hdigits), ?_⟩
      rw [List.cons_append, List.takeWhile_append_dropWhile]
  · cases h
    exact ⟨[], .none, rfl⟩

theorem scanExponentDigits_sound {atEnd : Problem} {negative : Bool} {text rest : List Char}
    {found : Option (Bool × List Char)}
    (h : scanExponentDigits atEnd negative text = .ok (found, rest)) :
    ∃ digits, Digits digits ∧ text = digits ++ rest := by
  unfold scanExponentDigits at h
  split at h
  · cases h
  · next hdigits =>
    cases h
    exact ⟨_, digits_takeWhile hdigits, List.takeWhile_append_dropWhile.symm⟩

/-- The exponent is none or has digits, with a sign or without. -/
theorem scanExponent_sound {atEnd : Problem} {text rest : List Char}
    {found : Option (Bool × List Char)} (h : scanExponent atEnd text = .ok (found, rest)) :
    ∃ exponent, Exponent exponent ∧ text = exponent ++ rest := by
  unfold scanExponent at h
  split at h
  · cases h
    exact ⟨[], .none, rfl⟩
  · next e text =>
    split at h
    · next hletter =>
      have he : e ∈ ['e', 'E'] := by simpa using hletter
      split at h
      · obtain ⟨digits, hdigits, rfl⟩ := scanExponentDigits_sound h
        exact ⟨e :: (['-'] ++ digits), .some he (by decide) hdigits, rfl⟩
      · obtain ⟨digits, hdigits, rfl⟩ := scanExponentDigits_sound h
        exact ⟨e :: (['+'] ++ digits), .some he (by decide) hdigits, rfl⟩
      · obtain ⟨digits, hdigits, rfl⟩ := scanExponentDigits_sound h
        exact ⟨e :: ([] ++ digits), .some he (by decide) hdigits, rfl⟩
    · cases h
      exact ⟨[], .none, rfl⟩

/-- What is read behind a sign makes a number with it. -/
theorem scanNumeral_sound {atEnd : Problem} {negative : Bool} {sign text rest : List Char}
    (hsign : sign ∈ [[], ['-']]) (h : (scanNumeral atEnd negative text).map (·.2) = .ok rest) :
    ∃ number, NumberText (sign ++ number) ∧ text = number ++ rest := by
  obtain ⟨⟨numeral, left⟩, hread, rfl⟩ := map_eq_ok_iff.1 h
  unfold scanNumeral at hread
  split at hread
  · cases hread
  · next hscan =>
    obtain ⟨hwhole, rfl⟩ := scanWhole_sound hscan
    split at hread
    · cases hread
    · next hscan =>
      obtain ⟨fraction, hfraction, rfl⟩ := scanFraction_sound hscan
      obtain ⟨⟨found, left⟩, hscan, hread⟩ := map_eq_ok_iff.1 hread
      cases hread
      obtain ⟨exponent, hexponent, rfl⟩ := scanExponent_sound hscan
      exact ⟨_, .mk hsign hwhole hfraction hexponent, by simp⟩

/-- A literal is read letter by letter. -/
theorem readLetters_sound {letters text rest : List Char} (h : readLetters letters text = .ok rest) :
    text = letters ++ rest := by
  induction letters generalizing text with
  | nil => exact Except.ok.inj h
  | cons l letters ih =>
    cases text with
    | nil => cases h
    | cons c text =>
      rw [readLetters] at h
      split at h
      · next hl => rw [ih h, eq_of_beq hl, List.cons_append]
      · cases h

/-! ### Strings that are passed over -/

/-- An escape that is skipped is one that may stand in a string, whatever follows it. -/
theorem skipEscape_sound {text rest : List Char} (h : skipEscape text = .ok rest) :
    ∃ written, text = written ++ rest ∧
      ∀ {others : List Char}, Passable others → Passable ('\\' :: (written ++ others)) := by
  unfold skipEscape at h
  split at h
  · cases h
  · next e text =>
    split at h
    · next hsimple =>
      cases h
      obtain ⟨c, hc⟩ := Option.isSome_iff_exists.1 hsimple
      exact ⟨[e], rfl, .escape hc⟩
    · split at h
      · next hunit =>
        obtain rfl := eq_of_beq hunit
        obtain ⟨⟨n, left⟩, hread, rfl⟩ := map_eq_ok_iff.1 h
        obtain ⟨digits, hdigits, rfl⟩ := readHex_sound hread
        exact ⟨'u' :: digits, rfl, .unit hdigits⟩
      · cases h

/-- A string that is skipped is a passable one, up to its first quotation mark. -/
theorem skipString_sound {text rest : List Char} (h : skipString text = .ok rest) :
    ∃ written, Passable written ∧ text = written ++ '"' :: rest := by
  fun_induction skipString text with
  | case1 | case3 | case5 => cases h
  | case2 c text hquote =>
    cases h
    obtain rfl := eq_of_beq hquote
    exact ⟨[], .nil, rfl⟩
  | case4 c text _ hslash text' hskip _ ih =>
    obtain rfl := eq_of_beq hslash
    obtain ⟨escape, rfl, hescape⟩ := skipEscape_sound hskip
    obtain ⟨written, hwritten, rfl⟩ := ih h
    exact ⟨'\\' :: (escape ++ written), hescape hwritten, by simp⟩
  | case6 c text hquote hslash hcontrol ih =>
    obtain ⟨written, hwritten, rfl⟩ := ih h
    exact ⟨c :: written, .plain (by simpa using hquote) (by simpa using hslash) hcontrol hwritten, rfl⟩

/-! ### Values that are passed over -/

/-- What is skipped as a scalar is a value. -/
theorem skipScalar_sound {text rest : List Char} (h : skipScalar text = .ok rest) :
    ∃ value, ValueText value ∧ text = value ++ rest := by
  have hword : ∀ {c : Char} {letters text : List Char},
      c :: letters ∈ ["null".toList, "true".toList, "false".toList] →
      readLetters letters text = .ok rest → ∃ value, ValueText value ∧ c :: text = value ++ rest := by
    intro c letters text hmem hread
    exact ⟨c :: letters, .plain (.word hmem), by rw [readLetters_sound hread, List.cons_append]⟩
  -- The reader looks at the first character: a letter of a literal, a quotation mark, a sign or a
  -- digit.
  unfold skipScalar at h
  split at h
  · cases h
  · next c text =>
    split at h
    · next hc =>
      obtain rfl := eq_of_beq hc
      exact hword (by decide) h
    split at h
    · next hc =>
      obtain rfl := eq_of_beq hc
      exact hword (by decide) h
    split at h
    · next hc =>
      obtain rfl := eq_of_beq hc
      exact hword (by decide) h
    split at h
    · next hc =>
      obtain rfl := eq_of_beq hc
      obtain ⟨written, hwritten, rfl⟩ := skipString_sound h
      exact ⟨'"' :: (written ++ ['"']), .string hwritten, by simp⟩
    split at h
    · next hc =>
      obtain rfl := eq_of_beq hc
      have hsign : ['-'] ∈ [[], ['-']] := by decide
      obtain ⟨number, hnumber, rfl⟩ := scanNumeral_sound hsign h
      exact ⟨'-' :: number, .plain (.number hnumber), rfl⟩
    split at h
    · have hsign : [] ∈ [[], ['-']] := by decide
      obtain ⟨number, hnumber, hrest⟩ := scanNumeral_sound hsign h
      exact ⟨number, .plain (.number hnumber), hrest⟩
    · cases h

theorem readColon_sound {text rest : List Char} (h : readColon text = .ok rest) :
    ∃ gap, Spaces gap ∧ text = gap ++ ':' :: rest := by
  unfold readColon at h
  split at h
  · cases h
  · next hskip =>
    split at h
    · next hc =>
      cases h
      obtain rfl := eq_of_beq hc
      obtain ⟨gap, hgap, -, htext⟩ := exists_gap hskip
      exact ⟨gap, hgap, htext⟩
    · cases h

/-- In an object a value has its key in front, in a list nothing. -/
theorem skipLabel_sound {bracket : Bracket} {text rest : List Char}
    (h : skipLabel bracket text = .ok rest) : Leads (LabelText bracket) text rest := by
  cases bracket with
  | list =>
    cases h
    exact ⟨[], [], spaces_nil, .list, rfl⟩
  | object =>
    rw [skipLabel, skipKey] at h
    split at h
    · cases h
    · next hskip =>
      split at h
      · next hquote =>
        obtain rfl := eq_of_beq hquote
        split at h
        · cases h
        · next hstring =>
          obtain ⟨written, hwritten, rfl⟩ := skipString_sound hstring
          obtain ⟨gap, hgap, rfl⟩ := readColon_sound h
          exact leads_of_skipSpace (.object hwritten hgap) (by simpa using hskip)
      · cases h

/-- Behind an opening bracket it is closed at once or has an entry. -/
theorem skipOn_first_eq_ok {bracket : Bracket} {opened : List Bracket} {text rest : List Char}
    (h : skipOn (bracket :: opened) false text = .ok rest) :
    (∃ gap text', Spaces gap ∧ text = gap ++ bracket.closing :: text' ∧
      skipOn opened true text' = .ok rest) ∨ skipEntry bracket opened text = .ok rest := by
  cases hskip : skipSpace text with
  | nil =>
    rw [skipOn_nil hskip] at h
    cases h
  | cons c text' =>
    obtain ⟨gap, hgap, hspace, rfl⟩ := exists_gap hskip
    by_cases hc : c = bracket.closing
    · rw [hc, skipOn_close hgap] at h
      exact .inl ⟨gap, text', hgap, by rw [hc], h⟩
    · rw [skipOn_first hgap hspace hc] at h
      exact .inr (by rw [skipEntry_gap hgap, h])

/-- Behind an entry its bracket is closed or a comma stands. -/
theorem skipOn_filled_eq_ok {bracket : Bracket} {opened : List Bracket} {text rest : List Char}
    (h : skipOn (bracket :: opened) true text = .ok rest) :
    ∃ gap text', Spaces gap ∧
      (text = gap ++ bracket.closing :: text' ∧ skipOn opened true text' = .ok rest ∨
        text = gap ++ ',' :: text' ∧ skipEntry bracket opened text' = .ok rest) := by
  cases hskip : skipSpace text with
  | nil =>
    rw [skipOn_nil hskip] at h
    cases h
  | cons c text' =>
    obtain ⟨gap, hgap, -, rfl⟩ := exists_gap hskip
    refine ⟨gap, text', hgap, ?_⟩
    by_cases hc : c = bracket.closing
    · rw [hc, skipOn_close hgap] at h
      exact .inl ⟨by rw [hc], h⟩
    by_cases hcomma : c = ','
    · rw [hcomma, skipOn_comma hgap] at h
      exact .inr ⟨by rw [hcomma], h⟩
    · rw [skipOn] at h
      split at h
      · cases h
      · next h' =>
        rw [hskip] at h'
        cases h'
        simp [hc, hcomma] at h

mutual

/-- **What is passed over is a value**, and behind it stands the rest of the brackets around it. -/
theorem skipValue_sound {opened : List Bracket} {text rest : List Char}
    (h : skipValue opened text = .ok rest) :
    ∃ text', Leads ValueText text text' ∧ skipOn opened true text' = .ok rest := by
  -- Inside a bracket there is nothing, or entries, and then the bracket is closed.
  have hbracket : ∀ (bracket : Bracket) (text' : List Char), text'.length < text.length →
      skipOn (bracket :: opened) false text' = .ok rest →
      ∃ value rest', ValueText value ∧ bracket.opening :: text' = value ++ rest' ∧
        skipOn opened true rest' = .ok rest := by
    intro bracket text' hlength hskip
    rcases skipOn_first_eq_ok hskip with ⟨gap, rest', hgap, rfl, hrest⟩ | hentry
    · exact ⟨_, rest', .empty bracket hgap, by simp, hrest⟩
    · obtain ⟨entries, rest', hentries, rfl, hrest⟩ := skipEntry_sound hentry
      exact ⟨_, rest', .full bracket hentries, by simp, hrest⟩
  cases hskip : skipSpace text with
  | nil =>
    rw [skipValue_nil hskip] at h
    cases h
  | cons c text' =>
    -- What is behind the first character is shorter, which the entries need.
    have hlength := length_of_skipSpace hskip
    rw [skipValue_cons hskip] at h
    split at h
    · next hc =>
      obtain rfl := eq_of_beq hc
      obtain ⟨value, rest', hvalue, htext, hrest⟩ := hbracket .list text' hlength h
      exact ⟨rest', leads_of_skipSpace hvalue (hskip.trans htext), hrest⟩
    split at h
    · next hc =>
      obtain rfl := eq_of_beq hc
      obtain ⟨value, rest', hvalue, htext, hrest⟩ := hbracket .object text' hlength h
      exact ⟨rest', leads_of_skipSpace hvalue (hskip.trans htext), hrest⟩
    split at h
    · cases h
    · next rest' hscalar =>
      obtain ⟨value, hvalue, htext⟩ := skipScalar_sound hscalar
      exact ⟨rest', leads_of_skipSpace hvalue (hskip.trans htext), h⟩
termination_by 2 * text.length

/-- The rest of a container is entries up to its closing bracket. -/
theorem skipEntry_sound {bracket : Bracket} {opened : List Bracket} {text rest : List Char}
    (h : skipEntry bracket opened text = .ok rest) :
    ∃ entries text', EntriesText bracket entries ∧ text = entries ++ bracket.closing :: text' ∧
      skipOn opened true text' = .ok rest := by
  unfold skipEntry at h
  split at h
  · cases h
  · next hskip =>
    obtain ⟨left, label, hleft, hlabel, rfl⟩ := skipLabel_sound hskip
    obtain ⟨text', ⟨gap, value, hgap, hvalue, rfl⟩, hrest⟩ := skipValue_sound h
    obtain ⟨right, text', hright, ⟨rfl, hclose⟩ | ⟨rfl, hmore⟩⟩ := skipOn_filled_eq_ok hrest
    · exact ⟨_, text', .last hleft hlabel hgap hvalue hright, by simp, hclose⟩
    · obtain ⟨entries, text', hentries, rfl, hclose⟩ := skipEntry_sound hmore
      exact ⟨_, text', .more hleft hlabel hgap hvalue hright hentries, by simp, hclose⟩
termination_by 2 * text.length + 1
decreasing_by
  all_goals
    subst_vars
    simp only [List.length_append, List.length_cons]
    omega

end

/-! ### Strings and lists -/

/-- What the reader of texts takes off a text is a string. -/
theorem sound_text : Sound Reader.text StringText where
  leads := by
    intro text rest value h
    change readText text = _ at h
    unfold readText at h
    split at h
    · next hskip =>
      obtain ⟨⟨value, left⟩, hread, h⟩ := map_eq_ok_iff.1 h
      cases h
      obtain ⟨written, hspells, rfl⟩ := readString_sound hread
      exact leads_of_skipSpace (.mk hspells) (by simpa using hskip)
    · cases h

/-- A list is closed, has a first element or goes on behind a comma. -/
theorem nextElement_cases {first : Bool} {text : List Char} {next : Continuation}
    (h : nextElement first text = .ok next) : ∃ gap, Spaces gap ∧
      ((∃ rest, next = .closed rest ∧ text = gap ++ ']' :: rest) ∨
        (∃ rest, next = .element rest ∧ first = true ∧ text = gap ++ rest) ∨
        ∃ gap' rest, next = .element rest ∧ first = false ∧ Spaces gap' ∧
          text = gap ++ ',' :: (gap' ++ rest)) := by
  -- The first character behind the blanks decides.
  unfold nextElement at h
  split at h
  · cases h
  · next hskip =>
    obtain ⟨gap, hgap, -, rfl⟩ := exists_gap hskip
    refine ⟨gap, hgap, ?_⟩
    split at h
    · next hc =>
      cases h
      obtain rfl := eq_of_beq hc
      exact .inl ⟨_, rfl, rfl⟩
    split at h
    · next hfirst =>
      cases h
      exact .inr (.inl ⟨_, rfl, hfirst, rfl⟩)
    · next hfirst =>
      split at h
      · next hcomma =>
        -- Behind a comma there may be blanks again, and a bracket is no element.
        obtain rfl := eq_of_beq hcomma
        split at h
        · cases h
        · next hskip' =>
          obtain ⟨gap', hgap', -, rfl⟩ := exists_gap hskip'
          split at h
          · cases h
          · cases h
            exact .inr (.inr ⟨gap', _, rfl, Bool.eq_false_iff.2 hfirst, hgap', rfl⟩)
      · cases h

theorem nextElement_closed {first : Bool} {text rest : List Char}
    (h : nextElement first text = .ok (.closed rest)) :
    ∃ gap, Spaces gap ∧ text = gap ++ ']' :: rest := by
  obtain ⟨gap, hgap, ⟨_, hnext, htext⟩ | ⟨_, hnext, -⟩ | ⟨_, _, hnext, -⟩⟩ := nextElement_cases h
  · cases hnext
    exact ⟨gap, hgap, htext⟩
  · cases hnext
  · cases hnext

theorem nextElement_first_sound {text rest : List Char}
    (h : nextElement true text = .ok (.element rest)) : ∃ gap, Spaces gap ∧ text = gap ++ rest := by
  obtain ⟨gap, hgap, ⟨_, hnext, -⟩ | ⟨_, hnext, -, htext⟩ | ⟨_, _, -, hfirst, -⟩⟩ :=
    nextElement_cases h
  · cases hnext
  · cases hnext
    exact ⟨gap, hgap, htext⟩
  · cases hfirst

theorem nextElement_comma_sound {text rest : List Char}
    (h : nextElement false text = .ok (.element rest)) :
    ∃ before gap, Spaces before ∧ Spaces gap ∧ text = before ++ ',' :: (gap ++ rest) := by
  obtain ⟨before, hbefore, ⟨_, hnext, -⟩ | ⟨_, -, hfirst, -⟩ | ⟨gap, _, hnext, -, hgap, htext⟩⟩ :=
    nextElement_cases h
  · cases hnext
  · cases hfirst
  · cases hnext
    exact ⟨before, gap, hbefore, hgap, htext⟩

section Lists

variable {α : Type} {reader : Reader α} {item : List Char → α → Prop}

/-- A list is at its end or goes on with an element. -/
theorem readElements_cases {first : Bool} {input rest : List Char} {as : List α}
    (h : readElements reader first input = .ok (as, rest)) :
    (nextElement first input = .ok (.closed rest) ∧ as = []) ∨
      ∃ text a rest' as', nextElement first input = .ok (.element text) ∧
        reader.run text = .ok (a, rest') ∧ readElements reader false rest' = .ok (as', rest) ∧
        as = a :: as' := by
  cases hnext : nextElement first input with
  | error fault =>
    rw [readElements] at h
    split at h
    · cases h
    · next h' => rw [hnext] at h'; cases h'
    · next h' => rw [hnext] at h'; cases h'
  | ok next =>
    cases next with
    | closed left =>
      obtain ⟨gap, hgap, rfl⟩ := nextElement_closed hnext
      rw [readElements_close reader hgap] at h
      cases h
      exact .inl ⟨rfl, rfl⟩
    | element text =>
      obtain ⟨a, rest', as', hrun, hmore, rfl⟩ := (readElements_element_iff hnext).1 h
      exact .inr ⟨text, a, rest', as', rfl, hrun, hmore, rfl⟩

/-- Behind an element stand the others and the closing bracket. -/
theorem Sound.elements (hsound : Sound reader item) {text rest' rest : List Char} {a : α}
    {as : List α} (hitem : Leads (item · a) text rest')
    (h : readElements reader false rest' = .ok (as, rest)) :
    ∃ elements, Elements item elements (a :: as) ∧ text = elements ++ ']' :: rest := by
  induction as generalizing text a rest' with
  | nil =>
    obtain ⟨left, token, hleft, htoken, rfl⟩ := hitem
    rcases readElements_cases h with ⟨hclosed, -⟩ | ⟨_, _, _, _, -, -, -, hcons⟩
    · obtain ⟨right, hright, rfl⟩ := nextElement_closed hclosed
      exact ⟨_, .last hleft htoken hright, by simp⟩
    · cases hcons
  | cons b as ih =>
    obtain ⟨left, token, hleft, htoken, rfl⟩ := hitem
    rcases readElements_cases h with ⟨-, hnil⟩ | ⟨text, _, rest'', _, hnext, hrun, hmore, hcons⟩
    · cases hnil
    · cases hcons
      obtain ⟨right, gap, hright, hgap, rfl⟩ := nextElement_comma_sound hnext
      obtain ⟨elements, helements, htext⟩ := ih ((hsound.leads hrun).gap hgap) hmore
      exact ⟨_, .more hleft htoken hright helements, by rw [htext]; simp⟩

/-- A sound reader of elements gives a sound reader of lists. -/
theorem Sound.list (hsound : Sound reader item) :
    Sound reader.list (Enclosed '[' ']' item) where
  leads := by
    intro text rest as h
    change readList reader text = _ at h
    unfold readList at h
    split at h
    · next text' hskip =>
      rcases readElements_cases h with
        ⟨hclosed, rfl⟩ | ⟨text, a, rest', as', hnext, hrun, hmore, rfl⟩
      · obtain ⟨gap, hgap, rfl⟩ := nextElement_closed hclosed
        exact leads_of_skipSpace (.empty hgap) (by simpa using hskip)
      · obtain ⟨gap, hgap, rfl⟩ := nextElement_first_sound hnext
        obtain ⟨elements, helements, htext⟩ :=
          hsound.elements ((hsound.leads hrun).gap hgap) hmore
        rw [htext] at hskip
        exact leads_of_skipSpace (.full helements) (by simpa using hskip)
    · cases h

end Lists

theorem Sound.map {α β : Type} {reader : Reader α} {item : List Char → α → Prop}
    {item' : List Char → β → Prop} {f : α → β} (hsound : Sound reader item)
    (himp : ∀ text a, item text a → item' text (f a)) : Sound (reader.map f) item' where
  leads := by
    intro text rest b h
    obtain ⟨⟨a, left⟩, hrun, h⟩ := map_eq_ok_iff.1 h
    cases h
    exact (hsound.leads hrun).mono fun token htoken => himp token a htoken

/-- A content that is read is one, and of the shape that was asked for. -/
theorem sound_content (shape : Shape) :
    Sound shape.reader fun text content => ContentText text content ∧ content.shape = shape := by
  cases shape with
  | text => exact sound_text.map fun _ _ htext => ⟨.text htext, rfl⟩
  | texts => exact sound_text.list.map fun _ _ htexts => ⟨.texts htexts, rfl⟩

end ProcBook.Json
