/-
ProcBook/Proofs/HeaderGrammar.lean

The grammar of headers, and that every header of the grammar is read.

* A qualified name is written in parts with dots between them, each in brackets or bare
  (`QualifiedText`); the last part is the name.
* Parameters are missing, follow the name, or follow it in parentheses (`ListText`).
* A `HeaderForm` puts these between the two keywords and everything into a text.

Main result: `Header.ofText_form`.  The region between the keywords is cut at its first sign, and what
has to be shown of the two pieces is that nothing of the list is taken for the name and nothing of the
name for the list.  Where the list stands in parentheses, `dropOpenings` finds the opening one at the
end of the name, and only then the last closing one is given up.
-/
import ProcBook.Proofs.Header

namespace ProcBook.Sql

open Text (Blanks Holds Written isWord)

/-! ### Qualified names -/

/-- The ways to write one part of a qualified name. -/
inductive SegmentText : List Char → List Char → Prop
  | bracketed {part : List Char} : ']' ∉ part → '@' ∉ part →
      SegmentText part ('[' :: (part ++ [']']))
  | bare {part : List Char} : part ≠ [] → (∀ c ∈ ['.', '[', ']', '@', '('], c ∉ part) →
      SegmentText part part

/-- The ways to write a qualified name whose last part is `name`. -/
inductive QualifiedText : List Char → List Char → Prop
  | last {name text : List Char} : SegmentText name text → QualifiedText name text
  | more {part first name rest : List Char} : SegmentText part first → QualifiedText name rest →
      QualifiedText name (first ++ '.' :: rest)

/-- A part in brackets ends at the first closing one. -/
theorem nameParts_bracket {part : List Char} (h : ']' ∉ part) (rest : List Char) :
    nameParts ('[' :: (part ++ ']' :: rest)) = part :: nameParts rest := by
  rw [nameParts, if_pos (by decide)]
  split
  · next hdrop =>
    rw [Text.dropWhile_ne_append h] at hdrop
    cases hdrop
  · next hdrop =>
    rw [Text.dropWhile_ne_append h] at hdrop
    cases hdrop
    rw [Text.takeWhile_ne_append h]

theorem nameParts_dot (rest : List Char) : nameParts ('.' :: rest) = nameParts rest := by
  rw [nameParts, if_neg (by decide), if_neg (by decide)]

/-- A part without brackets goes on as far as it can. -/
theorem nameParts_bare {c : Char} (hc : isBare c = true) (rest : List Char) :
    nameParts (c :: rest) = (c :: rest.takeWhile isBare) :: nameParts (rest.dropWhile isBare) := by
  have hbracket : ¬ (c == '[') = true := by
    intro h
    rw [eq_of_beq h] at hc
    revert hc
    decide
  rw [nameParts, if_neg hbracket, if_pos hc]

/-- Bare text up to a dot or the end is one part. -/
theorem nameParts_append {part rest : List Char} (hne : part ≠ [])
    (hpart : ∀ c ∈ part, isBare c = true) (hrest : rest.head?.any isBare = false) :
    nameParts (part ++ rest) = part :: nameParts rest := by
  cases part with
  | nil => exact absurd rfl hne
  | cons c part =>
    have htail : ∀ d ∈ part, isBare d = true := fun d hd => hpart d (by simp [hd])
    rw [List.cons_append, nameParts_bare (hpart c (by simp)),
      Text.takeWhile_append_of_head htail hrest, Text.dropWhile_append_of_head htail hrest]

theorem isBare_of_mem {part : List Char} (h : ∀ c ∈ ['.', '[', ']', '@', '('], c ∉ part) :
    ∀ c ∈ part, isBare c = true := by
  intro c hc
  have hne : ∀ d ∈ ['.', '[', ']', '@', '('], c ≠ d := by
    rintro d hd rfl
    exact h c hd hc
  simp only [isBare, Bool.and_eq_true, bne_iff_ne]
  exact ⟨⟨hne '.' (by decide), hne '[' (by decide)⟩, hne ']' (by decide)⟩

/-- Either way to write a part gives the part. -/
theorem SegmentText.nameParts_append {part text : List Char} (h : SegmentText part text)
    (rest : List Char) : nameParts (text ++ '.' :: rest) = part :: nameParts rest := by
  cases h with
  | bracketed hpart _ =>
    have htext : '[' :: (part ++ [']']) ++ '.' :: rest = '[' :: (part ++ ']' :: '.' :: rest) := by
      simp
    rw [htext, nameParts_bracket hpart, nameParts_dot]
  | bare hne hpart =>
    rw [ProcBook.Sql.nameParts_append hne (isBare_of_mem hpart) rfl, nameParts_dot]

/-- Blanks in front of a qualified name have no effect. -/
theorem unqualify_cons_blank {c : Char} (hc : Text.isBlank c = true) (text : List Char) :
    unqualify (c :: text) = unqualify text := by
  have hbare : isBare c = true := by
    simp only [isBare, Bool.and_eq_true, bne_iff_ne]
    exact ⟨⟨Text.ne_of_isBlank hc (by decide), Text.ne_of_isBlank hc (by decide)⟩,
      Text.ne_of_isBlank hc (by decide)⟩
  have htrim : ∀ part, Text.trim (c :: part) = Text.trim part := by
    intro part
    have hstart : Text.trimStart ([c] ++ part) = Text.trimStart part :=
      Text.trimStart_append_blanks (by simpa [Blanks] using hc)
    rw [Text.trim, Text.trim, ← hstart]
    rfl
  unfold unqualify
  rw [nameParts_bare hbare]
  cases text with
  | nil => simpa [nameParts] using htrim []
  | cons d text =>
    by_cases hd : isBare d = true
    · -- The blank goes to the first part, which counts only if it is the last as well.
      rw [nameParts_bare hd, List.takeWhile_cons_of_pos hd, List.dropWhile_cons_of_pos hd]
      cases nameParts (text.dropWhile isBare) with
      | nil => exact htrim _
      | cons part parts => rw [List.getLast?_cons_cons, List.getLast?_cons_cons]
    · -- The blank is a part of its own.
      rw [List.takeWhile_cons_of_neg hd, List.dropWhile_cons_of_neg hd]
      cases nameParts (d :: text) with
      | nil => exact htrim []
      | cons part parts => rw [List.getLast?_cons_cons]

/-- Blanks in front of a qualified name do not change its last part. -/
theorem unqualify_append_blanks {blanks : List Char} (hb : Blanks blanks) (text : List Char) :
    unqualify (blanks ++ text) = unqualify text := by
  induction blanks with
  | nil => rfl
  | cons c blanks ih =>
    rw [List.cons_append, unqualify_cons_blank (hb c (by simp)), ih fun d hd => hb d (by simp [hd])]

namespace QualifiedText

variable {name text : List Char}

/-- A name that shows something is written with something that shows. -/
theorem exists_shown (h : QualifiedText name text) (hname : ∃ c ∈ name, Text.isBlank c = false) :
    ∃ c ∈ text, Text.isBlank c = false := by
  induction h with
  | last hs =>
    cases hs with
    | bracketed _ _ => exact ⟨'[', by simp, by decide⟩
    | bare _ _ => exact hname
  | more _ _ _ => exact ⟨'.', by simp, by decide⟩

/-- There is no `@` in a qualified name, so the parameters begin behind it. -/
theorem not_mem_sign (h : QualifiedText name text) : '@' ∉ text := by
  have hsegment : ∀ {part text : List Char}, SegmentText part text → '@' ∉ text := by
    intro part text hs
    cases hs with
    | bracketed _ hsign => simp [hsign]
    | bare _ hpart => exact hpart '@' (by decide)
  induction h with
  | last hs => exact hsegment hs
  | more hs _ ih => simp [hsegment hs, ih]

theorem trimEnd_more (first rest : List Char) :
    Text.trimEnd (first ++ '.' :: rest) = first ++ '.' :: Text.trimEnd rest := by
  have hlast : (first ++ ['.']).getLast? = some '.' := List.getLast?_concat
  simpa using Text.trimEnd_append hlast (by decide) rest

/-- A qualified name ends with a bracket or with a bare part, and so never with a parenthesis. -/
theorem getLast?_trimEnd (h : QualifiedText name text) :
    (Text.trimEnd text).getLast? ≠ some '(' := by
  induction h with
  | @last name text hs =>
    cases hs with
    | bracketed _ _ =>
      have hlast : ('[' :: (name ++ [']'])).getLast? = some ']' := by
        rw [← List.cons_append, List.getLast?_concat]
      rw [Text.trimEnd_of_getLast (by rw [hlast]; decide), hlast]
      decide
    | bare _ hpart =>
      intro hlast
      have hmem := List.mem_of_getLast? hlast
      exact hpart '(' (by decide) ((Text.mem_trimEnd (by decide)).1 hmem)
  | @more part first name rest _ _ ih =>
    rw [trimEnd_more, List.getLast?_append_of_ne_nil _ (by simp), List.getLast?_cons]
    cases hlast : (Text.trimEnd rest).getLast? with
    | none => simp
    | some c =>
      rw [hlast] at ih
      simpa using ih

/-- The last part of a qualified name is the name. -/
theorem unqualify_trimEnd (h : QualifiedText name text)
    (hname : ∃ c ∈ name, Text.isBlank c = false) :
    unqualify (Text.trimEnd text) = Text.trim name := by
  -- The induction is on the parts in front of the name, which only the last one is read for.
  induction h with
  | @last name text hs =>
    cases hs with
    | bracketed hpart _ =>
      have hlast : ('[' :: (name ++ [']'])).getLast? = some ']' := by
        rw [← List.cons_append, List.getLast?_concat]
      rw [Text.trimEnd_of_getLast (by rw [hlast]; decide), unqualify, nameParts_bracket hpart,
        nameParts]
      rfl
    | bare _ hpart =>
      obtain ⟨c, hc, hb⟩ := hname
      have hne : Text.trimEnd name ≠ [] := List.ne_nil_of_mem ((Text.mem_trimEnd hb).2 hc)
      have hbare : ∀ d ∈ Text.trimEnd name, isBare d = true :=
        fun d hd => isBare_of_mem hpart d ((Text.isPart_trimEnd name).isInfix.subset hd)
      have hparts : nameParts (Text.trimEnd name ++ []) = Text.trimEnd name :: nameParts [] :=
        nameParts_append hne hbare rfl
      rw [List.append_nil, nameParts] at hparts
      rw [unqualify, hparts]
      exact Text.trim_trimEnd name
  | @more part first name rest hs _ ih =>
    rw [trimEnd_more, unqualify, hs.nameParts_append]
    have hrest := ih hname
    rw [unqualify] at hrest
    -- The rest has a part at least, since its name shows something, so the last part is one of the
    -- rest.
    cases hparts : nameParts (Text.trimEnd rest) with
    | nil =>
      rw [hparts] at hrest
      exact absurd hrest.symm (Text.trim_ne_nil hname)
    | cons next parts =>
      rw [hparts] at hrest
      rw [List.getLast?_cons_cons, hrest]

/-- Blanks around a qualified name are no part of it. -/
theorem unqualify_trim (h : QualifiedText name text)
    (hname : ∃ c ∈ name, Text.isBlank c = false) : unqualify (Text.trim text) = Text.trim name := by
  obtain ⟨blanks, hb, htrim⟩ := Text.exists_append_trim text
  rw [← unqualify_append_blanks hb, ← htrim, h.unqualify_trimEnd hname]

/-- A written name does not end with a parenthesis that could be taken for that of the list. -/
theorem getLast?_trim (h : QualifiedText name text) (hname : ∃ c ∈ name, Text.isBlank c = false) :
    (Text.trim text).getLast? ≠ some '(' := by
  have hshown := h.exists_shown hname
  obtain ⟨blanks, hb, htrim⟩ := Text.exists_append_trim text
  have hlast := h.getLast?_trimEnd
  rwa [htrim, List.getLast?_append_of_ne_nil _ (Text.trim_ne_nil hshown)] at hlast

theorem getLast? (h : QualifiedText name text) : text.getLast? ≠ some '(' := by
  intro hlast
  have hend := h.getLast?_trimEnd
  rw [Text.trimEnd_of_getLast (by rw [hlast]; decide)] at hend
  exact hend hlast

end QualifiedText

/-! ### The name in front of a list -/

theorem dropOpenings_of_getLast {text : List Char} (h : text.getLast? ≠ some '(') :
    dropOpenings text = text := by
  have hdrop : text.reverse.dropWhile (· == '(') = text.reverse := by
    cases hreverse : text.reverse with
    | nil => rfl
    | cons c rest =>
      rw [← List.head?_reverse, hreverse, List.head?_cons] at h
      rw [List.dropWhile_cons_of_neg]
      simpa using h
  rw [dropOpenings, hdrop, List.reverse_reverse]

/-- A parenthesis at the end is dropped like any other. -/
theorem dropOpenings_concat (text : List Char) :
    dropOpenings (text ++ ['(']) = dropOpenings text := by
  simp [dropOpenings]

namespace QualifiedText

variable {name text : List Char}

/-- A name between blanks. -/
theorem name_open (h : QualifiedText name text) (hname : ∃ c ∈ name, Text.isBlank c = false)
    {left right : List Char} (hleft : Blanks left) (hright : Blanks right) :
    let part := Text.trim (left ++ text ++ right)
    unqualify (Text.trimEnd (dropOpenings part)) = Text.trim name ∧ part.getLast? ≠ some '(' := by
  intro part
  have hpart : part = Text.trim text := by
    show Text.trim (left ++ text ++ right) = Text.trim text
    rw [Text.trim_append_blanks hright, Text.trim, Text.trimStart_append_blanks hleft, Text.trim]
  have hlast : part.getLast? ≠ some '(' := by
    rw [hpart]
    exact h.getLast?_trim hname
  refine ⟨?_, hlast⟩
  rw [dropOpenings_of_getLast hlast, hpart,
    Text.trimEnd_of_getLast (Text.isTrimmed_trim text).getLast, h.unqualify_trim hname]

/-- A name in front of an opening parenthesis, with blanks around both. -/
theorem name_enclosed (h : QualifiedText name text) (hname : ∃ c ∈ name, Text.isBlank c = false)
    {left right inner : List Char} (hleft : Blanks left) (hright : Blanks right)
    (hinner : Blanks inner) :
    let part := Text.trim (left ++ text ++ (right ++ '(' :: inner))
    unqualify (Text.trimEnd (dropOpenings part)) = Text.trim name ∧ part.getLast? = some '(' := by
  intro part
  have hshown := h.exists_shown hname
  -- Trimming leaves the parenthesis at the end and the name at the front.
  have hpart : part = Text.trimStart text ++ right ++ ['('] := by
    have hstart : Text.trimStart (left ++ text ++ (right ++ '(' :: inner)) =
        Text.trimStart text ++ right ++ ['('] ++ inner := by
      rw [List.append_assoc, Text.trimStart_append_blanks hleft, Text.trimStart_append hshown]
      simp
    show Text.trimEnd (Text.trimStart _) = _
    rw [hstart, Text.trimEnd_append_blanks hinner, Text.trimEnd_of_getLast]
    rw [List.getLast?_concat]
    decide
  -- In front of the parenthesis stands a blank or the end of the name, so only one is dropped.
  have hlast : (Text.trimStart text ++ right).getLast? ≠ some '(' := by
    rw [List.getLast?_append]
    cases hr : right.getLast? with
    | some c =>
      have hc := hright c (List.mem_of_getLast? hr)
      intro hparen
      exact Text.ne_of_isBlank hc (by decide) (Option.some.inj hparen)
    | none =>
      obtain ⟨c, hc, hb⟩ := hshown
      have hne : Text.trimStart text ≠ [] := List.ne_nil_of_mem ((Text.mem_trimStart hb).2 hc)
      have hcut : text.takeWhile Text.isBlank ++ Text.trimStart text = text :=
        List.takeWhile_append_dropWhile
      have hsame := congrArg List.getLast? hcut
      rw [List.getLast?_append_of_ne_nil _ hne] at hsame
      rw [Option.none_or, hsame]
      exact h.getLast?
  refine ⟨?_, by rw [hpart, List.getLast?_concat]⟩
  rw [hpart, dropOpenings_concat, dropOpenings_of_getLast hlast, Text.trimEnd_append_blanks hright]
  exact h.unqualify_trim hname

end QualifiedText

/-! ### Parameters behind a name -/

/-- The ways to write parameters behind a name: none, in the open, or in parentheses. -/
inductive ListText : List (List Char) → List Char → Prop
  | none : ListText [] []
  | bare {ps : List (List Char)} {left text : List Char} : Blanks left → ParameterText ps text →
      ListText ps (left ++ text)
  | enclosed {ps : List (List Char)} {left inner text right : List Char} : Blanks left →
      Blanks inner → ParameterText ps text → Blanks right →
      ListText ps (left ++ '(' :: (inner ++ (text ++ right ++ [')'])))

/-- A list starts with a blank, a parenthesis or a sign. -/
theorem ListText.head? {ps : List (List Char)} {list : List Char} (h : ListText ps list)
    (hfirst : ∀ p ∈ ps.head?, p.head? = some '@') : list.head?.any isWord = false := by
  have hleft : ∀ {left rest : List Char}, Blanks left → rest.head?.any isWord = false →
      (left ++ rest).head?.any isWord = false := by
    intro left rest hleft hrest
    cases left with
    | nil => exact hrest
    | cons c left => exact Text.isWord_of_isBlank (hleft c (by simp))
  cases h with
  | none => rfl
  | @bare ps left text hblanks htext =>
    refine hleft hblanks ?_
    rw [htext.head?]
    cases hps : ps.head? with
    | none => rfl
    | some p =>
      rw [Option.bind_some, hfirst p hps]
      decide
  | enclosed hblanks _ _ _ =>
    refine hleft hblanks ?_
    show isWord '(' = false
    decide

/-- A list of parameters holds the sign that its first one starts with. -/
theorem ListText.sign_mem {p : List Char} {ps : List (List Char)} {list : List Char}
    (h : ListText (p :: ps) list) (hfirst : p.head? = some '@') : '@' ∈ list := by
  have hmem : ∀ {text : List Char}, ParameterText (p :: ps) text → '@' ∈ text := by
    intro text htext
    exact List.mem_of_head? (htext.head?.trans hfirst)
  cases h with
  | bare _ htext => exact List.mem_append_right _ (hmem htext)
  | enclosed _ _ htext _ => simp [hmem htext]

/-- A region is cut in front of its first sign, into the name and the parameters. -/
theorem HeaderCut.of_region_cut {cut : HeaderCut} {front rest name : List Char}
    {ps : List (List Char)} {opened : Bool} (hregion : cut.region = front ++ rest)
    (hfront : '@' ∉ front) (hrest : ∀ c ∈ rest.head?, c = '@')
    (hname : unqualify (Text.trimEnd (dropOpenings (Text.trim front))) = name)
    (hopened : ((Text.trim front).getLast? == some '(') = opened)
    (hps : splitParameters opened rest = ps) :
    cut.name = String.ofList name ∧ cut.parameters = ps.map String.ofList := by
  have hbefore := Text.bne_of_not_mem hfront
  have hsign : rest.head?.any (· != '@') = false := by
    cases hhead : rest.head? with
    | none => rfl
    | some c => simpa using hrest c hhead
  have hpart : cut.namePart = Text.trim front := by
    rw [HeaderCut.namePart, hregion, Text.takeWhile_append_of_head hbefore hsign]
  have hlist : cut.parameterPart = rest := by
    rw [HeaderCut.parameterPart, hregion, Text.dropWhile_append_of_head hbefore hsign]
  rw [HeaderCut.name, HeaderCut.parameters, hpart, hlist, hname, hopened, hps]
  exact ⟨rfl, rfl⟩

theorem not_mem_blanks {blanks : List Char} (h : Blanks blanks) : '@' ∉ blanks := by
  intro hc
  exact Text.ne_of_isBlank (h '@' hc) (by decide) rfl

/-- What is read off a region of the grammar. -/
theorem HeaderCut.of_region {cut : HeaderCut} {gap qualified name list space : List Char}
    {ps : List (List Char)} (hregion : cut.region = gap ++ qualified ++ list ++ space)
    (hgap : Blanks gap) (hqualified : QualifiedText name qualified)
    (hname : ∃ c ∈ name, Text.isBlank c = false) (hlist : ListText ps list)
    (hfirst : ∀ p ∈ ps.head?, p.head? = some '@') (hspace : Blanks space) :
    cut.name = String.ofList (Text.trim name) ∧ cut.parameters = ps.map String.ofList := by
  -- The sign that ends the name is that of the first parameter.
  have hfront : ∀ {left : List Char}, '@' ∉ left → '@' ∉ gap ++ qualified ++ left := by
    intro left hleft
    simp [not_mem_blanks hgap, hqualified.not_mem_sign, hleft]
  have hhead : ∀ {text rest : List Char}, ParameterText ps text →
      ∀ c ∈ (text ++ rest).head?, c = '@' := by
    intro text rest htext c hc
    rw [List.head?_append_of_ne_nil _ htext.ne_nil, htext.head?] at hc
    cases hps : ps.head? with
    | none => simp [hps] at hc
    | some p =>
      rw [hps, Option.bind_some, hfirst p hps] at hc
      exact (Option.some.inj hc).symm
  cases hlist with
  | none =>
    -- Without a sign all of the region is the name.
    obtain ⟨hpart, hlast⟩ := hqualified.name_open hname hgap hspace
    have hcut : cut.region = (gap ++ qualified ++ space) ++ [] := by
      rw [hregion]
      simp
    exact HeaderCut.of_region_cut hcut (hfront (not_mem_blanks hspace)) (by simp) hpart
      (beq_eq_false_iff_ne.2 hlast) rfl
  | @bare _ left text hleft htext =>
    obtain ⟨hpart, hlast⟩ := hqualified.name_open hname hgap hleft
    have hcut : cut.region = (gap ++ qualified ++ left) ++ (text ++ space) := by
      rw [hregion]
      simp
    exact HeaderCut.of_region_cut hcut (hfront (not_mem_blanks hleft)) (hhead htext) hpart
      (beq_eq_false_iff_ne.2 hlast) (htext.splitParameters_eq hspace)
  | @enclosed _ left inner text right hleft hinner htext hright =>
    obtain ⟨hpart, hlast⟩ := hqualified.name_enclosed hname hgap hleft hinner
    have hcut : cut.region = (gap ++ qualified ++ (left ++ '(' :: inner)) ++
        (text ++ (right ++ ')' :: space)) := by
      rw [hregion]
      simp
    have hopening : '@' ∉ left ++ '(' :: inner := by
      simp [not_mem_blanks hleft, not_mem_blanks hinner]
    refine HeaderCut.of_region_cut hcut (hfront hopening) (hhead htext) hpart
      (beq_iff_eq.2 hlast) ?_
    rw [← List.append_assoc]
    exact htext.splitParameters_closed hright hspace

/-! ### Headers -/

/-- A text with a header, piece by piece. -/
structure HeaderForm where
  before : List Char
  /-- The keyword before the name, as it is written. -/
  keyword : List Char
  gap : List Char
  /-- The qualified name, as it is written. -/
  qualified : List Char
  /-- The last part of the qualified name. -/
  name : List Char
  /-- The parameters, as they are written behind the name. -/
  list : List Char
  parameters : List (List Char)
  space : List Char
  /-- The keyword before the body, as it is written. -/
  body : List Char
  after : List Char

namespace HeaderForm

/-- What stands between the keywords. -/
def region (f : HeaderForm) : List Char := f.gap ++ f.qualified ++ f.list ++ f.space

/-- The text, cut at its keywords. -/
def pieces (f : HeaderForm) : HeaderPieces := ⟨f.before, f.keyword, f.region, f.body, f.after⟩

/-- The text. -/
def text (f : HeaderForm) : List Char := f.pieces.text

/-- The pieces belong to the grammar. -/
structure IsRegular (f : HeaderForm) : Prop where
  before_end : f.before.getLast?.any isWord = false
  no_keyword : ¬ Holds procedureKeyword f.before
  keyword : Written procedureKeyword f.keyword
  gap : f.gap ≠ [] ∧ Blanks f.gap
  qualified : QualifiedText f.name f.qualified
  name_shown : ∃ c ∈ f.name, Text.isBlank c = false
  list : ListText f.parameters f.list
  first_sign : ∀ p ∈ f.parameters.head?, p.head? = some '@'
  no_body : ¬ Holds bodyKeyword f.qualified ∧ ¬ Holds bodyKeyword f.list
  space : f.space ≠ [] ∧ Blanks f.space
  body : Written bodyKeyword f.body
  after_start : f.after.head?.any isWord = false
  /-- Without parameters there has to be a sign elsewhere. -/
  sign : f.parameters = [] → '@' ∈ f.before ++ f.after

variable {f : HeaderForm}

/-- The keyword of the body stands nowhere in the region, also not across two of its pieces. -/
theorem IsRegular.no_body_region (h : f.IsRegular) : ¬ Holds bodyKeyword f.region := by
  have hspace := Text.any_isWord_head_of_blanks h.space.2
  have hlist : (f.list ++ f.space).head?.any isWord = false := by
    cases hl : f.list with
    | nil => exact hspace
    | cons c list =>
      have := h.list.head? h.first_sign
      rwa [hl] at this
  have hplain : Text.IsPlain bodyKeyword := by decide
  unfold HeaderForm.region
  rw [List.append_assoc, List.append_assoc]
  -- No word goes on from one piece to the next, and the keyword stands in none of them.
  apply Text.not_holds_append hplain (by decide) rfl
    (Text.cutsNoWord_of_getLast (Text.any_isWord_getLast_of_blanks h.gap.2) _)
    (Text.not_holds_blanks hplain h.gap.2)
  apply Text.not_holds_append hplain (by decide) rfl (Text.cutsNoWord_of_head hlist _) h.no_body.1
  exact Text.not_holds_append hplain (by decide) rfl (Text.cutsNoWord_of_head hspace _) h.no_body.2
    (Text.not_holds_blanks hplain h.space.2)

/-- A regular header is cut where its form says. -/
theorem IsRegular.isCut (h : f.IsRegular) : f.pieces.IsCut where
  keyword := h.keyword
  body := h.body
  no_keyword := h.no_keyword
  no_body := h.no_body_region
  region_ne_nil := by
    show f.region ≠ []
    simp [HeaderForm.region, h.gap.1]
  before_end := h.before_end
  region_start := by
    show f.region.head?.any isWord = false
    rw [HeaderForm.region, List.append_assoc, List.append_assoc,
      List.head?_append_of_ne_nil _ h.gap.1]
    exact Text.any_isWord_head_of_blanks h.gap.2
  region_end := by
    show f.region.getLast?.any isWord = false
    rw [HeaderForm.region, List.getLast?_append_of_ne_nil _ h.space.1]
    exact Text.any_isWord_getLast_of_blanks h.space.2
  after_start := h.after_start

theorem IsRegular.sign_mem_text (h : f.IsRegular) : '@' ∈ f.text := by
  have htext : f.text =
      f.before ++ f.keyword ++ (f.gap ++ f.qualified ++ f.list ++ f.space) ++ f.body ++ f.after :=
    rfl
  cases hps : f.parameters with
  | nil =>
    rcases List.mem_append.1 (h.sign hps) with hmem | hmem <;> simp [htext, hmem]
  | cons p ps =>
    have hlist := h.list
    rw [hps] at hlist
    simp [htext, hlist.sign_mem (h.first_sign p (by rw [hps]; rfl))]

end HeaderForm

/-- **Every header of the grammar is read.**  The name is the last part of the qualified name, trimmed,
and the parameters are those of the list, whether or not it stands in parentheses; the offset is where
the keyword before the body starts.  The only thing that can be refused is a name without a page. -/
theorem Header.ofText_form (f : HeaderForm) (h : f.IsRegular) :
    let name := String.ofList (Text.trim f.name)
    Header.ofText f.text =
      if isPageName name then
        .ok ⟨name, f.parameters.map String.ofList,
          Text.byteLength (f.before ++ f.keyword ++ (f.gap ++ f.qualified ++ f.list ++ f.space))⟩
      else .error (.invalidName name) := by
  intro name
  obtain ⟨hname, hparameters⟩ : f.pieces.cut.name = name ∧
      f.pieces.cut.parameters = f.parameters.map String.ofList :=
    HeaderCut.of_region rfl h.gap.2 h.qualified h.name_shown h.list h.first_sign h.space.2
  have hne : ¬ (name == "") = true := by
    simpa [name] using Text.trim_ne_nil h.name_shown
  rw [Header.ofText, HeaderCut.ofText_eq_ok_iff.2 ⟨h.sign_mem_text, f.pieces, rfl, rfl, h.isCut⟩]
  show f.pieces.cut.header = _
  rw [HeaderCut.header, hname, hparameters, if_neg hne]
  cases isPageName name <;> rfl

/-- A header with both ways to write a part, and with parentheses around and at the end of its list. -/
def enclosedHeader : HeaderForm where
  before := "/* procedures */\nCREATE ".toList
  keyword := "Procedure".toList
  gap := "\n\t".toList
  qualified := "Sales .[ Order (basis) ]".toList
  name := " Order (basis) ".toList
  list := " ( @least DECIMAL(10, 2) ,\n@most NUMERIC(8, 2) )".toList
  parameters := ["@least DECIMAL(10, 2)".toList, "@most NUMERIC(8, 2)".toList]
  space := "\n".toList
  body := "aS".toList
  after := []

/-- The example is regular. -/
theorem isRegular_enclosedHeader : enclosedHeader.IsRegular where
  before_end := by decide
  no_keyword := (Text.find?_eq_none_iff (by decide) (by decide)).1 (by decide +kernel)
  keyword := (Text.written_iff_readPhrase? (by decide) (by decide)).2 (by decide)
  gap := by decide
  qualified := by
    have hschema : SegmentText "Sales ".toList "Sales ".toList := .bare (by decide) (by simp)
    have hname : SegmentText enclosedHeader.name "[ Order (basis) ]".toList :=
      .bracketed (by decide) (by decide)
    exact .more hschema (.last hname)
  name_shown := ⟨'O', by decide, by decide⟩
  list := by
    have hblank : Blanks [' '] := by decide
    have hline : Blanks ['\n'] := by decide
    have hlist : ParameterText enclosedHeader.parameters
        "@least DECIMAL(10, 2) ,\n@most NUMERIC(8, 2)".toList :=
      .more (by decide) hblank hline (.last (by decide))
    exact .enclosed hblank hblank hlist hblank
  first_sign := by decide
  no_body := ⟨(Text.find?_eq_none_iff (by decide) (by decide)).1 (by decide +kernel),
    (Text.find?_eq_none_iff (by decide) (by decide)).1 (by decide +kernel)⟩
  space := by decide
  body := (Text.written_iff_readPhrase? (by decide) (by decide)).2 (by decide)
  after_start := by decide
  sign := by decide

theorem Header.ofText_form_enclosedHeader : Header.ofText enclosedHeader.text =
    .ok ⟨"Order (basis)", ["@least DECIMAL(10, 2)", "@most NUMERIC(8, 2)"], 108⟩ := by
  rw [Header.ofText_form enclosedHeader isRegular_enclosedHeader]
  decide +kernel

end ProcBook.Sql
