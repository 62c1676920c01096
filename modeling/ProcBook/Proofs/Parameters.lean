/-
ProcBook/Proofs/Parameters.lean

What splitting does to a parameter list whose parameters are known.  `IsParameter` says what a single
parameter looks like: trimmed, with balanced parentheses and no comma outside them.  The whole argument
is `Undivided.splitCommas_append`, which follows the depth of parentheses through a text without a comma
at depth zero.  `ParameterText` are the ways to write a list of parameters, each of which is split into
them.

Of a list that is written in no such way something is still known: joining undoes splitting
(`intercalate_splitCommas`), so whatever is split off is a part of the list.
-/
import Mathlib.Data.List.Infix
import ProcBook.Proofs.Parts
import ProcBook.Sql.Parameters

namespace ProcBook.Sql

/-- With `depth` parentheses open before a text, none closes without one being open. -/
def NeverBelow (depth : Nat) (text : List Char) : Prop :=
  ∀ before after, text = before ++ after → before.count ')' ≤ depth + before.count '('

/-- With `depth` parentheses open before a text, every comma in it stands inside parentheses. -/
def CommasInside (depth : Nat) (text : List Char) : Prop :=
  ∀ before after, text = before ++ ',' :: after → before.count ')' < depth + before.count '('

/-- A text with balanced parentheses and no comma outside them. -/
structure IsClosed (text : List Char) : Prop where
  opened : NeverBelow 0 text
  closed : text.count ')' = text.count '('
  whole : CommasInside 0 text

/-- A parameter as it is written in a list. -/
structure IsParameter (text : List Char) : Prop extends IsClosed text where
  nonempty : text ≠ []
  trimmed : Text.IsTrimmed text

/-- The condition on all beginnings of a text as a finite test. -/
theorem neverBelow_iff_inits {depth : Nat} {text : List Char} : NeverBelow depth text ↔
    ∀ before ∈ text.inits, before.count ')' ≤ depth + before.count '(' := by
  constructor
  · intro h before hmem
    obtain ⟨after, hafter⟩ := (List.mem_inits before text).1 hmem
    exact h before after hafter.symm
  · intro h before after htext
    exact h before ((List.mem_inits before text).2 ⟨after, htext.symm⟩)

theorem commasInside_iff_inits {depth : Nat} {text : List Char} : CommasInside depth text ↔
    ∀ before ∈ text.inits, before ++ [','] <+: text →
      before.count ')' < depth + before.count '(' := by
  constructor
  · rintro h before - ⟨after, hafter⟩
    exact h before after (by simpa using hafter.symm)
  · intro h before after htext
    refine h before ((List.mem_inits before text).2 ⟨_, htext.symm⟩) ⟨after, ?_⟩
    rw [htext, List.append_assoc, List.singleton_append]

instance (text : List Char) : Decidable (IsParameter text) :=
  decidable_of_iff
    (((∀ before ∈ text.inits, before.count ')' ≤ 0 + before.count '(') ∧
        text.count ')' = text.count '(' ∧
        ∀ before ∈ text.inits, before ++ [','] <+: text →
          before.count ')' < 0 + before.count '(') ∧ text ≠ [] ∧ Text.IsTrimmed text)
    ⟨fun ⟨⟨ho, hc, hw⟩, hne, ht⟩ =>
        ⟨⟨neverBelow_iff_inits.2 ho, hc, commasInside_iff_inits.2 hw⟩, hne, ht⟩,
      fun ⟨⟨ho, hc, hw⟩, hne, ht⟩ =>
        ⟨⟨neverBelow_iff_inits.1 ho, hc, commasInside_iff_inits.1 hw⟩, hne, ht⟩⟩

/-! ### The depth of parentheses -/

/-- The depth is the number of parentheses that are open, as long as none is closed too often. -/
theorem count_depthAfter {depth : Nat} {c : Char} (h : [c].count ')' ≤ depth + [c].count '(') :
    depthAfter depth c + [c].count ')' = depth + [c].count '(' := by
  unfold depthAfter
  by_cases ho : c = '('
  · subst ho
    simp
  · by_cases hc : c = ')'
    · subst hc
      simp at h ⊢
      omega
    · simp [ho, hc]

theorem NeverBelow.tail {depth : Nat} {c : Char} {text : List Char} (h : NeverBelow depth (c :: text)) :
    NeverBelow (depthAfter depth c) text := by
  intro before after htext
  have h₁ := h [c] text rfl
  have h₂ := h (c :: before) after (by rw [htext]; rfl)
  have h₃ := count_depthAfter h₁
  rw [← List.singleton_append, List.count_append, List.count_append] at h₂
  omega

/-- The depth of parentheses behind a text, where `depth` are open before it. -/
def depthBehind (depth : Nat) (text : List Char) : Nat := text.foldl depthAfter depth

/-- With `depth` parentheses open before a text, at no comma in it the depth is zero. -/
def Undivided (depth : Nat) (text : List Char) : Prop :=
  ∀ before after, text = before ++ ',' :: after → depthBehind depth before ≠ 0

theorem depthBehind_append (depth : Nat) (left right : List Char) :
    depthBehind depth (left ++ right) = depthBehind (depthBehind depth left) right :=
  List.foldl_append

/-- Where no parenthesis closes without one being open, the depth is what counting makes of it. -/
theorem NeverBelow.depthBehind {depth : Nat} {text : List Char} (h : NeverBelow depth text) :
    depthBehind depth text + text.count ')' = depth + text.count '(' := by
  induction text generalizing depth with
  | nil => rfl
  | cons c text ih =>
    have hstep := count_depthAfter (h [c] text rfl)
    have hrest := ih h.tail
    show Sql.depthBehind (depthAfter depth c) text + _ = _
    rw [← List.singleton_append, List.count_append, List.count_append]
    omega

/-- A text with all commas inside of parentheses is not divided. -/
theorem CommasInside.undivided {depth : Nat} {text : List Char} (hb : NeverBelow depth text)
    (h : CommasInside depth text) : Undivided depth text := by
  intro before after htext
  have hbefore : NeverBelow depth before := by
    intro front back hfront
    exact hb front (back ++ ',' :: after) (by rw [htext, hfront, List.append_assoc])
  have hdepth := hbefore.depthBehind
  have hcomma := h before after htext
  omega

theorem Undivided.tail {depth : Nat} {c : Char} {text : List Char} (h : Undivided depth (c :: text)) :
    Undivided (depthAfter depth c) text :=
  fun before after htext => h (c :: before) after (congrArg (c :: ·) htext)

/-- A text is not split where no comma divides it. -/
theorem Undivided.splitCommas_append {depth : Nat} {text : List Char} (h : Undivided depth text)
    (rest : List Char) : splitCommas depth (text ++ rest) =
      (splitCommas (depthBehind depth text) rest).modifyHead (text ++ ·) := by
  -- The depth is left open, since it changes with every parenthesis that is passed.
  induction text generalizing depth with
  | nil =>
    show splitCommas depth rest = (splitCommas depth rest).modifyHead ([] ++ ·)
    cases splitCommas depth rest <;> rfl
  | cons c text ih =>
    -- A comma at depth zero would divide the text.
    have hcomma : (c == ',' && depth == 0) = false := by
      by_contra hne
      simp only [Bool.not_eq_false, Bool.and_eq_true, beq_iff_eq] at hne
      obtain ⟨rfl, rfl⟩ := hne
      exact h [] text rfl rfl
    rw [List.cons_append, splitCommas, hcomma, if_neg (by simp), ih h.tail, List.modifyHead_modifyHead]
    rfl

/-! ### Joining and splitting -/

/-- A closed text goes whole to the first piece. -/
theorem IsClosed.splitCommas_append {text : List Char} (h : IsClosed text) (rest : List Char) :
    splitCommas 0 (text ++ rest) = (splitCommas 0 rest).modifyHead (text ++ ·) := by
  have hdepth : depthBehind 0 text = 0 := by
    have := h.opened.depthBehind
    have := h.closed
    omega
  rw [(h.whole.undivided h.opened).splitCommas_append, hdepth]

theorem IsClosed.cons {c : Char} {text : List Char} (h : IsClosed text) (ho : c ≠ '(')
    (hc : c ≠ ')') (hcomma : c ≠ ',') : IsClosed (c :: text) where
  opened := by
    intro before after htext
    cases before with
    | nil => simp
    | cons d before =>
      obtain ⟨rfl, hrest⟩ := List.cons.inj htext
      simpa [ho, hc] using h.opened before after hrest
  closed := by simpa [ho, hc] using h.closed
  whole := by
    intro before after htext
    cases before with
    | nil => exact absurd (List.cons.inj htext).1 hcomma
    | cons d before =>
      obtain ⟨rfl, hrest⟩ := List.cons.inj htext
      simpa [ho, hc] using h.whole before after hrest

theorem isClosed_of_blanks {text : List Char} (h : Text.Blanks text) : IsClosed text := by
  induction text with
  | nil =>
    refine ⟨?_, rfl, ?_⟩
    · intro before after htext
      obtain ⟨rfl, -⟩ := List.append_eq_nil_iff.1 htext.symm
      simp
    · intro before after htext
      simp at htext
  | cons c text ih =>
    have hblank := h c (by simp)
    exact (ih fun d hd => h d (by simp [hd])).cons (Text.ne_of_isBlank hblank (by decide))
      (Text.ne_of_isBlank hblank (by decide)) (Text.ne_of_isBlank hblank (by decide))

/-! ### Parameter lists -/

/-- The ways to write a parameter list: its parameters in order, with a comma and any blanks between
them. -/
inductive ParameterText : List (List Char) → List Char → Prop
  | last {p : List Char} : IsParameter p → ParameterText [p] p
  | more {p left right text : List Char} {ps : List (List Char)} : IsParameter p →
      Text.Blanks left → Text.Blanks right → ParameterText ps text →
      ParameterText (p :: ps) (p ++ left ++ ',' :: (right ++ text))

namespace ParameterText

variable {ps : List (List Char)} {text : List Char}

theorem ne_nil (h : ParameterText ps text) : text ≠ [] := by
  cases h with
  | last hp => exact hp.nonempty
  | more hp _ _ _ => simp

theorem isParameter (h : ParameterText ps text) : ∀ p ∈ ps, IsParameter p := by
  induction h with
  | last hp => simpa using hp
  | more hp _ _ _ ih => simpa using ⟨hp, ih⟩

/-- A list starts with its first parameter. -/
theorem head? (h : ParameterText ps text) : text.head? = ps.head?.bind List.head? := by
  cases h with
  | last _ => rfl
  | more hp _ _ _ => rw [List.append_assoc, List.head?_append_of_ne_nil _ hp.nonempty]; rfl

theorem isTrimmed (h : ParameterText ps text) : Text.IsTrimmed text := by
  induction h with
  | last hp => exact hp.trimmed
  | @more p left right text ps hp _ _ h ih =>
    apply Text.isTrimmed_of_ends
    · rw [List.append_assoc, List.head?_append_of_ne_nil _ hp.nonempty]
      exact hp.trimmed.head
    · rw [List.getLast?_append_of_ne_nil _ (by simp), ← List.cons_append,
        List.getLast?_append_of_ne_nil _ h.ne_nil]
      exact ih.getLast

/-- The commas of a list divide its parameters, and blanks around them are trimmed away. -/
theorem map_trim_splitCommas (h : ParameterText ps text) {left right : List Char}
    (hleft : Text.Blanks left) (hright : Text.Blanks right) :
    (splitCommas 0 (left ++ text ++ right)).map Text.trim = ps := by
  -- The blanks in front are left open: those behind a comma belong to the next parameter.
  induction h generalizing left with
  | @last p hp =>
    have hend : splitCommas 0 right = [right] := by
      simpa [splitCommas] using (isClosed_of_blanks hright).splitCommas_append []
    rw [List.append_assoc, (isClosed_of_blanks hleft).splitCommas_append,
      hp.toIsClosed.splitCommas_append, hend]
    simp only [List.modifyHead_cons, List.map_cons, List.map_nil, ← List.append_assoc]
    rw [hp.trimmed.trim_blanks hp.nonempty left right hleft hright]
  | @more p gap gap' text ps hp hgap hgap' _ ih =>
    have htext : left ++ (p ++ gap ++ ',' :: (gap' ++ text)) ++ right =
        left ++ (p ++ (gap ++ ',' :: (gap' ++ text ++ right))) := by
      simp
    rw [htext, (isClosed_of_blanks hleft).splitCommas_append, hp.toIsClosed.splitCommas_append,
      (isClosed_of_blanks hgap).splitCommas_append, splitCommas, if_pos (by decide)]
    simp only [List.modifyHead_cons, List.map_cons, List.append_nil, ← List.append_assoc]
    rw [hp.trimmed.trim_blanks hp.nonempty left gap hleft hgap, ih hgap']

/-- Splitting a written list gives its parameters back. -/
theorem filter_map_trim_splitCommas (h : ParameterText ps text) :
    ((splitCommas 0 text).map Text.trim).filter (!·.isEmpty) = ps := by
  have hsplit : (splitCommas 0 ([] ++ text ++ [])).map Text.trim = ps :=
    h.map_trim_splitCommas (by decide) (by decide)
  rw [List.nil_append, List.append_nil] at hsplit
  rw [hsplit, List.filter_eq_self]
  intro p hp
  simpa using (h.isParameter p hp).nonempty

/-- **A parameter list is split into its parameters.** -/
theorem splitParameters_eq (h : ParameterText ps text) {right : List Char}
    (hright : Text.Blanks right) : splitParameters false (text ++ right) = ps := by
  have hregion : parameterRegion false (text ++ right) = text := by
    simpa [parameterRegion] using h.isTrimmed.trim_blanks h.ne_nil [] right (by decide) hright
  rw [splitParameters, hregion, h.filter_map_trim_splitCommas]

/-- A list in parentheses gives up the one that closes it, and none of those that its types end with. -/
theorem splitParameters_closed (h : ParameterText ps text) {right space : List Char}
    (hright : Text.Blanks right) (hspace : Text.Blanks space) :
    splitParameters true (text ++ right ++ ')' :: space) = ps := by
  have htrim : Text.trim (text ++ right ++ ')' :: space) = text ++ right ++ [')'] := by
    have htrimmed : Text.IsTrimmed (text ++ right ++ [')']) := by
      apply Text.isTrimmed_of_ends
      · rw [List.append_assoc, List.head?_append_of_ne_nil _ h.ne_nil]
        exact h.isTrimmed.head
      · rw [List.getLast?_concat]
        rfl
    have := htrimmed.trim_blanks (by simp) [] space (by decide) hspace
    simpa using this
  have hregion : parameterRegion true (text ++ right ++ ')' :: space) = text := by
    show Text.trimEnd (dropClosing (Text.trim _)) = text
    rw [htrim, dropClosing, List.getLast?_concat, if_pos (by decide), List.dropLast_concat,
      Text.trimEnd_append_blanks hright, Text.trimEnd_of_getLast h.isTrimmed.getLast]
  rw [splitParameters, hregion, h.filter_map_trim_splitCommas]

end ParameterText

theorem parameterText_intercalate {p : List Char} {ps : List (List Char)}
    (h : ∀ q ∈ p :: ps, IsParameter q) :
    ParameterText (p :: ps) ([',', '\n'].intercalate (p :: ps)) := by
  induction ps generalizing p with
  | nil =>
    rw [List.intercalate_singleton]
    exact .last (h p (by simp))
  | cons next ps ih =>
    have hrest := ih fun q hq => h q (List.mem_cons_of_mem _ hq)
    have hmore : ParameterText (p :: next :: ps)
        (p ++ [] ++ ',' :: (['\n'] ++ [',', '\n'].intercalate (next :: ps))) :=
      .more (h p (by simp)) (by decide) (by decide) hrest
    rw [List.intercalate_cons_cons]
    simpa using hmore

/-- Parameters joined by a comma and a new line are split again. -/
theorem splitParameters_intercalate {ps : List (List Char)} (h : ∀ p ∈ ps, IsParameter p)
    {right : List Char} (hright : Text.Blanks right) :
    splitParameters false ([',', '\n'].intercalate ps ++ right) = ps := by
  cases ps with
  | nil =>
    have hregion : parameterRegion false ([',', '\n'].intercalate [] ++ right) = [] :=
      Text.trim_eq_nil hright
    rw [splitParameters, hregion]
    rfl
  | cons p ps => exact (parameterText_intercalate h).splitParameters_eq hright

/-! ### Any list -/

theorem splitCommas_ne_nil (depth : Nat) (text : List Char) : splitCommas depth text ≠ [] := by
  induction text generalizing depth with
  | nil => simp [splitCommas]
  | cons c text ih =>
    rw [splitCommas]
    split
    · simp
    · obtain ⟨first, others, hsplit⟩ := List.exists_cons_of_ne_nil (ih (depthAfter depth c))
      simp [hsplit]

/-- Joining undoes splitting. -/
theorem intercalate_splitCommas (depth : Nat) (text : List Char) :
    [','].intercalate (splitCommas depth text) = text := by
  induction text generalizing depth with
  | nil => rfl
  | cons c text ih =>
    rw [splitCommas]
    split
    · next hcomma =>
      obtain ⟨rfl, -⟩ : c = ',' ∧ depth = 0 := by simpa using hcomma
      obtain ⟨first, others, hsplit⟩ := List.exists_cons_of_ne_nil (splitCommas_ne_nil 0 text)
      have := ih 0
      rw [hsplit] at this ⊢
      rw [List.intercalate_cons_cons, this]
      rfl
    · have := ih (depthAfter depth c)
      obtain ⟨first, others, hsplit⟩ :=
        List.exists_cons_of_ne_nil (splitCommas_ne_nil (depthAfter depth c) text)
      rw [hsplit] at this ⊢
      rw [List.modifyHead_cons, ← this]
      cases others <;> simp [List.intercalate_cons_cons]

theorem isPart_dropClosing (text : List Char) : Text.IsPart (dropClosing text) text := by
  unfold dropClosing
  split
  · next hlast =>
    obtain ⟨start, rfl⟩ := List.getLast?_eq_some_iff.1 (eq_of_beq hlast)
    rw [List.dropLast_concat]
    exact (Text.cutsNoWord_of_head (by decide) start).isPart_left
  · exact .refl text

/-- What is left of the region cuts no word of it. -/
theorem isPart_parameterRegion (opened : Bool) (region : List Char) :
    Text.IsPart (parameterRegion opened region) region := by
  cases opened with
  | false => exact Text.isPart_trim region
  | true =>
    exact ((Text.isPart_trimEnd _).trans (isPart_dropClosing _)).trans (Text.isPart_trim region)

/-- A parameter is cut out of its list between words. -/
theorem isPart_of_mem_splitParameters {opened : Bool} {region p : List Char}
    (h : p ∈ splitParameters opened region) : Text.IsPart p region := by
  obtain ⟨piece, hpiece, rfl⟩ := List.mem_map.1 (List.mem_of_mem_filter h)
  have hsplit := Text.isPart_of_mem_intercalate (c := ',') (by decide) hpiece
  rw [intercalate_splitCommas] at hsplit
  exact ((Text.isPart_trim piece).trans hsplit).trans (isPart_parameterRegion opened region)

/-- A parameter is never empty and has no blanks at its ends. -/
theorem isTrimmed_of_mem_splitParameters {opened : Bool} {region p : List Char}
    (h : p ∈ splitParameters opened region) : p ≠ [] ∧ Text.IsTrimmed p := by
  obtain ⟨hp, hne⟩ := List.mem_filter.1 h
  obtain ⟨piece, -, rfl⟩ := List.mem_map.1 hp
  exact ⟨by simpa using hne, Text.isTrimmed_trim piece⟩

/-- The parameters stand in the region one behind the other. -/
theorem inOrder_splitParameters (opened : Bool) (region : List Char) :
    Text.InOrder (splitParameters opened region) region := by
  have hsplit := Text.inOrder_intercalate [','] (splitCommas 0 (parameterRegion opened region))
  rw [intercalate_splitCommas] at hsplit
  have hregion := hsplit.of_isInfix (isPart_parameterRegion opened region).isInfix
  exact (hregion.map fun piece => (Text.isPart_trim piece).isInfix).filter _

/-- A list that starts with the sign of a parameter keeps it through trimming and closing. -/
theorem head?_parameterRegion (opened : Bool) {region : List Char} {c : Char}
    (hhead : region.head? = some c) (hc : Text.isBlank c = false) (hclosing : c ≠ ')') :
    (parameterRegion opened region).head? = some c := by
  have htrim := Text.head?_trim hhead hc
  cases opened with
  | false => exact htrim
  | true =>
    refine Text.head?_trimEnd ?_ hc
    unfold dropClosing
    split
    · next hlast =>
      obtain ⟨start, hstart⟩ := List.getLast?_eq_some_iff.1 (eq_of_beq hlast)
      rw [hstart, List.dropLast_concat]
      cases start with
      | nil =>
        rw [hstart] at htrim
        exact absurd (Option.some.inj htrim).symm hclosing
      | cons d start =>
        rw [hstart] at htrim
        exact htrim
    · exact htrim

/-- A region that begins with `@` has a first parameter that begins with it. -/
theorem exists_splitParameters_cons (opened : Bool) {region : List Char}
    (hhead : region.head? = some '@') :
    ∃ p ps, splitParameters opened region = p :: ps ∧ p.head? = some '@' := by
  obtain ⟨rest, hrest⟩ := List.head?_eq_some_iff.1
    (head?_parameterRegion opened hhead (by decide) (by decide))
  obtain ⟨first, others, hsplit⟩ := List.exists_cons_of_ne_nil (splitCommas_ne_nil 0 rest)
  have hpieces : splitCommas 0 ('@' :: rest) = ('@' :: first) :: others := by
    rw [splitCommas, if_neg (by decide)]
    show (splitCommas 0 rest).modifyHead _ = _
    rw [hsplit]
    rfl
  have hfirst : (Text.trim ('@' :: first)).head? = some '@' := Text.head?_trim rfl (by decide)
  refine ⟨Text.trim ('@' :: first), (others.map Text.trim).filter (!·.isEmpty), ?_, hfirst⟩
  rw [splitParameters, hrest, hpieces, List.map_cons, List.filter_cons_of_pos]
  cases hempty : Text.trim ('@' :: first) with
  | nil => simp [hempty] at hfirst
  | cons => rfl

end ProcBook.Sql
