/-
ProcBook/Proofs/Splitting.lean

What is split off a parameter list, whatever the list.  Parentheses need not be balanced: one that
closes without being open has no effect, and one that is never closed keeps everything behind it in
the last parameter.

* `ArePieces` says what splitting makes of any text: pieces without a dividing comma, of which only the
  last may leave a parenthesis open.  Trimming keeps this, and so does leaving pieces out.
* Pieces like these are split again where they are joined (`ArePieces.splitCommas_intercalate`).
* Splitting loses the dividing commas (`flatten_splitCommas`), and trimming loses blanks.
-/
import ProcBook.Proofs.Parameters

namespace ProcBook.Text

/-! ### Characters that show -/

/-- The characters of a text that are no blanks. -/
def shown (text : List Char) : List Char := text.filter (!isBlank ·)

theorem shown_append (left right : List Char) : shown (left ++ right) = shown left ++ shown right :=
  List.filter_append left right

theorem shown_blanks {blanks : List Char} (h : Blanks blanks) : shown blanks = [] :=
  List.filter_eq_nil_iff.2 fun c hc => by simp [h c hc]

theorem shown_trimEnd (text : List Char) : shown (trimEnd text) = shown text := by
  obtain ⟨blanks, hb, htext⟩ := exists_trimEnd_append text
  calc shown (trimEnd text) = shown (trimEnd text ++ blanks) := by
        rw [shown_append, shown_blanks hb, List.append_nil]
    _ = shown text := by rw [← htext]

theorem shown_trim (text : List Char) : shown (trim text) = shown text := by
  obtain ⟨blanks, hb, htrim⟩ := exists_append_trim text
  calc shown (trim text) = shown (blanks ++ trim text) := by
        rw [shown_append, shown_blanks hb, List.nil_append]
    _ = shown text := by rw [← htrim, shown_trimEnd]

end ProcBook.Text

namespace ProcBook.Sql

open Text (Blanks IsTrimmed shown)

/-! ### Pieces -/

/-- No comma divides any of some texts, and none but the last leaves a parenthesis open. -/
structure ArePieces (ps : List (List Char)) : Prop where
  undivided : ∀ p ∈ ps, Undivided 0 p
  closed : ∀ p ∈ ps.dropLast, depthBehind 0 p = 0

theorem undivided_nil (depth : Nat) : Undivided depth [] := by
  intro before after htext
  simp at htext

/-- A character that is no comma at the outermost depth divides nothing. -/
theorem Undivided.cons {depth : Nat} {c : Char} {text : List Char}
    (hcomma : ¬ (c = ',' ∧ depth = 0)) (h : Undivided (depthAfter depth c) text) :
    Undivided depth (c :: text) := by
  intro before after htext
  cases before with
  | nil =>
    obtain ⟨rfl, -⟩ := List.cons.inj htext
    exact fun hdepth => hcomma ⟨rfl, hdepth⟩
  | cons d before =>
    obtain ⟨rfl, hrest⟩ := List.cons.inj htext
    exact h before after hrest

namespace ArePieces

variable {p : List Char} {ps : List (List Char)}

theorem cons (hp : Undivided 0 p) (hclosed : ps ≠ [] → depthBehind 0 p = 0) (h : ArePieces ps) :
    ArePieces (p :: ps) where
  undivided := List.forall_mem_cons.2 ⟨hp, h.undivided⟩
  closed := by
    cases ps with
    | nil => simp
    | cons next ps =>
      rw [List.dropLast_cons_cons]
      exact List.forall_mem_cons.2 ⟨hclosed (by simp), h.closed⟩

theorem head_closed (h : ArePieces (p :: ps)) (hne : ps ≠ []) : depthBehind 0 p = 0 := by
  apply h.closed
  rw [List.dropLast_cons_of_ne_nil hne]
  exact List.mem_cons_self

theorem tail (h : ArePieces (p :: ps)) : ArePieces ps where
  undivided := fun q hq => h.undivided q (List.mem_cons_of_mem _ hq)
  closed := by
    intro q hq
    cases ps with
    | nil => simp at hq
    | cons next ps =>
      apply h.closed
      rw [List.dropLast_cons_cons]
      exact List.mem_cons_of_mem _ hq

theorem filter (h : ArePieces ps) (kept : List Char → Bool) : ArePieces (ps.filter kept) := by
  induction ps with
  | nil => exact h
  | cons p ps ih =>
    by_cases hp : kept p = true
    · rw [List.filter_cons_of_pos hp]
      refine .cons (h.undivided p List.mem_cons_self) (fun hne => h.head_closed ?_) (ih h.tail)
      rintro rfl
      exact hne rfl
    · rw [List.filter_cons_of_neg hp]
      exact ih h.tail

theorem map (h : ArePieces ps) {f : List Char → List Char}
    (hf : ∀ p, Undivided 0 p → Undivided 0 (f p))
    (hdepth : ∀ p, depthBehind 0 (f p) = depthBehind 0 p) : ArePieces (ps.map f) where
  undivided := by
    intro q hq
    obtain ⟨p, hp, rfl⟩ := List.mem_map.1 hq
    exact hf p (h.undivided p hp)
  closed := by
    intro q hq
    rw [← List.map_dropLast] at hq
    obtain ⟨p, hp, rfl⟩ := List.mem_map.1 hq
    rw [hdepth, h.closed p hp]

/-- Joined pieces are split again. -/
theorem splitCommas_intercalate (h : ArePieces (p :: ps)) :
    splitCommas 0 ([','].intercalate (p :: ps)) = p :: ps := by
  have hp := (h.undivided p List.mem_cons_self).splitCommas_append
  induction ps generalizing p with
  | nil => simpa [splitCommas] using hp []
  | cons next ps ih =>
    rw [List.intercalate_cons_cons, List.append_assoc, hp, h.head_closed (by simp), List.singleton_append,
      splitCommas, if_pos (by decide),
      ih h.tail (h.tail.undivided next List.mem_cons_self).splitCommas_append]
    simp

end ArePieces

/-! ### What splitting makes of a text -/

/-- What is split off a text behind some depth of parentheses: the depth carries on in the first piece,
and all others start anew. -/
theorem exists_splitCommas_cons (depth : Nat) (text : List Char) :
    ∃ first others, splitCommas depth text = first :: others ∧ Undivided depth first ∧
      (others ≠ [] → depthBehind depth first = 0) ∧ ArePieces others := by
  induction text generalizing depth with
  | nil => exact ⟨[], [], rfl, undivided_nil depth, fun h => absurd rfl h, by simp, by simp⟩
  | cons c text ih =>
    obtain ⟨first, others, hsplit, hfirst, hclosed, hothers⟩ := ih (depthAfter depth c)
    rw [splitCommas]
    split
    · next hcomma =>
      obtain ⟨rfl, rfl⟩ : c = ',' ∧ depth = 0 := by simpa using hcomma
      have hsplit : splitCommas 0 text = first :: others := hsplit
      refine ⟨[], _, rfl, undivided_nil 0, fun _ => rfl, ?_⟩
      rw [hsplit]
      exact .cons hfirst hclosed hothers
    · next hcomma =>
      rw [hsplit]
      exact ⟨c :: first, others, rfl, hfirst.cons (by simpa using hcomma), hclosed, hothers⟩

/-- What a splitter yields are pieces: none has a comma at its outermost depth, and all but the last
are closed. -/
theorem arePieces_splitCommas (text : List Char) : ArePieces (splitCommas 0 text) := by
  obtain ⟨first, others, hsplit, hfirst, hclosed, hothers⟩ := exists_splitCommas_cons 0 text
  rw [hsplit]
  exact .cons hfirst hclosed hothers

/-- The text without its commas at depth zero. -/
def dropOuterCommas (depth : Nat) : List Char → List Char
  | [] => []
  | c :: text =>
    if c = ',' ∧ depth = 0 then dropOuterCommas 0 text
    else c :: dropOuterCommas (depthAfter depth c) text

/-- Splitting loses the dividing commas and nothing else. -/
theorem flatten_splitCommas (depth : Nat) (text : List Char) :
    (splitCommas depth text).flatten = dropOuterCommas depth text := by
  induction text generalizing depth with
  | nil => rfl
  | cons c text ih =>
    rw [splitCommas, dropOuterCommas]
    by_cases hcomma : c = ',' ∧ depth = 0
    · rw [if_pos (by simpa using hcomma), if_pos hcomma, List.flatten_cons, List.nil_append, ih]
    · obtain ⟨first, others, hsplit⟩ :=
        List.exists_cons_of_ne_nil (splitCommas_ne_nil (depthAfter depth c) text)
      rw [if_neg (by simpa using hcomma), if_neg hcomma, ← ih, hsplit]
      rfl

/-! ### Trimming the pieces -/

theorem depthBehind_blanks {blanks : List Char} (h : Blanks blanks) (depth : Nat) :
    depthBehind depth blanks = depth := by
  induction blanks generalizing depth with
  | nil => rfl
  | cons c blanks ih =>
    obtain ⟨hc, hrest⟩ := List.forall_mem_cons.1 h
    have hstep : depthAfter depth c = depth := by
      simp [depthAfter, Text.ne_of_isBlank hc (d := '(') (by decide),
        Text.ne_of_isBlank hc (d := ')') (by decide)]
    show depthBehind (depthAfter depth c) blanks = depth
    rw [hstep, ih hrest]

/-- Blanks do not change the depth. -/
theorem depthBehind_trim (text : List Char) : depthBehind 0 (Text.trim text) = depthBehind 0 text := by
  obtain ⟨left, right, hleft, hright, htext⟩ := Text.exists_blanks_trim text
  conv_rhs => rw [htext]
  rw [depthBehind_append, depthBehind_append, depthBehind_blanks hleft, depthBehind_blanks hright]

theorem Undivided.trim {text : List Char} (h : Undivided 0 text) : Undivided 0 (Text.trim text) := by
  obtain ⟨left, right, hleft, -, htext⟩ := Text.exists_blanks_trim text
  intro before after htrim
  have hdepth := h (left ++ before) (after ++ right) (by rw [htext, htrim]; simp)
  rwa [depthBehind_append, depthBehind_blanks hleft] at hdepth

/-- So are the parameters: trimming the pieces and dropping empty ones keeps both conditions. -/
theorem arePieces_splitParameters (opened : Bool) (region : List Char) :
    ArePieces (splitParameters opened region) :=
  ((arePieces_splitCommas _).map (fun _ hp => hp.trim) depthBehind_trim).filter _

/-- Trimming pieces and leaving empty ones out loses blanks only. -/
theorem shown_flatten_filter (ps : List (List Char)) :
    shown ((ps.map Text.trim).filter (!·.isEmpty)).flatten = shown ps.flatten := by
  induction ps with
  | nil => rfl
  | cons p ps ih =>
    rw [List.map_cons, List.flatten_cons, Text.shown_append, ← ih, ← Text.shown_trim p]
    cases Text.trim p with
    | nil => rfl
    | cons c rest =>
      rw [List.filter_cons_of_pos (by rfl), List.flatten_cons, Text.shown_append]

/-- All that is not blank in a list is in its parameters, but for the dividing commas. -/
theorem shown_splitParameters (opened : Bool) (region : List Char) :
    shown (splitParameters opened region).flatten =
      shown (dropOuterCommas 0 (parameterRegion opened region)) := by
  rw [splitParameters, shown_flatten_filter, flatten_splitCommas]

/-- The commas at the outermost depth are left out from left to right. -/
theorem dropOuterCommas_append (depth : Nat) (left right : List Char) :
    dropOuterCommas depth (left ++ right) =
      dropOuterCommas depth left ++ dropOuterCommas (depthBehind depth left) right := by
  induction left generalizing depth with
  | nil => rfl
  | cons c left ih =>
    rw [List.cons_append, dropOuterCommas, dropOuterCommas]
    split
    · next hcomma =>
      obtain ⟨rfl, rfl⟩ := hcomma
      rw [ih]
      rfl
    · rw [ih, List.cons_append]
      rfl

theorem dropOuterCommas_blanks {blanks : List Char} (h : Blanks blanks) (depth : Nat) :
    dropOuterCommas depth blanks = blanks := by
  induction blanks generalizing depth with
  | nil => rfl
  | cons c blanks ih =>
    obtain ⟨hc, hrest⟩ := List.forall_mem_cons.1 h
    rw [dropOuterCommas, if_neg fun hcomma => Text.ne_of_isBlank hc (by decide) hcomma.1, ih hrest]

/-- Blanks at the end of a list show in no parameter. -/
theorem shown_dropOuterCommas_trimEnd (text : List Char) :
    shown (dropOuterCommas 0 (Text.trimEnd text)) = shown (dropOuterCommas 0 text) := by
  obtain ⟨blanks, hb, htext⟩ := Text.exists_trimEnd_append text
  calc shown (dropOuterCommas 0 (Text.trimEnd text))
      = shown (dropOuterCommas 0 (Text.trimEnd text ++ blanks)) := by
        rw [dropOuterCommas_append, dropOuterCommas_blanks hb, Text.shown_append,
          Text.shown_blanks hb, List.append_nil]
    _ = shown (dropOuterCommas 0 text) := by rw [← htext]

/-! ### Splitting once more -/

/-- A blank behind each comma is one in front of each piece but the first. -/
theorem intercalate_comma_blank (p : List Char) (ps : List (List Char)) :
    [',', ' '].intercalate (p :: ps) = [','].intercalate (p :: ps.map (' ' :: ·)) := by
  induction ps generalizing p with
  | nil => rfl
  | cons next ps ih =>
    have htail : [','].intercalate ((' ' :: next) :: ps.map (' ' :: ·)) =
        ' ' :: [','].intercalate (next :: ps.map (' ' :: ·)) := by
      cases ps <;> rfl
    rw [List.intercalate_cons_cons, ih, List.map_cons, List.intercalate_cons_cons, htail]
    simp

theorem isTrimmed_intercalate (divider : List Char) {p : List Char} {ps : List (List Char)}
    (h : ∀ q ∈ p :: ps, q ≠ [] ∧ IsTrimmed q) :
    divider.intercalate (p :: ps) ≠ [] ∧ IsTrimmed (divider.intercalate (p :: ps)) := by
  induction ps generalizing p with
  | nil => simpa using h
  | cons next ps ih =>
    obtain ⟨⟨hne, htrimmed⟩, hrest⟩ := List.forall_mem_cons.1 h
    obtain ⟨hne', htrimmed'⟩ := ih hrest
    rw [List.intercalate_cons_cons]
    refine ⟨by simp [hne], Text.isTrimmed_of_ends ?_ ?_⟩
    · rw [List.append_assoc, List.head?_append_of_ne_nil _ hne]
      exact htrimmed.head
    · rw [List.getLast?_append_of_ne_nil _ hne']
      exact htrimmed'.getLast

/-- Pieces joined again are split where they were joined. -/
theorem splitCommas_comma_blank {p : List Char} {ps : List (List Char)} (h : ArePieces (p :: ps)) :
    splitCommas 0 ([',', ' '].intercalate (p :: ps)) = p :: ps.map (' ' :: ·) := by
  have hspaced : ArePieces (ps.map (' ' :: ·)) :=
    h.tail.map (fun _ hq => .cons (by decide) hq) fun _ => rfl
  rw [intercalate_comma_blank, ArePieces.splitCommas_intercalate]
  exact .cons (h.undivided p List.mem_cons_self) (fun hne => h.head_closed (by simpa using hne)) hspaced

/-- Parameters joined by a comma and a blank are split again. -/
theorem ArePieces.splitParameters_intercalate {ps : List (List Char)} (h : ArePieces ps)
    (htrimmed : ∀ p ∈ ps, p ≠ [] ∧ IsTrimmed p) :
    splitParameters false ([',', ' '].intercalate ps) = ps := by
  cases ps with
  | nil => rfl
  | cons p ps =>
    have hregion : parameterRegion false ([',', ' '].intercalate (p :: ps)) =
        [',', ' '].intercalate (p :: ps) := (isTrimmed_intercalate _ htrimmed).2
    obtain ⟨⟨-, hp⟩, hps⟩ := List.forall_mem_cons.1 htrimmed
    have hspaced : (ps.map (' ' :: ·)).map Text.trim = ps := by
      rw [List.map_map]
      conv_rhs => rw [← List.map_id ps]
      refine List.map_congr_left fun q hq => ?_
      obtain ⟨hne, hq⟩ := hps q hq
      simpa using hq.trim_blanks hne [' '] [] (by decide) (by decide)
    rw [splitParameters, hregion, splitCommas_comma_blank h, List.map_cons, hp, hspaced,
      List.filter_eq_self]
    intro q hq
    simpa using (htrimmed q hq).1

/-- **Splitting a parameter list loses nothing and is stable.**  Parameters are trimmed and not divided
by a comma outside parentheses, only the last may leave a parenthesis open, together they show all that
the list shows but for the commas between them, and joined they are split as before. -/
theorem splitParameters_lossless (opened : Bool) (region : List Char) :
    let ps := splitParameters opened region
    let text := Text.trim region
    let list := if opened = true ∧ text.getLast? = some ')' then text.dropLast else text
    (∀ p ∈ ps, p ≠ [] ∧ IsTrimmed p ∧ Undivided 0 p) ∧ (∀ p ∈ ps.dropLast, depthBehind 0 p = 0) ∧
      shown ps.flatten = shown (dropOuterCommas 0 list) ∧
      splitParameters false ([',', ' '].intercalate ps) = ps := by
  intro ps text list
  have hpieces : ArePieces ps := arePieces_splitParameters opened region
  have htrimmed : ∀ p ∈ ps, p ≠ [] ∧ IsTrimmed p := fun p hp => isTrimmed_of_mem_splitParameters hp
  refine ⟨fun p hp => ?_, hpieces.closed, ?_, hpieces.splitParameters_intercalate htrimmed⟩
  · exact ⟨(htrimmed p hp).1, (htrimmed p hp).2, hpieces.undivided p hp⟩
  · rw [shown_splitParameters]
    cases opened with
    | false => simp [list, text, parameterRegion]
    | true =>
      have hlist : list = dropClosing text := by simp [list, dropClosing]
      rw [hlist]
      exact shown_dropOuterCommas_trimEnd _

/-- A list with parentheses that are never opened, a comma at either end, and a parenthesis that is
never closed. -/
def roughList : List Char := " , a) INT, b DECIMAL(9,2) ,\n, c(d, e )".toList

/-- Parameters with parentheses that do not match. -/
theorem splitParameters_lossless_roughList :
    let ps := ["a) INT", "b DECIMAL(9,2)", "c(d, e"].map String.toList
    splitParameters true roughList = ps ∧ (∀ p ∈ ps, p ≠ [] ∧ IsTrimmed p ∧ Undivided 0 p) ∧
      (∀ p ∈ ps.dropLast, depthBehind 0 p = 0) ∧
      shown ps.flatten = "a)INTbDECIMAL(9,2)c(d,e".toList ∧
      splitParameters false ([',', ' '].intercalate ps) = ps := by
  intro ps
  have hsplit : splitParameters true roughList = ps := by decide
  have hlist := splitParameters_lossless true roughList
  rw [hsplit] at hlist
  exact ⟨hsplit, hlist.1, hlist.2.1, by decide, hlist.2.2.2⟩

end ProcBook.Sql
