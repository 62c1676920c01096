/-
ProcBook/Proofs/Comment.lean

How comments and references depend on the pieces of a body.  A block is passed over whatever it holds,
a line in front of a body hides nothing of it, and blanks at the end of a body neither open nor close
anything.  Main results: `references_block` and `references_trimEnd`.
-/
import Mathlib.Data.List.Infix
import ProcBook.Proofs.Text
import ProcBook.Sql.Reference

namespace ProcBook.Sql

/-! ### Blocks -/

/-- The end of a block comment is looked for character by character. -/
theorem afterBlock?_cons {c : Char} {text : List Char} (h : ¬ (c = '*' ∧ text.head? = some '/')) :
    afterBlock? (c :: text) = afterBlock? text := by
  rw [afterBlock?]
  rintro rest rfl rfl
  exact h ⟨rfl, rfl⟩

/-- A text without a closing mark is passed over in the search for one.  Its last character and what
follows it make no closing mark either. -/
theorem afterBlock?_append {text rest : List Char} (h : ¬ ['*', '/'] <:+: text)
    (hrest : rest.head? ≠ some '/') : afterBlock? (text ++ rest) = afterBlock? rest := by
  induction text with
  | nil => rfl
  | cons c text ih =>
    have htail : ¬ ['*', '/'] <:+: text := fun hi => h (hi.trans (List.suffix_cons c text).isInfix)
    rw [List.cons_append, afterBlock?_cons, ih htail]
    -- A star at the end of the text would need a slash at the start of the rest.
    rintro ⟨rfl, hhead⟩
    cases text with
    | nil => exact hrest hhead
    | cons d text =>
      obtain rfl : d = '/' := by simpa using hhead
      exact h ⟨[], text, rfl⟩

/-- A block comment that ends is left out. -/
theorem dropBlocks_block {rest rest' : List Char} (h : afterBlock? rest = some rest') :
    dropBlocks ('/' :: '*' :: rest) = dropBlocks rest' := by
  rw [dropBlocks]
  split
  · next h' =>
    rw [h] at h'
    cases h'
    rfl
  · next h' => rw [h] at h'; cases h'

/-- A block comment that does not end stays, with everything behind it. -/
theorem dropBlocks_unclosed {rest : List Char} (h : afterBlock? rest = none) :
    dropBlocks ('/' :: '*' :: rest) = '/' :: '*' :: rest := by
  rw [dropBlocks]
  split
  · next h' => rw [h] at h'; cases h'
  · rfl

theorem dropBlocks_cons {c : Char} {text : List Char} (h : ¬ (c = '/' ∧ text.head? = some '*')) :
    dropBlocks (c :: text) = c :: dropBlocks text := by
  rw [dropBlocks]
  rintro rest rfl rfl
  exact h ⟨rfl, rfl⟩

/-! ### Blanks at the end -/

/-- Characters that take part in no comment and in no reference. -/
def IsInert (text : List Char) : Prop :=
  ∀ c ∈ text, c ≠ '*' ∧ c ≠ '/' ∧ c ≠ '-' ∧ c ≠ '[' ∧ c ≠ ']'

instance (text : List Char) : Decidable (IsInert text) := List.decidableBAll _ text

/-- Blanks are inert. -/
theorem isInert_of_blank {text : List Char} (h : Text.Blanks text) :
    IsInert text := by
  intro c hc
  have hb := h c hc
  refine ⟨?_, ?_, ?_, ?_, ?_⟩ <;> (rintro rfl; revert hb; decide)

/-- Inert text does not begin with a character that could complete a mark in front of it. -/
theorem IsInert.head_ne {text : List Char} (h : IsInert text) {c : Char}
    (hc : c = '*' ∨ c = '/' ∨ c = '-') : text.head? ≠ some c := by
  intro hhead
  obtain ⟨h₁, h₂, h₃, -⟩ := h c (List.mem_of_mem_head? hhead)
  rcases hc with rfl | rfl | rfl
  · exact h₁ rfl
  · exact h₂ rfl
  · exact h₃ rfl

/-- No block comment ends in inert text. -/
theorem IsInert.afterBlock? {text : List Char} (h : IsInert text) : afterBlock? text = none := by
  induction text with
  | nil => rfl
  | cons c text ih =>
    have htail : IsInert text := fun d hd => h d (List.mem_cons_of_mem _ hd)
    rw [afterBlock?_cons, ih htail]
    rintro ⟨rfl, -⟩
    exact (h '*' List.mem_cons_self).1 rfl

/-- Inert text has no block comments. -/
theorem IsInert.dropBlocks {text : List Char} (h : IsInert text) : dropBlocks text = text := by
  induction text with
  | nil => rw [ProcBook.Sql.dropBlocks]
  | cons c text ih =>
    have htail : IsInert text := fun d hd => h d (List.mem_cons_of_mem _ hd)
    rw [dropBlocks_cons, ih htail]
    rintro ⟨rfl, -⟩
    exact (h '/' List.mem_cons_self).2.1 rfl

/-- Inert text behind does not change where a block comment ends. -/
theorem afterBlock?_append_inert {text tail : List Char} (h : IsInert tail) :
    afterBlock? (text ++ tail) = (afterBlock? text).map (· ++ tail) := by
  induction text using afterBlock?.induct with
  | case1 => exact h.afterBlock?
  | case2 rest => rfl
  | case3 c rest hne ih =>
    rw [List.cons_append, afterBlock?_cons, ih, afterBlock?_cons]
    · rintro ⟨rfl, hhead⟩
      cases rest with
      | nil => simp at hhead
      | cons d rest =>
        obtain rfl : d = '/' := by simpa using hhead
        exact hne rest rfl rfl
    · rintro ⟨rfl, hhead⟩
      cases rest with
      | nil => exact h.head_ne (.inr (.inl rfl)) hhead
      | cons d rest =>
        obtain rfl : d = '/' := by simpa using hhead
        exact hne rest rfl rfl

/-- Inert text behind stays behind, whether or not a block is left open. -/
theorem dropBlocks_append_inert {text tail : List Char} (h : IsInert tail) :
    dropBlocks (text ++ tail) = dropBlocks text ++ tail := by
  -- The cases are the end of the text, a block that ends, one that does not, and any other character.
  fun_induction dropBlocks text with
  | case1 => exact h.dropBlocks
  | case2 rest rest' hr hlt ih =>
    have hr' : afterBlock? (rest ++ tail) = some (rest' ++ tail) := by
      rw [afterBlock?_append_inert h, hr]
      rfl
    rw [List.cons_append, List.cons_append, dropBlocks_block hr', ih]
  | case3 rest hr =>
    have hr' : afterBlock? (rest ++ tail) = none := by
      rw [afterBlock?_append_inert h, hr]
      rfl
    rw [List.cons_append, List.cons_append, dropBlocks_unclosed hr']
  | case4 c rest hne ih =>
    -- A slash at the end of the text opens nothing with what follows it.
    rw [List.cons_append, dropBlocks_cons, ih, List.cons_append]
    rintro ⟨rfl, hhead⟩
    cases rest with
    | nil => exact h.head_ne (.inl rfl) hhead
    | cons d rest =>
      obtain rfl : d = '*' := by simpa using hhead
      exact hne rest rfl rfl

/-! ### Lines -/

theorem dropLineComments_newline (commented : Bool) (text : List Char) :
    dropLineComments commented ('\n' :: text) = '\n' :: dropLineComments false text := by
  rw [dropLineComments]

theorem dropLineComments_commented {c : Char} (hc : c ≠ '\n') (text : List Char) :
    dropLineComments true (c :: text) = dropLineComments true text := by
  rw [dropLineComments]
  · simp
  · simpa using hc

theorem dropLineComments_open {text : List Char} (h : text.head? = some '-') :
    dropLineComments false ('-' :: text) = dropLineComments true text := by
  rw [dropLineComments]
  · simp [h]
  · simp

theorem dropLineComments_keep {c : Char} {text : List Char} (hc : c ≠ '\n')
    (h : ¬ (c = '-' ∧ text.head? = some '-')) :
    dropLineComments false (c :: text) = c :: dropLineComments false text := by
  rw [dropLineComments]
  · have : (c == '-' && text.head? == some '-') = false := by simpa using h
    simp [this]
  · simpa using hc

/-- Leaving out line comments only leaves out characters. -/
theorem dropLineComments_sublist (commented : Bool) (text : List Char) :
    (dropLineComments commented text).Sublist text := by
  fun_induction dropLineComments commented text with
  | case1 => exact .slnil
  | case2 _ _ ih => exact ih.cons_cons _
  | case3 _ _ _ ih => exact ih.cons _
  | case4 _ _ _ _ _ _ ih => exact ih.cons _
  | case5 _ _ _ _ _ _ ih => exact ih.cons_cons _

/-- Of a text in front of others only this matters: whether it ends inside a line comment. -/
theorem dropLineComments_append (commented : Bool) (text : List Char) :
    ∃ later : Bool, ∀ rest : List Char, (text.getLast? = some '-' → rest.head? ≠ some '-') →
      dropLineComments commented (text ++ rest) =
        dropLineComments commented text ++ dropLineComments later rest := by
  -- Whether a dash stands at the end does not depend on the first character, except where it is alone.
  have hcons : ∀ {c : Char} {tail rest : List Char},
      ((c :: tail).getLast? = some '-' → rest.head? ≠ some '-') →
        (tail.getLast? = some '-' → rest.head? ≠ some '-') := by
    intro c tail rest hrest hlast
    exact hrest (by rw [List.getLast?_cons, hlast]; rfl)
  -- The cases are those of the scan: the end, a line break, inside of a comment, at its start, and
  -- elsewhere.
  fun_induction dropLineComments commented text with
  | case1 commented => exact ⟨commented, fun rest _ => rfl⟩
  | case2 _ tail ih =>
    obtain ⟨later, hlater⟩ := ih
    refine ⟨later, fun rest hrest => ?_⟩
    rw [List.cons_append, dropLineComments_newline, hlater rest (hcons hrest), List.cons_append]
  | case3 c tail hc ih =>
    obtain ⟨later, hlater⟩ := ih
    refine ⟨later, fun rest hrest => ?_⟩
    rw [List.cons_append, dropLineComments_commented (by simpa using hc),
      hlater rest (hcons hrest)]
  | case4 commented c tail hc hcommented hopen ih =>
    obtain ⟨later, hlater⟩ := ih
    obtain rfl : commented = false := by simpa using hcommented
    obtain ⟨rfl, hhead⟩ : c = '-' ∧ tail.head? = some '-' := by simpa using hopen
    refine ⟨later, fun rest hrest => ?_⟩
    have hhead' : (tail ++ rest).head? = some '-' := by
      rw [List.head?_append, hhead]
      rfl
    rw [List.cons_append, dropLineComments_open hhead', hlater rest (hcons hrest)]
  | case5 commented c tail hc hcommented hopen ih =>
    obtain ⟨later, hlater⟩ := ih
    obtain rfl : commented = false := by simpa using hcommented
    have hopen' : ¬ (c = '-' ∧ tail.head? = some '-') := by simpa using hopen
    refine ⟨later, fun rest hrest => ?_⟩
    rw [List.cons_append, dropLineComments_keep (by simpa using hc), hlater rest (hcons hrest),
      List.cons_append]
    rintro ⟨rfl, hhead⟩
    -- Only here the two texts meet: a dash at the very end must not find its second one behind.
    cases tail with
    | nil => exact hrest rfl hhead
    | cons d tail => exact hopen' ⟨rfl, hhead⟩

/-- Blanks at the end add at most some of themselves. -/
theorem dropLineComments_append_inert {tail : List Char} (h : IsInert tail) (commented : Bool)
    (text : List Char) : ∃ kept, IsInert kept ∧
      dropLineComments commented (text ++ tail) = dropLineComments commented text ++ kept := by
  obtain ⟨later, hlater⟩ := dropLineComments_append commented text
  refine ⟨dropLineComments later tail, ?_, hlater tail fun _ => h.head_ne (.inr (.inr rfl))⟩
  intro c hc
  exact h c ((dropLineComments_sublist later tail).subset hc)

/-! ### References -/

theorem bracketed_cons {c : Char} (hc : c ≠ '[') (text : List Char) :
    bracketed (c :: text) = bracketed text := by
  rw [bracketed]
  simp [hc]

/-- Without a closing bracket there are no names. -/
theorem bracketed_unclosed {text : List Char} (h : ']' ∉ text) : bracketed ('[' :: text) = [] := by
  have hdrop : text.dropWhile (· != ']') = [] := Text.dropWhile_ne_of_not_mem h
  rw [bracketed]
  simp only [beq_self_eq_true, if_true]
  split
  · rfl
  · next h' => rw [hdrop] at h'; cases h'

/-- A name in brackets counts unless it is empty. -/
theorem bracketed_name {name : List Char} (h : ']' ∉ name) (rest : List Char) :
    bracketed ('[' :: (name ++ ']' :: rest)) =
      if name = [] then bracketed rest else name :: bracketed rest := by
  rw [bracketed]
  simp only [beq_self_eq_true, if_true]
  split
  · next h' => rw [Text.dropWhile_ne_append h] at h'; cases h'
  · next h' =>
    rw [Text.dropWhile_ne_append h] at h'
    cases h'
    rw [Text.takeWhile_ne_append h]
    cases name with
    | nil => rfl
    | cons c name => simp

/-- Induction along the search: names in brackets are passed as a whole, and a bracket that is never closed
ends it. -/
theorem bracketed_induction {motive : List Char → Prop} (nil : motive [])
    (cons : ∀ c text, c ≠ '[' → motive text → motive (c :: text))
    (unclosed : ∀ text, ']' ∉ text → motive ('[' :: text))
    (closed : ∀ name rest, ']' ∉ name → motive rest → motive ('[' :: (name ++ ']' :: rest)))
    (text : List Char) : motive text := by
  match text with
  | [] => exact nil
  | c :: rest =>
    have hrest := bracketed_induction nil cons unclosed closed rest
    by_cases hc : c = '['
    · subst hc
      by_cases hclose : ']' ∈ rest
      · obtain ⟨name, rest, rfl, hname⟩ := List.eq_append_cons_of_mem hclose
        exact closed name rest hname (bracketed_induction nil cons unclosed closed rest)
      · exact unclosed rest hclose
    · exact cons c rest hc hrest
termination_by text.length
decreasing_by all_goals subst_vars; simp only [List.length_cons, List.length_append]; omega

theorem IsInert.bracketed {text : List Char} (h : IsInert text) : bracketed text = [] := by
  induction text with
  | nil => rw [ProcBook.Sql.bracketed]
  | cons c text ih =>
    have htail : IsInert text := fun d hd => h d (List.mem_cons_of_mem _ hd)
    rw [bracketed_cons (h c List.mem_cons_self).2.2.2.1, ih htail]

/-- Blanks at the end close no bracket. -/
theorem bracketed_append_inert {tail : List Char} (h : IsInert tail) (text : List Char) :
    bracketed (text ++ tail) = bracketed text := by
  have htail : ']' ∉ tail := fun hc => (h _ hc).2.2.2.2 rfl
  induction text using bracketed_induction with
  | nil => rw [List.nil_append, h.bracketed, bracketed]
  | cons c text hc ih => rw [List.cons_append, bracketed_cons hc, bracketed_cons hc, ih]
  | unclosed text hclose =>
    rw [List.cons_append, bracketed_unclosed hclose, bracketed_unclosed]
    intro hmem
    rcases List.mem_append.1 hmem with hmem | hmem
    · exact hclose hmem
    · exact htail hmem
  | closed name rest hname ih =>
    rw [List.cons_append, List.append_assoc, List.cons_append, bracketed_name hname,
      bracketed_name hname, ih]

/-- Blanks at the end of a body add no reference and take none away. -/
theorem references_trimEnd (schema : String) (body : List Char) :
    references schema (Text.trimEnd body) = references schema body := by
  obtain ⟨blanks, hblanks, hbody⟩ := Text.exists_trimEnd_append body
  have hinert := isInert_of_blank hblanks
  -- Blanks may end a line comment or be part of one, so only some of them are kept.
  obtain ⟨kept, hkept, hlines⟩ :=
    dropLineComments_append_inert hinert false (dropBlocks (Text.trimEnd body))
  have hnames : bracketed (stripComments body) = bracketed (stripComments (Text.trimEnd body)) := by
    conv_lhs => rw [hbody]
    rw [stripComments, dropBlocks_append_inert hinert, hlines, bracketed_append_inert hkept]
    rfl
  rw [references, references, hnames]

/-- Characters that take part in no comment and in no reference may stand in front of a body. -/
theorem references_append_inert (schema : String) {lead : List Char} (h : IsInert lead)
    (body : List Char) : references schema (lead ++ body) = references schema body := by
  have hnames : bracketed (stripComments (lead ++ body)) = bracketed (stripComments body) := by
    induction lead with
    | nil => rfl
    | cons c lead ih =>
      obtain ⟨-, hslash, hdash, hopen, -⟩ := h c List.mem_cons_self
      have hlead : IsInert lead := fun d hd => h d (List.mem_cons_of_mem _ hd)
      rw [List.cons_append, stripComments, dropBlocks_cons (fun hc => hslash hc.1)]
      by_cases hc : c = '\n'
      · subst hc
        rw [dropLineComments_newline, bracketed_cons hopen]
        exact ih hlead
      · rw [dropLineComments_keep hc (fun hd => hdash hd.1), bracketed_cons hopen]
        exact ih hlead
  rw [references, references, hnames]

/-- What a closed block holds has no effect on the references. -/
theorem references_block (schema : String) {block body : List Char}
    (h : afterBlock? block = some body) :
    references schema ('/' :: '*' :: block) = references schema body := by
  rw [references, stripComments, dropBlocks_block h]
  rfl

end ProcBook.Sql
