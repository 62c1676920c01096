/-
ProcBook/Proofs/OpenComment.lean

Comments that begin in one piece of a text and end in another.

Blocks are removed before lines are looked at, so a `/*` behind `--` opens a block all the same.  What
matters of a piece is therefore whether it leaves a block open, `leavesOpen`.  If it does not, what
follows is treated on its own (`dropBlocks_append`).  If it does, what follows is lost up to its first
`*/`, whatever stands there (`dropBlocks_append_open`).

Main result: `references_lineComment`, a line comment hides its own line and no more, unless it leaves a
block open that is closed further down.
-/
import ProcBook.Proofs.Comment

namespace ProcBook.Sql

/-! ### Closing marks -/

/-- A comment is not closed exactly if no mark that closes one follows. -/
theorem afterBlock?_eq_none_iff {text : List Char} :
    afterBlock? text = none ↔ ¬ ['*', '/'] <:+: text := by
  fun_induction afterBlock? text with
  | case1 => simp
  | case2 rest => exact iff_of_false (by simp) (not_not_intro ⟨[], rest, rfl⟩)
  | case3 c rest hne ih =>
    have hstart : ¬ ['*', '/'] <+: c :: rest := by
      rintro ⟨tail, htail⟩
      obtain ⟨rfl, rfl⟩ := List.cons.inj htail
      exact hne tail rfl rfl
    rw [ih, List.infix_cons_iff]
    exact ⟨fun h hi => hi.elim hstart h, fun h hi => h (.inr hi)⟩

theorem suffix_of_afterBlock? {text rest : List Char} (h : afterBlock? text = some rest) :
    rest <:+ text := by
  fun_induction afterBlock? text with
  | case1 => cases h
  | case2 tail =>
    obtain rfl := Option.some.inj h
    exact ⟨['*', '/'], rfl⟩
  | case3 c tail _ ih => exact (ih h).trans (List.suffix_cons c tail)

/-- A closing mark stays the first one, whatever is added behind it. -/
theorem afterBlock?_append_of_some {text rest : List Char} (h : afterBlock? text = some rest)
    (more : List Char) : afterBlock? (text ++ more) = some (rest ++ more) := by
  fun_induction afterBlock? text with
  | case1 => cases h
  | case2 tail =>
    obtain rfl := Option.some.inj h
    rfl
  | case3 c tail hne ih =>
    rw [List.cons_append, afterBlock?_cons, ih h]
    rintro ⟨rfl, hhead⟩
    cases tail with
    | nil => cases h
    | cons d tail =>
      obtain rfl : d = '/' := by simpa using hhead
      exact hne tail rfl rfl

/-! ### Blocks across the pieces of a text -/

/-- Whether a text opens a block that it does not close. -/
def leavesOpen (text : List Char) : Bool :=
  match text with
  | [] => false
  | '/' :: '*' :: rest =>
    match h : afterBlock? rest with
    | some rest' =>
      have := length_of_afterBlock? h
      leavesOpen rest'
    | none => true
  | _ :: rest => leavesOpen rest
termination_by text.length
decreasing_by all_goals simp only [List.length_cons]; omega

theorem leavesOpen_cons {c : Char} {text : List Char} (h : ¬ (c = '/' ∧ text.head? = some '*')) :
    leavesOpen (c :: text) = leavesOpen text := by
  rw [leavesOpen]
  rintro rest rfl rfl
  exact h ⟨rfl, rfl⟩

/-- Leaving out block comments only leaves out characters. -/
theorem dropBlocks_sublist (text : List Char) : (dropBlocks text).Sublist text := by
  fun_induction dropBlocks text with
  | case1 => exact .slnil
  | case2 rest rest' h _ ih =>
    exact ((ih.trans (suffix_of_afterBlock? h).sublist).cons '*').cons '/'
  | case3 rest _ => exact .refl _
  | case4 c rest _ ih => exact ih.cons_cons c

/-- Without an opening mark a text has no blocks and leaves none open. -/
theorem dropBlocks_of_not_infix {text : List Char} (h : ¬ ['/', '*'] <:+: text) :
    dropBlocks text = text ∧ leavesOpen text = false := by
  induction text with
  | nil => exact ⟨by rw [dropBlocks], by rw [leavesOpen]⟩
  | cons c text ih =>
    have hstart : ¬ (c = '/' ∧ text.head? = some '*') := by
      rintro ⟨rfl, hhead⟩
      obtain ⟨tail, rfl⟩ := List.head?_eq_some_iff.1 hhead
      exact h ⟨[], tail, rfl⟩
    obtain ⟨hdrop, hopen⟩ := ih fun hi => h (hi.trans (List.suffix_cons c text).isInfix)
    rw [dropBlocks_cons hstart, leavesOpen_cons hstart, hdrop, hopen]
    exact ⟨rfl, rfl⟩

/-- Without a closing mark nothing is removed. -/
theorem dropBlocks_of_afterBlock? {text : List Char} (h : afterBlock? text = none) :
    dropBlocks text = text := by
  rw [afterBlock?_eq_none_iff] at h
  fun_induction dropBlocks text with
  | case1 => rfl
  | case2 rest rest' hrest _ _ =>
    have hnone : afterBlock? rest = none :=
      afterBlock?_eq_none_iff.2 fun hi => h (hi.trans ⟨['/', '*'], [], by simp⟩)
    rw [hrest] at hnone
    cases hnone
  | case3 rest _ => rfl
  | case4 c rest _ ih => rw [ih fun hi => h (hi.trans (List.suffix_cons c rest).isInfix)]

/-- The first character of a text makes no mark with what follows it, whatever is added at the end. -/
theorem not_mark_append {a b c : Char} {text rest : List Char}
    (h : ∀ tail, c = a → text = b :: tail → False) (hrest : text = [] → rest.head? ≠ some b) :
    ¬ (c = a ∧ (text ++ rest).head? = some b) := by
  rintro ⟨hc, hhead⟩
  cases text with
  | nil => exact hrest rfl hhead
  | cons d text =>
    obtain rfl : d = b := by simpa using hhead
    exact h text hc rfl

theorem not_mark {a b c : Char} {text : List Char} (h : ∀ tail, c = a → text = b :: tail → False) :
    ¬ (c = a ∧ text.head? = some b) := by
  have hnil : ¬ (c = a ∧ (text ++ []).head? = some b) := not_mark_append h fun _ => by simp
  rwa [List.append_nil] at hnil

/-- Behind a text that leaves no block open everything is treated as if it stood alone. -/
theorem dropBlocks_append {text rest : List Char} (h : leavesOpen text = false)
    (hrest : rest.head? ≠ some '*') :
    dropBlocks (text ++ rest) = dropBlocks text ++ dropBlocks rest := by
  fun_induction leavesOpen text with
  | case1 => rw [dropBlocks.eq_def []]; rfl
  | case2 tail tail' htail _ ih =>
    rw [List.cons_append, List.cons_append, dropBlocks_block (afterBlock?_append_of_some htail rest),
      dropBlocks_block htail, ih h]
  | case3 => cases h
  | case4 c tail hne ih =>
    rw [List.cons_append, dropBlocks_cons (not_mark_append hne fun _ => hrest),
      dropBlocks_cons (not_mark hne), ih h, List.cons_append]

/-- Behind a text that leaves a block open everything is lost up to the first closing mark.  Without
one the opening mark opens nothing, and all stays as it is. -/
theorem dropBlocks_append_open {text : List Char} (h : leavesOpen text = true) :
    ∃ kept : List Char, kept.Sublist text ∧ ∀ rest : List Char, rest.head? ≠ some '/' →
      (∀ rest', afterBlock? rest = some rest' → dropBlocks (text ++ rest) = kept ++ dropBlocks rest') ∧
      (afterBlock? rest = none → dropBlocks (text ++ rest) = dropBlocks text ++ rest) := by
  fun_induction leavesOpen text with
  | case1 => cases h
  | case2 tail tail' htail _ ih =>
    obtain ⟨kept, hkept, hrest⟩ := ih h
    refine ⟨kept, ((hkept.trans (suffix_of_afterBlock? htail).sublist).cons '*').cons '/', ?_⟩
    intro rest hhead
    rw [List.cons_append, List.cons_append, dropBlocks_block (afterBlock?_append_of_some htail rest),
      dropBlocks_block htail]
    exact hrest rest hhead
  | case3 tail htail =>
    -- The block is opened here, so nothing is kept from here on.
    refine ⟨[], List.nil_sublist _, ?_⟩
    intro rest hhead
    have hafter : afterBlock? (tail ++ rest) = afterBlock? rest :=
      afterBlock?_append (afterBlock?_eq_none_iff.1 htail) hhead
    refine ⟨?_, ?_⟩
    · intro rest' hrest
      exact dropBlocks_block (hafter.trans hrest)
    · intro hrest
      rw [List.cons_append, List.cons_append, dropBlocks_unclosed (hafter.trans hrest),
        dropBlocks_unclosed htail, List.cons_append, List.cons_append]
  | case4 c tail hne ih =>
    obtain ⟨kept, hkept, hrest⟩ := ih h
    refine ⟨c :: kept, hkept.cons_cons c, ?_⟩
    intro rest hhead
    obtain ⟨hclosed, hunclosed⟩ := hrest rest hhead
    have hstart : ¬ (c = '/' ∧ (tail ++ rest).head? = some '*') := by
      apply not_mark_append hne
      -- The empty text leaves nothing open.
      rintro rfl
      rw [leavesOpen] at h
      cases h
    rw [List.cons_append, dropBlocks_cons hstart, dropBlocks_cons (not_mark hne)]
    refine ⟨?_, ?_⟩
    · intro rest' hrest'
      rw [hclosed rest' hrest', List.cons_append]
    · intro hnone
      rw [hunclosed hnone, List.cons_append]

/-! ### Line comments across the pieces of a text -/

/-- What stands behind `--` is dropped up to the end of its line. -/
theorem dropLineComments_line (commented : Bool) {line : List Char} (h : '\n' ∉ line)
    (rest : List Char) :
    dropLineComments commented ('-' :: '-' :: (line ++ rest)) = dropLineComments true rest := by
  have hcommented : ∀ text : List Char, '\n' ∉ text →
      dropLineComments true (text ++ rest) = dropLineComments true rest := by
    intro text htext
    induction text with
    | nil => rfl
    | cons c text ih =>
      rw [List.mem_cons, not_or] at htext
      rw [List.cons_append, dropLineComments_commented (Ne.symm htext.1), ih htext.2]
  cases commented with
  | true => exact hcommented ('-' :: '-' :: line) (by simpa using h)
  | false =>
    rw [dropLineComments_open rfl]
    exact hcommented ('-' :: line) (by simpa using h)

/-! ### Line comments and references -/

/-- A text without blocks in front of others keeps apart from them, if it does not end with a dash. -/
theorem stripComments_append {before : List Char} (hblock : ¬ ['/', '*'] <:+: before)
    (hdash : before.getLast? ≠ some '-') : ∃ later : Bool, ∀ rest : List Char,
      rest.head? ≠ some '*' → stripComments (before ++ rest) =
        dropLineComments false before ++ dropLineComments later (dropBlocks rest) := by
  obtain ⟨hdrop, hclosed⟩ := dropBlocks_of_not_infix hblock
  obtain ⟨later, hlater⟩ := dropLineComments_append false before
  refine ⟨later, fun rest hrest => ?_⟩
  rw [stripComments, dropBlocks_append hclosed hrest, hdrop, hlater _ fun hlast => absurd hlast hdash]

theorem dropBlocks_dashes (text : List Char) :
    dropBlocks ('-' :: '-' :: text) = '-' :: '-' :: dropBlocks text := by
  rw [dropBlocks_cons (by simp), dropBlocks_cons (by simp)]

/-- A block that is left open at the end of a line and never closed is none. -/
theorem dropBlocks_append_newline {line after : List Char}
    (h : leavesOpen line = true → ¬ ['*', '/'] <:+: after) :
    dropBlocks (line ++ '\n' :: after) = dropBlocks line ++ '\n' :: dropBlocks after := by
  cases hopen : leavesOpen line with
  | false => rw [dropBlocks_append hopen (by simp), dropBlocks_cons (by simp)]
  | true =>
    have hafter : afterBlock? after = none := afterBlock?_eq_none_iff.2 (h hopen)
    have hnewline : afterBlock? ('\n' :: after) = none := by rw [afterBlock?_cons (by simp), hafter]
    obtain ⟨kept, -, hrest⟩ := dropBlocks_append_open hopen
    rw [(hrest ('\n' :: after) (by simp)).2 hnewline, dropBlocks_of_afterBlock? hafter]

/-- **A line comment hides its own line**, whatever it holds, and what stands on other lines is not
touched.  The exception is a comment that leaves a block open, with a closing mark somewhere behind it:
then everything up to that mark belongs to the comment, together with the rest of the mark's line. -/
theorem references_lineComment (schema : String) (before comment after : List Char)
    (hblock : ¬ ['/', '*'] <:+: before) (hdash : before.getLast? ≠ some '-')
    (hline : '\n' ∉ comment) :
    ((leavesOpen comment = true → ¬ ['*', '/'] <:+: after) →
      references schema (before ++ '-' :: '-' :: (comment ++ '\n' :: after)) =
        references schema (before ++ '\n' :: after)) ∧
    (leavesOpen comment = true → ∀ rest, afterBlock? after = some rest →
      references schema (before ++ '-' :: '-' :: (comment ++ '\n' :: after)) =
        references schema (before ++ '-' :: '-' :: rest)) := by
  obtain ⟨later, hbefore⟩ := stripComments_append hblock hdash
  refine ⟨?_, ?_⟩
  · intro hclosed
    have hcomment : '\n' ∉ dropBlocks comment := fun hc => hline ((dropBlocks_sublist _).subset hc)
    have hstrip : stripComments (before ++ '-' :: '-' :: (comment ++ '\n' :: after)) =
        stripComments (before ++ '\n' :: after) := by
      rw [hbefore _ (by simp), hbefore _ (by simp), dropBlocks_dashes,
        dropBlocks_append_newline hclosed, dropLineComments_line later hcomment,
        dropBlocks_cons (by simp), dropLineComments_newline, dropLineComments_newline]
    rw [references, hstrip]
    rfl
  · intro hopen rest hrest
    obtain ⟨kept, hkept, hlost⟩ := dropBlocks_append_open hopen
    have hkeptLine : '\n' ∉ kept := fun hc => hline (hkept.subset hc)
    have hmark : afterBlock? ('\n' :: after) = some rest := by rw [afterBlock?_cons (by simp), hrest]
    have hstrip : stripComments (before ++ '-' :: '-' :: (comment ++ '\n' :: after)) =
        stripComments (before ++ '-' :: '-' :: rest) := by
      have hempty : dropLineComments later ('-' :: '-' :: dropBlocks rest) =
          dropLineComments true (dropBlocks rest) :=
        dropLineComments_line later List.not_mem_nil (dropBlocks rest)
      rw [hbefore _ (by simp), hbefore _ (by simp), dropBlocks_dashes, dropBlocks_dashes,
        (hlost ('\n' :: after) (by simp)).1 rest hmark, dropLineComments_line later hkeptLine, hempty]
    rw [references, hstrip]
    rfl

/-- A line comment with brackets, a closed block and stray marks in it, and one that leaves a block
open. -/
theorem references_lineComment_brackets :
    let before := "FROM [User] ".toList
    let after := "JOIN [Role] */ r\nON 1".toList
    leavesOpen "[x] /* ] */ -- \" */ [".toList = false ∧
    references "dbo" (before ++ '-' :: '-' :: ("[x] /* ] */ -- \" */ [".toList ++ '\n' :: after)) =
      ["User", "Role"] ∧
    references "dbo" (before ++ '-' :: '-' :: ("/* all".toList ++ '\n' :: after)) = ["User"] := by
  intro before after
  have hclosed : leavesOpen "[x] /* ] */ -- \" */ [".toList = false := by decide +kernel
  have hblock : ¬ ['/', '*'] <:+: before := by decide
  have hdash : before.getLast? ≠ some '-' := by decide
  refine ⟨hclosed, ?_, ?_⟩
  · obtain ⟨hkept, -⟩ := references_lineComment "dbo" before "[x] /* ] */ -- \" */ [".toList after
      hblock hdash (by decide)
    exact (hkept fun hopen => by rw [hclosed] at hopen; cases hopen).trans (by decide +kernel)
  · obtain ⟨-, hlost⟩ := references_lineComment "dbo" before "/* all".toList after hblock hdash
      (by decide)
    exact (hlost (by decide +kernel) " r\nON 1".toList (by decide)).trans (by decide +kernel)

/-- A block that a line comment leaves open swallows the lines behind it. -/
theorem references_lineComment_open :
    let comment := " see /*".toList
    let after := "FROM [User] /* all */".toList
    '\n' ∉ comment ∧ references "dbo" ('\n' :: after) = ["User"] ∧
      references "dbo" ('-' :: '-' :: (comment ++ '\n' :: after)) = [] := by
  refine ⟨by decide, by decide +kernel, by decide +kernel⟩

end ProcBook.Sql
