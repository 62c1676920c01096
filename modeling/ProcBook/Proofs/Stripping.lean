/-
ProcBook/Proofs/Stripping.lean

What is left of a text without its comments, said without the two passes.

A `BlockCut` is a text cut at its blocks: pieces with a block behind each, and a last piece.  Every text
is cut in exactly one way (`BlockCut.exists_text`, `BlockCut.text_injective`), and removing the blocks
leaves the pieces:

    dropBlocks cut.text = cut.kept.

Line comments are then removed line by line, which `dropLineComments_eq` says with the lines of the text.

Main results: `stripComments_cut`, the exact effect of removing comments, and `stripComments_again`, what a
second pass finds.  It finds something exactly if the text without its comments holds a block, and it can
do so only where a block of the text stands between a slash and a star (`BlockCut.Joins`): the two come
together and open another one.
-/
import ProcBook.Proofs.OpenComment

namespace ProcBook.Sql

/-! ### Closed blocks -/

/-- A block that is closed stands in the text. -/
def HoldsBlock (text : List Char) : Prop :=
  ∃ inner, '/' :: '*' :: (inner ++ ['*', '/']) <:+: text

theorem HoldsBlock.of_isInfix {part text : List Char} (h : HoldsBlock part) (hpart : part <:+: text) :
    HoldsBlock text := by
  obtain ⟨inner, hinner⟩ := h
  exact ⟨inner, hinner.trans hpart⟩

/-- A block comment ends at the first mark that closes one. -/
theorem afterBlock?_eq_some_iff {text rest : List Char} :
    afterBlock? text = some rest ↔
      ∃ inner, ¬ ['*', '/'] <:+: inner ∧ text = inner ++ '*' :: '/' :: rest := by
  constructor
  · intro h
    fun_induction afterBlock? text with
    | case1 => cases h
    | case2 tail =>
      obtain rfl := Option.some.inj h
      exact ⟨[], by simp, rfl⟩
    | case3 c tail hne ih =>
      obtain ⟨inner, hinner, rfl⟩ := ih h
      refine ⟨c :: inner, ?_, rfl⟩
      intro hinfix
      rcases List.infix_cons_iff.1 hinfix with ⟨more, hmore⟩ | hinfix
      · obtain ⟨rfl, rfl⟩ := List.cons.inj hmore
        exact hne _ rfl rfl
      · exact hinner hinfix
  · rintro ⟨inner, hinner, rfl⟩
    rw [afterBlock?_append hinner (by simp), afterBlock?]

/-- A block starts with the first character of a text or stands behind it. -/
theorem holdsBlock_cons_iff {c : Char} {text : List Char} :
    HoldsBlock (c :: text) ↔
      (c = '/' ∧ ∃ rest, text = '*' :: rest ∧ afterBlock? rest ≠ none) ∨ HoldsBlock text := by
  constructor
  · rintro ⟨inner, hinner⟩
    rcases List.infix_cons_iff.1 hinner with ⟨more, hmore⟩ | hinner
    · left
      obtain ⟨rfl, rfl⟩ := List.cons.inj hmore
      refine ⟨rfl, _, rfl, fun hnone => afterBlock?_eq_none_iff.1 hnone ?_⟩
      exact ⟨inner, more, rfl⟩
    · exact .inr ⟨inner, hinner⟩
  · rintro (⟨rfl, rest, rfl, hrest⟩ | h)
    · obtain ⟨rest', hrest'⟩ := Option.ne_none_iff_exists'.1 hrest
      obtain ⟨inner, -, rfl⟩ := afterBlock?_eq_some_iff.1 hrest'
      exact ⟨inner, [], rest', by simp⟩
    · exact h.of_isInfix (List.suffix_cons c text).isInfix

theorem HoldsBlock.afterBlock? {text : List Char} (h : HoldsBlock text) : afterBlock? text ≠ none := by
  obtain ⟨inner, hinner⟩ := h
  intro hnone
  exact afterBlock?_eq_none_iff.1 hnone
    ((List.IsSuffix.isInfix ⟨'/' :: '*' :: inner, rfl⟩).trans hinner)

/-- The first pass leaves alone just the texts without a block. -/
theorem dropBlocks_eq_self_iff {text : List Char} : dropBlocks text = text ↔ ¬ HoldsBlock text := by
  fun_induction dropBlocks text with
  | case1 => simp [HoldsBlock]
  | case2 rest rest' h hlt _ =>
    -- A block that is left out makes the text shorter.
    have hne : dropBlocks rest' ≠ '/' :: '*' :: rest := by
      intro heq
      have hlength := (dropBlocks_sublist rest').length_le
      rw [heq, List.length_cons, List.length_cons] at hlength
      omega
    refine iff_of_false hne (not_not_intro (holdsBlock_cons_iff.2 (.inl ⟨rfl, rest, rfl, ?_⟩)))
    rw [h]
    simp
  | case3 rest h =>
    refine iff_of_true rfl ?_
    rw [holdsBlock_cons_iff, holdsBlock_cons_iff]
    -- A block inside of what is left open would close it.
    rintro (⟨-, rest', hrest, hsome⟩ | ⟨hstar, -⟩ | hrest)
    · obtain ⟨-, rfl⟩ := List.cons.inj hrest
      exact hsome h
    · cases hstar
    · exact hrest.afterBlock? h
  | case4 c rest hne ih =>
    have hstart : ¬ (c = '/' ∧ ∃ rest', rest = '*' :: rest' ∧ afterBlock? rest' ≠ none) := by
      rintro ⟨rfl, rest', rfl, -⟩
      exact hne rest' rfl rfl
    rw [List.cons.injEq, holdsBlock_cons_iff, ih]
    simp [hstart]

/-! ### Cutting a text at its blocks -/

/-- A mark of two different characters is found in one place only: the first. -/
theorem append_mark_inj {a b : Char} (hab : a ≠ b) {xs xs' ys ys' : List Char}
    (hx : ¬ [a, b] <:+: xs) (hx' : ¬ [a, b] <:+: xs')
    (h : xs ++ a :: b :: ys = xs' ++ a :: b :: ys') : xs = xs' ∧ ys = ys' := by
  -- If one of the two is longer, the mark starts in what it has more.
  have hmore : ∀ {more zs zs' : List Char}, ¬ [a, b] <:+: more →
      a :: b :: zs = more ++ a :: b :: zs' → more = [] := by
    intro more zs zs' hmark heq
    rcases more with - | ⟨c, - | ⟨d, more⟩⟩
    · rfl
    · obtain ⟨-, hb⟩ := List.cons.inj heq
      exact absurd (List.cons.inj hb).1.symm hab
    · obtain ⟨rfl, hb⟩ := List.cons.inj heq
      obtain ⟨rfl, -⟩ := List.cons.inj hb
      exact absurd ⟨[], more, rfl⟩ hmark
  rcases List.append_eq_append_iff.1 h with ⟨more, rfl, heq⟩ | ⟨more, rfl, heq⟩
  · obtain rfl := hmore (fun hm => hx' (hm.trans (List.suffix_append xs more).isInfix)) heq
    simpa using heq
  · obtain rfl := hmore (fun hm => hx (hm.trans (List.suffix_append xs' more).isInfix)) heq
    simpa [eq_comm] using heq

/-- A block and the piece of a text in front of it.  The piece holds no opening mark, and the slash of
the block makes none with it. -/
structure Block where
  lead : List Char
  /-- What stands between the marks. -/
  inner : List Char
  lead_unopened : ¬ ['/', '*'] <:+: lead
  inner_unclosed : ¬ ['*', '/'] <:+: inner

/-- The piece and the block. -/
def Block.text (block : Block) : List Char :=
  block.lead ++ '/' :: '*' :: (block.inner ++ ['*', '/'])

/-- A text cut at its blocks. -/
structure BlockCut where
  blocks : List Block
  /-- The piece behind the last block. -/
  last : List Char
  last_blockless : ¬ HoldsBlock last

namespace BlockCut

/-- The text that was cut. -/
def text (cut : BlockCut) : List Char := cut.blocks.flatMap Block.text ++ cut.last

/-- The pieces without the blocks, put together. -/
def kept (cut : BlockCut) : List Char := cut.blocks.flatMap Block.lead ++ cut.last

section

variable {block : Block} {blocks : List Block} {last : List Char} {h : ¬ HoldsBlock last}

theorem text_cons : text ⟨block :: blocks, last, h⟩ =
    block.lead ++ '/' :: '*' :: (block.inner ++ '*' :: '/' :: text ⟨blocks, last, h⟩) := by
  simp [text, Block.text]

theorem kept_cons : kept ⟨block :: blocks, last, h⟩ = block.lead ++ kept ⟨blocks, last, h⟩ := by
  simp [kept]

theorem holdsBlock_text_cons : HoldsBlock (text ⟨block :: blocks, last, h⟩) := by
  rw [text_cons]
  exact ⟨block.inner, block.lead, text ⟨blocks, last, h⟩, by simp⟩

end

/-- Removing the blocks leaves the pieces. -/
theorem dropBlocks_text (cut : BlockCut) : dropBlocks cut.text = cut.kept := by
  obtain ⟨blocks, last, h⟩ := cut
  induction blocks with
  | nil => exact dropBlocks_eq_self_iff.2 h
  | cons block blocks ih =>
    obtain ⟨hlead, hclosed⟩ := dropBlocks_of_not_infix block.lead_unopened
    have hinner : afterBlock? (block.inner ++ '*' :: '/' :: text ⟨blocks, last, h⟩) = _ :=
      afterBlock?_eq_some_iff.2 ⟨_, block.inner_unclosed, rfl⟩
    rw [text_cons, kept_cons, dropBlocks_append hclosed (by simp), hlead, dropBlocks_block hinner, ih]

/-- A text is cut in one way only. -/
theorem text_injective : Function.Injective text := by
  rintro ⟨blocks, last, h⟩ ⟨blocks', last', h'⟩ heq
  -- The last piece holds no block, so two cuts of one text have as many blocks.
  induction blocks generalizing blocks' with
  | nil =>
    cases blocks' with
    | nil =>
      obtain rfl : last = last' := heq
      rfl
    | cons block' blocks' =>
      have hblock : HoldsBlock (text ⟨[], last, h⟩) := heq ▸ holdsBlock_text_cons
      exact absurd hblock h
  | cons block blocks ih =>
    cases blocks' with
    | nil =>
      have hblock : HoldsBlock (text ⟨[], last', h'⟩) := heq ▸ holdsBlock_text_cons
      exact absurd hblock h'
    | cons block' blocks' =>
      rw [text_cons, text_cons] at heq
      -- Neither what leads to a block nor its inside holds the mark that ends it, so they agree.
      obtain ⟨hlead, hrest⟩ :=
        append_mark_inj (by decide) block.lead_unopened block'.lead_unopened heq
      obtain ⟨hinner, hrest⟩ :=
        append_mark_inj (by decide) block.inner_unclosed block'.inner_unclosed hrest
      have hsame := ih blocks' hrest
      obtain ⟨lead, inner, _, _⟩ := block
      obtain ⟨lead', inner', _, _⟩ := block'
      cases hlead
      cases hinner
      cases hsame
      rfl

/-- Every text is cut at its blocks. -/
theorem exists_text (text : List Char) : ∃ cut : BlockCut, cut.text = text := by
  -- The cut is found along the first pass.
  fun_induction dropBlocks text with
  | case1 => exact ⟨⟨[], [], by simp [HoldsBlock]⟩, rfl⟩
  | case2 rest rest' hrest hlt ih =>
    obtain ⟨⟨blocks, last, h⟩, rfl⟩ := ih
    obtain ⟨inner, hinner, rfl⟩ := afterBlock?_eq_some_iff.1 hrest
    exact ⟨⟨⟨[], inner, by simp, hinner⟩ :: blocks, last, h⟩, text_cons⟩
  | case3 rest hrest =>
    exact ⟨⟨[], _, dropBlocks_eq_self_iff.1 (dropBlocks_unclosed hrest)⟩, rfl⟩
  | case4 c rest hne ih =>
    obtain ⟨⟨blocks, last, h⟩, rfl⟩ := ih
    cases blocks with
    | nil =>
      refine ⟨⟨[], c :: last, ?_⟩, rfl⟩
      rw [holdsBlock_cons_iff]
      rintro (⟨rfl, rest', rfl, -⟩ | hlast)
      · exact hne rest' rfl rfl
      · exact h hlast
    | cons block blocks =>
      have hlead : ¬ ['/', '*'] <:+: c :: block.lead := by
        intro hinfix
        rcases List.infix_cons_iff.1 hinfix with ⟨more, hmore⟩ | hinfix
        · obtain ⟨rfl, hlead⟩ := List.cons.inj hmore
          refine hne (more ++ '/' :: '*' :: (block.inner ++ '*' :: '/' :: BlockCut.text ⟨blocks, last, h⟩))
            rfl ?_
          rw [text_cons, ← hlead]
          rfl
        · exact block.lead_unopened hinfix
      refine ⟨⟨⟨c :: block.lead, block.inner, hlead, block.inner_unclosed⟩ :: blocks, last, h⟩, ?_⟩
      rw [text_cons, text_cons]
      rfl

end BlockCut

/-! ### Lines -/

/-- What stands on a line in front of its first `--`. -/
def beforeDashes : List Char → List Char
  | [] => []
  | '-' :: '-' :: _ => []
  | c :: line => c :: beforeDashes line

/-- Of a single line what stands before its first two dashes is kept. -/
theorem dropLineComments_of_line {line : List Char} (h : '\n' ∉ line) :
    dropLineComments false line = beforeDashes line := by
  fun_induction beforeDashes line with
  | case1 => rfl
  | case2 line =>
    have hline : '\n' ∉ line := fun hc => h (by simp [hc])
    have hempty := dropLineComments_line false hline []
    rw [List.append_nil] at hempty
    exact hempty
  | case3 c line hne ih =>
    rw [List.mem_cons, not_or] at h
    rw [dropLineComments_keep (Ne.symm h.1) (not_mark hne), ih h.2]

/-- Line comments are removed line by line. -/
theorem dropLineComments_eq (text : List Char) :
    dropLineComments false text = ['\n'].intercalate ((Text.splitOn '\n' text).map beforeDashes) := by
  by_cases hmem : '\n' ∈ text
  · obtain ⟨line, rest, rfl, hline⟩ := List.eq_append_cons_of_mem hmem
    obtain ⟨later, hlater⟩ := dropLineComments_append false line
    obtain ⟨next, others, hsplit⟩ := List.exists_cons_of_ne_nil (Text.splitOn_ne_nil '\n' rest)
    have hrest := dropLineComments_eq rest
    rw [hlater _ (by simp), dropLineComments_of_line hline, dropLineComments_newline, hrest,
      Text.splitOn_append, Text.splitOn_of_not_mem hline, hsplit]
    simp [List.intercalate_cons_cons]
  · rw [dropLineComments_of_line hmem, Text.splitOn_of_not_mem hmem, List.map_singleton,
      List.intercalate_singleton]
termination_by text.length
decreasing_by
  subst_vars
  simp only [List.length_append, List.length_cons]
  omega

/-- Inside a comment nothing is kept but the end of the line. -/
theorem head?_dropLineComments_true {c : Char} (hc : c ≠ '\n') (text : List Char) :
    (dropLineComments true text).head? ≠ some c := by
  induction text with
  | nil => simp [dropLineComments]
  | cons d text ih =>
    by_cases hd : d = '\n'
    · subst hd
      rw [dropLineComments_newline]
      simpa using Ne.symm hc
    · rw [dropLineComments_commented hd]
      exact ih

/-- What is kept first is the first character of a text that starts outside comments. -/
theorem dropLineComments_eq_cons {commented : Bool} {text rest : List Char} {c : Char}
    (hc : c ≠ '\n') (h : dropLineComments commented text = c :: rest) :
    ∃ rest', text = c :: rest' ∧ dropLineComments false rest' = rest := by
  cases commented with
  | true => exact absurd (by rw [h]; rfl) (head?_dropLineComments_true hc text)
  | false =>
    cases text with
    | nil => cases h
    | cons d text =>
      by_cases hd : d = '\n'
      · subst hd
        rw [dropLineComments_newline] at h
        exact absurd (List.cons.inj h).1.symm hc
      · by_cases hopen : d = '-' ∧ text.head? = some '-'
        · obtain ⟨rfl, hhead⟩ := hopen
          rw [dropLineComments_open hhead] at h
          exact absurd (by rw [h]; rfl) (head?_dropLineComments_true hc text)
        · rw [dropLineComments_keep hd hopen] at h
          obtain ⟨rfl, hrest⟩ := List.cons.inj h
          exact ⟨text, rfl, hrest⟩

/-- Characters that are kept side by side stood side by side, unless a line ends between them. -/
theorem exists_of_dropLineComments_eq {commented : Bool} {text before after : List Char} {a b : Char}
    (ha : a ≠ '\n') (hb : b ≠ '\n')
    (h : dropLineComments commented text = before ++ a :: b :: after) :
    ∃ before' after', text = before' ++ a :: b :: after' ∧ dropLineComments false after' = after := by
  fun_induction dropLineComments commented text generalizing before with
  | case1 => simp at h
  | case2 commented tail ih =>
    cases before with
    | nil => exact absurd (List.cons.inj h).1.symm ha
    | cons d before =>
      obtain ⟨before', after', rfl, hafter⟩ := ih (List.cons.inj h).2
      exact ⟨'\n' :: before', after', rfl, hafter⟩
  | case3 c tail _ ih =>
    obtain ⟨before', after', rfl, hafter⟩ := ih h
    exact ⟨c :: before', after', rfl, hafter⟩
  | case4 commented c tail _ _ _ ih =>
    obtain ⟨before', after', rfl, hafter⟩ := ih h
    exact ⟨c :: before', after', rfl, hafter⟩
  | case5 commented c tail _ _ _ ih =>
    cases before with
    | nil =>
      obtain ⟨rfl, hrest⟩ := List.cons.inj h
      obtain ⟨after', rfl, hafter⟩ := dropLineComments_eq_cons hb hrest
      exact ⟨[], after', rfl, hafter⟩
    | cons d before =>
      obtain ⟨before', after', rfl, hafter⟩ := ih (List.cons.inj h).2
      exact ⟨c :: before', after', rfl, hafter⟩

/-- No line comment is left. -/
theorem not_dashes_dropLineComments (commented : Bool) (text : List Char) :
    ¬ ['-', '-'] <:+: dropLineComments commented text := by
  fun_induction dropLineComments commented text with
  | case1 => simp
  | case2 commented tail ih =>
    rw [List.infix_cons_iff]
    rintro (⟨more, hmore⟩ | hinfix)
    · cases hmore
    · exact ih hinfix
  | case3 _ _ _ ih => exact ih
  | case4 _ _ _ _ _ _ ih => exact ih
  | case5 commented c tail _ _ hopen ih =>
    rw [List.infix_cons_iff]
    rintro (⟨more, hmore⟩ | hinfix)
    · -- The second dash would have followed the first one in the text.
      obtain ⟨rfl, htail⟩ := List.cons.inj hmore
      obtain ⟨tail', rfl, -⟩ := dropLineComments_eq_cons (by decide) htail.symm
      exact hopen (by simp)
    · exact ih hinfix

/-- A text without two dashes in a row is kept. -/
theorem dropLineComments_of_not_dashes {text : List Char} (h : ¬ ['-', '-'] <:+: text) :
    dropLineComments false text = text := by
  induction text with
  | nil => rfl
  | cons c text ih =>
    have htail := ih fun hi => h (hi.trans (List.suffix_cons c text).isInfix)
    by_cases hc : c = '\n'
    · rw [hc, dropLineComments_newline, htail]
    · rw [dropLineComments_keep hc, htail]
      rintro ⟨rfl, hhead⟩
      obtain ⟨more, rfl⟩ := List.head?_eq_some_iff.1 hhead
      exact h ⟨[], more, rfl⟩

/-- Every line is kept, if only as an empty one. -/
theorem count_newline_dropLineComments (commented : Bool) (text : List Char) :
    (dropLineComments commented text).count '\n' = text.count '\n' := by
  fun_induction dropLineComments commented text with
  | case1 => rfl
  | case2 commented tail ih => rw [List.count_cons_self, List.count_cons_self, ih]
  | case3 c tail hc ih => rw [ih, List.count_cons_of_ne (by simpa using hc)]
  | case4 commented c tail hc _ _ ih => rw [ih, List.count_cons_of_ne (by simpa using hc)]
  | case5 commented c tail hc _ _ ih =>
    rw [List.count_cons_of_ne (by simpa using hc), List.count_cons_of_ne (by simpa using hc), ih]

/-! ### The exact effect -/

/-- **Removing comments has exactly this effect.**  A text is cut at its blocks in one way, the pieces
between them are put together, and of every line what stands in front of its first `--` is left. -/
theorem stripComments_cut (text : List Char) :
    ∃ cut : BlockCut, cut.text = text ∧ (∀ other : BlockCut, other.text = text → other = cut) ∧
      stripComments text = ['\n'].intercalate ((Text.splitOn '\n' cut.kept).map beforeDashes) ∧
      ¬ ['-', '-'] <:+: stripComments text ∧
      (stripComments text).count '\n' = cut.kept.count '\n' ∧
      (¬ ['-', '-'] <:+: text → ¬ HoldsBlock text → stripComments text = text) := by
  obtain ⟨cut, rfl⟩ := BlockCut.exists_text text
  have hstrip : stripComments cut.text = dropLineComments false cut.kept := by
    rw [stripComments, cut.dropBlocks_text]
  refine ⟨cut, rfl, fun other hother => BlockCut.text_injective hother, ?_, ?_, ?_, ?_⟩
  · rw [hstrip, dropLineComments_eq]
  · exact not_dashes_dropLineComments _ _
  · rw [hstrip, count_newline_dropLineComments]
  · intro hdashes hblock
    rw [stripComments, dropBlocks_eq_self_iff.2 hblock, dropLineComments_of_not_dashes hdashes]

/-- An asterisk does not belong to the mark that opens a comment and to the one that closes it. -/
theorem stripComments_cut_overlap :
    let text := "a -/*/- b".toList
    ¬ ['-', '-'] <:+: text ∧ ¬ HoldsBlock text ∧ stripComments text = text := by
  intro text
  have hdashes : ¬ ['-', '-'] <:+: text := by decide
  have hblock : ¬ HoldsBlock text := dropBlocks_eq_self_iff.1 (by decide +kernel)
  obtain ⟨_, -, -, -, -, -, hsame⟩ := stripComments_cut text
  exact ⟨hdashes, hblock, hsame hdashes hblock⟩

/-! ### A second pass -/

/-- Removing line comments closes no block. -/
theorem holdsBlock_of_dropLineComments {commented : Bool} {text : List Char}
    (h : HoldsBlock (dropLineComments commented text)) : HoldsBlock text := by
  obtain ⟨inner, before, after, heq⟩ := h
  have hopening : dropLineComments commented text =
      before ++ '/' :: '*' :: (inner ++ '*' :: '/' :: after) := by
    rw [← heq]
    simp
  obtain ⟨before', rest, rfl, hrest⟩ :=
    exists_of_dropLineComments_eq (by decide) (by decide) hopening
  obtain ⟨inner', after', rfl, -⟩ := exists_of_dropLineComments_eq (by decide) (by decide) hrest
  exact ⟨inner', before', after', by simp⟩

/-- Behind a piece without an opening mark, a block is one of what follows or starts where the two
meet. -/
theorem holdsBlock_append {lead rest : List Char} (hlead : ¬ ['/', '*'] <:+: lead)
    (h : HoldsBlock (lead ++ rest)) :
    (lead.getLast? = some '/' ∧ rest.head? = some '*') ∨ HoldsBlock rest := by
  induction lead with
  | nil => exact .inr h
  | cons c lead ih =>
    rw [List.cons_append, holdsBlock_cons_iff] at h
    rcases h with ⟨rfl, rest', hrest, -⟩ | h
    · cases lead with
      | nil => exact .inl ⟨rfl, by rw [← List.nil_append rest, hrest]; rfl⟩
      | cons d lead =>
        obtain ⟨rfl, -⟩ := List.cons.inj hrest
        exact absurd ⟨[], lead, rfl⟩ hlead
    · rcases ih (fun hi => hlead (hi.trans (List.suffix_cons c lead).isInfix)) h with
        ⟨hlast, hhead⟩ | hrest
      · exact .inl ⟨by rw [List.getLast?_cons, hlast]; rfl, hhead⟩
      · exact .inr hrest

/-- A block of the text stands between a slash and a star, once the blocks beside it are removed. -/
def BlockCut.Joins (cut : BlockCut) : Prop :=
  ∃ front block back, cut.blocks = front ++ block :: back ∧
    (front.flatMap Block.lead ++ block.lead).getLast? = some '/' ∧
    (back.flatMap Block.lead ++ cut.last).head? = some '*'

/-- A block comment in what is kept was not there before, so it came about at a join. -/
theorem BlockCut.joins_of_holdsBlock {cut : BlockCut} (h : HoldsBlock cut.kept) : cut.Joins := by
  obtain ⟨blocks, last, hlast⟩ := cut
  induction blocks with
  | nil => exact absurd h hlast
  | cons block blocks ih =>
    rw [kept_cons] at h
    rcases holdsBlock_append block.lead_unopened h with ⟨hslash, hstar⟩ | h
    · exact ⟨[], block, blocks, rfl, hslash, hstar⟩
    · obtain ⟨front, joined, back, hblocks, hslash, hstar⟩ := ih h
      refine ⟨block :: front, joined, back, congrArg (block :: ·) hblocks, ?_, hstar⟩
      rw [List.flatMap_cons, List.append_assoc, List.getLast?_append, hslash]
      rfl

/-- Where no slash is kept, none meets a star. -/
theorem BlockCut.not_joins_of_not_mem {cut : BlockCut} (h : '/' ∉ cut.kept) : ¬ cut.Joins := by
  rintro ⟨front, block, back, hblocks, hslash, -⟩
  apply h
  rw [kept, hblocks, List.flatMap_append, List.flatMap_cons, ← List.append_assoc]
  exact List.mem_append_left _ (List.mem_append_left _ (List.mem_of_getLast? hslash))

/-- A second pass changes nothing exactly if the first one left no block. -/
theorem stripComments_eq_self_iff (text : List Char) :
    stripComments (stripComments text) = stripComments text ↔ ¬ HoldsBlock (stripComments text) := by
  constructor
  · intro h
    have hlines := (dropLineComments_sublist false (dropBlocks (stripComments text))).length_le
    rw [← stripComments, h] at hlines
    exact dropBlocks_eq_self_iff.1 ((dropBlocks_sublist _).eq_of_length_le hlines)
  · intro h
    conv_lhs => rw [stripComments, dropBlocks_eq_self_iff.2 h]
    exact dropLineComments_of_not_dashes (not_dashes_dropLineComments _ _)

/-- **Removing comments leaves no line comment, and no block unless it makes one.**  A second pass finds
what is left of blocks and nothing else.  It finds nothing if no block of the text stands between a slash
and a star. -/
theorem stripComments_again (text : List Char) :
    ¬ ['-', '-'] <:+: stripComments text ∧
      (stripComments (stripComments text) = stripComments text ↔
        ¬ HoldsBlock (stripComments text)) ∧
      ∃ cut : BlockCut, cut.text = text ∧
        (¬ cut.Joins → stripComments (stripComments text) = stripComments text) := by
  refine ⟨not_dashes_dropLineComments _ _, stripComments_eq_self_iff text, ?_⟩
  obtain ⟨cut, rfl⟩ := BlockCut.exists_text text
  refine ⟨cut, rfl, fun hjoins => (stripComments_eq_self_iff cut.text).2 fun hblock => hjoins ?_⟩
  rw [stripComments, cut.dropBlocks_text] at hblock
  exact BlockCut.joins_of_holdsBlock (holdsBlock_of_dropLineComments hblock)

/-- Marks that only close, and dashes that a block comment keeps apart. -/
theorem stripComments_again_dashes :
    let text := "2 */* by */ 3 -/**/- six".toList
    (∀ cut : BlockCut, cut.text = text → ¬ cut.Joins) ∧ stripComments text = "2 * 3 ".toList ∧
      stripComments (stripComments text) = stripComments text := by
  intro text
  have hjoins : ∀ cut : BlockCut, cut.text = text → ¬ cut.Joins := by
    intro cut hcut
    have hslash : '/' ∉ dropBlocks text := by decide +kernel
    rw [← hcut, cut.dropBlocks_text] at hslash
    exact BlockCut.not_joins_of_not_mem hslash
  obtain ⟨-, -, cut, hcut, hagain⟩ := stripComments_again text
  exact ⟨hjoins, by decide +kernel, hagain (hjoins cut hcut)⟩

/-- What stood around a block can open another one. -/
theorem stripComments_joined :
    stripComments "//**/* x */".toList = "/* x */".toList ∧
      stripComments (stripComments "//**/* x */".toList) = [] :=
  ⟨by decide +kernel, by decide +kernel⟩

end ProcBook.Sql
