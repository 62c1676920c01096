/-
ProcBook/Sql/Comment.lean

Comments in SQL.  Removing them takes two passes: first every block `/* … */` goes, then on each line
everything from the first `--` on.  A block ends at the first `*/` after its opening, and one that is
never closed is no comment.  The second pass reads what the first one left, so what a block kept
apart may come together.
-/

namespace ProcBook.Sql

/-! ### Blocks -/

/-- What follows the first `*/`, if there is one. -/
def afterBlock? : List Char → Option (List Char)
  | [] => none
  | '*' :: '/' :: rest => some rest
  | _ :: rest => afterBlock? rest

theorem length_of_afterBlock? {text rest : List Char} (h : afterBlock? text = some rest) :
    rest.length < text.length := by
  fun_induction afterBlock? text with
  | case1 => simp at h
  | case2 r =>
    obtain rfl := Option.some.inj h
    simp only [List.length_cons]
    omega
  | case3 c r _ ih => exact Nat.lt_succ_of_lt (ih h)

/-- The text without its closed block comments. -/
def dropBlocks (text : List Char) : List Char :=
  match text with
  | [] => []
  | '/' :: '*' :: rest =>
    match h : afterBlock? rest with
    | some rest' =>
      have := length_of_afterBlock? h
      dropBlocks rest'
    | none => '/' :: '*' :: rest
  | c :: rest => c :: dropBlocks rest
termination_by text.length
decreasing_by all_goals simp only [List.length_cons]; omega

/-! ### Lines -/

/-- The text without its line comments; `commented` says whether the text starts inside one.  Line
ends stay. -/
def dropLineComments (commented : Bool) : List Char → List Char
  | [] => []
  | '\n' :: rest => '\n' :: dropLineComments false rest
  | c :: rest =>
    if commented then dropLineComments true rest
    else if c == '-' && rest.head? == some '-' then dropLineComments true rest
    else c :: dropLineComments false rest

/-- The text without its comments. -/
def stripComments (text : List Char) : List Char := dropLineComments false (dropBlocks text)

end ProcBook.Sql
