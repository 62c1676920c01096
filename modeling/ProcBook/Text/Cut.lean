/-
ProcBook/Text/Cut.lean

Cutting texts at a character.
-/

namespace ProcBook.Text

/-- The text after the first occurrence of `c`, if there is one. -/
def after? (c : Char) (text : List Char) : Option (List Char) :=
  match text.dropWhile (· != c) with
  | [] => none
  | _ :: rest => some rest

/-- The pieces of a text between the occurrences of `c`, of which there is at least one. -/
def splitOn (c : Char) : List Char → List (List Char)
  | [] => [[]]
  | d :: text => if d == c then [] :: splitOn c text else (splitOn c text).modifyHead (d :: ·)

/-! ### What is left is shorter -/

theorem length_dropWhile_le (p : Char → Bool) (text : List Char) :
    (text.dropWhile p).length ≤ text.length :=
  (List.dropWhile_sublist p).length_le

theorem length_of_dropWhile {p : Char → Bool} {text rest : List Char} {c : Char}
    (h : text.dropWhile p = c :: rest) : rest.length < text.length := by
  have := length_dropWhile_le p text
  rw [h] at this
  exact this

end ProcBook.Text
