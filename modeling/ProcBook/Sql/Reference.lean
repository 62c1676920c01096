/-
ProcBook/Sql/Reference.lean

References of a procedure body: the names in brackets outside comments.  The schema's own name is no
reference, and a name that occurs more than once is listed where it occurs first.
-/
import ProcBook.Sql.Comment
import ProcBook.Text.Cut

namespace ProcBook.Sql

/-- The names in brackets, from left to right.  A name runs from a `[` to the next `]`; empty brackets
name nothing, and a bracket that is never closed ends the search. -/
def bracketed (text : List Char) : List (List Char) :=
  match text with
  | [] => []
  | c :: rest =>
    if c == '[' then
      match h : rest.dropWhile (· != ']') with
      | [] => []
      | _ :: after =>
        have := Text.length_of_dropWhile h
        match rest.takeWhile (· != ']') with
        | [] => bracketed after
        | name => name :: bracketed after
    else bracketed rest
termination_by text.length
decreasing_by all_goals simp only [List.length_cons]; omega

/-- The references of a body: bracketed names outside comments, without the schema's and without
repetitions. -/
def references (schema : String) (body : List Char) : List String :=
  (((bracketed (stripComments body)).map String.ofList).filter (· != schema)).eraseDups

end ProcBook.Sql
