/-
ProcBook/Report/Failure.lean

Failures: what went wrong, and the chain of causes behind it.  A failure is worded on one line, or as a
report with its causes listed below it.
-/
import ProcBook.Text.Cut

namespace ProcBook

/-- What went wrong, with its causes, the outermost first. -/
structure Failure where
  outer : String
  causes : List String := []
deriving Repr, DecidableEq

namespace Failure

/-- A failure as the cause of a further one. -/
def within (context : String) (failure : Failure) : Failure :=
  ⟨context, failure.outer :: failure.causes⟩

/-- The failure and its causes on one line. -/
def message (failure : Failure) : String := ": ".intercalate (failure.outer :: failure.causes)

/-- A text whose lines after the first are indented. -/
def indented (margin text : String) : String :=
  ("\n" ++ margin).intercalate ((Text.splitOn '\n' text.toList).map String.ofList)

/-- A list of causes.  Several causes are numbered. -/
def listed : List String → String
  | [] => ""
  | [cause] => "\n\nCaused by:\n    " ++ indented "    " cause
  | causes =>
    "\n\nCaused by:" ++ String.join (causes.zipIdx.map fun (cause, n) =>
      "\n" ++ "".pushn ' ' (5 - (toString n).length) ++ toString n ++ ": " ++
        indented "       " cause)

/-- The failure and its causes as a report. -/
def report (failure : Failure) : String := "Error: " ++ failure.outer ++ listed failure.causes ++ "\n"

end Failure

end ProcBook
