/-
ProcBook/Report/Event.lean

Events that a run reports while it goes on.  An event is a value that has a level and the part of the
program that it comes from; only at the end is it decided by these which events are shown.
-/
import ProcBook.Text.Quoted

namespace ProcBook

/-- How important an event is. -/
inductive Level where
  | error
  | warn
  | info
  | debug
  | trace
deriving Repr, DecidableEq

namespace Level

/-- The place of a level, the most important one first. -/
def rank : Level → Nat
  | error => 0
  | warn => 1
  | info => 2
  | debug => 3
  | trace => 4

/-- The name of a level, five characters wide. -/
def label : Level → String
  | error => "ERROR"
  | warn => " WARN"
  | info => " INFO"
  | debug => "DEBUG"
  | trace => "TRACE"

end Level

/-- What a field of an event holds. -/
inductive Detail where
  | plain (text : String)
  | quoted (text : String)
  | count (n : Nat)
deriving Repr, DecidableEq

/-- The wording of a field's content. -/
def Detail.render : Detail → String
  | plain text => text
  | quoted text => Text.quoted text
  | count n => toString n

/-- The part of the program that an event comes from. -/
inductive Origin where
  | program
  | settings
  | batch
  | viewer
deriving Repr, DecidableEq

/-- The name by which a part of the program is told in a filter. -/
def Origin.target : Origin → String
  | program => "sprocdoc"
  | settings => "sprocdoc::config"
  | batch => "sprocdoc::batch"
  | viewer => "sprocdoc::viewer"

/-- Something that happened. -/
structure Event where
  origin : Origin
  level : Level
  message : String
  details : List (String × Detail) := []
deriving Repr, DecidableEq

/-- The line of an event. -/
def Event.line (event : Event) : String :=
  event.level.label ++ " " ++ event.message ++
    String.join (event.details.map fun (name, detail) => " " ++ name ++ "=" ++ detail.render) ++ "\n"

end ProcBook
