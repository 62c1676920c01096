/-
ProcBook/Sql/Fault.lean

Why a source document yields no procedure.  Every fault belongs to one of three steps, which reports
name beside the fault.
-/
import ProcBook.Json.Fault

namespace ProcBook.Sql

/-- What a document has to contain in front of its body. -/
inductive Marker where
  /-- The keyword before the name. -/
  | procedure
  /-- The sign that parameters and variables start with. -/
  | atSign
  /-- The keyword before the body. -/
  | body
  /-- The name itself. -/
  | name
deriving Repr, DecidableEq

/-- The wording of a marker. -/
def Marker.describe : Marker → String
  | procedure => "PROCEDURE"
  | atSign => "@"
  | body => "AS"
  | name => "procedure name"

/-- Why a document yields no procedure. -/
inductive Fault where
  | missingMarker (marker : Marker)
  | missingDocs
  | malformedDocs (error : Json.Error)
  /-- The name cannot name a page. -/
  | invalidName (name : String)
deriving Repr, DecidableEq

namespace Fault

/-- The wording of a fault. -/
def message : Fault → String
  | missingMarker marker => "missing marker: " ++ marker.describe
  | missingDocs => "missing docs block (expected `start docs` ... `end docs`)"
  | malformedDocs error => "malformed docs block: " ++ error.message
  | invalidName name => "invalid procedure name: '" ++ name ++ "'"

/-- The wording of what caused a fault, if something did. -/
def cause? : Fault → Option String
  | malformedDocs error => some error.message
  | _ => none

/-- The step at which a document failed. -/
def step : Fault → String
  | missingMarker .atSign | missingMarker .body => "parameters"
  | missingMarker _ | invalidName _ => "name"
  | missingDocs | malformedDocs _ => "docs block"

end Fault

end ProcBook.Sql
