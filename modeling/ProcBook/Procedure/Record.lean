/-
ProcBook/Procedure/Record.lean

Procedures as JSON records: one at a time, or a whole catalog as a list.  Every field has a short
lower-case key, which is also the one that is written, and a capitalised second key for catalogs that
are written by hand.
-/
import ProcBook.Json.Writer
import ProcBook.Procedure

namespace ProcBook.Procedure

open Json

/-- The fields of a procedure's record.  Only the name is required. -/
def layout : Layout where
  title := "struct ProcedureDoc"
  fields := [
    ⟨"name", some "Name", .text, true⟩,
    ⟨"body", some "Body", .text, false⟩,
    ⟨"description", some "Desc", .text, false⟩,
    ⟨"parameters", some "Params", .texts, false⟩,
    ⟨"returns", some "Returns", .texts, false⟩,
    ⟨"references", some "Refs", .texts, false⟩,
    ⟨"meta", some "Meta", .text, false⟩]

/-- The procedure that a record describes. -/
def ofFields (fields : Fields) : Procedure where
  name := fields.text "name"
  body := fields.text "body"
  description := fields.text "description"
  parameters := fields.texts "parameters"
  returns := fields.texts "returns"
  references := fields.texts "references"
  notes := fields.text "meta"

/-- The record of a procedure. -/
def toFields (procedure : Procedure) : Fields := [
  ("name", .text procedure.name),
  ("body", .text procedure.body),
  ("description", .text procedure.description),
  ("parameters", .texts procedure.parameters),
  ("returns", .texts procedure.returns),
  ("references", .texts procedure.references),
  ("meta", .text procedure.notes)]

/-- The reader of procedures. -/
def reader : Reader Procedure := layout.reader.map ofFields

/-- Reads the text of one record. -/
def ofJson (text : String) : Except Json.Error Procedure := reader.parse text.toList

/-- Reads the text of a list of records. -/
def catalogOfJson (text : String) : Except Json.Error (List Procedure) :=
  reader.list.parse text.toList

/-- The text of a record. -/
def toJson (procedure : Procedure) : String := renderFields procedure.toFields

end ProcBook.Procedure
