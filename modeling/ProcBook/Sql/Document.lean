/-
ProcBook/Sql/Document.lean

Source documents.  A document is an SQL text with a banner on its first line, a procedure header, a
documentation block and a body; `Procedure.ofSource` collects all of this in one record.  The header is
looked for first, then the block, so the first of the two that fails decides the fault; references
never fail.
-/
import ProcBook.Procedure
import ProcBook.Sql.DocsBlock
import ProcBook.Sql.Header
import ProcBook.Sql.Reference

namespace ProcBook

/-- How documents are read. -/
structure SourceOptions where
  /-- The schema whose own name is no reference. -/
  schema : String := "dbo"
  /-- Whether the first line of a document is a banner that does not count. -/
  skipBanner : Bool := true
deriving Repr, DecidableEq, Inhabited

namespace Sql

/-- The part of a source that counts: trimmed, and without its banner.  A source of a single line has
nothing besides the banner. -/
def documentText (skipBanner : Bool) (source : List Char) : List Char :=
  let text := Text.trim source
  if skipBanner then (Text.after? '\n' text).getD [] else text

/-- The record of the procedure in a document's text. -/
def readDocument (schema : String) (text : List Char) : Except Fault Procedure :=
  match HeaderCut.ofText text with
  | .error fault => .error fault
  | .ok cut =>
    match cut.header with
    | .error fault => .error fault
    | .ok header =>
      match DocsBlock.ofText text with
      | .error fault => .error fault
      | .ok docs =>
        .ok {
          name := header.name
          body := String.ofList text
          description := docs.description
          parameters := header.parameters
          returns := docs.returns
          references := references schema cut.body }

/-- Behind a record stand a header and a documentation block. -/
theorem readDocument_eq_ok {schema : String} {text : List Char} {procedure : Procedure}
    (h : readDocument schema text = .ok procedure) :
    ∃ cut header docs, HeaderCut.ofText text = .ok cut ∧ cut.header = .ok header ∧
      DocsBlock.ofText text = .ok docs ∧ procedure = {
        name := header.name
        body := String.ofList text
        description := docs.description
        parameters := header.parameters
        returns := docs.returns
        references := references schema cut.body } := by
  unfold readDocument at h
  split at h
  · cases h
  · next cut hcut =>
    split at h
    · cases h
    · next header hheader =>
      split at h
      · cases h
      · next docs hdocs =>
        exact ⟨cut, header, docs, hcut, hheader, hdocs, (Except.ok.inj h).symm⟩

end Sql

/-- The record of the procedure in a source. -/
def Procedure.ofSource (options : SourceOptions) (source : String) : Except Sql.Fault Procedure :=
  Sql.readDocument options.schema (Sql.documentText options.skipBanner source.toList)

end ProcBook
