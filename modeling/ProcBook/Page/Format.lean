/-
ProcBook/Page/Format.lean

The formats in which a procedure can be documented, by name.
-/
import ProcBook.Page.Html
import ProcBook.Page.Markdown
import ProcBook.Procedure.Record

namespace ProcBook

/-- A format of pages. -/
inductive Format where
  /-- Markdown; the author is named in the front matter. -/
  | markdown (author : String)
  | html
  | json
deriving Repr, DecidableEq

namespace Format

/-- The format of a name. -/
def ofName? (name author : String) : Option Format :=
  if name == "markdown" || name == "md" then some (.markdown author)
  else if name == "html" then some .html
  else if name == "json" then some .json
  else none

/-- The wording for a name that no format has. -/
def unknownMessage (name : String) : String :=
  "unknown format: " ++ name ++ ". Use markdown, html, or json"

/-- The extension of a page's file. -/
def extension : Format → String
  | markdown _ => "md"
  | html => "html"
  | json => "json"

/-- The page of a procedure. -/
def render (format : Format) (procedure : Procedure) : String :=
  match format with
  | markdown author => Markdown.page author procedure
  | html => Html.page procedure
  | json => procedure.toJson ++ "\n"

/-- The name of a page's file. -/
def fileName (format : Format) (name : String) : String := name ++ "." ++ format.extension

end Format

end ProcBook
