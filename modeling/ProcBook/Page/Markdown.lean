/-
ProcBook/Page/Markdown.lean

Markdown pages with a front matter.  In the front matter every text stands in quotation marks, with its
line ends escaped, so each entry is a single line.  Below it the record is set as headings and lists,
and the body without its comments.
-/
import ProcBook.Procedure
import ProcBook.Sql.Comment

namespace ProcBook.Markdown

/-! ### Front matter -/

/-- One character of a quoted scalar. -/
def escapeChar (c : Char) : List Char :=
  match c with
  | '\\' => ['\\', '\\']
  | '"' => ['\\', '"']
  | '\n' => ['\\', 'n']
  | '\r' => ['\\', 'r']
  | '\t' => ['\\', 't']
  | _ => [c]

/-- A quoted scalar. -/
def quote (text : String) : String :=
  "\"" ++ String.ofList (text.toList.flatMap escapeChar) ++ "\""

/-- An entry with a single text. -/
def entry (key text : String) : String := key ++ ": " ++ quote text ++ "\n"

/-- An entry with a list of texts. -/
def listEntry (key : String) (texts : List String) : String :=
  if texts.isEmpty then key ++ ": []\n"
  else key ++ ":\n" ++ String.join (texts.map fun text => "  - " ++ quote text ++ "\n")

/-- The state that every page gives for the database. -/
def databaseStatus : String := "✔️ Passing"

/-- The state that every page gives for the code. -/
def codeStatus : String := "❌ Failing"

/-- The front matter of a page. -/
def frontMatter (author : String) (procedure : Procedure) : String :=
  "---\n" ++
    entry "title" procedure.name ++
    entry "description" procedure.description ++
    entry "dbstatus" databaseStatus ++
    entry "codestatus" codeStatus ++
    listEntry "returns" procedure.returns ++
    listEntry "params" procedure.parameters ++
    listEntry "refs" procedure.references ++
    entry "createdby" author ++
    "---\n"

/-! ### Contents -/

/-- The line of a parameter.  Its type is unknown if it has none. -/
def parameterLine (parameter : String) : String :=
  let parts := Parameter.ofString parameter
  "- **" ++ parts.name ++ "**: `" ++ parts.type?.getD "unknown" ++ "`, Default: `null`"

/-- The line of a list entry. -/
def itemLine (text : String) : String := "- " ++ text

/-- The states of the database and of the code. -/
def status : String :=
  "## Status\n" ++
    "- **Database Status**: <span style=\"color: green;\">" ++ databaseStatus ++ "</span>\n" ++
    "- **Code Status**: <span style=\"color: red;\">" ++ codeStatus ++ "</span>"

/-- The body without its comments, folded away. -/
def code (procedure : Procedure) : String :=
  "## Code\n\n<details>\n<summary>SQL</summary>\n\n~~~~sql\n" ++
    String.ofList (Sql.stripComments procedure.body.toList) ++
    " \n~~~~\n</details>\n\n" ++
    "<details>\n<summary>C#</summary>\n\n~~~~cs\ncode coming soon...\n~~~~\n</details>\n"

/-- The page of a record. -/
def page (author : String) (procedure : Procedure) : String :=
  frontMatter author procedure ++ "\n" ++
    "## Title\n**" ++ procedure.name ++ "**\n\n---\n\n" ++
    "## Description\n" ++ procedure.description ++ "\n\n---\n\n" ++
    status ++ "\n\n---\n\n" ++
    "## Params\n" ++ "\n".intercalate (procedure.parameters.map parameterLine) ++ "\n\n---\n\n\n" ++
    "## Returns\n" ++ "\n".intercalate (procedure.returns.map itemLine) ++ "\n\n---\n\n\n" ++
    "## References\n" ++ "\n".intercalate (procedure.references.map itemLine) ++ "\n\n---\n\n" ++
    code procedure

end ProcBook.Markdown
