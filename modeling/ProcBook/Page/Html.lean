/-
ProcBook/Page/Html.lean

HTML pages.  Every text of a record goes through `escape`, so a record can add characters to a page but
no markup.  The frame of a page and the sections of one record are shared by single pages and by the
pages of a catalog.
-/
import ProcBook.Procedure

namespace ProcBook.Html

/-! ### Escaping -/

/-- One character of a text inside a page. -/
def escapeChar (c : Char) : List Char :=
  match c with
  | '&' => ['&', 'a', 'm', 'p', ';']
  | '<' => ['&', 'l', 't', ';']
  | '>' => ['&', 'g', 't', ';']
  | '"' => ['&', 'q', 'u', 'o', 't', ';']
  | _ => [c]

/-- A text inside a page. -/
def escape (text : String) : String := String.ofList (text.toList.flatMap escapeChar)

/-! ### The frame of a page -/

/-- The style sheet of a page. -/
def style : String :=
  "body \x7b font-family: system-ui, sans-serif; margin: 0; background: #0b1a2e; color: #d1d5db; \x7d\n" ++
  "aside \x7b position: fixed; top: 0; left: 0; width: 300px; height: 100vh; overflow-y: auto; padding: 1.25em 0; \x7d\n" ++
  "aside a, aside span \x7b display: block; padding: 1em; font-size: 1.1em; color: inherit; text-decoration: none; \x7d\n" ++
  "aside a:hover, aside .active \x7b color: #38bdf8; \x7d\n" ++
  "main \x7b margin-left: 300px; padding: 1em; max-width: 60em; \x7d\n" ++
  "pre \x7b background: #1f2937; padding: 1em; border-radius: 5px; overflow-x: auto; \x7d\n" ++
  ".error \x7b color: #f87171; \x7d\n"

/-- The part of a page before its contents. -/
def opening (title : String) : String :=
  "<!DOCTYPE html>\n<html>\n<head>\n<meta charset=\"utf-8\">\n<title>" ++ escape title ++
    "</title>\n<style>\n" ++ style ++ "</style>\n</head>\n<body>\n"

/-- The part of a page after its contents. -/
def closing : String := "</body>\n</html>\n"

/-! ### One record -/

/-- A list of texts. -/
def items (texts : List String) : String :=
  "<ul>\n" ++ String.join (texts.map fun text => "  <li>" ++ escape text ++ "</li>\n") ++ "</ul>\n"

/-- A section with a heading. -/
def block (id heading contents : String) : String :=
  "<section id=\"" ++ id ++ "\">\n<h2>" ++ heading ++ "</h2>\n" ++ contents ++ "</section>\n"

/-- A paragraph. -/
def paragraph (text : String) : String := "<p>" ++ escape text ++ "</p>\n"

/-- A text in SQL. -/
def code (text : String) : String :=
  "<pre><code class=\"language-sql\">" ++ escape text ++ "</code></pre>\n"

/-- The sections of a record.  Only a record with notes has a section for them. -/
def detail (procedure : Procedure) : String :=
  "<section id=\"documentation\">\n<h1>" ++ escape procedure.name ++ "</h1>\n" ++
    block "description" "Description" (paragraph procedure.description) ++
    block "params" "Parameters" (code ("\n".intercalate procedure.parameters)) ++
    block "returns" "Returns" (items procedure.returns) ++
    block "body" "Try It" (code procedure.body) ++
    block "refs" "References" (items procedure.references) ++
    (if procedure.notes == "" then "" else block "meta" "Notes" (paragraph procedure.notes)) ++
    "</section>\n"

/-- The page of a record on its own. -/
def page (procedure : Procedure) : String :=
  opening procedure.name ++ "<main>\n" ++ detail procedure ++ "</main>\n" ++ closing

end ProcBook.Html
