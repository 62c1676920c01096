/-
ProcBook/Catalog/Page.lean

The pages of a catalog: a sidebar with the names of all records beside the panel of the one selected.
In a site every name that can name a page is a link to that page.
-/
import ProcBook.Catalog
import ProcBook.Page.Html

namespace ProcBook

/-- How the sidebar shows names. -/
inductive Sidebar where
  | plain
  /-- Names are links to the pages of a site. -/
  | linked
deriving Repr, DecidableEq

/-! ### Links -/

/-- The name of the file that shows a record in a site. -/
def pageFile (name : String) : String := name ++ ".html"

/-- One character of a link. -/
def hrefChar (c : Char) : List Char :=
  match c with
  | '%' => ['%', '2', '5']
  | ' ' => ['%', '2', '0']
  | '#' => ['%', '2', '3']
  | '?' => ['%', '3', 'F']
  | _ => [c]

/-- The link to the page of a record. -/
def pageHref (name : String) : String := String.ofList ((pageFile name).toList.flatMap hrefChar)

/-! ### Pages -/

namespace Catalog

/-- The mark of the name selected. -/
def activeMark (selected : Option String) (name : String) : String :=
  if selected == some name then " class=\"active\"" else ""

/-- The entry of a record in the sidebar. -/
def sidebarEntry (sidebar : Sidebar) (selected : Option String) (procedure : Procedure) : String :=
  let name := procedure.name
  let mark := activeMark selected name
  if sidebar == .linked && isPageName name then
    "  <li><a href=\"" ++ Html.escape (pageHref name) ++ "\"" ++ mark ++ ">" ++ Html.escape name ++
      "</a></li>\n"
  else "  <li><span" ++ mark ++ ">" ++ Html.escape name ++ "</span></li>\n"

/-- The sidebar of a page. -/
def renderSidebar (catalog : Catalog) (sidebar : Sidebar) (selected : Option String) : String :=
  "<aside>\n<ul>\n" ++ String.join (catalog.records.map (sidebarEntry sidebar selected)) ++
    "</ul>\n</aside>\n"

/-- The main part of a page. -/
def renderPanel : Panel → String
  | .loading => "<p>loading....</p>\n"
  | .failed message =>
    "<p class=\"error\">Failed to load procedures: " ++ Html.escape message ++ "</p>\n"
  | .detail procedure => Html.detail procedure

/-- The title of a page. -/
def pageTitle (selected : Option String) : String := selected.getD "Procedures"

/-- The page for a selection. -/
def page (catalog : Catalog) (sidebar : Sidebar) (selected : Option String) : String :=
  Html.opening (pageTitle selected) ++ catalog.renderSidebar sidebar selected ++ "<main>\n" ++
    renderPanel (catalog.panel selected) ++ "</main>\n" ++ Html.closing

end Catalog

/-- The present page on its own. -/
def Browser.page (browser : Browser) : String := browser.catalog.page .plain browser.selected

end ProcBook
