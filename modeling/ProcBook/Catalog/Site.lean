/-
ProcBook/Catalog/Site.lean

A catalog as a site of linked pages: an index with nothing selected, and then a page for every record,
in order.  A record whose name cannot name a page gets none, and of several records with the same name
the first one gets it.
-/
import ProcBook.Catalog.Page
import ProcBook.Report.Event

namespace ProcBook

/-- A file of a site. -/
structure SitePage where
  file : String
  html : String
deriving Repr, DecidableEq

/-- Whether a record gets a page of its own. -/
inductive Placement where
  | page
  | invalidName
  | repeated
deriving Repr, DecidableEq

namespace Catalog

/-- The names of records, each with its placement; `seen` holds the names that have a page. -/
def placements (seen : List String) : List Procedure → List (String × Placement)
  | [] => []
  | procedure :: records =>
    let name := procedure.name
    if !isPageName name then (name, .invalidName) :: placements seen records
    else if seen.contains name then (name, .repeated) :: placements seen records
    else (name, .page) :: placements (name :: seen) records

/-- The names that get a page. -/
def pageNames (catalog : Catalog) : List String :=
  ((placements [] catalog.records).filter (·.2 == .page)).map (·.1)

/-- The pages of a site. -/
def sitePages (catalog : Catalog) : List SitePage :=
  ⟨"index.html", catalog.page .linked none⟩ ::
    catalog.pageNames.map fun name => ⟨pageFile name, catalog.page .linked (some name)⟩

/-- What is reported of a record that gets no page. -/
def placementEvent? : String × Placement → Option Event
  | (_, .page) => none
  | (name, .invalidName) =>
    some ⟨.viewer, .warn, "skipping page for record with invalid name", [("name", .plain name)]⟩
  | (name, .repeated) =>
    some ⟨.viewer, .warn, "duplicate record name, keeping the first", [("name", .plain name)]⟩

/-- What is reported while a site is made. -/
def siteEvents (catalog : Catalog) : List Event :=
  (placements [] catalog.records).filterMap placementEvent?

end Catalog

end ProcBook
