/-
ProcBook/Catalog.lean

A catalog of procedures and what is shown of it.  A catalog is loaded once, and until then, or if that
fails, it has no records.  The panel of a page follows from the catalog and the name selected: the
selected record, a failure, or nothing yet.
-/
import ProcBook.Procedure

namespace ProcBook

/-- A catalog of procedures. -/
inductive Catalog where
  | loading
  | failed (message : String)
  | loaded (records : List Procedure)
deriving Repr, DecidableEq, Inhabited

/-- What the main part of a page shows. -/
inductive Panel where
  /-- The catalog is not loaded, nothing is selected, or no record has the name selected. -/
  | loading
  | failed (message : String)
  | detail (procedure : Procedure)
deriving Repr, DecidableEq

namespace Catalog

/-- The records of a catalog. -/
def records : Catalog → List Procedure
  | loaded records => records
  | _ => []

/-- The first record with the name selected. -/
def current? (catalog : Catalog) (selected : Option String) : Option Procedure :=
  match selected with
  | none => none
  | some name => catalog.records.find? (·.name == name)

/-- The panel for a selection. -/
def panel (catalog : Catalog) (selected : Option String) : Panel :=
  match catalog with
  | failed message => .failed message
  | _ =>
    match catalog.current? selected with
    | some procedure => .detail procedure
    | none => .loading

end Catalog

/-! ### Browsing -/

/-- A catalog with a name selected in it.  At first the catalog is loading and nothing is selected. -/
structure Browser where
  catalog : Catalog := .loading
  selected : Option String := none
deriving Repr, DecidableEq, Inhabited

namespace Browser

/-- Selects a name, which need not be that of a record. -/
def select (browser : Browser) (name : String) : Browser := { browser with selected := some name }

/-- The records of the catalog. -/
def records (browser : Browser) : List Procedure := browser.catalog.records

/-- The record that is selected. -/
def current? (browser : Browser) : Option Procedure := browser.catalog.current? browser.selected

end Browser

end ProcBook
