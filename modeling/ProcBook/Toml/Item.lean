/-
ProcBook/Toml/Item.lean

The contents of a TOML document, and how its lines build them up.

A table can be written in four ways, and they may not be mixed: a table in braces is complete as it
stands, one with a header of its own has only that header, one that is merely named in the headers of
its subtables may still get a header, and one that dotted keys make is open to further dotted keys only.
Every operation fails where the document would define something twice.
-/

namespace ProcBook.Toml

/-- How a table is written. -/
inductive TableKind where
  /-- In braces. -/
  | inline
  /-- Under a header of its own. -/
  | header
  /-- Named in the header of a subtable. -/
  | implied
  /-- Made by dotted keys. -/
  | dotted
deriving Repr, DecidableEq

/-- A value or table. -/
inductive Item where
  | text (value : String)
  | boolean (value : Bool)
  /-- A number, a date or a time. -/
  | scalar
  | list (items : List Item)
  | table (kind : TableKind) (entries : List (String × Item))
  /-- Tables that share a header in double brackets. -/
  | tables (elements : List (List (String × Item)))

/-- The keys of a table and what they hold. -/
abbrev Entries := List (String × Item)

namespace Entries

/-- The entries with what a key holds replaced. -/
def replace (entries : Entries) (key : String) (item : Item) : Entries :=
  entries.map fun entry => if entry.1 == key then (key, item) else entry

/-- Changes the table that a path leads to from a table of the given kind.  Tables that are missing on
the way are made; `dotted` says whether the path stands in a dotted key or in a header. -/
def update (dotted : Bool) (change : TableKind → Entries → Option Entries) :
    List String → TableKind → Entries → Option Entries
  | [], kind, entries => change kind entries
  | key :: path, _, entries =>
    match entries.lookup key with
    | none =>
      let kind := if dotted then .dotted else .implied
      (update dotted change path kind []).map fun inner => entries ++ [(key, .table kind inner)]
    | some (.table kind inner) =>
      if kind == .inline || (dotted && kind == .header) then none
      else (update dotted change path kind inner).map fun inner =>
        entries.replace key (.table kind inner)
    | some (.tables elements) =>
      match elements.getLast? with
      | none => none
      | some last =>
        (update dotted change path .header last).map fun last =>
          entries.replace key (.tables (elements.dropLast ++ [last]))
    | some _ => none

/-- Adds an item under a key that may be dotted: `path` are the parts before the last. -/
def insert (entries : Entries) (path : List String) (key : String) (item : Item) : Option Entries :=
  update true (fun kind table =>
    if (kind == .dotted) == path.isEmpty || (table.lookup key).isSome then none
    else some (table ++ [(key, item)])) path .header entries

/-- Opens the table of a header. -/
def openTable (entries : Entries) (path : List String) (key : String) : Option Entries :=
  update false (fun _ parent =>
    match parent.lookup key with
    | none => some (parent ++ [(key, .table .header [])])
    | some (.table .implied inner) => some (parent.replace key (.table .header inner))
    | some _ => none) path .header entries

/-- Opens a further table of a header in double brackets. -/
def openElement (entries : Entries) (path : List String) (key : String) : Option Entries :=
  update false (fun _ parent =>
    match parent.lookup key with
    | none => some (parent ++ [(key, .tables [[]])])
    | some (.tables elements) => some (parent.replace key (.tables (elements ++ [[]])))
    | some _ => none) path .header entries

/-- Adds an item to the table of the present header. -/
def insertBelow (entries : Entries) (header path : List String) (key : String) (item : Item) :
    Option Entries :=
  update false (fun _ table => insert table path key item) header .header entries

end Entries

end ProcBook.Toml
