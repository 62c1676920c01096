/-
ProcBook/Catalog/Source.lean

Where catalogs come from: the built-in one, a file that holds a list of records, or a directory with a
record in each of its `.json` files, which are read in the order of their names.  One bad file fails the
whole catalog.
-/
import ProcBook.Catalog
import ProcBook.Catalog.Builtin
import ProcBook.Disk.Tree
import ProcBook.Procedure.Record
import ProcBook.Report.Event
import ProcBook.Report.Failure

namespace ProcBook

/-- Where a catalog comes from. -/
inductive CatalogSource where
  | builtin
  | disk (path : Path)
  | given (records : List Procedure)
  /-- A source that cannot be read. -/
  | broken (message : String)
deriving Repr, DecidableEq

namespace Catalog

/-- Whether a name in a directory is that of a record file. -/
def isRecordFile (tree : Tree) (directory : Path) (name : String) : Bool :=
  Path.extension? name == some "json" && tree.isFile (directory.join name)

/-- The record files of a directory, in order. -/
def recordFiles (tree : Tree) (directory : Path) : Except Failure (List Path) :=
  match tree.list directory with
  | .error error => .error ⟨"failed to read catalog directory: " ++ directory, [error.message]⟩
  | .ok names =>
    .ok (((names.filter (isRecordFile tree directory)).map directory.join).mergeSort Path.le)

/-- Reads one record file. -/
def readRecord (tree : Tree) (path : Path) : Except Failure Procedure :=
  match tree.readText path with
  | .error error => .error ⟨"failed to read " ++ path, [error.message]⟩
  | .ok text =>
    match Procedure.ofJson text with
    | .error error => .error ⟨"invalid record: " ++ path, [error.message]⟩
    | .ok procedure => .ok procedure

/-- Reads record files one after the other, up to the first bad one. -/
def readRecords (tree : Tree) : List Path → Except Failure (List Procedure)
  | [] => .ok []
  | path :: paths =>
    match readRecord tree path with
    | .error failure => .error failure
    | .ok procedure => (readRecords tree paths).map (procedure :: ·)

/-- Reads the record files of a directory. -/
def readDirectory (tree : Tree) (directory : Path) : Except Failure (List Procedure) :=
  match recordFiles tree directory with
  | .error failure => .error failure
  | .ok paths => readRecords tree paths

/-- Reads a file that holds a list of records. -/
def readList (tree : Tree) (path : Path) : Except Failure (List Procedure) :=
  match tree.readText path with
  | .error error => .error ⟨"failed to read catalog: " ++ path, [error.message]⟩
  | .ok text =>
    match Procedure.catalogOfJson text with
    | .error error => .error ⟨"invalid catalog: " ++ path, [error.message]⟩
    | .ok records => .ok records

end Catalog

namespace CatalogSource

/-- The records of a source. -/
def read (tree : Tree) : CatalogSource → Except Failure (List Procedure)
  | builtin => .ok Builtin.records
  | disk path =>
    if tree.isDirectory path then Catalog.readDirectory tree path
    else Catalog.readList tree path
  | given records => .ok records
  | broken message => .error ⟨message, []⟩

/-- The catalog of a source.  A source that fails still makes a catalog, which says why. -/
def load (tree : Tree) (source : CatalogSource) : Catalog :=
  match source.read tree with
  | .ok records => .loaded records
  | .error failure => .failed failure.message

/-- What is reported of a load. -/
def loadEvents : Catalog → List Event
  | .failed message => [⟨.viewer, .warn, "catalog load failed", [("error", .plain message)]⟩]
  | _ => []

end CatalogSource

end ProcBook
