/-
ProcBook/Settings.lean

The settings file.  It is a TOML document in which every key is known, except that the table of the
options for sources may hold keys of its own.  What it does not say takes the usual value.
-/
import ProcBook.Disk.Tree
import ProcBook.Generation.Run
import ProcBook.Report.Event
import ProcBook.Report.Failure
import ProcBook.Toml.Document

namespace ProcBook

/-- What a settings file says. -/
structure Settings where
  sourceDirectory : Option Path := none
  outputDirectory : Option Path := none
  format : Option String := none
  author : Option String := none
  policy : Policy := .skip
  options : SourceOptions := {}
deriving Repr, DecidableEq

namespace Settings

/-- The name of the format that is used. -/
def formatName (settings : Settings) : String := settings.format.getD "markdown"

/-- The author that is named on pages. -/
def authorName (settings : Settings) : String := settings.author.getD "dbadmin"

/-! ### Reading items -/

/-- The text of an item. -/
def text? : Toml.Item → Option String
  | .text value => some value
  | _ => none

/-- Whether an item has nothing in it. -/
def isEmptyItem : Toml.Item → Bool
  | .list items => items.isEmpty
  | .table _ entries => entries.isEmpty
  | .tables elements => elements.isEmpty
  | _ => false

/-- The policy of a name. -/
def policyOfName? (name : String) : Option Policy :=
  if name == "skip" then some .skip else if name == "halt" then some .halt else none

/-- The policy of an item: its name, or a table that holds nothing but that name. -/
def policy? : Toml.Item → Option Policy
  | .text name => policyOfName? name
  | .table _ [(name, item)] => if isEmptyItem item then policyOfName? name else none
  | _ => none

/-- The options with the entry of a table taken over; unknown keys are passed over. -/
def withOption? (options : SourceOptions) : String × Toml.Item → Option SourceOptions
  | ("schema", .text schema) => some { options with schema }
  | ("skip_header", .boolean skipBanner) => some { options with skipBanner }
  | ("schema", _) | ("skip_header", _) => none
  | _ => some options

/-- The options of an item: a table, or a list of the options in their order. -/
def options? : Toml.Item → Option SourceOptions
  | .table _ entries => entries.foldlM withOption? {}
  | .list [] => some {}
  | .list [.text schema] => some { schema }
  | .list (.text schema :: .boolean skipBanner :: _) => some ⟨schema, skipBanner⟩
  | _ => none

/-- The settings with the entry of a document taken over. -/
def withEntry? (settings : Settings) (entry : String × Toml.Item) : Option Settings :=
  match entry.1 with
  | "source_dir" => (text? entry.2).map fun path => { settings with sourceDirectory := some path }
  | "output_dir" => (text? entry.2).map fun path => { settings with outputDirectory := some path }
  | "format" => (text? entry.2).map fun name => { settings with format := some name }
  | "author" => (text? entry.2).map fun name => { settings with author := some name }
  | "on_error" => (policy? entry.2).map fun policy => { settings with policy }
  | "extract" => (options? entry.2).map fun options => { settings with options }
  | _ => none

/-- The settings in the text of a file. -/
def ofText? (text : String) : Option Settings :=
  match Toml.readDocument text with
  | none => none
  | some entries => entries.foldlM withEntry? {}

/-! ### The settings file -/

/-- The settings file of the working directory. -/
def defaultFile : Path := "sprocdoc.toml"

/-- Reads a settings file. -/
def read (tree : Tree) (path : Path) : Except Failure Settings :=
  match tree.readText path with
  | .error error => .error ⟨"failed to read config file: " ++ path, [error.message]⟩
  | .ok text =>
    match ofText? text with
    | none => .error ⟨"invalid config file: " ++ path, []⟩
    | some settings => .ok settings

/-- The settings file that is read: the one asked for, or else that of the working directory, if there
is one. -/
def file? (tree : Tree) (asked : Option Path) : Option Path :=
  match asked with
  | some path => some path
  | none => if tree.isFile defaultFile then some defaultFile else none

/-- The settings, and what is reported of reading them. -/
def load (tree : Tree) (asked : Option Path) : List Event × Except Failure Settings :=
  match file? tree asked with
  | none => ([], .ok {})
  | some path =>
    match read tree path with
    | .error failure => ([], .error failure)
    | .ok settings => ([⟨.settings, .debug, "loaded config", [("path", .plain path)]⟩], .ok settings)

end Settings

end ProcBook
