/-
ProcBook/Command/Run.lean

Running a command.  A run is a function of the command line, the standard input, the environment and
the file tree; its outcome is an exit code, the two output streams and the tree that is left.  A command
line that is not well-formed ends with code 2 and without further ado, one that asks for help with code
0, any other failure with code 1 and a report.
-/
import ProcBook.Catalog.Page
import ProcBook.Catalog.Site
import ProcBook.Catalog.Source
import ProcBook.Command.Line
import ProcBook.Report.Filter
import ProcBook.Settings

namespace ProcBook

/-- What the environment says. -/
structure Environment where
  /-- Which events are shown. -/
  logFilter : Option String := none
  /-- The settings file. -/
  config : Option Path := none
deriving Repr, DecidableEq

/-- What a command does: the tree it leaves, what it reports and prints, and whether it fails. -/
structure Effect where
  tree : Tree
  events : List Event := []
  output : String := ""
  failure : Option Failure := none

namespace Effect

/-- The effect with events before its own. -/
def after (events : List Event) (effect : Effect) : Effect :=
  { effect with events := events ++ effect.events }

end Effect

/-! ### Generating pages -/

namespace GenerateCommand

/-- The options for sources. -/
def options (command : GenerateCommand) (settings : Settings) : SourceOptions where
  schema := command.schema.getD settings.options.schema
  skipBanner := !command.keepHeader && settings.options.skipBanner

/-- What is done with a source that yields no procedure. -/
def policy (command : GenerateCommand) (settings : Settings) : Policy :=
  if command.failFast then .halt else settings.policy

/-- The arguments that stand for source files; without any a source is read from the input. -/
def arguments (command : GenerateCommand) (settings : Settings) : List String :=
  if command.files.isEmpty then settings.sourceDirectory.toList else command.files

/-- Prints the page of the source in the input. -/
def runInput (format : Format) (options : SourceOptions) (input : ByteArray) (tree : Tree) : Effect :=
  match Text.decode input with
  | .error _ => { tree, failure := some ⟨"failed to read stdin", [FileError.notText.message]⟩ }
  | .ok source =>
    match Procedure.ofSource options source with
    | .error fault =>
      { tree, failure := some (fault.failure.within ("failed to extract stdin (" ++ fault.step ++ ")")) }
    | .ok procedure => { tree, output := format.render procedure }

/-- What is reported of a run that passed over sources. -/
def summaryEvents (summary : Summary) : List Event :=
  if summary.skipped.isEmpty then []
  else [⟨.program, .warn, "some source files were not documented",
    [("written", .count summary.written.length), ("skipped", .count summary.skipped.length)]⟩]

/-- Writes the pages of source files. -/
def runFiles (plan : Plan) (arguments : List String) (tree : Tree) : Effect :=
  match collectInputs tree arguments with
  | (events, .error failure) => { tree, events, failure := some failure }
  | (events, .ok sources) =>
    let outcome := generate plan tree sources
    Effect.after (events ++ outcome.events) <|
      match outcome.result with
      | .error failure => { tree := outcome.tree, failure := some failure }
      | .ok summary => { tree := outcome.tree, events := summaryEvents summary }

/-- Generates pages. -/
def run (command : GenerateCommand) (settings : Settings) (input : ByteArray) (tree : Tree) : Effect :=
  let formatName := command.format.getD settings.formatName
  match Format.ofName? formatName (command.author.getD settings.authorName) with
  | none => { tree, failure := some ⟨Format.unknownMessage formatName, []⟩ }
  | some format =>
    let options := command.options settings
    let arguments := command.arguments settings
    if arguments.isEmpty then runInput format options input tree
    else
      match command.output <|> settings.outputDirectory with
      | none => { tree, failure := some ⟨"--output is required when files are given", []⟩ }
      | some output => runFiles ⟨output, format, options, command.policy settings⟩ arguments tree

end GenerateCommand

/-! ### Showing a catalog -/

namespace ViewCommand

/-- Writes the pages of a site one after the other, up to the first failure. -/
def writePages (directory : Path) (tree : Tree) : List SitePage → Tree × Option Failure
  | [] => (tree, none)
  | page :: pages =>
    let path := directory.join page.file
    match tree.writeText path page.html with
    | .error error => (tree, some ⟨"failed to write " ++ path, [error.message]⟩)
    | .ok tree => writePages directory tree pages

/-- Writes the site of a catalog. -/
def runSite (catalog : Catalog) (directory : Path) (tree : Tree) : Effect :=
  match tree.makeDirectories directory with
  | (tree, .error error) =>
    { tree, failure := some ⟨"failed to create site directory: " ++ directory, [error.message]⟩ }
  | (tree, .ok ()) =>
    Effect.after catalog.siteEvents <|
      match writePages directory tree catalog.sitePages with
      | (tree, some failure) => { tree, failure := some failure }
      | (tree, none) =>
        { tree
          events := [⟨.program, .info, "wrote viewer site",
            [("pages", .count catalog.sitePages.length), ("dir", .plain directory)]⟩] }

/-- What is reported of a selection: a name that no record has. -/
def selectEvents (browser : Browser) : List Event :=
  match browser.selected, browser.current? with
  | some name, none =>
    [⟨.program, .warn, "no procedure with this name in the catalog", [("name", .plain name)]⟩]
  | _, _ => []

/-- Prints a page, or writes it into a file. -/
def runPage (browser : Browser) (output : Option Path) (tree : Tree) : Effect :=
  Effect.after (selectEvents browser) <|
    match output with
    | none => { tree, output := browser.page }
    | some path =>
      match tree.writeText path browser.page with
      | .error error => { tree, failure := some ⟨"failed to write " ++ path, [error.message]⟩ }
      | .ok tree => { tree }

/-- Shows a catalog. -/
def run (command : ViewCommand) (tree : Tree) : Effect :=
  let source := command.catalog.elim CatalogSource.builtin .disk
  let catalog := source.load tree
  Effect.after (CatalogSource.loadEvents catalog) <|
    match command.site with
    | some directory => runSite catalog directory tree
    | none => runPage ⟨catalog, command.select⟩ command.output tree

end ViewCommand

/-! ### The program -/

/-- Runs a command with the settings it asks for. -/
def Invocation.run (invocation : Invocation) (input : ByteArray) (tree : Tree) : Effect :=
  match Settings.load tree invocation.config with
  | (events, .error failure) => { tree, events, failure := some failure }
  | (events, .ok settings) =>
    Effect.after events <|
      match invocation.command with
      | .generate command => command.run settings input tree
      | .view command => command.run tree

/-- The exit code, the two output streams and the tree that is left.  What is printed of usage and help
is left out. -/
structure Outcome where
  exit : Nat
  output : String := ""
  errors : String := ""
  tree : Tree

/-- Runs the program. -/
def runProgram (environment : Environment) (arguments : List String) (input : ByteArray)
    (tree : Tree) : Outcome :=
  match Invocation.ofArguments environment.config arguments with
  | .error .usage => { exit := 2, tree }
  | .error .help => { exit := 0, tree }
  | .ok invocation =>
    let effect := invocation.run input tree
    let filter := Filter.choose environment.logFilter invocation.verbosity
    { exit := if effect.failure.isSome then 1 else 0
      output := effect.output
      errors := filter.log effect.events ++ (effect.failure.map Failure.report).getD ""
      tree := effect.tree }

end ProcBook
