/-
ProcBook/Main.lean

The program.  All decisions are those of `runProgram`; here the part of the disk that a run may look at
is read into a tree, and what the run has added or changed is written back.
-/
import ProcBook.Command.Run

namespace ProcBook

/-- The tree of some entries, if they make one. -/
def Tree.ofEntries? (entries : List (Location × Node)) (home : Location)
    (unlisted : List (Location × FileError)) : Option Tree :=
  if h : (entries.map Prod.fst).Nodup ∧ (∀ place ∈ entries.map Prod.fst, IsPlace place) ∧
      (∀ place ∈ entries.map Prod.fst, nodeAt? entries place.dropLast = some .directory) ∧
      nodeAt? entries home = some .directory ∧
      ∀ place ∈ unlisted.map Prod.fst, nodeAt? entries place = some .directory then
    some ⟨entries, home, unlisted, h.1, h.2.1, h.2.2.1, h.2.2.2.1, h.2.2.2.2⟩
  else none

/-- What has been read of the disk so far. -/
structure Seen where
  entries : List (Location × Node) := []
  unlisted : List (Location × FileError) := []

/-- The path of a location. -/
def pathTo (location : Location) : Path := "/" ++ "/".intercalate location

/-- The entry of a place, if something stands there. -/
def readEntry? (place : Location) : IO (Option (Location × Node)) := do
  let path := (← IO.currentDir) / pathTo place
  if ← path.isDir then return some (place, .directory)
  else if ← path.pathExists then return some (place, .file (← IO.FS.readBinFile path))
  else return none

/-- Reads a place and all that is below it, unless that has been done. -/
partial def readBelow (seen : Seen) (place : Location) : IO Seen := do
  if place != [] && (nodeAt? seen.entries place).isNone then
    match ← readEntry? place with
    | none => return seen
    | some entry => below { seen with entries := entry :: seen.entries }
  else below seen
where
  below (seen : Seen) : IO Seen := do
    if nodeAt? seen.entries place != some .directory then return seen
    try
      let mut seen := seen
      for entry in ← ((← IO.currentDir) / pathTo place).readDir do
        -- A link could lead around in circles.
        if (← entry.path.symlinkMetadata).type != .symlink then
          seen ← readBelow seen (place ++ [entry.fileName])
      return seen
    catch _ => return { seen with unlisted := (place, .denied) :: seen.unlisted }

/-- Reads the directories on the way to a location, and all that is below it. -/
def readAround (seen : Seen) (location : Location) : IO Seen := do
  let mut seen := seen
  for n in List.range location.length do
    let place := location.take n
    if (nodeAt? seen.entries place).isNone then
      match ← readEntry? place with
      | some entry => seen := { seen with entries := entry :: seen.entries }
      | none => return seen
  readBelow seen location

/-- The location around which a text that may be a path or a pattern leads: that of its pieces up to the
first one with special characters. -/
def locationAround (home : Location) (text : String) : Location :=
  let plain := (Path.pieces text).takeWhile fun piece =>
    piece.toList.all fun c => c != '*' && c != '?' && c != '['
  let start := if Path.isAbsolute text then [] else home
  (plain.filterMap Tree.step?).foldl Tree.Step.move start

/-- The texts of a command line that may be paths, the values of options among them. -/
def pathTexts (environment : Environment) (arguments : List String) : List String :=
  environment.config.toList ++ arguments.flatMap fun argument =>
    if Command.isOption argument then
      String.ofList (argument.toList.drop 2) ::
        (Text.after? '=' argument.toList).toList.map String.ofList
    else [argument]

/-- The paths that a settings file gives. -/
def settingsTexts (tree : Tree) (config : Option Path) : List String :=
  match (Settings.load tree config).2 with
  | .ok settings => settings.sourceDirectory.toList ++ settings.outputDirectory.toList
  | .error _ => []

/-- Reads what a run may look at: the working directory and the surroundings of all paths it is given. -/
def readTree (environment : Environment) (arguments : List String) : IO (Option Tree) := do
  let home := (Path.pieces (← IO.currentDir).toString).filter (· != "")
  let read (seen : Seen) (texts : List String) : IO Seen :=
    (texts.map (locationAround home)).foldlM readAround seen
  let seen ← read (← readAround {} home) (pathTexts environment arguments)
  match Tree.ofEntries? seen.entries home seen.unlisted,
    Invocation.ofArguments environment.config arguments with
  | some tree, .ok invocation =>
    let seen ← read seen (settingsTexts tree invocation.config)
    return Tree.ofEntries? seen.entries home seen.unlisted
  | tree?, _ => return tree?

/-- Writes what one tree has beyond another, directories first. -/
def writeChanges (before after : Tree) : IO Unit := do
  let changed := after.entries.filter fun (place, node) => before.find? place != some node
  for (place, node) in changed.mergeSort fun a b => a.1.length ≤ b.1.length do
    match node with
    | .directory => IO.FS.createDirAll (pathTo place)
    | .file bytes => IO.FS.writeBinFile (pathTo place) bytes

/-- Reads the standard input to its end, unless the command has no use for it. -/
partial def readInput (input : IO.FS.Stream) (read : ByteArray) : IO ByteArray := do
  let more ← input.read 65536
  if more.isEmpty then return read else readInput input (read ++ more)

/-- Whether a command line asks for a source in the input. -/
def wantsInput (environment : Environment) (arguments : List String) (tree : Tree) : Bool :=
  match Invocation.ofArguments environment.config arguments with
  | .ok ⟨config, _, .generate command⟩ =>
    match Settings.load tree config with
    | (_, .ok settings) => (command.arguments settings).isEmpty
    | _ => false
  | _ => false

/-- Runs the program in the working directory. -/
def run (arguments : List String) : IO UInt32 := do
  let environment : Environment :=
    ⟨← IO.getEnv "RUST_LOG", ← IO.getEnv "SPROCDOC_CONFIG"⟩
  let some tree ← readTree environment arguments | throw (IO.userError "the disk has changed")
  let input ← if wantsInput environment arguments tree then readInput (← IO.getStdin) .empty
    else pure .empty
  let outcome := runProgram environment arguments input tree
  writeChanges tree outcome.tree
  (← IO.getStdout).putStr outcome.output
  (← IO.getStderr).putStr outcome.errors
  return outcome.exit.toUInt32

end ProcBook

/-- Runs the program in the working directory. -/
def main (arguments : List String) : IO UInt32 := ProcBook.run arguments
