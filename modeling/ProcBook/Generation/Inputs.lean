/-
ProcBook/Generation/Inputs.lean

The source files of a run.  An argument is a file, a directory, which stands for the files directly
inside it, or else a pattern.  All files are put in order, each once.
-/
import ProcBook.Disk.Pattern
import ProcBook.Report.Event
import ProcBook.Report.Failure

namespace ProcBook

/-- The files that one argument stands for. -/
def expandArgument (tree : Tree) (argument : String) : Except Failure (List Path) :=
  if tree.isFile argument then .ok [argument]
  else if tree.isDirectory argument then
    match tree.list argument with
    | .error error => .error ⟨"failed to read directory: " ++ argument, [error.message]⟩
    | .ok names => .ok ((names.map (Path.join argument)).filter tree.isFile)
  else
    match Pattern.expand tree argument with
    | .error error => .error ⟨"invalid glob pattern: " ++ argument, [error.message]⟩
    | .ok paths => .ok (paths.filter tree.isFile)

/-- What is reported of an argument: a pattern that matches no file. -/
def argumentEvents (tree : Tree) (argument : String) (files : List Path) : List Event :=
  if tree.isDirectory argument || !files.isEmpty then []
  else [⟨.batch, .warn, "no files matched", [("pattern", .plain argument)]⟩]

/-- The files that arguments stand for, argument by argument. -/
def expandArguments (tree : Tree) : List String → List Event × Except Failure (List Path)
  | [] => ([], .ok [])
  | argument :: arguments =>
    match expandArgument tree argument with
    | .error failure => ([], .error failure)
    | .ok files =>
      let (events, rest) := expandArguments tree arguments
      (argumentEvents tree argument files ++ events, rest.map (files ++ ·))

/-- The source files that arguments stand for, in order, each once. -/
def collectInputs (tree : Tree) (arguments : List String) :
    List Event × Except Failure (List Path) :=
  let (events, files) := expandArguments tree arguments
  (events, files.map Path.sortedOnce)

end ProcBook
