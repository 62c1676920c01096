/-
ProcBook/Generation/Run.lean

A run over source files: the page of each procedure is written into the output directory.  A file that
cannot be read or a page that cannot be written ends the run.  A source that yields no procedure is
passed over or ends the run, as the policy says; either way it leaves no page.  Of two sources with the
same procedure name the later one wins.
-/
import ProcBook.Generation.Inputs
import ProcBook.Page.Format
import ProcBook.Sql.Document

namespace ProcBook

/-- What happens to a source that yields no procedure. -/
inductive Policy where
  | skip
  | halt
deriving Repr, DecidableEq, Inhabited

/-- What a run does with its sources. -/
structure Plan where
  output : Path
  format : Format
  options : SourceOptions
  policy : Policy
deriving Repr, DecidableEq

/-! ### Reading a source -/

/-- Why a source was rejected: the step that failed, and the cause. -/
structure Rejection where
  step : String
  cause : Failure
deriving Repr, DecidableEq

/-- The cause of a fault in a document. -/
def Sql.Fault.failure (fault : Sql.Fault) : Failure := ⟨fault.message, fault.cause?.toList⟩

/-- The procedure in the bytes of a source. -/
def Procedure.ofBytes (options : SourceOptions) (bytes : ByteArray) : Except Rejection Procedure :=
  match Text.decode bytes with
  | .error fault => .error ⟨"read", ⟨fault.message, []⟩⟩
  | .ok text =>
    match Procedure.ofSource options text with
    | .error fault => .error ⟨fault.step, fault.failure⟩
    | .ok procedure => .ok procedure

/-! ### The course of a run -/

/-- How far a run has come. -/
structure Progress where
  tree : Tree
  /-- The pages written, each once, in the order of their first writing. -/
  written : List Path := []
  /-- The sources passed over. -/
  skipped : List Path := []
  /-- The last source of each procedure name. -/
  sources : List (String × Path) := []
  events : List Event := []

/-- What a run has achieved. -/
structure Summary where
  written : List Path
  skipped : List Path
deriving Repr, DecidableEq

namespace Progress

/-- The progress with a further event. -/
def note (progress : Progress) (event : Event) : Progress :=
  { progress with events := progress.events ++ [event] }

/-- Treats a source that yields no procedure. -/
def reject (progress : Progress) (policy : Policy) (source : Path) (rejection : Rejection) :
    Progress × Option Failure :=
  match policy with
  | .halt =>
    (progress, some (rejection.cause.within
      ("failed to extract " ++ source ++ " (" ++ rejection.step ++ ")")))
  | .skip =>
    ({ progress with skipped := progress.skipped ++ [source] }.note
      ⟨.batch, .warn, "skipping source file", [("file", .plain source), ("step", .quoted rejection.step),
        ("error", .plain rejection.cause.outer)]⟩, none)

/-- Remembers the source of a procedure, and reports an earlier one of the same name. -/
def claim (progress : Progress) (name : String) (source : Path) : Progress :=
  let claimed :=
    { progress with sources := (name, source) :: progress.sources.filter (·.1 != name) }
  match progress.sources.lookup name with
  | none => claimed
  | some previous =>
    claimed.note ⟨.batch, .warn, "duplicate procedure name, later file overwrites",
      [("name", .plain name), ("previous", .plain previous), ("file", .plain source)]⟩

/-- Writes the page of a procedure. -/
def document (progress : Progress) (plan : Plan) (source : Path) (procedure : Procedure) :
    Progress × Option Failure :=
  let progress := progress.claim procedure.name source
  let page := plan.output.join (plan.format.fileName procedure.name)
  match progress.tree.writeText page (plan.format.render procedure) with
  | .error error => (progress, some ⟨"failed to write " ++ page, [error.message]⟩)
  | .ok tree =>
    let written := if progress.written.contains page then progress.written
      else progress.written ++ [page]
    ({ progress with tree, written }.note
      ⟨.batch, .debug, "wrote page", [("file", .plain source), ("output", .plain page)]⟩, none)

/-- Treats one source. -/
def step (progress : Progress) (plan : Plan) (source : Path) : Progress × Option Failure :=
  match progress.tree.read source with
  | .error error => (progress, some ⟨"failed to read " ++ source, [error.message]⟩)
  | .ok bytes =>
    match Procedure.ofBytes plan.options bytes with
    | .error rejection => progress.reject plan.policy source rejection
    | .ok procedure => progress.document plan source procedure

/-- Treats sources one after the other, up to the first failure. -/
def steps (progress : Progress) (plan : Plan) : List Path → Progress × Option Failure
  | [] => (progress, none)
  | source :: sources =>
    match progress.step plan source with
    | (progress, some failure) => (progress, some failure)
    | (progress, none) => progress.steps plan sources

/-- What the run has achieved. -/
def summary (progress : Progress) : Summary := ⟨progress.written, progress.skipped⟩

end Progress

/-- The tree that a run leaves, the events it reports, and its result. -/
structure RunOutcome where
  tree : Tree
  events : List Event
  result : Except Failure Summary

/-- Makes the output directory and documents the sources. -/
def generate (plan : Plan) (tree : Tree) (sources : List Path) : RunOutcome :=
  match tree.makeDirectories plan.output with
  | (tree, .error error) =>
    ⟨tree, [], .error ⟨"failed to create output directory: " ++ plan.output, [error.message]⟩⟩
  | (tree, .ok ()) =>
    match ({ tree } : Progress).steps plan sources with
    | (progress, some failure) => ⟨progress.tree, progress.events, .error failure⟩
    | (progress, none) =>
      let finished := ⟨.batch, .info, "generation finished",
        [("written", .count progress.written.length), ("skipped", .count progress.skipped.length)]⟩
      ⟨progress.tree, (progress.note finished).events, .ok progress.summary⟩

end ProcBook
