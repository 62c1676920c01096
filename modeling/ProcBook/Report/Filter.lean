/-
ProcBook/Report/Filter.lean

Filters: which events are shown.  A filter is a list of directives between commas.  A directive is a
level, which holds for all events, or the name of a part of the program and a level for the events from
there; a name may be cut short, and without a level it stands for all levels.  Of several directives that
an event falls under the one with the longest name counts, and of equal ones the last.

Directives for spans and for the fields of events are left out: events come from no span here.
-/
import ProcBook.Report.Event
import ProcBook.Text.Cut
import ProcBook.Text.Word

namespace ProcBook

/-- The least important level of events that are shown, if any are. -/
abbrev Threshold := Option Level

/-- The threshold that a word or a digit stands for. -/
def Threshold.ofWord? (word : String) : Option Threshold :=
  match word.toLower with
  | "off" | "0" => some none
  | "error" | "1" => some (some .error)
  | "warn" | "2" => some (some .warn)
  | "info" | "3" => some (some .info)
  | "debug" | "4" => some (some .debug)
  | "trace" | "5" => some (some .trace)
  | _ => none

/-- What a filter says of the events from a part of the program, or of all events. -/
structure Directive where
  target : Option String
  threshold : Threshold
deriving Repr, DecidableEq

namespace Directive

/-- Whether a text can be the name of a part of a program. -/
def isTarget (text : String) : Bool :=
  text != "" && text.toList.all fun c => Text.isWord c || c == ':' || c == '-'

/-- The part of the program that a name stands for.  A level in place of a name, which may also be a
number with zeros in front, stands for all parts. -/
def target? (name : String) : Option String :=
  let isNumber := name.toList.all Char.isDigit && name.toNat?.any (· ≤ 5)
  if (Threshold.ofWord? name).isSome || isNumber then none else some name

/-- Reads a directive. -/
def ofText? (text : String) : Option Directive :=
  match Threshold.ofWord? text with
  | some threshold => some ⟨none, threshold⟩
  | none =>
    let name := String.ofList (text.toList.takeWhile (· != '='))
    if !isTarget name then none
    else
      match text.toList.dropWhile (· != '=') with
      | [] | [_] => some ⟨target? name, some .trace⟩
      | _ :: word => (Threshold.ofWord? (String.ofList word)).map (⟨target? name, ·⟩)

/-- Whether a directive speaks of the events from a part of the program. -/
def covers (origin : Origin) (directive : Directive) : Bool :=
  directive.target.all fun target => target.toList.isPrefixOf origin.target.toList

/-- How closely a directive describes the events it speaks of. -/
def weight (directive : Directive) : Nat := directive.target.elim 0 (·.utf8ByteSize)

end Directive

/-- Which events are shown. -/
structure Filter where
  directives : List Directive
deriving Repr, DecidableEq

namespace Filter

/-- Reads a filter.  One without directives shows errors only. -/
def ofText? (text : String) : Option Filter :=
  let pieces := ((Text.splitOn ',' text.toList).filter (!·.isEmpty)).map String.ofList
  if pieces.isEmpty then some ⟨[⟨none, some .error⟩]⟩
  else (pieces.mapM Directive.ofText?).map Filter.mk

/-- The filter that a verbosity amounts to. -/
def ofVerbosity (verbosity : Nat) : Filter :=
  ⟨[⟨none, some (if verbosity == 0 then .warn else if verbosity == 1 then .info else .debug)⟩]⟩

/-- The filter that is asked for, unless it cannot be read, and otherwise what the verbosity amounts
to. -/
def choose (asked : Option String) (verbosity : Nat) : Filter :=
  (asked.bind ofText?).getD (ofVerbosity verbosity)

/-- The directive that counts for the events from a part of the program. -/
def directive? (filter : Filter) (origin : Origin) : Option Directive :=
  (filter.directives.filter (·.covers origin)).foldl
    (fun best next => if best.any (next.weight < ·.weight) then best else some next) none

/-- Whether an event is shown. -/
def shows (filter : Filter) (event : Event) : Bool :=
  (filter.directive? event.origin).any fun directive =>
    directive.threshold.any fun level => event.level.rank ≤ level.rank

/-- The lines of those events that are shown. -/
def log (filter : Filter) (events : List Event) : String :=
  String.join ((events.filter filter.shows).map Event.line)

end Filter

end ProcBook
