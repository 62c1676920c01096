/-
ProcBook/Command/Line.lean

The command line.  Two options, for the settings file and for verbosity, may stand before and after the
command's name; each command has further options of its own.

* A long option takes its value after an equals sign or as the next argument, a short one also without
  anything between.  Short options without value can be joined.
* An argument that starts with a dash and has more than that is an option, never a value.
* After `--` every argument is a plain one.
* Only the option for verbosity may be given more than once.
* Help may be asked for by an option anywhere or by a command of its own.

Arguments are read from left to right, up to the first one that is not well-formed or asks for help.
`Invocation.ofArguments` reads a command line, or says why there is none to run.
-/
import ProcBook.Disk.Path

namespace ProcBook.Command

/-! ### Options -/

/-- The options of all commands. -/
inductive OptionName where
  | config
  | verbose
  | output
  | format
  | failFast
  | schema
  | keepHeader
  | author
  | catalog
  | select
  | site
  | help
deriving Repr, DecidableEq

/-- What follows an option. -/
inductive Value where
  /-- Nothing. -/
  | none
  /-- A text, which may be empty. -/
  | text
  /-- A path, which may not be empty. -/
  | path
deriving Repr, DecidableEq

/-- How an option is written. -/
structure OptionForm where
  name : OptionName
  short? : Option Char := none
  long : String
  value : Value
deriving Repr, DecidableEq

/-- The options that every command has. -/
def commonForms : List OptionForm := [
  ⟨.config, some 'c', "config", .path⟩,
  ⟨.verbose, some 'v', "verbose", .none⟩,
  ⟨.help, some 'h', "help", .none⟩]

/-- The options of the command that generates pages. -/
def generateForms : List OptionForm := commonForms ++ [
  ⟨.output, some 'o', "output", .path⟩,
  ⟨.format, some 'f', "format", .text⟩,
  ⟨.failFast, none, "fail-fast", .none⟩,
  ⟨.schema, none, "schema", .text⟩,
  ⟨.keepHeader, none, "keep-header", .none⟩,
  ⟨.author, none, "author", .text⟩]

/-- The options of the command that shows a catalog. -/
def viewForms : List OptionForm := commonForms ++ [
  ⟨.catalog, none, "catalog", .path⟩,
  ⟨.select, some 's', "select", .text⟩,
  ⟨.output, some 'o', "output", .path⟩,
  ⟨.site, none, "site", .path⟩]

/-- An option that was given, with its value; one without value has an empty one. -/
structure Given where
  form : OptionForm
  value : String
deriving Repr, DecidableEq

/-! ### Reading arguments -/

/-- Why there is no command to run. -/
inductive Refusal where
  /-- The command line is not well-formed. -/
  | usage
  /-- Help is asked for. -/
  | help
deriving Repr, DecidableEq

/-- Whether an argument is an option. -/
def isOption (argument : String) : Bool :=
  match argument.toList with
  | '-' :: _ :: _ => true
  | _ => false

/-- What an argument that is an option ends with. -/
inductive Options.End where
  | complete
  /-- An option whose value is the next argument. -/
  | awaits (form : OptionForm)
  /-- Something that is no option. -/
  | unknown
deriving Repr, DecidableEq

/-- The options in an argument. -/
structure Options where
  given : List Given := []
  last : Options.End := .complete
deriving Repr, DecidableEq

/-- Reads a long option after its dashes. -/
def readLong (forms : List OptionForm) (text : List Char) : Options :=
  let name := String.ofList (text.takeWhile (· != '='))
  match forms.find? (·.long == name), text.dropWhile (· != '=') with
  | none, _ => { last := .unknown }
  | some form, [] =>
    if form.value == .none then { given := [⟨form, ""⟩] } else { last := .awaits form }
  | some form, _ :: value =>
    if form.value == .none then { last := .unknown }
    else { given := [⟨form, String.ofList value⟩] }

/-- Reads joined short options after their dash. -/
def readShort (forms : List OptionForm) : List Char → Options
  | [] => {}
  | c :: rest =>
    match forms.find? (·.short? == some c) with
    | none => { last := .unknown }
    | some form =>
      if form.value == .none then
        let options := readShort forms rest
        { options with given := ⟨form, ""⟩ :: options.given }
      else
        match rest with
        | [] => { last := .awaits form }
        | '=' :: value => { given := [⟨form, String.ofList value⟩] }
        | value => { given := [⟨form, String.ofList value⟩] }

/-- Reads an argument that is an option. -/
def readOption (forms : List OptionForm) (argument : String) : Options :=
  match argument.toList with
  | '-' :: '-' :: rest => readLong forms rest
  | '-' :: rest => readShort forms rest
  | _ => { last := .unknown }

/-- Adds an option to those before it.  No option but that for verbosity is repeated, no path is empty,
and help ends everything. -/
def accept (given : List Given) (next : Given) : Except Refusal (List Given) :=
  if next.form.name == .help then .error .help
  else if next.form.name != .verbose && given.any (·.form.name == next.form.name) then .error .usage
  else if next.form.value == .path && next.value == "" then .error .usage
  else .ok (given ++ [next])

/-- Options and plain arguments. -/
structure Arguments where
  given : List Given := []
  plain : List String := []
deriving Repr, DecidableEq

/-- What a plain argument is. -/
inductive PlainUse where
  /-- The name of a command, which ends the reading: it and all that follows is plain. -/
  | command
  | files
  /-- Out of place. -/
  | refused
deriving Repr, DecidableEq

/-- Reads arguments behind the options `given`. -/
def readArguments (forms : List OptionForm) (use : PlainUse) (given : List Given) :
    List String → Except Refusal Arguments
  | [] => .ok { given }
  | argument :: rest =>
    if argument == "--" then
      if use == .files || use == .refused && rest.isEmpty then .ok ⟨given, rest⟩ else .error .usage
    else if !isOption argument then
      match use with
      | .command => .ok ⟨given, argument :: rest⟩
      | .files =>
        (readArguments forms use given rest).map fun read =>
          { read with plain := argument :: read.plain }
      | .refused => .error .usage
    else
      let options := readOption forms argument
      match options.given.foldlM accept given, options.last with
      | .error refusal, _ => .error refusal
      | .ok given, .complete => readArguments forms use given rest
      | .ok _, .unknown => .error .usage
      | .ok given, .awaits form =>
        match rest with
        | [] => .error .usage
        | value :: rest =>
          if isOption value then .error .usage
          else
            match accept given ⟨form, value⟩ with
            | .error refusal => .error refusal
            | .ok given => readArguments forms use given rest

namespace Arguments

/-- The value of an option. -/
def value? (arguments : Arguments) (name : OptionName) : Option String :=
  (arguments.given.find? (·.form.name == name)).map (·.value)

/-- Whether an option was given. -/
def has (arguments : Arguments) (name : OptionName) : Bool := (arguments.value? name).isSome

/-- How often an option was given. -/
def count (arguments : Arguments) (name : OptionName) : Nat :=
  arguments.given.countP (·.form.name == name)

end Arguments

end ProcBook.Command

namespace ProcBook

/-! ### Commands -/

/-- What pages are generated from, and how; what is not given comes from the settings. -/
structure GenerateCommand where
  files : List String := []
  output : Option Path := none
  format : Option String := none
  schema : Option String := none
  author : Option String := none
  failFast : Bool := false
  keepHeader : Bool := false
deriving Repr, DecidableEq

/-- Which catalog is shown, and where. -/
structure ViewCommand where
  catalog : Option Path := none
  select : Option String := none
  output : Option Path := none
  site : Option Path := none
deriving Repr, DecidableEq

/-- A command. -/
inductive Command where
  | generate (command : GenerateCommand)
  | view (command : ViewCommand)
deriving Repr, DecidableEq

/-- A command with the options that all commands have. -/
structure Invocation where
  config : Option Path
  verbosity : Nat
  command : Command
deriving Repr, DecidableEq

namespace Command

/-- The names of commands. -/
inductive Name where
  | generate
  | view
  | help
deriving Repr, DecidableEq

/-- The command of a name. -/
def Name.ofText? : String → Option Name
  | "generate" => some generate
  | "view" => some view
  | "help" => some help
  | _ => none

/-- The command that makes pages. -/
def ofGenerateArguments (arguments : Arguments) : Command :=
  .generate {
    files := arguments.plain
    output := arguments.value? .output
    format := arguments.value? .format
    schema := arguments.value? .schema
    author := arguments.value? .author
    failFast := arguments.has .failFast
    keepHeader := arguments.has .keepHeader }

/-- The command that shows a catalog.  A site goes neither with a selection nor with an output. -/
def ofViewArguments (arguments : Arguments) : Except Refusal Command :=
  if arguments.has .site && (arguments.has .select || arguments.has .output) then .error .usage
  else .ok (.view {
    catalog := arguments.value? .catalog
    select := arguments.value? .select
    output := arguments.value? .output
    site := arguments.value? .site })

/-- Reads what follows the name of a command: its arguments, and the command that they make. -/
def readCommand (name : Name) (rest : List String) : Except Refusal (Arguments × Command) :=
  match name with
  | .generate =>
    (readArguments generateForms .files [] rest).map fun inner => (inner, ofGenerateArguments inner)
  | .view =>
    match readArguments viewForms .refused [] rest with
    | .error refusal => .error refusal
    | .ok inner => (ofViewArguments inner).map fun command => (inner, command)
  | .help =>
    -- Help may be asked for about one command, which has to be known.
    match rest with
    | [] => .error .help
    | [about] => .error (if (Name.ofText? about).isSome then .help else .usage)
    | _ => .error .usage

end Command

open Command in
/-- Reads a command line, where `config` is the settings file that the environment names.  An option
given after the command's name counts more than one before it, and either more than the
environment. -/
def Invocation.ofArguments (config : Option Path) (arguments : List String) :
    Except Refusal Invocation :=
  match readArguments commonForms .command [] arguments with
  | .error refusal => .error refusal
  | .ok ⟨_, []⟩ => .error .usage
  | .ok outer@⟨_, name :: rest⟩ =>
    match Name.ofText? name with
    | none => .error .usage
    | some name =>
      match readCommand name rest with
      | .error refusal => .error refusal
      | .ok (inner, command) =>
        -- An empty path in the environment is refused wherever no option stands in for it.
        if config == some "" && (!outer.has .config || !inner.has .config) then .error .usage
        else
          .ok {
            config := inner.value? .config <|> outer.value? .config <|> config
            verbosity :=
              if inner.has .verbose then inner.count .verbose else outer.count .verbose
            command }

end ProcBook
