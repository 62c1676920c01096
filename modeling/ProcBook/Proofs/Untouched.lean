/-
ProcBook/Proofs/Untouched.lean

Runs of the program that leave the disk alone.

A run comes to writing only behind a chain of checks: the command line, the settings, the format, the
output directory, the sources.  `EndsEarly` lists the runs that end before, one rule for each link of the
chain, and the runs that have nothing to write because they print.  Each rule says in terms of what the
run is given, and not of how it goes on, that the run ends there and with which `Ending`.

Main result: `runProgram_untouched`.  A run that ends early ends as its rule says and leaves the file tree
exactly as it was; any other run has passed all checks (`Writes`).
-/
import Mathlib.Data.List.Basic
import ProcBook.Command.Run

namespace ProcBook

/-! ### Endings -/

/-- How a run ends that writes nothing. -/
inductive Ending where
  /-- The command line is not well-formed. -/
  | usage
  /-- Help was asked for. -/
  | help
  | failed (failure : Failure)
  | printed (page : String)

/-- What is seen of an ending: the exit code, what is printed, and the report at the end of the log. -/
def Ending.Seen : Ending → Outcome → Prop
  | usage, outcome => outcome.exit = 2 ∧ outcome.output = ""
  | help, outcome => outcome.exit = 0
  | failed failure, outcome =>
    outcome.exit = 1 ∧ outcome.output = "" ∧ ∃ log, outcome.errors = log ++ failure.report
  | printed page, outcome => outcome.exit = 0 ∧ outcome.output = page

/-! ### What a run is given -/

/-- The name of the format that pages are made in. -/
def GenerateCommand.formatName (command : GenerateCommand) (settings : Settings) : String :=
  command.format.getD settings.formatName

/-- The format that pages are made in, if there is one of that name. -/
def GenerateCommand.format? (command : GenerateCommand) (settings : Settings) : Option Format :=
  Format.ofName? (command.formatName settings) (command.author.getD settings.authorName)

/-- The output directory, if one is given. -/
def GenerateCommand.output? (command : GenerateCommand) (settings : Settings) : Option Path :=
  command.output <|> settings.outputDirectory

/-- Where the catalog that is shown comes from. -/
def ViewCommand.source (command : ViewCommand) : CatalogSource := command.catalog.elim .builtin .disk

/-- The command line is well-formed and asks for a command, and the settings can be read. -/
def Asks (environment : Environment) (arguments : List String) (tree : Tree) (command : Command)
    (settings : Settings) : Prop :=
  ∃ config verbosity,
    Invocation.ofArguments environment.config arguments = .ok ⟨config, verbosity, command⟩ ∧
    (Settings.load tree config).2 = .ok settings

/-- Pages are asked for, in a format that there is. -/
def AsksPages (environment : Environment) (arguments : List String) (tree : Tree)
    (command : GenerateCommand) (settings : Settings) (format : Format) : Prop :=
  Asks environment arguments tree (.generate command) settings ∧
    command.format? settings = some format

/-- A run that ends before it comes to writing, or that prints and has nothing to write. -/
inductive EndsEarly (environment : Environment) (arguments : List String) (input : ByteArray)
    (tree : Tree) : Ending → Prop
  | usage : Invocation.ofArguments environment.config arguments = .error .usage →
      EndsEarly environment arguments input tree .usage
  | help : Invocation.ofArguments environment.config arguments = .error .help →
      EndsEarly environment arguments input tree .help
  /-- The settings file cannot be read, or is none. -/
  | settings {invocation : Invocation} {failure : Failure} :
      Invocation.ofArguments environment.config arguments = .ok invocation →
      (Settings.load tree invocation.config).2 = .error failure →
      EndsEarly environment arguments input tree (.failed failure)
  /-- No format has the name given. -/
  | format {command : GenerateCommand} {settings : Settings} :
      Asks environment arguments tree (.generate command) settings →
      command.format? settings = none → EndsEarly environment arguments input tree
        (.failed ⟨Format.unknownMessage (command.formatName settings), []⟩)
  /-- There are sources, and no place is given for their pages. -/
  | output {command : GenerateCommand} {settings : Settings} {format : Format} :
      AsksPages environment arguments tree command settings format →
      command.arguments settings ≠ [] → command.output? settings = none →
      EndsEarly environment arguments input tree
        (.failed ⟨"--output is required when files are given", []⟩)
  /-- The sources cannot be collected. -/
  | sources {command : GenerateCommand} {settings : Settings} {format : Format} {output : Path}
      {failure : Failure} : AsksPages environment arguments tree command settings format →
      command.output? settings = some output →
      (collectInputs tree (command.arguments settings)).2 = .error failure →
      EndsEarly environment arguments input tree (.failed failure)
  /-- The source is in the input, and the input is no text. -/
  | inputBytes {command : GenerateCommand} {settings : Settings} {format : Format}
      {fault : Text.DecodeFault} : AsksPages environment arguments tree command settings format →
      command.arguments settings = [] → Text.decode input = .error fault →
      EndsEarly environment arguments input tree
        (.failed ⟨"failed to read stdin", ["stream did not contain valid UTF-8"]⟩)
  /-- The source is in the input, and it holds no procedure. -/
  | inputFault {command : GenerateCommand} {settings : Settings} {format : Format} {source : String}
      {fault : Sql.Fault} : AsksPages environment arguments tree command settings format →
      command.arguments settings = [] → Text.decode input = .ok source →
      Procedure.ofSource (command.options settings) source = .error fault →
      EndsEarly environment arguments input tree
        (.failed ⟨"failed to extract stdin (" ++ fault.step ++ ")",
          fault.message :: fault.cause?.toList⟩)
  /-- The source is in the input, and its page is printed. -/
  | inputPage {command : GenerateCommand} {settings : Settings} {format : Format} {source : String}
      {procedure : Procedure} : AsksPages environment arguments tree command settings format →
      command.arguments settings = [] → Text.decode input = .ok source →
      Procedure.ofSource (command.options settings) source = .ok procedure →
      EndsEarly environment arguments input tree (.printed (format.render procedure))
  /-- A page of the catalog is printed, also if the catalog cannot be loaded. -/
  | view {command : ViewCommand} {settings : Settings} :
      Asks environment arguments tree (.view command) settings →
      command.output = none → command.site = none → EndsEarly environment arguments input tree
        (.printed ((command.source.load tree).page .plain command.select))

/-- A run that has passed all checks and has something to write. -/
inductive Writes (environment : Environment) (arguments : List String) (tree : Tree) : Prop
  | pages {command : GenerateCommand} {settings : Settings} {format : Format} {output : Path}
      {sources : List Path} : AsksPages environment arguments tree command settings format →
      command.arguments settings ≠ [] → command.output? settings = some output →
      (collectInputs tree (command.arguments settings)).2 = .ok sources →
      Writes environment arguments tree
  | catalog {command : ViewCommand} {settings : Settings} :
      Asks environment arguments tree (.view command) settings →
      command.output.isSome ∨ command.site.isSome → Writes environment arguments tree

/-! ### Effects -/

/-- An effect that leaves the tree alone and ends in a certain way. -/
def Effect.EndsIn (effect : Effect) (tree : Tree) : Ending → Prop
  | .usage | .help => False
  | .failed failure => effect.tree = tree ∧ effect.output = "" ∧ effect.failure = some failure
  | .printed page => effect.tree = tree ∧ effect.output = page ∧ effect.failure = none

/-- Events logged in front of an effect change nothing about how it ends. -/
theorem Effect.EndsIn.after {effect : Effect} {tree : Tree} {ending : Ending}
    (h : effect.EndsIn tree ending) (events : List Event) :
    (Effect.after events effect).EndsIn tree ending := by
  cases ending with
  | usage => exact h
  | help => exact h
  | failed failure => exact h
  | printed page => exact h

/-- The effect of a command. -/
def Command.effect (command : Command) (settings : Settings) (input : ByteArray) (tree : Tree) :
    Effect :=
  match command with
  | .generate command => command.run settings input tree
  | .view command => command.run tree

section

variable {environment : Environment} {arguments : List String} {input : ByteArray} {tree : Tree}
  {ending : Ending}

/-- An invocation that parses ends its program as it ends itself. -/
theorem seen_of_run {invocation : Invocation}
    (h : Invocation.ofArguments environment.config arguments = .ok invocation)
    (hrun : (invocation.run input tree).EndsIn tree ending) :
    (runProgram environment arguments input tree).tree = tree ∧
      ending.Seen (runProgram environment arguments input tree) := by
  unfold runProgram
  rw [h]
  cases ending with
  | usage => exact hrun.elim
  | help => exact hrun.elim
  | failed failure =>
    obtain ⟨htree, houtput, hfailure⟩ := hrun
    simp only [hfailure]
    exact ⟨htree, rfl, houtput, _, rfl⟩
  | printed page =>
    obtain ⟨htree, houtput, hfailure⟩ := hrun
    simp only [hfailure]
    exact ⟨htree, rfl, houtput⟩

/-- A command whose settings resolve ends its program as its effect ends. -/
theorem seen_of_asks {command : Command} {settings : Settings}
    (h : Asks environment arguments tree command settings)
    (heffect : (command.effect settings input tree).EndsIn tree ending) :
    (runProgram environment arguments input tree).tree = tree ∧
      ending.Seen (runProgram environment arguments input tree) := by
  obtain ⟨config, verbosity, hinvocation, hsettings⟩ := h
  apply seen_of_run hinvocation
  rcases hload : Settings.load tree config with ⟨events, result⟩
  rw [hload] at hsettings
  obtain rfl : result = .ok settings := hsettings
  rw [Invocation.run, hload]
  cases command with
  | generate command => exact heffect.after events
  | view command => exact heffect.after events

end

/-! ### The links of the chain -/

namespace GenerateCommand

variable {command : GenerateCommand} {settings : Settings} {format : Format}

/-- An unknown format is refused before anything is read. -/
theorem run_of_no_format (h : command.format? settings = none) (input : ByteArray) (tree : Tree) :
    command.run settings input tree =
      { tree, failure := some ⟨Format.unknownMessage (command.formatName settings), []⟩ } := by
  unfold format? formatName at h
  unfold run formatName
  simp only [h]

/-- Behind the check of the format. -/
theorem run_of_format (h : command.format? settings = some format) (input : ByteArray) (tree : Tree) :
    command.run settings input tree =
      if (command.arguments settings).isEmpty then
        runInput format (command.options settings) input tree
      else
        match command.output? settings with
        | none => { tree, failure := some ⟨"--output is required when files are given", []⟩ }
        | some output =>
          runFiles ⟨output, format, command.options settings, command.policy settings⟩
            (command.arguments settings) tree := by
  unfold run
  dsimp only
  split
  · next hnone => cases h.symm.trans hnone
  · next other hother =>
    obtain rfl := Option.some.inj (h.symm.trans hother)
    rfl

/-- Without sources the standard input is the source. -/
theorem run_of_input (h : command.format? settings = some format)
    (hsources : command.arguments settings = []) (input : ByteArray) (tree : Tree) :
    command.run settings input tree = runInput format (command.options settings) input tree := by
  rw [run_of_format h, hsources]
  rfl

/-- With sources the order of the checks is: the output directory, the arguments, the run. -/
theorem run_of_files (h : command.format? settings = some format)
    (hsources : command.arguments settings ≠ []) (input : ByteArray) (tree : Tree) :
    command.run settings input tree =
      match command.output? settings with
      | none => { tree, failure := some ⟨"--output is required when files are given", []⟩ }
      | some output =>
        runFiles ⟨output, format, command.options settings, command.policy settings⟩
          (command.arguments settings) tree := by
  rw [run_of_format h, if_neg (fun hempty => hsources (List.isEmpty_iff.1 hempty))]

/-- Only an argument can fail. -/
theorem ne_nil_of_collectInputs {arguments : List String} {tree : Tree} {failure : Failure}
    (h : (collectInputs tree arguments).2 = .error failure) : arguments ≠ [] := by
  rintro rfl
  cases h

/-- A run whose arguments cannot be resolved fails before its output directory is made. -/
theorem runFiles_of_error {arguments : List String} {tree : Tree} {failure : Failure}
    (h : (collectInputs tree arguments).2 = .error failure) (plan : Plan) :
    (runFiles plan arguments tree).EndsIn tree (.failed failure) := by
  rcases hcollect : collectInputs tree arguments with ⟨events, result⟩
  rw [hcollect] at h
  obtain rfl : result = .error failure := h
  rw [runFiles, hcollect]
  exact ⟨rfl, rfl, rfl⟩

end GenerateCommand

/-- A view with nowhere to write prints its page, that of a failed catalog included. -/
theorem ViewCommand.run_printed {command : ViewCommand} (houtput : command.output = none)
    (hsite : command.site = none) (tree : Tree) : (command.run tree).EndsIn tree
      (.printed ((command.source.load tree).page .plain command.select)) := by
  unfold run runPage
  rw [hsite, houtput]
  exact ⟨rfl, rfl, rfl⟩

section

variable {environment : Environment} {arguments : List String} {input : ByteArray} {tree : Tree}

theorem seen_of_input {command : GenerateCommand} {settings : Settings} {format : Format}
    {ending : Ending} (hasks : AsksPages environment arguments tree command settings format)
    (hsources : command.arguments settings = [])
    (h : (GenerateCommand.runInput format (command.options settings) input tree).EndsIn tree ending) :
    (runProgram environment arguments input tree).tree = tree ∧
      ending.Seen (runProgram environment arguments input tree) := by
  apply seen_of_asks hasks.1
  rw [Command.effect, GenerateCommand.run_of_input hasks.2 hsources]
  exact h

/-- A run that ends early ends as its rule says. -/
theorem EndsEarly.seen {ending : Ending} (h : EndsEarly environment arguments input tree ending) :
    (runProgram environment arguments input tree).tree = tree ∧
      ending.Seen (runProgram environment arguments input tree) := by
  -- Every rule ends before the first write, and says where: `seen_of_run` and its like carry the ending
  -- from there to the whole program.
  cases h with
  | usage harguments =>
    rw [runProgram, harguments]
    exact ⟨rfl, rfl, rfl⟩
  | help harguments =>
    rw [runProgram, harguments]
    exact ⟨rfl, rfl⟩
  | @settings invocation failure harguments hsettings =>
    apply seen_of_run harguments
    rcases hload : Settings.load tree invocation.config with ⟨events, result⟩
    rw [hload] at hsettings
    obtain rfl : result = .error failure := hsettings
    rw [Invocation.run, hload]
    exact ⟨rfl, rfl, rfl⟩
  | format hasks hformat =>
    apply seen_of_asks hasks
    rw [Command.effect, GenerateCommand.run_of_no_format hformat]
    exact ⟨rfl, rfl, rfl⟩
  | output hasks hsources houtput =>
    apply seen_of_asks hasks.1
    rw [Command.effect, GenerateCommand.run_of_files hasks.2 hsources, houtput]
    exact ⟨rfl, rfl, rfl⟩
  | sources hasks houtput hcollect =>
    -- Without arguments there is nothing that could not be collected.
    have hsources := GenerateCommand.ne_nil_of_collectInputs hcollect
    apply seen_of_asks hasks.1
    rw [Command.effect, GenerateCommand.run_of_files hasks.2 hsources, houtput]
    exact GenerateCommand.runFiles_of_error hcollect _
  | inputBytes hasks hsources hdecode =>
    apply seen_of_input hasks hsources
    rw [GenerateCommand.runInput, hdecode]
    exact ⟨rfl, rfl, rfl⟩
  | inputFault hasks hsources hdecode hsource =>
    apply seen_of_input hasks hsources
    rw [GenerateCommand.runInput, hdecode]
    simp only [hsource]
    exact ⟨rfl, rfl, rfl⟩
  | inputPage hasks hsources hdecode hsource =>
    apply seen_of_input hasks hsources
    rw [GenerateCommand.runInput, hdecode]
    simp only [hsource]
    exact ⟨rfl, rfl, rfl⟩
  | view hasks houtput hsite => exact seen_of_asks hasks (ViewCommand.run_printed houtput hsite tree)

/-! ### The list is complete -/

/-- A command that asks for pages ends early or gets as far as its output directory. -/
theorem AsksPages.endsEarly_or_writes {command : GenerateCommand} {settings : Settings}
    {format : Format} (h : AsksPages environment arguments tree command settings format) :
    (∃ ending, EndsEarly environment arguments input tree ending) ∨
      Writes environment arguments tree := by
  by_cases hsources : command.arguments settings = []
  · left
    cases hdecode : Text.decode input with
    | error fault => exact ⟨_, .inputBytes h hsources hdecode⟩
    | ok source =>
      cases hsource : Procedure.ofSource (command.options settings) source with
      | error fault => exact ⟨_, .inputFault h hsources hdecode hsource⟩
      | ok procedure => exact ⟨_, .inputPage h hsources hdecode hsource⟩
  · cases houtput : command.output? settings with
    | none => exact .inl ⟨_, .output h hsources houtput⟩
    | some output =>
      cases hcollect : (collectInputs tree (command.arguments settings)).2 with
      | error failure => exact .inl ⟨_, .sources h houtput hcollect⟩
      | ok sources => exact .inr (.pages h hsources houtput hcollect)

/-- Every run ends early or writes: the rules leave no run out. -/
theorem endsEarly_or_writes (environment : Environment) (arguments : List String) (input : ByteArray)
    (tree : Tree) : (∃ ending, EndsEarly environment arguments input tree ending) ∨
      Writes environment arguments tree := by
  -- The checks in their order; each failure is a rule.
  cases harguments : Invocation.ofArguments environment.config arguments with
  | error refusal =>
    cases refusal with
    | usage => exact .inl ⟨_, .usage harguments⟩
    | help => exact .inl ⟨_, .help harguments⟩
  | ok invocation =>
    obtain ⟨config, verbosity, command⟩ := invocation
    cases hsettings : (Settings.load tree config).2 with
    | error failure => exact .inl ⟨_, .settings harguments hsettings⟩
    | ok settings =>
      have hasks : Asks environment arguments tree command settings :=
        ⟨config, verbosity, harguments, hsettings⟩
      cases command with
      | generate command =>
        cases hformat : command.format? settings with
        | none => exact .inl ⟨_, .format hasks hformat⟩
        | some format => exact AsksPages.endsEarly_or_writes ⟨hasks, hformat⟩
      | view command =>
        cases houtput : command.output with
        | some path => exact .inr (.catalog hasks (.inl (by rw [houtput]; rfl)))
        | none =>
          cases hsite : command.site with
          | some path => exact .inr (.catalog hasks (.inr (by rw [hsite]; rfl)))
          | none => exact .inl ⟨_, .view hasks houtput hsite⟩

end

/-! ### The disk is left alone -/

/-- The page of a catalog that could not be loaded: no record in the sidebar, and the reason beside it. -/
theorem Catalog.page_failed (message : String) (selected : Option String) :
    (Catalog.failed message).page .plain selected =
      Html.opening (selected.getD "Procedures") ++ "<aside>\n<ul>\n</ul>\n</aside>\n" ++ "<main>\n" ++
        ("<p class=\"error\">Failed to load procedures: " ++ Html.escape message ++ "</p>\n") ++
        "</main>\n" ++ Html.closing := by
  have hsidebar : (Catalog.failed message).renderSidebar .plain selected =
      "<aside>\n<ul>\n</ul>\n</aside>\n" := by
    simp only [renderSidebar, records, List.map_nil]
    decide
  have hpanel : renderPanel ((Catalog.failed message).panel selected) =
      "<p class=\"error\">Failed to load procedures: " ++ Html.escape message ++ "</p>\n" := rfl
  rw [page, pageTitle, hsidebar, hpanel]

/-- **A run that ends early leaves the disk alone.**  It ends as `EndsEarly` says of the command line, the
environment, the input and the tree, and afterwards the tree is what it was, so there is no new directory
in it either.  In particular a catalog that cannot be loaded is shown on a page that says so, and that is
a success.  A run that does not end early is past every check and has something to write. -/
theorem runProgram_untouched (environment : Environment) (arguments : List String) (input : ByteArray)
    (tree : Tree) :
    let outcome := runProgram environment arguments input tree
    (∀ ending, EndsEarly environment arguments input tree ending →
      outcome.tree = tree ∧ ending.Seen outcome) ∧
    (∀ command settings failure, Asks environment arguments tree (.view command) settings →
      command.output = none → command.site = none → command.source.read tree = .error failure →
      outcome.tree = tree ∧ outcome.exit = 0 ∧ outcome.output =
        Html.opening (command.select.getD "Procedures") ++ "<aside>\n<ul>\n</ul>\n</aside>\n" ++
          "<main>\n" ++
          ("<p class=\"error\">Failed to load procedures: " ++ Html.escape failure.message ++ "</p>\n") ++
          "</main>\n" ++ Html.closing) ∧
    ((∃ ending, EndsEarly environment arguments input tree ending) ∨
      Writes environment arguments tree) := by
  refine ⟨fun ending h => h.seen, ?_, endsEarly_or_writes environment arguments input tree⟩
  intro command settings failure hasks houtput hsite hread
  have hload : command.source.load tree = .failed failure.message := by
    rw [CatalogSource.load, hread]
  obtain ⟨htree, hexit, hpage⟩ :=
    @EndsEarly.seen environment arguments input tree _ (.view hasks houtput hsite)
  rw [hload, Catalog.page_failed] at hpage
  exact ⟨htree, hexit, hpage⟩

/-- One run of each kind: arguments that do not parse, help, settings that are not there, an unknown
format, no output directory, a wrong pattern, a faulty input and a catalog that does not load. -/
theorem runProgram_untouched_emptySource :
    let tree : Tree := { entries := [(["p.sql"], .file "".toUTF8)] }
    let run arguments := runProgram {} arguments "".toUTF8 tree
    ((run ["generate", "-p"]).tree = tree ∧ (run ["generate", "-p"]).exit = 2) ∧
    ((run ["generate", "-vh"]).tree = tree ∧ (run ["generate", "-vh"]).exit = 0) ∧
    ((run ["generate", "-c", "p.toml"]).tree = tree ∧ (run ["generate", "-c", "p.toml"]).exit = 1) ∧
    ((run ["generate", "-f", "pdf", "-o", "out"]).tree = tree ∧
      (run ["generate", "-f", "pdf", "-o", "out"]).exit = 1) ∧
    ((run ["generate", "p.sql"]).tree = tree ∧ (run ["generate", "p.sql"]).exit = 1) ∧
    ((run ["generate", "-o", "out", "***"]).tree = tree ∧
      (run ["generate", "-o", "out", "***"]).exit = 1) ∧
    ((run ["generate", "-o", "out"]).tree = tree ∧ (run ["generate", "-o", "out"]).exit = 1) ∧
    ((run ["view", "--catalog", "out"]).tree = tree ∧ (run ["view", "--catalog", "out"]).exit = 0) := by
  intro tree run
  have hasks (command : GenerateCommand) (arguments : List String)
      (h : Invocation.ofArguments none arguments = .ok ⟨none, 0, .generate command⟩) :
      Asks {} arguments tree (.generate command) {} := ⟨none, 0, h, by decide +kernel⟩
  refine ⟨?_, ?_, ?_, ?_, ?_, ?_, ?_, ?_⟩
  · have h := (runProgram_untouched {} ["generate", "-p"] "".toUTF8 tree).1 _
      (.usage (by decide +kernel))
    exact ⟨h.1, h.2.1⟩
  · exact (runProgram_untouched {} ["generate", "-vh"] "".toUTF8 tree).1 _ (.help (by decide +kernel))
  · have h := (runProgram_untouched {} ["generate", "-c", "p.toml"] "".toUTF8 tree).1 _
      (@EndsEarly.settings _ _ _ _ ⟨some "p.toml", 0, .generate {}⟩
        ⟨"failed to read config file: p.toml", ["No such file or directory (os error 2)"]⟩
        (by decide +kernel) (by decide +kernel))
    exact ⟨h.1, h.2.1⟩
  · have h := (runProgram_untouched {} ["generate", "-f", "pdf", "-o", "out"] "".toUTF8 tree).1 _
      (.format (hasks { format := some "pdf", output := some "out" } _ (by decide +kernel))
        (by decide +kernel))
    exact ⟨h.1, h.2.1⟩
  · have h := (runProgram_untouched {} ["generate", "p.sql"] "".toUTF8 tree).1 _
      (.output ⟨hasks { files := ["p.sql"] } _ (by decide +kernel), rfl⟩ (by decide +kernel)
        (by decide +kernel))
    exact ⟨h.1, h.2.1⟩
  · have h := (runProgram_untouched {} ["generate", "-o", "out", "***"] "".toUTF8 tree).1 _
      (@EndsEarly.sources _ _ _ _ { files := ["***"], output := some "out" } {} (.markdown "dbadmin") "out"
        ⟨"invalid glob pattern: ***",
          ["Pattern syntax error near position 2: wildcards are either regular `*` or recursive `**`"]⟩
        ⟨hasks _ _ (by decide +kernel), rfl⟩ (by decide +kernel) (by decide +kernel))
    exact ⟨h.1, h.2.1⟩
  · have h := (runProgram_untouched {} ["generate", "-o", "out"] "".toUTF8 tree).1 _
      (@EndsEarly.inputFault _ _ _ _ { output := some "out" } {} (.markdown "dbadmin") ""
        (.missingMarker .procedure)
        ⟨hasks _ _ (by decide +kernel), rfl⟩ (by decide +kernel) (by decide +kernel)
        (by decide +kernel))
    exact ⟨h.1, h.2.1⟩
  · have h := (runProgram_untouched {} ["view", "--catalog", "out"] "".toUTF8 tree).2.1
      { catalog := some "out" } {}
      ⟨"failed to read catalog: out", ["No such file or directory (os error 2)"]⟩
      ⟨none, 0, by decide +kernel, by decide +kernel⟩ rfl rfl (by decide +kernel)
    exact ⟨h.1, h.2.1⟩

end ProcBook
