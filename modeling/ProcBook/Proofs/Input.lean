/-
ProcBook/Proofs/Input.lean

One source, read from the input or from a file.

The two ways have a course of their own: `runInput` decodes, reads and prints, and a run over files does
the same in a step that also follows the policy and writes.  For a text both come down to
`Procedure.ofSource`, in the input by `runInput_of_ok` and `runInput_of_error` and in a file by
`ofBytes_toUTF8`.  So they agree on the page and, if there is none, on the step that failed and on the
causes.

A run over files makes its output directory before it looks at a source.  Where it cannot, the two ways
fail for different reasons.
-/
import ProcBook.Command.Run
import ProcBook.Proofs.Run

namespace ProcBook

/-! ### A source in the input -/

namespace GenerateCommand

variable {format : Format} {options : SourceOptions} {text : String}

/-- A procedure in the input is printed, and the disk is left alone. -/
theorem runInput_of_ok {procedure : Procedure}
    (h : Procedure.ofSource options text = .ok procedure) (tree : Tree) :
    runInput format options text.toUTF8 tree = { tree, output := format.render procedure } := by
  rw [runInput, Text.decode_toUTF8]
  simp only [h]

/-- A fault in the input is the failure, with the step that found it. -/
theorem runInput_of_error {fault : Sql.Fault}
    (h : Procedure.ofSource options text = .error fault) (tree : Tree) :
    runInput format options text.toUTF8 tree =
      { tree, failure := some ⟨"failed to extract stdin (" ++ fault.step ++ ")",
        fault.message :: fault.cause?.toList⟩ } := by
  rw [runInput, Text.decode_toUTF8]
  simp only [h]
  rfl

/-- A page is printed exactly if the source holds a procedure, and it is the page of that procedure. -/
theorem runInput_prints_iff {tree : Tree} {page : String} :
    (runInput format options text.toUTF8 tree).failure = none ∧
        (runInput format options text.toUTF8 tree).output = page ↔
      ∃ procedure, Procedure.ofSource options text = .ok procedure ∧
        format.render procedure = page := by
  cases hsource : Procedure.ofSource options text with
  | error fault =>
    rw [runInput_of_error hsource]
    constructor
    · rintro ⟨hnone, -⟩
      cases hnone
    · rintro ⟨procedure, hprocedure, -⟩
      cases hprocedure
  | ok procedure =>
    rw [runInput_of_ok hsource]
    constructor
    · rintro ⟨-, rfl⟩
      exact ⟨procedure, rfl, rfl⟩
    · rintro ⟨other, hother, rfl⟩
      obtain rfl := Except.ok.inj hother
      exact ⟨rfl, rfl⟩

/-- The failure names its step, and nothing but the fault of the source decides it. -/
theorem ofSource_of_failure {tree : Tree} {step : String} {causes : List String}
    (h : (runInput format options text.toUTF8 tree).failure =
      some ⟨"failed to extract stdin (" ++ step ++ ")", causes⟩) :
    ∃ fault, Procedure.ofSource options text = .error fault ∧ fault.step = step ∧
      fault.message :: fault.cause?.toList = causes := by
  cases hsource : Procedure.ofSource options text with
  | ok procedure =>
    rw [runInput_of_ok hsource] at h
    cases h
  | error fault =>
    rw [runInput_of_error hsource] at h
    obtain ⟨houter, hcauses⟩ := Failure.mk.inj (Option.some.inj h)
    refine ⟨fault, rfl, ?_, hcauses⟩
    have hlist := congrArg String.toList houter
    simp only [String.toList_append] at hlist
    exact String.toList_inj.1 (List.append_cancel_left (List.append_cancel_right hlist))

end GenerateCommand

/-! ### The same source in a file -/

/-- In a file a text gives the same procedure or the same fault as in the input. -/
theorem Procedure.ofBytes_toUTF8 (options : SourceOptions) (text : String) :
    Procedure.ofBytes options text.toUTF8 =
      (Procedure.ofSource options text).mapError fun fault => ⟨fault.step, fault.failure⟩ := by
  rw [Procedure.ofBytes, Text.decode_toUTF8]
  cases hsource : Procedure.ofSource options text with
  | error fault => simp only [hsource]; rfl
  | ok procedure => simp only [hsource]; rfl

variable {plan : Plan} {tree start : Tree} {source : Path}

theorem Progress.steps_singleton (progress : Progress) (source : Path) :
    progress.steps plan [source] = progress.step plan source := by
  rw [Progress.steps]
  rcases progress.step plan source with ⟨next, - | failure⟩
  · rfl
  · rfl

/-- A run over a single source is its one step. -/
theorem generate_singleton (hmake : tree.makeDirectories plan.output = (start, .ok ())) :
    generate plan tree [source] = .ofSteps (({ tree := start } : Progress).step plan source) := by
  rw [generate_eq_ofSteps hmake, Progress.steps_singleton]

/-- A source that holds no procedure ends the run or is passed over, and nothing is written. -/
theorem generate_rejected (hmake : tree.makeDirectories plan.output = (start, .ok ()))
    {bytes : ByteArray} {rejection : Rejection} (hread : tree.read source = .ok bytes)
    (hbytes : Procedure.ofBytes plan.options bytes = .error rejection) :
    (generate plan tree [source]).tree = start ∧
      (generate plan tree [source]).result =
        match plan.policy with
        | .halt => .error (rejection.cause.within
          ("failed to extract " ++ source ++ " (" ++ rejection.step ++ ")"))
        | .skip => .ok ⟨[], [source]⟩ := by
  have hread' : start.read source = .ok bytes := Tree.read_makeDirectories hmake hread
  rw [generate_singleton hmake, Progress.step_of_error hread' hbytes]
  cases plan.policy with
  | skip => exact ⟨rfl, rfl⟩
  | halt => exact ⟨rfl, rfl⟩

/-- A page that can be written is written. -/
theorem Progress.exists_document (progress : Progress) (source : Path) {procedure : Procedure}
    {later : Tree} (hwrite : progress.tree.writeText (plan.page procedure.name)
      (plan.format.render procedure) = .ok later) :
    ∃ next, progress.document plan source procedure = (next, none) := by
  obtain ⟨htree, -⟩ := progress.claim_fields procedure.name source
  rw [← htree, Plan.page] at hwrite
  rw [Progress.document]
  simp only [hwrite]
  exact ⟨_, rfl⟩

/-- The first step of a run, where the source holds a procedure: its page is all that is written. -/
theorem Progress.write_of_step {bytes : ByteArray} {procedure : Procedure} {next : Progress}
    (hread : start.read source = .ok bytes)
    (hbytes : Procedure.ofBytes plan.options bytes = .ok procedure)
    (hstep : ({ tree := start } : Progress).step plan source = (next, none)) :
    start.writeText (plan.page procedure.name) (plan.format.render procedure) = .ok next.tree ∧
      next.summary = ⟨[plan.page procedure.name], []⟩ := by
  cases Progress.treats_of_step hstep with
  | passed hread' hbytes' =>
    obtain rfl := Except.ok.inj (hread.symm.trans hread')
    cases hbytes.symm.trans hbytes'
  | documented hread' hbytes' hwrite hwritten hskipped =>
    obtain rfl := Except.ok.inj (hread.symm.trans hread')
    obtain rfl := Except.ok.inj (hbytes.symm.trans hbytes')
    refine ⟨hwrite, ?_⟩
    rw [Progress.summary, hwritten, hskipped]
    rfl

/-- Where its page can be written, a source that holds a procedure is documented. -/
theorem generate_eq_ok_of_write (hmake : tree.makeDirectories plan.output = (start, .ok ()))
    {bytes : ByteArray} {procedure : Procedure} (hread : tree.read source = .ok bytes)
    (hbytes : Procedure.ofBytes plan.options bytes = .ok procedure) {later : Tree}
    (hwrite : start.writeText (plan.page procedure.name) (plan.format.render procedure) = .ok later) :
    (generate plan tree [source]).result = .ok ⟨[plan.page procedure.name], []⟩ := by
  have hread' : start.read source = .ok bytes := Tree.read_makeDirectories hmake hread
  obtain ⟨next, hnext⟩ := Progress.exists_document { tree := start } source hwrite
  have hstep : ({ tree := start } : Progress).step plan source = (next, none) :=
    (Progress.step_of_ok hread' hbytes).trans hnext
  rw [generate_singleton hmake, hstep, ← (Progress.write_of_step hread' hbytes hstep).2]
  rfl

/-- A run over a single source that holds a procedure succeeds only by writing its page. -/
theorem write_of_generate_eq_ok {bytes : ByteArray} {procedure : Procedure}
    (hread : tree.read source = .ok bytes)
    (hbytes : Procedure.ofBytes plan.options bytes = .ok procedure) {summary : Summary}
    (hresult : (generate plan tree [source]).result = .ok summary) :
    summary = ⟨[plan.page procedure.name], []⟩ ∧
      (generate plan tree [source]).tree.read (plan.page procedure.name) =
        .ok (plan.format.render procedure).toUTF8 := by
  obtain ⟨start, last, hmake, hsteps, rfl⟩ := generate_eq_ok hresult
  have hread' : start.read source = .ok bytes := Tree.read_makeDirectories hmake hread
  rw [Progress.steps_singleton] at hsteps
  obtain ⟨hwrite, hsummary⟩ := Progress.write_of_step hread' hbytes hsteps
  rw [generate_singleton hmake, hsteps]
  exact ⟨hsummary, Tree.read_write_self hwrite⟩

/-! ### The two compared -/

/-- **The input and a file are treated alike.**  A page is printed exactly if the source holds a
procedure.  A run over a file with the same source then writes what is printed, if it can write at all,
and skips nothing.  If the source holds no procedure, printing fails at a step of the source and for
causes that the run has in common: with the same step and the same causes it ends where it halts at bad
sources, and otherwise passes over the file, provided that its output directory is there or can be
made. -/
theorem generate_agrees_runInput (format : Format) (options : SourceOptions) (text : String)
    (tree : Tree) (source output : Path) (hread : tree.read source = .ok text.toUTF8) :
    let printed := GenerateCommand.runInput format options text.toUTF8 tree
    let run policy := generate ⟨output, format, options, policy⟩ tree [source]
    (∀ page, printed.failure = none ∧ printed.output = page ↔
      ∃ procedure, Procedure.ofSource options text = .ok procedure ∧
        format.render procedure = page) ∧
    (∀ procedure, Procedure.ofSource options text = .ok procedure → ∀ policy,
      let page := output.join (procedure.name ++ "." ++ format.extension)
      (∀ start later, tree.makeDirectories output = (start, .ok ()) →
        start.writeText page printed.output = .ok later →
          (run policy).result = .ok ⟨[page], []⟩) ∧
      ∀ summary, (run policy).result = .ok summary →
        summary = ⟨[page], []⟩ ∧ (run policy).tree.read page = .ok printed.output.toUTF8) ∧
    (∀ fault, Procedure.ofSource options text = .error fault → printed.failure =
      some ⟨"failed to extract stdin (" ++ fault.step ++ ")", fault.message :: fault.cause?.toList⟩) ∧
    ∀ step causes, printed.failure = some ⟨"failed to extract stdin (" ++ step ++ ")", causes⟩ →
      ∀ start, (tree.isDirectory output = true ∧ start = tree ∨
          tree.makeDirectories output = (start, .ok ())) →
        (run .halt).result =
          .error ⟨"failed to extract " ++ source ++ " (" ++ step ++ ")", causes⟩ ∧
        (run .skip).result = .ok ⟨[], [source]⟩ ∧
        (run .halt).tree = start ∧ (run .skip).tree = start := by
  intro printed run
  refine ⟨fun page => GenerateCommand.runInput_prints_iff, ?_, ?_, ?_⟩
  · intro procedure hsource policy page
    -- A source with a procedure: the page of the run has the text that is printed.
    let plan : Plan := ⟨output, format, options, policy⟩
    have hpage : page = plan.page procedure.name := rfl
    have hbytes : Procedure.ofBytes options text.toUTF8 = .ok procedure := by
      rw [Procedure.ofBytes_toUTF8, hsource]
      rfl
    have hprinted : printed.output = format.render procedure := by
      show (GenerateCommand.runInput format options text.toUTF8 tree).output = _
      rw [GenerateCommand.runInput_of_ok hsource]
    rw [hprinted, hpage]
    refine ⟨?_, ?_⟩
    · intro start later hmake hwrite
      exact @generate_eq_ok_of_write plan tree start source hmake _ _ hread hbytes later hwrite
    · intro summary hresult
      exact @write_of_generate_eq_ok plan tree source _ _ hread hbytes summary hresult
  · intro fault hsource
    show (GenerateCommand.runInput format options text.toUTF8 tree).failure = _
    rw [GenerateCommand.runInput_of_error hsource]
  · intro step causes hfailure start hstart
    -- A source without one: the run has an output directory, so it gets as far as the source.
    have hmake : tree.makeDirectories output = (start, .ok ()) := by
      rcases hstart with ⟨hdirectory, rfl⟩ | hmake
      · exact Tree.makeDirectories_of_isDirectory hdirectory
      · exact hmake
    obtain ⟨fault, hsource, rfl, rfl⟩ := GenerateCommand.ofSource_of_failure hfailure
    have hbytes : Procedure.ofBytes options text.toUTF8 =
        .error ⟨fault.step, fault.failure⟩ := by
      rw [Procedure.ofBytes_toUTF8, hsource]
      rfl
    obtain ⟨hhalt, herror⟩ :=
      @generate_rejected ⟨output, format, options, .halt⟩ tree start source hmake _ _ hread hbytes
    obtain ⟨hskip, hok⟩ :=
      @generate_rejected ⟨output, format, options, .skip⟩ tree start source hmake _ _ hread hbytes
    exact ⟨herror, hok, hhalt, hskip⟩

theorem generate_agrees_runInput_sampleTree :
    let options := samplePlan.options
    let printed := GenerateCommand.runInput .json options
      "procedure p as @ start docs [\"\", []] end docs".toUTF8 sampleTree
    printed.failure = none ∧
    (generate ⟨"out", .json, options, .skip⟩ sampleTree ["a"]).tree.read "out/p.json" =
      .ok printed.output.toUTF8 ∧
    (GenerateCommand.runInput .json options "".toUTF8 sampleTree).failure =
      some ⟨"failed to extract stdin (name)", ["missing marker: PROCEDURE"]⟩ ∧
    (generate ⟨"out", .json, options, .halt⟩ sampleTree ["b"]).result =
      .error ⟨"failed to extract b (name)", ["missing marker: PROCEDURE"]⟩ ∧
    (generate ⟨"out", .json, options, .skip⟩ sampleTree ["b"]).result = .ok ⟨[], ["b"]⟩ := by
  intro options printed
  have hsource : Procedure.ofSource options "procedure p as @ start docs [\"\", []] end docs" =
      .ok {
        name := "p"
        body := "procedure p as @ start docs [\"\", []] end docs"
        references := ["\"\", ["] } := by
    decide +kernel
  have hresult : (generate ⟨"out", .json, options, .skip⟩ sampleTree ["a"]).result =
      .ok ⟨["out/p.json"], []⟩ := by decide +kernel
  have hmake : sampleTree.makeDirectories "out" = ((sampleTree.makeDirectories "out").1, .ok ()) :=
    Prod.ext rfl (by decide +kernel)
  obtain ⟨hprinted, hdocumented, -, -⟩ := generate_agrees_runInput .json options
    "procedure p as @ start docs [\"\", []] end docs" sampleTree "a" "out" (by decide +kernel)
  obtain ⟨-, -, hfault, hrejected⟩ := generate_agrees_runInput .json options "" sampleTree "b" "out"
    (by decide +kernel)
  have hfailure := hfault (.missingMarker .procedure) (by decide +kernel)
  obtain ⟨hhalt, hskip, -, -⟩ := hrejected _ _ hfailure _ (.inr hmake)
  exact ⟨((hprinted _).2 ⟨_, hsource, rfl⟩).1, ((hdocumented _ hsource .skip).2 _ hresult).2,
    hfailure, hhalt, hskip⟩

/-- Where a file stands in place of the output directory, the run never comes to the source. -/
theorem generate_without_directory :
    let tree : Tree := { entries := [(["b"], .file "".toUTF8), (["out"], .file "".toUTF8)] }
    let result := (generate ⟨"out", .json, {}, .halt⟩ tree ["b"]).result
    tree.read "b" = .ok "".toUTF8 ∧
    (GenerateCommand.runInput .json {} "".toUTF8 tree).failure =
      some ⟨"failed to extract stdin (name)", ["missing marker: PROCEDURE"]⟩ ∧
    result ≠ .error ⟨"failed to extract b (name)", ["missing marker: PROCEDURE"]⟩ ∧
    result = .error ⟨"failed to create output directory: out", ["File exists (os error 17)"]⟩ := by
  refine ⟨by decide +kernel, by decide +kernel, by decide +kernel, by decide +kernel⟩

end ProcBook
