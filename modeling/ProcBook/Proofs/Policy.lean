/-
ProcBook/Proofs/Policy.lean

The two policies of a run compared.  As long as no source is rejected the policy makes no difference,
step by step (`step_eq_step`) and so for any number of sources (`steps_eq_steps`).  At the first rejected
source the run that halts stops where the other one goes on, so it has done exactly what the other one
does on the sources before.

Whether a source is rejected is said of the tree that the run has come to, since an earlier page may
have been written over a later source.
-/
import ProcBook.Proofs.Run

namespace ProcBook

/-- Some bytes are no source: they are no text, or the text holds no procedure.  The step is the one
that fails. -/
inductive Rejects (options : SourceOptions) (bytes : ByteArray) : String → Prop
  | read {fault : Text.DecodeFault} : Text.decode bytes = .error fault →
      Rejects options bytes "read"
  | extract {text : String} {fault : Sql.Fault} : Text.decode bytes = .ok text →
      Procedure.ofSource options text = .error fault → Rejects options bytes fault.step

/-- A source is rejected exactly if reading it gives a rejection, and the step is that of its fault. -/
theorem rejects_iff {options : SourceOptions} {bytes : ByteArray} {step : String} :
    Rejects options bytes step ↔
      ∃ cause, Procedure.ofBytes options bytes = .error ⟨step, cause⟩ := by
  constructor
  · rintro (@⟨fault, hdecode⟩ | @⟨text, fault, hdecode, hsource⟩)
    · exact ⟨_, by rw [Procedure.ofBytes, hdecode]⟩
    · exact ⟨fault.failure, by rw [Procedure.ofBytes, hdecode]; simp only [hsource]⟩
  · rintro ⟨cause, h⟩
    unfold Procedure.ofBytes at h
    split at h
    · next fault hdecode =>
      obtain ⟨rfl, -⟩ := Rejection.mk.inj (Except.error.inj h)
      exact .read hdecode
    · next text hdecode =>
      split at h
      · next fault hsource =>
        obtain ⟨rfl, -⟩ := Rejection.mk.inj (Except.error.inj h)
        exact .extract hdecode hsource
      · cases h

/-- The plan under another policy. -/
def Plan.under (plan : Plan) (policy : Policy) : Plan := { plan with policy }

/-- A run that passes over bad sources comes to the source at `k` without a failure and rejects it. -/
def Plan.RejectsAt (plan : Plan) (tree : Tree) (sources : List Path) (k : Nat) (source : Path)
    (step : String) : Prop :=
  let before := generate (plan.under .skip) tree (sources.take k)
  sources[k]? = some source ∧ (∃ summary, before.result = .ok summary) ∧
    ∃ bytes, before.tree.read source = .ok bytes ∧ Rejects plan.options bytes step

namespace Progress

variable {plan : Plan}

/-! ### One step -/

/-- The policy decides nothing about a source that is not rejected. -/
theorem step_eq_step {progress : Progress} {source : Path}
    (h : ∀ bytes step, progress.tree.read source = .ok bytes →
      ¬ Rejects plan.options bytes step) (policy policy' : Policy) :
    progress.step (plan.under policy) source = progress.step (plan.under policy') source := by
  cases hread : progress.tree.read source with
  | error error => rw [Progress.step, Progress.step, hread]
  | ok bytes =>
    cases hbytes : Procedure.ofBytes plan.options bytes with
    | error rejection => exact absurd (rejects_iff.2 ⟨rejection.cause, hbytes⟩) (h bytes _ hread)
    | ok procedure =>
      have hdocument : ∀ policy, progress.step (plan.under policy) source =
          progress.document plan source procedure := by
        intro policy
        rw [step_of_ok hread (show Procedure.ofBytes (plan.under policy).options bytes = _ from hbytes)]
        rfl
      rw [hdocument, hdocument]

/-- A rejected source stops a run that halts before anything is changed. -/
theorem step_halt {progress : Progress} {source : Path} {bytes : ByteArray} {step : String}
    (hread : progress.tree.read source = .ok bytes) (h : Rejects plan.options bytes step) :
    ∃ failure, failure.outer = "failed to extract " ++ source ++ " (" ++ step ++ ")" ∧
      progress.step (plan.under .halt) source = (progress, some failure) := by
  obtain ⟨cause, hbytes⟩ := rejects_iff.1 h
  refine ⟨cause.within ("failed to extract " ++ source ++ " (" ++ step ++ ")"), rfl, ?_⟩
  rw [step_of_error hread (show Procedure.ofBytes (plan.under .halt).options bytes = _ from hbytes)]
  rfl

/-! ### Many steps -/

/-- The steps of a run go on where those on the sources before have ended, unless these failed. -/
theorem steps_append (progress : Progress) (front back : List Path) :
    progress.steps plan (front ++ back) =
      match progress.steps plan front with
      | (middle, some failure) => (middle, some failure)
      | (middle, none) => middle.steps plan back := by
  induction front generalizing progress with
  | nil => rfl
  | cons source front ih =>
    rw [List.cons_append, steps, steps]
    rcases progress.step plan source with ⟨next, - | failure⟩
    · exact ih next
    · rfl

/-- The policy makes no difference as long as no source is rejected in its turn. -/
theorem steps_eq_steps {progress : Progress} {sources : List Path}
    (h : ∀ k source middle, sources[k]? = some source →
      progress.steps (plan.under .skip) (sources.take k) = (middle, none) →
      ∀ bytes step, middle.tree.read source = .ok bytes → ¬ Rejects plan.options bytes step) :
    progress.steps (plan.under .halt) sources = progress.steps (plan.under .skip) sources := by
  induction sources generalizing progress with
  | nil => rfl
  | cons source sources ih =>
    have hstep := step_eq_step (h 0 source progress rfl rfl) .halt .skip
    rw [steps, steps, hstep]
    rcases hnext : progress.step (plan.under .skip) source with ⟨next, - | failure⟩
    · -- The later sources are treated from where the first one has led.
      apply ih
      intro k later middle hlater hsteps
      apply h (k + 1) later middle hlater
      rw [List.take_succ_cons]
      exact steps_cons_eq_none.2 ⟨next, hnext, hsteps⟩
    · rfl

end Progress

/-! ### Whole runs -/

variable {plan : Plan} {tree start : Tree} {sources : List Path}

theorem generate_under (hmake : tree.makeDirectories plan.output = (start, .ok ()))
    (policy : Policy) (sources : List Path) :
    generate (plan.under policy) tree sources =
      .ofSteps (({ tree := start } : Progress).steps (plan.under policy) sources) := by
  have hmake' : tree.makeDirectories (plan.under policy).output = (start, .ok ()) := hmake
  exact generate_eq_ofSteps hmake' sources

/-- A source is rejected in its turn: the steps on those before it lead to a tree where it is read and
rejected. -/
theorem rejectsAt_iff (hmake : tree.makeDirectories plan.output = (start, .ok ())) {k : Nat}
    {source : Path} {step : String} :
    plan.RejectsAt tree sources k source step ↔ sources[k]? = some source ∧
      ∃ middle, ({ tree := start } : Progress).steps (plan.under .skip) (sources.take k) =
          (middle, none) ∧
        ∃ bytes, middle.tree.read source = .ok bytes ∧ Rejects plan.options bytes step := by
  rw [Plan.RejectsAt, generate_under hmake]
  rcases ({ tree := start } : Progress).steps (plan.under .skip) (sources.take k) with
    ⟨middle, - | failure⟩
  · simp [RunOutcome.ofSteps]
  · simp [RunOutcome.ofSteps]

/-- A run that halts at its first rejected source has come as far as the run that passes over bad
sources comes on those before. -/
theorem steps_halt (hmake : tree.makeDirectories plan.output = (start, .ok ())) {k : Nat}
    {source : Path} {step : String} (h : plan.RejectsAt tree sources k source step)
    (hfirst : ∀ j < k, ∀ source step, ¬ plan.RejectsAt tree sources j source step) :
    ∃ middle failure, failure.outer = "failed to extract " ++ source ++ " (" ++ step ++ ")" ∧
      ({ tree := start } : Progress).steps (plan.under .skip) (sources.take k) = (middle, none) ∧
      ∀ later, ({ tree := start } : Progress).steps (plan.under .halt)
        (sources.take k ++ source :: later) = (middle, some failure) := by
  obtain ⟨hsource, middle, hmiddle, bytes, hread, hrejects⟩ := (rejectsAt_iff hmake).1 h
  obtain ⟨failure, houter, hstep⟩ := Progress.step_halt hread hrejects
  -- No source before the rejected one is rejected, so up to there the policies agree.
  have hsame : ({ tree := start } : Progress).steps (plan.under .halt) (sources.take k) =
      ({ tree := start } : Progress).steps (plan.under .skip) (sources.take k) := by
    apply Progress.steps_eq_steps
    intro j other before hother hbefore bytes step hread hrejects
    have hlt : j < k := by
      have := (List.getElem?_eq_some_iff.1 hother).1
      rw [List.length_take] at this
      omega
    rw [List.getElem?_take_of_lt hlt] at hother
    rw [List.take_take, Nat.min_eq_left (Nat.le_of_lt hlt)] at hbefore
    exact hfirst j hlt other step
      ((rejectsAt_iff hmake).2 ⟨hother, before, hbefore, bytes, hread, hrejects⟩)
  refine ⟨middle, failure, houter, hmiddle, ?_⟩
  intro later
  rw [Progress.steps_append, hsame, hmiddle]
  -- Both runs have come to `middle`, where the rejected source ends the one that halts.
  show middle.steps (plan.under .halt) (source :: later) = _
  rw [Progress.steps, hstep]

/-- **Halting is passing over, cut at the first rejected source.**  Without a rejected source the two
policies give the same outcome.  Otherwise the run that halts fails with the name of that source and
the step that failed, leaves the tree that passing over leaves on the sources before it, and never
sees those after it. -/
theorem generate_halt_cut (plan : Plan) (tree : Tree) (sources : List Path) :
    ((∀ k source step, ¬ plan.RejectsAt tree sources k source step) →
      generate (plan.under .halt) tree sources = generate (plan.under .skip) tree sources) ∧
    ∀ k source step, plan.RejectsAt tree sources k source step →
      (∀ j < k, ∀ source step, ¬ plan.RejectsAt tree sources j source step) →
      (∃ failure, (generate (plan.under .halt) tree sources).result = .error failure ∧
        failure.outer = "failed to extract " ++ source ++ " (" ++ step ++ ")") ∧
      (generate (plan.under .halt) tree sources).tree =
        (generate (plan.under .skip) tree (sources.take k)).tree ∧
      ∀ later, generate (plan.under .halt) tree (sources.take (k + 1) ++ later) =
        generate (plan.under .halt) tree sources := by
  rcases hmake : tree.makeDirectories plan.output with ⟨start, error | ⟨⟩⟩
  · -- Without an output directory no source is ever looked at.
    have hfailed : ∀ policy sources, generate (plan.under policy) tree sources =
        ⟨start, [], .error ⟨"failed to create output directory: " ++ plan.output,
          [error.message]⟩⟩ := by
      intro policy sources
      rw [generate, show tree.makeDirectories (plan.under policy).output = _ from hmake]
      rfl
    refine ⟨fun _ => by rw [hfailed, hfailed], ?_⟩
    rintro k source step ⟨-, ⟨summary, hok⟩, -⟩
    rw [hfailed] at hok
    cases hok
  · have hrun := generate_under hmake
    constructor
    · intro hnone
      rw [hrun, hrun, Progress.steps_eq_steps]
      intro k source middle hsource hmiddle bytes step hread hrejects
      exact hnone k source step
        ((rejectsAt_iff hmake).2 ⟨hsource, middle, hmiddle, bytes, hread, hrejects⟩)
    · intro k source step hrejects hfirst
      have hsource := ((rejectsAt_iff hmake).1 hrejects).1
      -- Cut the run at its first rejected source.
      have hsplit : sources = sources.take k ++ source :: sources.drop (k + 1) := by
        obtain ⟨hlt, hget⟩ := List.getElem?_eq_some_iff.1 hsource
        rw [← hget, List.getElem_cons_drop, List.take_append_drop]
      have hnext : sources.take (k + 1) = sources.take k ++ [source] := by
        rw [List.take_add_one, hsource]
        rfl
      obtain ⟨middle, failure, houter, hmiddle, hhalt⟩ := steps_halt hmake hrejects hfirst
      -- The sources behind the rejected one may be any, those of the run among them.
      have hall := hhalt (sources.drop (k + 1))
      rw [← hsplit] at hall
      rw [hrun, hrun, hall, hmiddle]
      refine ⟨⟨failure, rfl, houter⟩, rfl, ?_⟩
      intro later
      rw [hrun, hnext, List.append_assoc, List.singleton_append, hhalt]

theorem not_rejectsAt_sampleTree (sources : List Path) (source : Path) (step : String) :
    ¬ samplePlan.RejectsAt sampleTree ("a" :: sources) 0 source step := by
  rintro ⟨hsource, -, bytes, hread, hrejects⟩
  obtain rfl := Option.some.inj hsource
  -- The first source is what it was, and it holds a procedure.
  have hbytes : (generate (samplePlan.under .skip) sampleTree []).tree.read "a" =
      .ok "procedure p as @ start docs [\"\", []] end docs".toUTF8 := by decide +kernel
  obtain rfl := Except.ok.inj (hbytes.symm.trans hread)
  obtain ⟨cause, herror⟩ := rejects_iff.1 hrejects
  have hok : (Procedure.ofBytes samplePlan.options
      "procedure p as @ start docs [\"\", []] end docs".toUTF8).toOption.isSome = true := by
    decide +kernel
  rw [herror] at hok
  cases hok

theorem rejectsAt_sampleTree :
    samplePlan.RejectsAt sampleTree ["a", "b", "a"] 1 "b" "name" := by
  refine ⟨rfl, ⟨⟨["out/p.json"], []⟩, by decide +kernel⟩, "".toUTF8, by decide +kernel, ?_⟩
  exact rejects_iff.2 ⟨⟨"missing marker: PROCEDURE", []⟩, by decide +kernel⟩

theorem generate_halt_cut_sampleTree :
    generate (samplePlan.under .halt) sampleTree ["a"] =
      generate (samplePlan.under .skip) sampleTree ["a"] ∧
    (∃ failure, (generate (samplePlan.under .halt) sampleTree ["a", "b", "a"]).result =
      .error failure ∧ failure.outer = "failed to extract b (name)") ∧
    (generate (samplePlan.under .halt) sampleTree ["a", "b", "a"]).tree =
      (generate (samplePlan.under .skip) sampleTree ["a"]).tree := by
  constructor
  · apply (generate_halt_cut samplePlan sampleTree ["a"]).1
    intro k source step hrejects
    cases k with
    | zero => exact not_rejectsAt_sampleTree [] source step hrejects
    | succ k => cases hrejects.1
  · have hfirst : ∀ j < 1, ∀ source step,
        ¬ samplePlan.RejectsAt sampleTree ["a", "b", "a"] j source step := by
      intro j hj source step
      obtain rfl : j = 0 := by omega
      exact not_rejectsAt_sampleTree _ source step
    obtain ⟨hresult, htree, -⟩ := (generate_halt_cut samplePlan sampleTree ["a", "b", "a"]).2 1
      "b" "name" rejectsAt_sampleTree hfirst
    exact ⟨hresult, htree⟩

end ProcBook
