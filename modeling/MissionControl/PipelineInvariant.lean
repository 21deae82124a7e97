import MissionControl.PipelineSpawns

/-!
# Pipeline runs, one request after the other

When every request on the runs is finished before the next one begins, a
request that resumes finds its run as it has left it, and the three columns
of a row agree: `currentStep` says how far `stepsSnapshot` has come, and
`status` whether and how it has ended. `pipelineRun_invariant` is this
invariant for the pipelines that can be created.

An advance leaves the row between two of its statements, waits for the gateway, and writes
the rest when it comes back. The invariant therefore also speaks of the call that waits
(`SpawnWait.Fits`): the steps that it holds are those of the row, and its step is the one
that the row is at, or the next. That every step of a created pipeline says what its failure
does serves the last part, that a run has failed exactly where its current step stops it.
-/

namespace MissionControl

/-! ## Pipelines that can be created -/

/-- **`createPipelineSchema`**: the pipeline that is stored. A step stops its
run on failure unless it says otherwise. -/
def createPipelineSchema (name : String) (steps : List PipelineStep) :
    Option Pipeline :=
  if name = "" then none
  else if steps.length < 2 then none
  else some ⟨name, steps.map fun step =>
    { step with onFailure := some (step.onFailure.getD .stop) }⟩

theorem createPipelineSchema_onFailure {name : String} {steps : List PipelineStep}
    {pipeline : Pipeline} (h : createPipelineSchema name steps = some pipeline) :
    ∀ step ∈ pipeline.steps, step.onFailure ≠ none := by
  unfold createPipelineSchema at h
  split at h
  · exact absurd h (by simp)
  split at h
  · exact absurd h (by simp)
  · obtain rfl := Option.some.inj h
    intro step hstep
    obtain ⟨old, -, rfl⟩ := List.mem_map.mp hstep
    exact Option.some_ne_none _

/-- A start finds a pipeline that was created, if it finds one. -/
def StartsCreated (_ : PipelineState) (a : PipelineAction) : Prop :=
  ∀ call w pipelineId triggeredBy now pipeline,
    a = .start call w pipelineId triggeredBy now →
    w.pipeline pipelineId = some pipeline →
    ∃ name steps, createPipelineSchema name steps = some pipeline

/-! ## One request at a time -/

/-- A request, and not the end of one. -/
def PipelineAction.IsRequest : PipelineAction → Prop
  | .spawned _ _ _ => False
  | _ => True

/-- **A request begins when no other one is under way.** -/
def OneAtATime (s : PipelineState) (a : PipelineAction) : Prop :=
  a.IsRequest → ∀ call, s.waits call = none

/-! ## What a snapshot keeps -/

/-- What stays of a step: its index, its template and what its failure does. -/
def RunStepState.shape (step : RunStepState) : ℕ × ℕ × Option OnFailure :=
  (step.stepIndex, step.templateId, step.onFailure)

def shape (steps : List RunStepState) : List (ℕ × ℕ × Option OnFailure) :=
  steps.map RunStepState.shape

/-- What a snapshot of these steps has to show. -/
def stepsShape (steps : List PipelineStep) : List (ℕ × ℕ × Option OnFailure) :=
  steps.mapIdx fun i step => (i, step.templateId, step.onFailure)

theorem shape_startSnapshot (w : Workflows) (steps : List PipelineStep) (now : ℕ) :
    shape (startSnapshot w steps now) = stepsShape steps := by
  unfold shape startSnapshot stepsShape
  refine List.ext_getElem? fun i => ?_
  rw [List.getElem?_map, List.getElem?_mapIdx, List.getElem?_mapIdx, Option.map_map]
  rfl

/-- A change to a step that keeps its shape keeps the shape of the snapshot. -/
theorem shape_modify {steps : List RunStepState} (i : ℕ)
    {f : RunStepState → RunStepState} (hf : ∀ step, (f step).shape = step.shape) :
    shape (steps.modify i f) = shape steps := by
  unfold shape
  refine List.ext_getElem? fun j => ?_
  rw [List.getElem?_map, List.getElem?_map, List.getElem?_modify]
  cases steps[j]? with
  | none => rfl
  | some step =>
    show some (RunStepState.shape (if i = j then f step else step)) = some step.shape
    split
    · rw [hf]
    · rfl

section

variable (run : PipelineRun) (success : Bool) (errorMsg : Option String) (now : ℕ)

theorem shape_markedSteps :
    shape (run.markedSteps success errorMsg now) = shape run.stepsSnapshot :=
  shape_modify _ fun _ => rfl

theorem shape_nextSteps :
    shape (run.nextSteps success errorMsg now) = shape run.stepsSnapshot :=
  (shape_modify _ (f := .begin now) fun _ => rfl).trans
    (shape_markedSteps run success errorMsg now)

theorem shape_stoppedSteps :
    shape (run.stoppedSteps success errorMsg now) = shape run.stepsSnapshot := by
  rw [← shape_markedSteps run success errorMsg now]
  unfold PipelineRun.stoppedSteps shape
  refine List.ext_getElem? fun j => ?_
  rw [List.getElem?_map, List.getElem?_map, List.getElem?_mapIdx]
  cases (run.markedSteps success errorMsg now)[j]? with
  | none => rfl
  | some step =>
    show some (RunStepState.shape (if run.currentStep + 1 ≤ j then step.skip else step))
      = some step.shape
    split <;> rfl

theorem shape_cancel (steps : List RunStepState) :
    shape (steps.map (.cancel now)) = shape steps := by
  unfold shape
  rw [List.map_map]
  refine List.map_congr_left fun step _ => ?_
  show (step.cancel now).shape = step.shape
  unfold RunStepState.cancel
  split <;> rfl

theorem shape_spawnedSteps (wait : SpawnWait) (result : SpawnResult) :
    shape (wait.spawnedSteps result now) = shape wait.steps :=
  shape_modify _ fun _ => by cases result <;> rfl

end

theorem onFailure_of_shape {steps steps' : List RunStepState}
    (h : shape steps = shape steps') {i : ℕ} {step : RunStepState}
    (hstep : steps[i]? = some step) :
    ∃ step', steps'[i]? = some step' ∧ step'.onFailure = step.onFailure := by
  have hi : (shape steps)[i]? = some step.shape := by
    unfold shape
    rw [List.getElem?_map, hstep]
    rfl
  unfold shape at hi h
  rw [h, List.getElem?_map, Option.map_eq_some_iff] at hi
  obtain ⟨step', hstep', heq⟩ := hi
  exact ⟨step', hstep', congrArg (fun p => p.2.2) heq⟩

/-! ## The invariant -/

/-- **The current step was advanced with failure**, and its failure stops the
run. -/
def PipelineRun.StoppedBy (es : List PipelineEvent) (id : ℕ) (run : PipelineRun) :
    Prop :=
  .marked id run.currentStep false ∈ es
    ∧ ∃ current, run.stepsSnapshot[run.currentStep]? = some current
      ∧ current.onFailure.getD .stop = .stop

/-- **A call waits for the run as it has left it.** -/
structure SpawnWait.Fits (s : PipelineState) (wait : SpawnWait) : Prop where
  at_step : StepsAt wait.steps wait.stepIdx
  run : ∃ run, s.runs.row wait.runId = some run ∧ run.status = .running
    ∧ shape wait.steps = shape run.stepsSnapshot
    ∧ (wait.caller = .start → wait.stepIdx = run.currentStep)
    ∧ (wait.caller = .advance → wait.stepIdx = run.currentStep + 1)

/-- **What holds between requests that do not overlap**, and while the one
that is under way waits. -/
structure RunsServed (es : List PipelineEvent) (s : PipelineState) : Prop where
  sound : ∀ {id : ℕ} {run : PipelineRun}, s.runs.row id = some run → run.Sound
  known : ∀ {id : ℕ} {run : PipelineRun}, s.runs.row id = some run →
    ∃ steps, .started id steps ∈ es
  started : ∀ {id : ℕ} {steps : List PipelineStep}, .started id steps ∈ es →
    (∀ step ∈ steps, step.onFailure ≠ none)
    ∧ ∃ run, s.runs.row id = some run ∧ shape run.stepsSnapshot = stepsShape steps
  marked : ∀ {id i : ℕ} {success : Bool}, .marked id i success ∈ es →
    ∃ run, s.runs.row id = some run ∧ i ≤ run.currentStep
  failed_iff : ∀ {id : ℕ} {run : PipelineRun}, s.runs.row id = some run →
    (run.status = .failed ↔ run.StoppedBy es id)
  fits : ∀ {call : ℕ} {wait : SpawnWait}, s.waits call = some wait → wait.Fits s
  alone : ∀ {call call' : ℕ} {wait wait' : SpawnWait}, s.waits call = some wait →
    s.waits call' = some wait' → call = call'

theorem runsServed_initial : RunsServed [] .initial where
  sound h := nomatch h
  known h := nomatch h
  started h := absurd h List.not_mem_nil
  marked h := absurd h List.not_mem_nil
  failed_iff h := nomatch h
  fits h := nomatch h
  alone h := nomatch h

section

variable {es new : List PipelineEvent} {s s' : PipelineState}

/-- **A row is rewritten**, and no call waits any more. -/
theorem RunsServed.rewritten (h : RunsServed es s) {runId : ℕ}
    {run run' : PipelineRun} (hrun : s.runs.row runId = some run)
    (hrow : ∀ id, s'.runs.row id = if id = runId then some run' else s.runs.row id)
    (hwaits : ∀ call, s'.waits call = none) (hsound : run'.Sound)
    (hshape : shape run'.stepsSnapshot = shape run.stepsSnapshot)
    (hcurrent : run.currentStep ≤ run'.currentStep)
    (hstarted : ∀ id steps, .started id steps ∉ new)
    (hmarked : ∀ id i success, .marked id i success ∈ new →
      id = runId ∧ i ≤ run'.currentStep)
    (hfailed : run'.status = .failed ↔ run'.StoppedBy (es ++ new) runId) :
    RunsServed (es ++ new) s' where
  sound {id r} hr := by
    rw [hrow] at hr
    split at hr
    · rw [← Option.some.inj hr]
      exact hsound
    · exact h.sound hr
  known {id r} hr := by
    rw [hrow] at hr
    split at hr
    · next hid =>
      obtain ⟨steps, hsteps⟩ := h.known hrun
      exact ⟨steps, List.mem_append_left new (hid ▸ hsteps)⟩
    · obtain ⟨steps, hsteps⟩ := h.known hr
      exact ⟨steps, List.mem_append_left new hsteps⟩
  started {id steps} hmem := by
    obtain ⟨hall, r, hr, hsteps⟩ :=
      h.started ((List.mem_append.mp hmem).resolve_right (hstarted id steps))
    refine ⟨hall, ?_⟩
    rw [hrow]
    split
    · next hid =>
      rw [hid, hrun] at hr
      rw [← Option.some.inj hr, ← hshape] at hsteps
      exact ⟨run', rfl, hsteps⟩
    · exact ⟨r, hr, hsteps⟩
  marked {id i success} hmem := by
    rw [hrow]
    rcases List.mem_append.mp hmem with hold | hlast
    · obtain ⟨r, hr, hle⟩ := h.marked hold
      split
      · next hid =>
        rw [hid, hrun] at hr
        rw [← Option.some.inj hr] at hle
        exact ⟨run', rfl, hle.trans hcurrent⟩
      · exact ⟨r, hr, hle⟩
    · obtain ⟨rfl, hle⟩ := hmarked id i success hlast
      rw [if_pos rfl]
      exact ⟨run', rfl, hle⟩
  failed_iff {id r} hr := by
    rw [hrow] at hr
    by_cases hid : id = runId
    · rw [if_pos hid] at hr
      rw [← Option.some.inj hr, hid]
      exact hfailed
    · rw [if_neg hid] at hr
      rw [h.failed_iff hr]
      refine and_congr_left fun _ => ⟨List.mem_append_left new, fun hmem => ?_⟩
      exact (List.mem_append.mp hmem).resolve_right
        fun hlast => hid (hmarked id _ _ hlast).1
  fits {call wait} hwait := by
    rw [hwaits] at hwait
    exact absurd hwait (by simp)
  alone {call call' wait wait'} hwait := by
    rw [hwaits] at hwait
    exact absurd hwait (by simp)

/-- **A run of a created pipeline is started**, while no call waits. -/
theorem RunsServed.inserted (h : RunsServed es s) {run : PipelineRun}
    {steps : List PipelineStep} (hruns : s'.runs = s.runs.insert run)
    (hrunning : run.status = .running) (hcurrent : run.currentStep = 0)
    (hat : StepsAt run.stepsSnapshot 0)
    (hshape : shape run.stepsSnapshot = stepsShape steps)
    (hcreated : ∀ step ∈ steps, step.onFailure ≠ none)
    (hwaits : ∀ call wait, s'.waits call = some wait →
      wait = ⟨.start, s.runs.next, 0, run.stepsSnapshot⟩)
    (halone : ∀ call call' wait wait', s'.waits call = some wait →
      s'.waits call' = some wait' → call = call')
    (hstarted : ∀ id steps', .started id steps' ∈ new →
      id = s.runs.next ∧ steps' = steps)
    (hnew : .started s.runs.next steps ∈ new)
    (hmarked : ∀ id i success, .marked id i success ∉ new) :
    RunsServed (es ++ new) s' where
  sound {id r} hr := by
    rw [hruns, Table.row_insert_eq_some] at hr
    rcases hr with ⟨-, rfl⟩ | hr
    · exact Or.inl ⟨hrunning, hcurrent ▸ hat⟩
    · exact h.sound hr
  known {id r} hr := by
    rw [hruns, Table.row_insert_eq_some] at hr
    rcases hr with ⟨rfl, -⟩ | hr
    · exact ⟨steps, List.mem_append_right es hnew⟩
    · obtain ⟨steps', hsteps'⟩ := h.known hr
      exact ⟨steps', List.mem_append_left new hsteps'⟩
  started {id steps'} hmem := by
    rcases List.mem_append.mp hmem with hold | hlast
    · obtain ⟨hall, r, hr, hsteps⟩ := h.started hold
      exact ⟨hall, r, hruns ▸ Table.row_insert_of_some _ _ hr, hsteps⟩
    · obtain ⟨rfl, rfl⟩ := hstarted id steps' hlast
      exact ⟨hcreated, run, hruns ▸ Table.row_insert_next _ _, hshape⟩
  marked {id i success} hmem := by
    obtain ⟨r, hr, hle⟩ :=
      h.marked ((List.mem_append.mp hmem).resolve_right (hmarked id i success))
    exact ⟨r, hruns ▸ Table.row_insert_of_some _ _ hr, hle⟩
  failed_iff {id r} hr := by
    have hsame : (r.StoppedBy (es ++ new) id ↔ r.StoppedBy es id) :=
      and_congr_left fun _ => ⟨fun hmem => (List.mem_append.mp hmem).resolve_right
        (hmarked id _ _), List.mem_append_left new⟩
    rw [hsame]
    rw [hruns, Table.row_insert_eq_some] at hr
    rcases hr with ⟨rfl, rfl⟩ | hr
    · refine iff_of_false (by rw [hrunning]; decide) fun hstopped => ?_
      obtain ⟨r, hr, -⟩ := h.marked hstopped.1
      rw [Table.row_next] at hr
      exact absurd hr (by simp)
    · exact h.failed_iff hr
  fits {call wait} hwait := by
    obtain rfl := hwaits call wait hwait
    exact ⟨hat, run, hruns ▸ Table.row_insert_next _ _, hrunning, rfl,
      fun _ => hcurrent.symm, nofun⟩
  alone {call call' wait wait'} hwait hwait' := halone call call' wait wait' hwait hwait'

/-- **An advance goes to wait**, while no other call waits. -/
theorem RunsServed.waiting (h : RunsServed es s) {call runId : ℕ}
    {run : PipelineRun} {wait : SpawnWait} {success : Bool} {args : List String}
    (hnone : ∀ call, s.waits call = none)
    (hrun : s.runs.row runId = some run) (hrunning : run.status = .running)
    (hfails : success = false → ∀ current,
      run.stepsSnapshot[run.currentStep]? = some current →
      current.onFailure.getD .stop ≠ .stop)
    (hat : StepsAt wait.steps wait.stepIdx) (hid : wait.runId = runId)
    (hcaller : wait.caller = .advance) (hstepIdx : wait.stepIdx = run.currentStep + 1)
    (hshape : shape wait.steps = shape run.stepsSnapshot) (step : ℕ) :
    RunsServed (es ++ [.marked runId run.currentStep success,
      .spawning runId step args]) (s.await call wait) where
  sound := h.sound
  known {id r} hr := by
    obtain ⟨steps, hsteps⟩ := h.known hr
    exact ⟨steps, List.mem_append_left _ hsteps⟩
  started {id steps} hmem :=
    h.started ((List.mem_append.mp hmem).resolve_right (by simp))
  marked {id i success'} hmem := by
    rcases List.mem_append.mp hmem with hold | hlast
    · exact h.marked hold
    · simp only [List.mem_cons, PipelineEvent.marked.injEq, reduceCtorEq,
        List.not_mem_nil, or_false] at hlast
      obtain ⟨rfl, rfl, -⟩ := hlast
      exact ⟨run, hrun, Nat.le_refl _⟩
  failed_iff {id r} hr := by
    rw [h.failed_iff hr]
    refine ⟨fun hstopped => ⟨List.mem_append_left _ hstopped.1, hstopped.2⟩,
      fun hstopped => ?_⟩
    rcases List.mem_append.mp hstopped.1 with hold | hlast
    · exact ⟨hold, hstopped.2⟩
    · -- the failure that was marked now does not stop the run
      simp only [List.mem_cons, PipelineEvent.marked.injEq, reduceCtorEq,
        List.not_mem_nil, or_false] at hlast
      obtain ⟨rfl, -, hfail⟩ := hlast
      rw [PipelineState.await_runs, hrun] at hr
      obtain rfl := Option.some.inj hr
      obtain ⟨current, hcurrent, hstop⟩ := hstopped.2
      exact absurd hstop (hfails hfail.symm current hcurrent)
  fits {call' wait'} hwait := by
    unfold PipelineState.await at hwait
    dsimp only at hwait
    by_cases hcall : call' = call
    · subst hcall
      rw [Function.update_self] at hwait
      obtain rfl := Option.some.inj hwait
      exact ⟨hat, run, by rw [hid]; exact hrun, hrunning, hshape,
        fun hstart => absurd (hstart.symm.trans hcaller) nofun, fun _ => hstepIdx⟩
    · rw [Function.update_of_ne hcall, hnone] at hwait
      exact absurd hwait (by simp)
  alone {call₁ call₂ wait₁ wait₂} hwait₁ hwait₂ := by
    have honly : ∀ {call' wait'}, (s.await call wait).waits call' = some wait' →
        call' = call := by
      intro call' wait' hwait
      by_contra hcall
      unfold PipelineState.await at hwait
      dsimp only at hwait
      rw [Function.update_of_ne hcall, hnone] at hwait
      exact absurd hwait (by simp)
    exact (honly hwait₁).trans (honly hwait₂).symm

/-- A row of the same shape and step is stopped by the same failures. -/
theorem PipelineRun.StoppedBy.of_shape {run' : PipelineRun} {id : ℕ}
    (h : run'.StoppedBy es id) (run : PipelineRun)
    (hcurrent : run'.currentStep = run.currentStep)
    (hshape : shape run'.stepsSnapshot = shape run.stepsSnapshot) :
    run.StoppedBy es id := by
  obtain ⟨hmem, current, hstep, hstop⟩ := h
  rw [hcurrent] at hmem hstep
  obtain ⟨current', hstep', heq⟩ := onFailure_of_shape hshape hstep
  exact ⟨hmem, current', hstep', heq ▸ hstop⟩

theorem RunsServed.not_stoppedBy_next (h : RunsServed es s) {id : ℕ}
    {run run' : PipelineRun} (hrun : s.runs.row id = some run)
    (hcurrent : run'.currentStep = run.currentStep + 1) :
    ¬ run'.StoppedBy es id := by
  rintro ⟨hmem, -⟩
  obtain ⟨r, hr, hle⟩ := h.marked hmem
  rw [hrun] at hr
  rw [← Option.some.inj hr] at hle
  omega

theorem RunsServed.settled (h : RunsServed es s) {call : ℕ} {wait : SpawnWait}
    (hwait : s.waits call = some wait) (call' : ℕ) :
    (s.settle call).waits call' = none := by
  unfold PipelineState.settle
  dsimp only
  by_cases hcall : call' = call
  · rw [hcall, Function.update_self]
  · rw [Function.update_of_ne hcall]
    cases hother : s.waits call' with
    | none => rfl
    | some wait' => exact absurd (h.alone hother hwait) hcall

theorem RunsServed.refused (h : RunsServed es s) (hes : ∀ e ∈ new, e.Refusal) :
    RunsServed (es ++ new) s where
  sound := h.sound
  known hr := by
    obtain ⟨steps, hsteps⟩ := h.known hr
    exact ⟨steps, List.mem_append_left new hsteps⟩
  started hmem :=
    h.started ((List.mem_append.mp hmem).resolve_right fun hlast => hes _ hlast)
  marked hmem :=
    h.marked ((List.mem_append.mp hmem).resolve_right fun hlast => hes _ hlast)
  failed_iff hr := by
    rw [h.failed_iff hr]
    exact and_congr_left fun _ => ⟨List.mem_append_left new, fun hmem =>
      (List.mem_append.mp hmem).resolve_right fun hlast => hes _ hlast⟩
  fits := h.fits
  alone := h.alone

/-- **Every step keeps the invariant**, as long as requests do not overlap and
pipelines are created ones. -/
theorem RunsServed.next (rt : Runtime) {a : PipelineAction}
    (h : RunsServed es s) (hone : OneAtATime s a) (hcreated : StartsCreated s a) :
    RunsServed (es ++ (pipelineRuns rt).emits s a) ((pipelineRuns rt).next s a) := by
  have hstep := runStep rt s a
  generalize (pipelineRuns rt).next s a = s' at hstep ⊢
  generalize (pipelineRuns rt).emits s a = new at hstep ⊢
  have hat : ∀ {id : ℕ} {run : PipelineRun}, s.runs.row id = some run →
      run.status = .running → StepsAt run.stepsSnapshot run.currentStep := by
    intro id run hrun hrunning
    rcases h.sound hrun with ⟨-, hat⟩ | ⟨hterminal, -⟩
    · exact hat
    · rw [hrunning] at hterminal
      exact absurd hterminal (by decide)
  have hnotfailed : ∀ {id : ℕ} {run : PipelineRun}, s.runs.row id = some run →
      run.status = .running ∨ run.status = .pending → ¬ run.StoppedBy es id := by
    intro id run hrun hopen hstopped
    have hfailed := (h.failed_iff hrun).mpr hstopped
    rcases hopen with hopen | hopen <;> rw [hfailed] at hopen <;> exact nomatch hopen
  -- a request that rewrites the row is alone, so no call waits for another state of it
  cases hstep with
  | refused hes =>
    exact h.refused hes
  | @started _ w _ _ now pipeline hpipeline hsteps =>
    obtain ⟨name, steps, hschema⟩ := hcreated _ _ _ _ _ _ rfl hpipeline
    have hnone := hone trivial
    refine h.inserted rfl rfl rfl (stepsAt_startSnapshot w hsteps now)
      (shape_startSnapshot w pipeline.steps now)
      (createPipelineSchema_onFailure hschema)
      (fun call wait hwait => ?_) (fun call _ wait _ hwait => ?_) ?_
      List.mem_cons_self ?_
    · exact absurd ((hnone call).symm.trans hwait) (by simp)
    · exact absurd ((hnone call).symm.trans hwait) (by simp)
    · simp
    · simp
  | @startWaits call w _ _ now pipeline _ hfree hpipeline hsteps =>
    obtain ⟨name, steps, hschema⟩ := hcreated _ _ _ _ _ _ rfl hpipeline
    -- the call that goes to wait is the only one
    have honly : ∀ {first : SpawnWait} {call' : ℕ} {wait : SpawnWait},
        Function.update s.waits call (some first) call' = some wait →
          call' = call ∧ wait = first := by
      intro first call' wait hwait
      by_cases hcall : call' = call
      · subst hcall
        rw [Function.update_self] at hwait
        exact ⟨rfl, (Option.some.inj hwait).symm⟩
      · rw [Function.update_of_ne hcall, hone trivial call'] at hwait
        exact absurd hwait (by simp)
    refine h.inserted rfl rfl rfl (stepsAt_startSnapshot w hsteps now)
      (shape_startSnapshot w pipeline.steps now)
      (createPipelineSchema_onFailure hschema)
      (fun _ _ hwait => (honly hwait).2)
      (fun _ _ _ _ hwait hwait' => (honly hwait).1.trans (honly hwait').1.symm) ?_
      List.mem_cons_self ?_
    · simp
    · simp
  | @stopped _ _ id errorMsg now run current hrun hrunning hcurrent hstop =>
    obtain ⟨current', hcurrent', heq⟩ := onFailure_of_shape
      (shape_stoppedSteps run false errorMsg now).symm hcurrent
    refine h.rewritten hrun (PipelineState.write_row_of_some hrun _)
      (fun call => hone trivial call)
      (Or.inr ⟨show RunStatus.failed.Terminal by decide, (hat hrun hrunning).stopped _ _ _⟩)
      (shape_stoppedSteps _ _ _ _) (Nat.le_refl _) (by simp) ?_ ?_
    · simp only [List.mem_cons, PipelineEvent.marked.injEq, reduceCtorEq,
        List.not_mem_nil, or_false]
      rintro _ _ _ ⟨rfl, rfl, -⟩
      exact ⟨rfl, Nat.le_refl _⟩
    · -- the run has failed by the step that is marked here
      exact iff_of_true rfl ⟨List.mem_append_right _ List.mem_cons_self,
        current', hcurrent', heq ▸ hstop⟩
  | @completed _ _ id success errorMsg now run current hrun hrunning hcurrent hgo hlast =>
    refine h.rewritten hrun (PipelineState.write_row_of_some hrun _)
      (fun call => hone trivial call)
      (Or.inr ⟨show RunStatus.completed.Terminal by decide,
        (hat hrun hrunning).completed _ _ _ hlast⟩)
      (shape_markedSteps _ _ _ _) (Nat.le_refl _) (by simp) ?_
      (iff_of_false nofun fun hstopped => ?_)
    · simp only [List.mem_cons, PipelineEvent.marked.injEq, reduceCtorEq,
        List.not_mem_nil, or_false]
      rintro _ _ _ ⟨rfl, rfl, -⟩
      exact ⟨rfl, Nat.le_refl _⟩
    · obtain ⟨hmem, current', hcurrent', hstop⟩ :=
        hstopped.of_shape run rfl (shape_markedSteps run success errorMsg now)
      rcases List.mem_append.mp hmem with hold | hnew
      · exact hnotfailed hrun (Or.inl hrunning) ⟨hold, current', hcurrent', hstop⟩
      · -- a failure of the last step that stops the run is another case
        simp only [List.mem_cons, PipelineEvent.marked.injEq, reduceCtorEq,
          List.not_mem_nil, or_false] at hnew
        rw [hcurrent] at hcurrent'
        rw [← Option.some.inj hcurrent'] at hstop
        exact hgo ⟨hnew.2.2.symm, hstop⟩
  | @advanced _ _ id success errorMsg now run _ _ hrun hrunning hcurrent hgo hnext =>
    refine h.rewritten hrun (PipelineState.write_row_of_some hrun _)
      (fun call => hone trivial call)
      (Or.inl ⟨hrunning, (hat hrun hrunning).next _ _ _ hnext⟩)
      (shape_nextSteps _ _ _ _) (Nat.le_succ _) (by simp) ?_ ?_
    · simp only [List.mem_cons, PipelineEvent.marked.injEq, reduceCtorEq,
        List.not_mem_nil, or_false]
      rintro _ _ _ ⟨rfl, rfl, -⟩
      exact ⟨rfl, Nat.le_succ _⟩
    · refine iff_of_false (fun hfailed => nomatch hrunning.symm.trans hfailed)
        fun hstopped => ?_
      rcases List.mem_append.mp hstopped.1 with hold | hnew
      · exact h.not_stoppedBy_next hrun rfl ⟨hold, hstopped.2⟩
      · -- the step that is marked is the one before the current step by now
        simp only [List.mem_cons, PipelineEvent.marked.injEq, reduceCtorEq,
          List.not_mem_nil, or_false] at hnew
        exact Nat.succ_ne_self _ hnew.2.1
  | @advanceWaits call _ id success errorMsg now run current _ _ hfree hrun hrunning hcurrent hgo
      hnext =>
    refine h.waiting (hone trivial) hrun hrunning (fun hfail c hc hstop => ?_)
      ((hat hrun hrunning).next _ _ _ hnext) rfl rfl rfl (shape_nextSteps _ _ _ _) _
    rw [hcurrent] at hc
    rw [← Option.some.inj hc] at hstop
    exact hgo ⟨hfail, hstop⟩
  | @cancelled id now run hrun hopen =>
    refine h.rewritten hrun (PipelineState.write_row_of_some hrun _)
      (fun call => hone trivial call)
      (Or.inr ⟨show RunStatus.cancelled.Terminal by decide, stepsOver_cancel _ _⟩)
      (shape_cancel _ _) (Nat.le_refl _) (by simp) (by simp)
      (iff_of_false nofun fun hstopped => ?_)
    obtain ⟨hmem, hstop⟩ := hstopped.of_shape run rfl (shape_cancel now run.stepsSnapshot)
    exact hnotfailed hrun hopen
      ⟨(List.mem_append.mp hmem).resolve_right (by simp), hstop⟩
  | @startResumed call result now wait hwait hcaller =>
    have hfits := h.fits hwait
    obtain ⟨run, hrun, hrunning, hshape, hstart, -⟩ := hfits.run
    have hshape' := (shape_spawnedSteps now wait result).trans hshape
    refine h.rewritten hrun (PipelineState.write_row_of_some hrun _)
      (h.settled hwait) (Or.inl ⟨hrunning, ?_⟩) hshape' (Nat.le_refl _) (by simp)
      (by simp) (iff_of_false (fun hfailed => nomatch hrunning.symm.trans hfailed)
        fun hstopped => ?_)
    · show StepsAt _ run.currentStep
      rw [← hstart hcaller]
      exact hfits.at_step.spawned result now
    · obtain ⟨hmem, hstop⟩ := hstopped.of_shape run rfl hshape'
      exact hnotfailed hrun (Or.inl hrunning)
        ⟨(List.mem_append.mp hmem).resolve_right (by simp), hstop⟩
  | @advanceResumed call result now wait hwait hcaller =>
    have hfits := h.fits hwait
    obtain ⟨run, hrun, hrunning, hshape, -, hadvance⟩ := hfits.run
    have hnext := hadvance hcaller
    refine h.rewritten hrun (PipelineState.write_row_of_some hrun _)
      (h.settled hwait) (Or.inl ⟨hrunning, hfits.at_step.spawned result now⟩)
      ((shape_spawnedSteps now wait result).trans hshape) ?_ (by simp)
      (by simp) (iff_of_false (fun hfailed => nomatch hrunning.symm.trans hfailed)
        fun hstopped => ?_)
    · show run.currentStep ≤ wait.stepIdx
      omega
    · exact h.not_stoppedBy_next hrun hnext
        ⟨(List.mem_append.mp hstopped.1).resolve_right (by simp), hstopped.2⟩

end

/-- The steps of a created pipeline say what their failure does, and so do the
steps of its runs. -/
theorem RunsServed.onFailure_ne_none {es : List PipelineEvent} {s : PipelineState}
    (h : RunsServed es s) {id : ℕ} {run : PipelineRun}
    (hrun : s.runs.row id = some run) {i : ℕ} {step : RunStepState}
    (hstep : run.stepsSnapshot[i]? = some step) : step.onFailure ≠ none := by
  obtain ⟨steps, hsteps⟩ := h.known hrun
  obtain ⟨hall, r, hr, hshape⟩ := h.started hsteps
  rw [hrun] at hr
  obtain rfl := Option.some.inj hr
  have hi : (shape run.stepsSnapshot)[i]? = some step.shape := by
    unfold shape
    rw [List.getElem?_map, hstep]
    rfl
  rw [hshape] at hi
  unfold stepsShape at hi
  rw [List.getElem?_mapIdx, Option.map_eq_some_iff] at hi
  obtain ⟨old, hold, heq⟩ := hi
  rw [← show old.onFailure = step.onFailure from congrArg (fun p => p.2.2) heq]
  exact hall old (List.mem_of_getElem? hold)

/-- **The invariant of pipeline runs**, for requests that do not overlap, on
pipelines that were created, with spawns that succeed or fail as they like.
The snapshot keeps its length, its indices and its templates. While the run
is running, its current step is the one that is running, the ones before have
a result and the ones behind are pending; when it is over, none is pending or
running. And it has failed exactly if its current step was advanced with
failure and stops it. -/
theorem pipelineRun_invariant {rt : Runtime} {as : List PipelineAction}
    (hone : (pipelineRuns rt).EachStep OneAtATime .initial as)
    (hcreated : (pipelineRuns rt).EachStep StartsCreated .initial as)
    {id : ℕ} {run : PipelineRun}
    (hrun : ((pipelineRuns rt).state .initial as).runs.row id = some run) :
    (∃ steps, .started id steps ∈ (pipelineRuns rt).trace .initial as)
    ∧ (∀ steps, .started id steps ∈ (pipelineRuns rt).trace .initial as →
      shape run.stepsSnapshot = stepsShape steps)
    ∧ (run.status = .running ∨ run.status.Terminal)
    ∧ (run.status = .running → StepsAt run.stepsSnapshot run.currentStep)
    ∧ (run.status.Terminal → StepsOver run.stepsSnapshot)
    ∧ (run.status = .failed
      ↔ .marked id run.currentStep false ∈ (pipelineRuns rt).trace .initial as
        ∧ ∃ current, run.stepsSnapshot[run.currentStep]? = some current
          ∧ current.onFailure = some .stop) := by
  have hboth : (pipelineRuns rt).Throughout
      (fun _ s a => OneAtATime s a ∧ StartsCreated s a) .initial as :=
    fun p a hp => ⟨hone p a hp, hcreated p a hp⟩
  have h := hboth.invariant (pipelineRuns rt) runsServed_initial
    (fun _ _ _ h hin => h.next rt hin.1 hin.2)
  have hsound := h.sound hrun
  have hnot : run.status = .running → ¬ run.status.Terminal := by
    intro hrunning
    rw [hrunning]
    decide
  refine ⟨h.known hrun, fun steps hsteps => ?_, hsound.imp And.left And.left,
    fun hrunning => ?_, fun hterminal => ?_, ?_⟩
  · obtain ⟨-, r, hr, hshape⟩ := h.started hsteps
    rw [hrun] at hr
    rw [Option.some.inj hr]
    exact hshape
  · exact (hsound.resolve_right fun hover => hnot hrunning hover.1).2
  · exact (hsound.resolve_left fun hat => hnot hat.1 hterminal).2
  · rw [h.failed_iff hrun]
    refine and_congr_right fun _ => exists_congr fun current =>
      and_congr_right fun hcurrent => ?_
    have hne := h.onFailure_ne_none hrun hcurrent
    cases hfailure : current.onFailure with
    | none => exact absurd hfailure hne
    | some failure => exact ⟨congrArg some, Option.some.inj⟩

/-- The sample run, advanced once, is running at its second step. -/
theorem pipelineRun_invariant_sample :
    ∃ run, ((pipelineRuns sampleRuntime).state .initial sampleAdvanced).runs.row 1
        = some run
      ∧ StepsAt run.stepsSnapshot run.currentStep := by
  have hfree : ∀ first : Option SpawnWait, ∀ call, Function.update
      (Function.update (fun _ => none) 0 first) 0 none call = none := by
    intro first call
    rw [Function.update_idem, Function.update_eq_self_iff.mpr rfl]
  -- each request begins when the one before has resumed
  have hone : (pipelineRuns sampleRuntime).EachStep OneAtATime .initial
      sampleAdvanced :=
    .cons _ (fun _ _ => rfl) (.cons _ (fun h => h.elim)
      (.cons _ (fun _ => hfree _) (.cons _ (fun h => h.elim)
        (Machine.eachStep_nil _ _ _))))
  have hcreated : (pipelineRuns sampleRuntime).EachStep StartsCreated .initial
      sampleAdvanced := by
    refine .cons _ ?_ (.cons _ nofun (.cons _ nofun (.cons _ nofun
      (Machine.eachStep_nil _ _ _))))
    rintro _ _ _ _ _ pipeline ⟨⟩ hpipeline
    exact ⟨"release", [⟨1, none⟩, ⟨2, none⟩], hpipeline⟩
  have h := @pipelineRun_invariant _ _ hone hcreated 1 _ rfl
  exact ⟨_, rfl, h.2.2.2.1 rfl⟩

end MissionControl
