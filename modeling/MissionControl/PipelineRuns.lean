import MissionControl.Pipelines

/-!
# What the requests on pipeline runs do

`RunStep` says once what a request, or the end of a spawn, can do to the runs
and the waiting calls, with everything that was checked before. The snapshots
are described by where a run stands: `StepsAt steps i` – the steps before `i`
have a result, step `i` is running and the others are pending – and
`StepsOver steps` – no step is pending or running any more. Each rewriting of
a snapshot has one lemma.
-/

namespace MissionControl

/-! ## Steps -/

def PipelineEvent.Refusal : PipelineEvent → Prop
  | .rejected _ _ => True
  | _ => False

/-- The answer of an advance that had the result of a step. -/
def PipelineEvent.Acknowledges (runId step : ℕ) : PipelineEvent → Prop
  | .advanceResponse id i _ _ _ => id = runId ∧ i = step
  | _ => False

section

variable (rt : Runtime) (s : PipelineState)

/-- **What an action does**, with what it has found. -/
inductive RunStep : PipelineAction → PipelineState → List PipelineEvent → Prop
  | refused {a : PipelineAction} {es : List PipelineEvent}
    (hes : ∀ e ∈ es, e.Refusal) : RunStep a s es
  | started {call : ℕ} {w : Workflows} {pipelineId : ℕ} {triggeredBy : String}
    {now : ℕ} {pipeline : Pipeline}
    (hpipeline : w.pipeline pipelineId = some pipeline)
    (hsteps : pipeline.steps ≠ []) :
    RunStep (.start call w pipelineId triggeredBy now)
      { s with runs := s.runs.insert (.started pipelineId
          (startSnapshot w pipeline.steps now) triggeredBy now) }
      [.started s.runs.next pipeline.steps,
        .startResponse s.runs.next (startSnapshot w pipeline.steps now) none]
  | startWaits {call : ℕ} {w : Workflows} {pipelineId : ℕ}
    {triggeredBy : String} {now : ℕ} {pipeline : Pipeline} {args : List String}
    (hfree : s.waits call = none)
    (hpipeline : w.pipeline pipelineId = some pipeline)
    (hsteps : pipeline.steps ≠ []) :
    RunStep (.start call w pipelineId triggeredBy now)
      { runs := s.runs.insert (.started pipelineId
          (startSnapshot w pipeline.steps now) triggeredBy now)
        waits := Function.update s.waits call (some ⟨.start, s.runs.next, 0,
          startSnapshot w pipeline.steps now⟩) }
      [.started s.runs.next pipeline.steps, .spawning s.runs.next 0 args]
  | stopped {call : ℕ} {w : Workflows} {runId : ℕ} {errorMsg : Option String}
    {now : ℕ} {run : PipelineRun} {current : RunStepState}
    (hrun : s.runs.row runId = some run) (hrunning : run.status = .running)
    (hcurrent : run.stepsSnapshot[run.currentStep]? = some current)
    (hstop : current.onFailure.getD .stop = .stop) :
    RunStep (.advance call w runId false errorMsg now)
      (s.write runId (.finish .failed run.currentStep
        (run.stoppedSteps false errorMsg now) now))
      [.marked runId run.currentStep false,
        .advanceResponse runId run.currentStep .failed
          (run.stoppedSteps false errorMsg now) none]
  | completed {call : ℕ} {w : Workflows} {runId : ℕ} {success : Bool}
    {errorMsg : Option String} {now : ℕ} {run : PipelineRun}
    {current : RunStepState}
    (hrun : s.runs.row runId = some run) (hrunning : run.status = .running)
    (hcurrent : run.stepsSnapshot[run.currentStep]? = some current)
    (hgo : ¬ (success = false ∧ current.onFailure.getD .stop = .stop))
    (hlast : run.stepsSnapshot[run.currentStep + 1]? = none) :
    RunStep (.advance call w runId success errorMsg now)
      (s.write runId (.finish .completed run.currentStep
        (run.markedSteps success errorMsg now) now))
      [.marked runId run.currentStep success,
        .advanceResponse runId run.currentStep .completed
          (run.markedSteps success errorMsg now) none]
  | advanced {call : ℕ} {w : Workflows} {runId : ℕ} {success : Bool}
    {errorMsg : Option String} {now : ℕ} {run : PipelineRun}
    {current next : RunStepState}
    (hrun : s.runs.row runId = some run) (hrunning : run.status = .running)
    (hcurrent : run.stepsSnapshot[run.currentStep]? = some current)
    (hgo : ¬ (success = false ∧ current.onFailure.getD .stop = .stop))
    (hnext : run.stepsSnapshot[run.currentStep + 1]? = some next) :
    RunStep (.advance call w runId success errorMsg now)
      (s.write runId (.goTo (run.currentStep + 1)
        (run.nextSteps success errorMsg now)))
      [.marked runId run.currentStep success,
        .advanceResponse runId run.currentStep .running
          (run.nextSteps success errorMsg now) none]
  | advanceWaits {call : ℕ} {w : Workflows} {runId : ℕ} {success : Bool}
    {errorMsg : Option String} {now : ℕ} {run : PipelineRun}
    {current next : RunStepState} {args : List String}
    (hfree : s.waits call = none)
    (hrun : s.runs.row runId = some run) (hrunning : run.status = .running)
    (hcurrent : run.stepsSnapshot[run.currentStep]? = some current)
    (hgo : ¬ (success = false ∧ current.onFailure.getD .stop = .stop))
    (hnext : run.stepsSnapshot[run.currentStep + 1]? = some next) :
    RunStep (.advance call w runId success errorMsg now)
      (s.await call ⟨.advance, runId, run.currentStep + 1,
        run.nextSteps success errorMsg now⟩)
      [.marked runId run.currentStep success,
        .spawning runId (run.currentStep + 1) args]
  | cancelled {runId now : ℕ} {run : PipelineRun}
    (hrun : s.runs.row runId = some run)
    (hopen : run.status = .running ∨ run.status = .pending) :
    RunStep (.cancel runId now)
      (s.write runId (.cancel (run.stepsSnapshot.map (.cancel now)) now))
      [.cancelResponse runId (run.stepsSnapshot.map (.cancel now))]
  | startResumed {call : ℕ} {result : SpawnResult} {now : ℕ} {wait : SpawnWait}
    (hwait : s.waits call = some wait) (hcaller : wait.caller = .start) :
    RunStep (.spawned call result now)
      ((s.settle call).write wait.runId (.keep (wait.spawnedSteps result now)))
      [.startResponse wait.runId (wait.spawnedSteps result now) (some result)]
  | advanceResumed {call : ℕ} {result : SpawnResult} {now : ℕ} {wait : SpawnWait}
    (hwait : s.waits call = some wait) (hcaller : wait.caller = .advance) :
    RunStep (.spawned call result now)
      ((s.settle call).write wait.runId
        (.goTo wait.stepIdx (wait.spawnedSteps result now)))
      [.advanceResponse wait.runId (wait.stepIdx - 1) .running
        (wait.spawnedSteps result now) (some result)]

end

/-! ## Snapshots -/

def RunStepState.HasResult (step : RunStepState) : Prop :=
  step.status = .completed ∨ step.status = .failed

/-- A step that is neither to come nor under way. -/
def RunStepState.Closed (step : RunStepState) : Prop :=
  step.status ≠ .pending ∧ step.status ≠ .running

theorem RunStepState.HasResult.closed {step : RunStepState} (h : step.HasResult) :
    step.Closed := by
  rcases h with h | h <;> simp [Closed, h]

/-- **The run is at a step**: those before it have a result, it is running,
and those behind it are pending. -/
structure StepsAt (steps : List RunStepState) (i : ℕ) : Prop where
  before : ∀ j step, steps[j]? = some step → j < i → step.HasResult
  current : ∀ step, steps[i]? = some step → step.status = .running
  after : ∀ j step, steps[j]? = some step → i < j → step.status = .pending
  lt : i < steps.length

/-- **The run is over**: no step is pending or running. -/
def StepsOver (steps : List RunStepState) : Prop := ∀ step ∈ steps, step.Closed

theorem getElem?_modify_eq_some {α : Type*} {l : List α} {f : α → α} {i j : ℕ}
    {x : α} : (l.modify i f)[j]? = some x
      ↔ ∃ y, l[j]? = some y ∧ (if i = j then f y else y) = x := by
  rw [List.getElem?_modify]
  exact Option.map_eq_some_iff

theorem StepsAt.exists_current {steps : List RunStepState} {i : ℕ}
    (h : StepsAt steps i) : ∃ step, steps[i]? = some step ∧ step.status = .running :=
  ⟨_, List.getElem?_eq_getElem h.lt, h.current _ (List.getElem?_eq_getElem h.lt)⟩

theorem StepsAt.not_over {steps : List RunStepState} {i : ℕ}
    (h : StepsAt steps i) : ¬ StepsOver steps := by
  obtain ⟨step, hstep, hrunning⟩ := h.exists_current
  exact fun hover => (hover step (List.mem_of_getElem? hstep)).2 hrunning

theorem stepsAt_startSnapshot (w : Workflows) {steps : List PipelineStep}
    (hsteps : steps ≠ []) (now : ℕ) : StepsAt (startSnapshot w steps now) 0 where
  before j _ _ hj := absurd hj (Nat.not_lt_zero j)
  current step h := by
    unfold startSnapshot at h
    rw [List.getElem?_mapIdx, Option.map_eq_some_iff] at h
    obtain ⟨_, -, rfl⟩ := h
    rfl
  after j step h hj := by
    unfold startSnapshot at h
    rw [List.getElem?_mapIdx, Option.map_eq_some_iff] at h
    obtain ⟨_, -, rfl⟩ := h
    exact if_neg (Nat.ne_of_gt hj)
  lt := by
    unfold startSnapshot
    rw [List.length_mapIdx]
    exact List.length_pos_of_ne_nil hsteps

section

variable {run : PipelineRun} (success : Bool) (errorMsg : Option String) (now : ℕ)

theorem RunStepState.marked_hasResult (step : RunStepState) :
    (step.marked success errorMsg now).HasResult := by
  cases success
  · exact Or.inr rfl
  · exact Or.inl rfl

@[simp] theorem PipelineRun.length_markedSteps :
    (run.markedSteps success errorMsg now).length = run.stepsSnapshot.length :=
  List.length_modify _ _ _

@[simp] theorem PipelineRun.length_stoppedSteps :
    (run.stoppedSteps success errorMsg now).length = run.stepsSnapshot.length := by
  unfold stoppedSteps
  rw [List.length_mapIdx, length_markedSteps]

@[simp] theorem PipelineRun.length_nextSteps :
    (run.nextSteps success errorMsg now).length = run.stepsSnapshot.length := by
  unfold nextSteps
  rw [List.length_modify, length_markedSteps]

/-- The result of the current step: the steps up to it have one, and the
others are as they were. -/
theorem StepsAt.marked (h : StepsAt run.stepsSnapshot run.currentStep) {j : ℕ}
    {step : RunStepState}
    (hstep : (run.markedSteps success errorMsg now)[j]? = some step) :
    (j ≤ run.currentStep → step.HasResult)
      ∧ (run.currentStep < j → step.status = .pending) := by
  obtain ⟨old, hold, rfl⟩ := getElem?_modify_eq_some.mp hstep
  split
  · next hj =>
    subst hj
    exact ⟨fun _ => old.marked_hasResult success errorMsg now,
      fun hlt => absurd hlt (Nat.lt_irrefl _)⟩
  · next hj =>
    exact ⟨fun hle => h.before j old hold (by omega), h.after j old hold⟩

/-- **The run goes on with its next step.** -/
theorem StepsAt.next (h : StepsAt run.stepsSnapshot run.currentStep)
    {next : RunStepState}
    (hnext : run.stepsSnapshot[run.currentStep + 1]? = some next) :
    StepsAt (run.nextSteps success errorMsg now) (run.currentStep + 1) where
  before j step hstep hj := by
    obtain ⟨old, hold, rfl⟩ := getElem?_modify_eq_some.mp hstep
    rw [if_neg (Nat.ne_of_gt hj)]
    exact (h.marked success errorMsg now hold).1 (Nat.le_of_lt_succ hj)
  current step hstep := by
    obtain ⟨old, hold, rfl⟩ := getElem?_modify_eq_some.mp hstep
    rw [if_pos rfl]
    rfl
  after j step hstep hj := by
    obtain ⟨old, hold, rfl⟩ := getElem?_modify_eq_some.mp hstep
    rw [if_neg (Nat.ne_of_lt hj)]
    exact (h.marked success errorMsg now hold).2 (by omega)
  lt := by
    rw [PipelineRun.length_nextSteps]
    exact (List.getElem?_eq_some_iff.mp hnext).1

/-- **The run stops at its current step.** -/
theorem StepsAt.stopped (h : StepsAt run.stepsSnapshot run.currentStep) :
    StepsOver (run.stoppedSteps success errorMsg now) := by
  intro step hstep
  obtain ⟨j, hstep⟩ := List.getElem?_of_mem hstep
  unfold PipelineRun.stoppedSteps at hstep
  rw [List.getElem?_mapIdx, Option.map_eq_some_iff] at hstep
  obtain ⟨old, hold, rfl⟩ := hstep
  split
  · exact ⟨nofun, nofun⟩
  · next hj => exact ((h.marked success errorMsg now hold).1 (by omega)).closed

/-- **The run completes with its last step.** -/
theorem StepsAt.completed (h : StepsAt run.stepsSnapshot run.currentStep)
    (hlast : run.stepsSnapshot[run.currentStep + 1]? = none) :
    StepsOver (run.markedSteps success errorMsg now) := by
  intro step hstep
  obtain ⟨j, hstep⟩ := List.getElem?_of_mem hstep
  have hj : j < run.stepsSnapshot.length := by
    have hlt := (List.getElem?_eq_some_iff.mp hstep).1
    rwa [PipelineRun.length_markedSteps] at hlt
  have hlen := List.getElem?_eq_none_iff.mp hlast
  exact ((h.marked success errorMsg now hstep).1 (by omega)).closed

/-- **The run is cancelled.** -/
theorem stepsOver_cancel (steps : List RunStepState) :
    StepsOver (steps.map (.cancel now)) := by
  intro step hstep
  obtain ⟨old, -, rfl⟩ := List.mem_map.mp hstep
  unfold RunStepState.cancel
  split
  · exact ⟨nofun, nofun⟩
  · next h => exact not_or.mp h

end

@[simp] theorem RunStepState.spawned_status (runId stepIdx : ℕ)
    (result : SpawnResult) (now : ℕ) (step : RunStepState) :
    (step.spawned runId stepIdx result now).status = step.status := by
  cases result <;> rfl

@[simp] theorem SpawnWait.length_spawnedSteps (wait : SpawnWait)
    (result : SpawnResult) (now : ℕ) :
    (wait.spawnedSteps result now).length = wait.steps.length :=
  List.length_modify _ _ _

theorem SpawnWait.spawnedSteps_status {wait : SpawnWait} {result : SpawnResult}
    {now j : ℕ} {step : RunStepState}
    (h : (wait.spawnedSteps result now)[j]? = some step) :
    ∃ old, wait.steps[j]? = some old ∧ step.status = old.status := by
  obtain ⟨old, hold, rfl⟩ := getElem?_modify_eq_some.mp h
  refine ⟨old, hold, ?_⟩
  split
  · exact RunStepState.spawned_status _ _ _ _ _
  · rfl

theorem StepsAt.spawned {wait : SpawnWait} (h : StepsAt wait.steps wait.stepIdx)
    (result : SpawnResult) (now : ℕ) :
    StepsAt (wait.spawnedSteps result now) wait.stepIdx where
  before j step hstep hj := by
    obtain ⟨old, hold, hstatus⟩ := SpawnWait.spawnedSteps_status hstep
    unfold RunStepState.HasResult
    rw [hstatus]
    exact h.before j old hold hj
  current step hstep := by
    obtain ⟨old, hold, hstatus⟩ := SpawnWait.spawnedSteps_status hstep
    rw [hstatus, h.current old hold]
  after j step hstep hj := by
    obtain ⟨old, hold, hstatus⟩ := SpawnWait.spawnedSteps_status hstep
    rw [hstatus, h.after j old hold hj]
  lt := by
    rw [SpawnWait.length_spawnedSteps]
    exact h.lt

/-! ## Tables and waits -/

section State

variable (s : PipelineState) (call runId : ℕ) (wait : SpawnWait)
  (f : PipelineRun → PipelineRun)

@[simp] theorem PipelineState.settle_runs : (s.settle call).runs = s.runs := rfl

@[simp] theorem PipelineState.await_runs : (s.await call wait).runs = s.runs := rfl

theorem PipelineState.write_row (id : ℕ) : (s.write runId f).runs.row id
    = if id = runId then (s.runs.row runId).map f else s.runs.row id :=
  s.runs.row_update runId id f

theorem PipelineState.write_write {g : PipelineRun → PipelineRun}
    (h : ∀ run, g (f run) = g run) :
    (s.write runId f).write runId g = s.write runId g := by
  unfold PipelineState.write
  congr 1
  refine Table.ext rfl (funext fun id => ?_)
  rw [Table.row_update, Table.row_update, Table.row_update, Table.row_update]
  split
  · rw [if_pos rfl, Option.map_map]
    exact congrArg (fun k => Option.map k _) (funext h)
  · rfl

end State

variable {rt : Runtime} {s : PipelineState}

theorem refused_step {a : PipelineAction} (code : ℕ) (message : String) :
    RunStep s a (s.reject code message).1 (s.reject code message).2 := by
  refine .refused fun e he => ?_
  obtain rfl := List.mem_singleton.mp he
  trivial

/-- **What the machine does.** -/
theorem runStep (rt : Runtime) (s : PipelineState) (a : PipelineAction) :
    RunStep s a ((pipelineRuns rt).next s a) ((pipelineRuns rt).emits s a) := by
  have hnone : RunStep s a s [] := .refused (fun e he => absurd he List.not_mem_nil)
  unfold Machine.next Machine.emits pipelineRuns
  cases a with
  | start call w pipelineId triggeredBy now =>
    dsimp only
    split
    · exact hnone
    · next hfree =>
      unfold startPipeline
      split
      · exact refused_step _ _
      · next pipeline hpipeline =>
        split
        · exact refused_step _ _
        · next first rest hsteps =>
          have hne : pipeline.steps ≠ [] := by rw [hsteps]; exact List.cons_ne_nil _ _
          dsimp only
          split
          · exact .started hpipeline hne
          · exact .startWaits (by simpa using hfree) hpipeline hne
  | advance call w runId success errorMsg now =>
    dsimp only
    split
    · exact hnone
    · next hfree =>
      unfold advanceRun
      split
      · exact refused_step _ _
      · split
        · exact refused_step _ _
        · next run hrun =>
          split
          · exact refused_step _ _
          · next hrunning =>
            rw [not_not] at hrunning
            unfold advanceRunning
            dsimp only
            split
            · exact refused_step _ _
            · next current hcurrent =>
              split
              · next hstop =>
                obtain ⟨rfl, hstop⟩ := hstop
                exact .stopped hrun hrunning hcurrent hstop
              · next hgo =>
                split
                · next hlast => exact .completed hrun hrunning hcurrent hgo hlast
                · next next hnext =>
                  split
                  · exact .advanced hrun hrunning hcurrent hgo hnext
                  · exact .advanceWaits (by simpa using hfree) hrun hrunning
                      hcurrent hgo hnext
  | cancel runId now =>
    show RunStep s _ (cancelRun s runId now).1 (cancelRun s runId now).2
    unfold cancelRun
    split
    · exact refused_step _ _
    · split
      · exact refused_step _ _
      · next run hrun =>
        split
        · exact refused_step _ _
        · next hopen =>
          refine .cancelled hrun ?_
          by_contra hneither
          rw [not_or] at hneither
          exact hopen hneither
  | spawned call result now =>
    show RunStep s _ (resumeSpawn s call result now).1 (resumeSpawn s call result now).2
    unfold resumeSpawn
    split
    · exact hnone
    · next wait hwait =>
      dsimp only
      split
      · next hcaller => exact .startResumed hwait hcaller
      · next hcaller =>
        -- the two statements of the source write one row, so they are one write
        have htwice := PipelineState.write_write (s.settle call) wait.runId
          (.keep (wait.spawnedSteps result now))
          (g := .goTo wait.stepIdx (wait.spawnedSteps result now)) (fun _ => rfl)
        dsimp only
        rw [htwice]
        exact .advanceResumed hwait hcaller

end MissionControl
