import MissionControl.PipelineFinality

/-!
# Which steps are spawned

The agent command of a step is started by the request that finds the run
just before that step: the start for the first one, an advance for a later
one. An advance reads the step it spawns off the row and stores it only when
the command has returned; meanwhile the row still shows the step before as
running. So "spawned once the step before is stored with a result" is not
what the code does: the result is in the snapshot that the advance holds.

`step_spawns` says what holds of every interleaving – who starts a step, and
that no step of a run that is over is ever started – and that no step is
started twice as long as the advances of the run do not overlap.
-/

namespace MissionControl

/-- The step an event shows to be spawned, with its run. -/
def PipelineEvent.spawn : PipelineEvent → Option (ℕ × ℕ)
  | .spawning runId step _ => some (runId, step)
  | _ => none

def spawns (es : List PipelineEvent) : List (ℕ × ℕ) := es.filterMap (·.spawn)

theorem spawns_append (es new : List PipelineEvent) :
    spawns (es ++ new) = spawns es ++ spawns new := List.filterMap_append

theorem PipelineEvent.Refusal.spawn {e : PipelineEvent} (h : e.Refusal) :
    e.spawn = none := by
  cases e <;> first | rfl | exact absurd h id

theorem spawns_refused {es : List PipelineEvent} (h : ∀ e ∈ es, e.Refusal) :
    spawns es = [] := List.filterMap_eq_nil_iff.mpr fun e he => (h e he).spawn

variable {s : PipelineState}

/-! ## Who spawns -/

/-- **A step that is spawned by an advance**: the advance finds the run
running at the step before, and goes to wait with a snapshot that has a
result for that step. -/
def SpawnedByAdvance (s s' : PipelineState) (a : PipelineAction)
    (runId step : ℕ) : Prop :=
  ∃ call w success errorMsg now run wait,
    a = .advance call w runId success errorMsg now
    ∧ s.runs.row runId = some run ∧ run.status = .running
    ∧ run.currentStep + 1 = step
    ∧ s'.waits call = some wait ∧ wait.runId = runId ∧ wait.stepIdx = step
    ∧ ∃ current, wait.steps[run.currentStep]? = some current ∧ current.HasResult

/-- The snapshot of an advance has the result of the step it was for. -/
theorem PipelineRun.nextSteps_current {run : PipelineRun} {current : RunStepState}
    (h : run.stepsSnapshot[run.currentStep]? = some current) (success : Bool)
    (errorMsg : Option String) (now : ℕ) :
    ∃ step, (run.nextSteps success errorMsg now)[run.currentStep]? = some step
      ∧ step.HasResult := by
  have hmarked := getElem?_modify_eq_some (f := .marked success errorMsg now)
    |>.mpr ⟨current, h, if_pos rfl⟩
  exact ⟨current.marked success errorMsg now,
    getElem?_modify_eq_some.mpr ⟨_, hmarked, if_neg (Nat.succ_ne_self _)⟩,
    current.marked_hasResult success errorMsg now⟩

/-- **Who spawns a step**: a start the first one of the run it inserts, an
advance the one behind the step the run is at. -/
theorem spawned_by (rt : Runtime) (s : PipelineState) (a : PipelineAction)
    {runId step : ℕ} (h : (runId, step) ∈ spawns ((pipelineRuns rt).emits s a)) :
    (step = 0 ∧ runId = s.runs.next
        ∧ ∃ run, ((pipelineRuns rt).next s a).runs.row runId = some run)
      ∨ SpawnedByAdvance s ((pipelineRuns rt).next s a) a runId step := by
  have hstep := runStep rt s a
  generalize (pipelineRuns rt).next s a = s' at hstep ⊢
  generalize (pipelineRuns rt).emits s a = new at hstep h
  cases hstep with
  | refused hes =>
    rw [spawns_refused hes] at h
    exact absurd h List.not_mem_nil
  | started hpipeline hsteps => exact absurd h List.not_mem_nil
  | startWaits hfree hpipeline hsteps =>
    obtain ⟨rfl, rfl⟩ := Prod.mk.inj (List.mem_singleton.mp h)
    exact Or.inl ⟨rfl, rfl, _, Table.row_insert_next _ _⟩
  | stopped hrun hrunning hcurrent hstop => exact absurd h List.not_mem_nil
  | completed hrun hrunning hcurrent hgo hlast => exact absurd h List.not_mem_nil
  | advanced hrun hrunning hcurrent hgo hnext => exact absurd h List.not_mem_nil
  | advanceWaits hfree hrun hrunning hcurrent hgo hnext =>
    obtain ⟨rfl, rfl⟩ := Prod.mk.inj (List.mem_singleton.mp h)
    exact Or.inr ⟨_, _, _, _, _, _, _, rfl, hrun, hrunning, rfl,
      Function.update_self _ _ _, rfl, rfl,
      PipelineRun.nextSteps_current hcurrent _ _ _⟩
  | cancelled hrun hopen => exact absurd h List.not_mem_nil
  | startResumed hwait hcaller => exact absurd h List.not_mem_nil
  | advanceResumed hwait hcaller => exact absurd h List.not_mem_nil

/-! ## Rows stay, and runs that are over stay over -/

/-- **A row stays**, and is not running again once it is over. -/
theorem row_stays (rt : Runtime) (s : PipelineState) (a : PipelineAction) {id : ℕ}
    {run : PipelineRun} (hrun : s.runs.row id = some run) :
    ∃ run', ((pipelineRuns rt).next s a).runs.row id = some run'
      ∧ (run.status.Terminal → run'.status.Terminal) := by
  have hstep := runStep rt s a
  generalize (pipelineRuns rt).next s a = s' at hstep ⊢
  generalize (pipelineRuns rt).emits s a = new at hstep
  have hwrite : ∀ {t : PipelineState} {runId : ℕ} {f : PipelineRun → PipelineRun},
      t.runs = s.runs → (∀ r, r.status.Terminal → (f r).status.Terminal) →
      ∃ run', (t.write runId f).runs.row id = some run'
        ∧ (run.status.Terminal → run'.status.Terminal) := by
    intro t runId f ht hf
    rw [PipelineState.write_row, ht]
    split
    · next hid =>
      rw [← hid, hrun]
      exact ⟨_, rfl, hf run⟩
    · exact ⟨run, hrun, fun h => h⟩
  cases hstep with
  | refused hes => exact ⟨run, hrun, fun h => h⟩
  | started hpipeline hsteps =>
    exact ⟨run, Table.row_insert_of_some _ _ hrun, fun h => h⟩
  | startWaits hfree hpipeline hsteps =>
    exact ⟨run, Table.row_insert_of_some _ _ hrun, fun h => h⟩
  | stopped hr hrunning hcurrent hstop =>
    exact hwrite rfl fun _ _ => show RunStatus.failed.Terminal by decide
  | completed hr hrunning hcurrent hgo hlast =>
    exact hwrite rfl fun _ _ => show RunStatus.completed.Terminal by decide
  | advanced hr hrunning hcurrent hgo hnext => exact hwrite rfl fun _ h => h
  | advanceWaits hfree hr hrunning hcurrent hgo hnext =>
    exact ⟨run, hrun, fun h => h⟩
  | cancelled hr hopen =>
    exact hwrite rfl fun _ _ => show RunStatus.cancelled.Terminal by decide
  | startResumed hwait hcaller => exact hwrite rfl fun _ h => h
  | advanceResumed hwait hcaller => exact hwrite rfl fun _ h => h

theorem terminal_stays (rt : Runtime) (as : List PipelineAction) {id : ℕ} :
    ∀ {s : PipelineState} {run : PipelineRun}, s.runs.row id = some run →
    run.status.Terminal →
    ∃ run', ((pipelineRuns rt).state s as).runs.row id = some run'
      ∧ run'.status.Terminal := by
  induction as with
  | nil => exact fun hrun hterminal => ⟨_, hrun, hterminal⟩
  | cons a as ih =>
    intro s run hrun hterminal
    obtain ⟨run', hrun', hstays⟩ := row_stays rt s a hrun
    rw [Machine.state_cons]
    exact ih hrun' (hstays hterminal)

/-! ## How often a step is spawned -/

/-- **What a step adds to the spawned steps**: nothing, the first step of a
new run, or the next step of a run. -/
theorem spawns_step (rt : Runtime) (s : PipelineState) (a : PipelineAction) :
    spawns ((pipelineRuns rt).emits s a) = []
      ∨ ∃ runId step, spawns ((pipelineRuns rt).emits s a) = [(runId, step)] := by
  have hstep := runStep rt s a
  generalize (pipelineRuns rt).next s a = s' at hstep
  generalize (pipelineRuns rt).emits s a = new at hstep ⊢
  cases hstep with
  | refused hes => exact Or.inl (spawns_refused hes)
  | started hpipeline hsteps => exact Or.inl rfl
  | startWaits hfree hpipeline hsteps => exact Or.inr ⟨_, _, rfl⟩
  | stopped hrun hrunning hcurrent hstop => exact Or.inl rfl
  | completed hrun hrunning hcurrent hgo hlast => exact Or.inl rfl
  | advanced hrun hrunning hcurrent hgo hnext => exact Or.inl rfl
  | advanceWaits hfree hrun hrunning hcurrent hgo hnext => exact Or.inr ⟨_, _, rfl⟩
  | cancelled hrun hopen => exact Or.inl rfl
  | startResumed hwait hcaller => exact Or.inl rfl
  | advanceResumed hwait hcaller => exact Or.inl rfl

/-- A step is spawned at most once more: not at all, if it was before. -/
theorem count_spawns_step {rt : Runtime} {es : List PipelineEvent}
    {a : PipelineAction} {r : ℕ × ℕ}
    (hone : (spawns es).count r ≤ 1)
    (hnew : r ∈ spawns ((pipelineRuns rt).emits s a) → r ∉ spawns es) :
    (spawns (es ++ (pipelineRuns rt).emits s a)).count r ≤ 1 := by
  rw [spawns_append, List.count_append]
  by_cases hmem : r ∈ spawns ((pipelineRuns rt).emits s a)
  · rw [List.count_eq_zero_of_not_mem (hnew hmem), Nat.zero_add]
    rcases spawns_step rt s a with hnil | ⟨runId, step, hsingle⟩
    · rw [hnil]
      exact Nat.zero_le _
    · rw [hsingle]
      exact List.count_le_length
  · rw [List.count_eq_zero_of_not_mem hmem]
    exact hone

/-- Only steps of runs that there are have been spawned, and first steps only
once. -/
structure SpawnsKnown (es : List PipelineEvent) (s : PipelineState) : Prop where
  row : ∀ {runId step : ℕ}, (runId, step) ∈ spawns es →
    ∃ run, s.runs.row runId = some run
  first : ∀ runId, (spawns es).count (runId, 0) ≤ 1

theorem SpawnsKnown.next (rt : Runtime) {es : List PipelineEvent}
    {a : PipelineAction} (h : SpawnsKnown es s) :
    SpawnsKnown (es ++ (pipelineRuns rt).emits s a) ((pipelineRuns rt).next s a) where
  row {runId step} hmem := by
    rw [spawns_append, List.mem_append] at hmem
    rcases hmem with hmem | hmem
    · obtain ⟨run, hrun⟩ := h.row hmem
      obtain ⟨run', hrun', -⟩ := row_stays rt s a hrun
      exact ⟨run', hrun'⟩
    · rcases spawned_by rt s a hmem with ⟨-, -, hrow⟩ | hadvance
      · exact hrow
      · obtain ⟨_, _, _, _, _, run, _, _, hrun, -⟩ := hadvance
        obtain ⟨run', hrun', -⟩ := row_stays rt s a hrun
        exact ⟨run', hrun'⟩
  first runId := by
    refine count_spawns_step (h.first runId) fun hmem hold => ?_
    rcases spawned_by rt s a hmem with ⟨-, hfresh, -⟩ | hadvance
    · obtain ⟨run, hrun⟩ := h.row hold
      rw [hfresh, Table.row_next] at hrun
      exact absurd hrun (by simp)
    · obtain ⟨_, _, _, _, _, _, _, _, _, _, hzero, -⟩ := hadvance
      exact absurd hzero (Nat.succ_ne_zero _)

/-! ## Advances that do not overlap -/

/-- The call waits for an advance of the run to have spawned the step. -/
def Awaits (waits : ℕ → Option SpawnWait) (runId call step : ℕ) : Prop :=
  ∃ wait, waits call = some wait ∧ wait.caller = .advance ∧ wait.runId = runId
    ∧ wait.stepIdx = step

/-- **The advances of a run do not overlap**: none finds the run running while
another one waits. -/
def AdvancesAlone (runId : ℕ) (s : PipelineState) (a : PipelineAction) : Prop :=
  ∀ call w success errorMsg now run,
    a = .advance call w runId success errorMsg now →
    s.runs.row runId = some run → run.status = .running →
    ∀ call' step, ¬ Awaits s.waits runId call' step

/-- **What has been spawned of a run** whose advances do not overlap: steps up
to the current one, and the next one, which one advance waits for. -/
structure SpawnsBehind (runId : ℕ) (es : List PipelineEvent)
    (s : PipelineState) : Prop where
  spawned : ∀ {step : ℕ}, (runId, step) ∈ spawns es →
    ∃ run, s.runs.row runId = some run
      ∧ (step ≤ run.currentStep ∨ ∃ call, Awaits s.waits runId call step)
  awaited : ∀ {call step : ℕ}, Awaits s.waits runId call step →
    ∃ run, s.runs.row runId = some run ∧ step = run.currentStep + 1
  alone : ∀ {call call' step step' : ℕ}, Awaits s.waits runId call step →
    Awaits s.waits runId call' step' → call = call'
  once : ∀ step, (spawns es).count (runId, step) ≤ 1

theorem awaits_update {waits : ℕ → Option SpawnWait} {runId call : ℕ}
    {new : Option SpawnWait} (hold : ∀ step, ¬ Awaits waits runId call step)
    (hnew : ∀ wait, new = some wait →
      ¬ (wait.caller = .advance ∧ wait.runId = runId)) (call' step : ℕ) :
    Awaits (Function.update waits call new) runId call' step
      ↔ Awaits waits runId call' step := by
  by_cases hcall : call' = call
  · subst hcall
    refine iff_of_false (fun h => ?_) (hold step)
    obtain ⟨wait, hwait, hcaller, hid, -⟩ := h
    rw [Function.update_self] at hwait
    exact hnew wait hwait ⟨hcaller, hid⟩
  · unfold Awaits
    rw [Function.update_of_ne hcall]

section

variable {runId : ℕ} {es new : List PipelineEvent} {s' : PipelineState}

/-- A step that spawns nothing of the run, and leaves it where it is. -/
theorem SpawnsBehind.kept (h : SpawnsBehind runId es s)
    (hrow : ∀ run, s.runs.row runId = some run → ∃ run',
      s'.runs.row runId = some run' ∧ run'.currentStep = run.currentStep)
    (hwaits : ∀ call step,
      Awaits s'.waits runId call step ↔ Awaits s.waits runId call step)
    (hnew : ∀ step, (runId, step) ∉ spawns new) :
    SpawnsBehind runId (es ++ new) s' where
  spawned {step} hmem := by
    rw [spawns_append, List.mem_append] at hmem
    obtain ⟨run, hrun, hstep⟩ := h.spawned (hmem.resolve_right (hnew step))
    obtain ⟨run', hrun', hcurrent⟩ := hrow run hrun
    refine ⟨run', hrun', ?_⟩
    rw [hcurrent]
    exact hstep.imp_right fun ⟨call, hcall⟩ => ⟨call, (hwaits call step).mpr hcall⟩
  awaited {call step} hawaits := by
    obtain ⟨run, hrun, hstep⟩ := h.awaited ((hwaits call step).mp hawaits)
    obtain ⟨run', hrun', hcurrent⟩ := hrow run hrun
    exact ⟨run', hrun', hcurrent ▸ hstep⟩
  alone {call call' step step'} hcall hcall' :=
    h.alone ((hwaits call step).mp hcall) ((hwaits call' step').mp hcall')
  once step := by
    rw [spawns_append, List.count_append,
      List.count_eq_zero_of_not_mem (hnew step), Nat.add_zero]
    exact h.once step

theorem write_currentStep {t : PipelineState} {id : ℕ}
    {f : PipelineRun → PipelineRun} (ht : t.runs = s.runs)
    (hf : ∀ run, s.runs.row id = some run → id = runId →
      (f run).currentStep = run.currentStep) :
    ∀ run, s.runs.row runId = some run → ∃ run',
      (t.write id f).runs.row runId = some run'
        ∧ run'.currentStep = run.currentStep := by
  intro run hrun
  rw [PipelineState.write_row, ht]
  split
  · next hid =>
    subst hid
    rw [hrun]
    exact ⟨f run, rfl, hf run hrun rfl⟩
  · exact ⟨run, hrun, rfl⟩

theorem Awaits.eq {call step : ℕ} {wait : SpawnWait}
    (h : Awaits s.waits runId call step) (hwait : s.waits call = some wait) :
    wait.caller = .advance ∧ wait.runId = runId ∧ wait.stepIdx = step := by
  obtain ⟨wait', hwait', hrest⟩ := h
  rw [hwait] at hwait'
  obtain rfl := Option.some.inj hwait'
  exact hrest

theorem not_awaits_of_free {call : ℕ} (hfree : s.waits call = none) (step : ℕ) :
    ¬ Awaits s.waits runId call step := by
  rintro ⟨wait, hwait, -⟩
  rw [hfree] at hwait
  exact absurd hwait (by simp)

/-- **A new run** of that name: nothing of it was spawned before. -/
theorem SpawnsBehind.of_new (h : SpawnsBehind runId es s)
    (hfresh : s.runs.row runId = none) {run : PipelineRun}
    (hrun : s'.runs.row runId = some run)
    (hwaits : ∀ call step,
      Awaits s'.waits runId call step ↔ Awaits s.waits runId call step)
    (hnew : spawns new = [(runId, 0)]) : SpawnsBehind runId (es ++ new) s' := by
  have hnone : ∀ step, (runId, step) ∉ spawns es := fun step hmem => by
    obtain ⟨r, hr, -⟩ := h.spawned hmem
    rw [hfresh] at hr
    exact absurd hr (by simp)
  have hwait : ∀ call step, ¬ Awaits s'.waits runId call step := fun call step hmem => by
    obtain ⟨r, hr, -⟩ := h.awaited ((hwaits call step).mp hmem)
    rw [hfresh] at hr
    exact absurd hr (by simp)
  refine ⟨fun {step} hmem => ⟨run, hrun, ?_⟩, fun hmem => absurd hmem (hwait _ _),
    fun hmem => absurd hmem (hwait _ _), fun step => ?_⟩
  · rw [spawns_append, hnew, List.mem_append] at hmem
    have heq := List.mem_singleton.mp (hmem.resolve_left (hnone step))
    rw [(Prod.mk.inj heq).2]
    exact Or.inl (Nat.zero_le _)
  · rw [spawns_append, hnew, List.count_append,
      List.count_eq_zero_of_not_mem (hnone step), Nat.zero_add]
    exact List.count_le_length

/-- **An advance goes to wait**, while no other one waits: the step that it
spawns is new. -/
theorem SpawnsBehind.awaiting (h : SpawnsBehind runId es s) {call : ℕ}
    {run : PipelineRun} {wait : SpawnWait}
    (hnone : ∀ call step, ¬ Awaits s.waits runId call step)
    (hrun : s.runs.row runId = some run) (hcaller : wait.caller = .advance)
    (hid : wait.runId = runId) (hstepIdx : wait.stepIdx = run.currentStep + 1)
    (hnew : spawns new = [(runId, run.currentStep + 1)]) :
    SpawnsBehind runId (es ++ new) (s.await call wait) := by
  have hself : Awaits (s.await call wait).waits runId call (run.currentStep + 1) :=
    ⟨wait, Function.update_self _ _ _, hcaller, hid, hstepIdx⟩
  have hawaits : ∀ {call' step : ℕ}, Awaits (s.await call wait).waits runId call' step →
      call' = call ∧ step = run.currentStep + 1 := by
    rintro call' step ⟨wait', hwait', hrest⟩
    unfold PipelineState.await at hwait'
    dsimp only at hwait'
    by_cases hcall : call' = call
    · subst hcall
      rw [Function.update_self] at hwait'
      obtain rfl := Option.some.inj hwait'
      exact ⟨rfl, hrest.2.2.symm.trans hstepIdx⟩
    · rw [Function.update_of_ne hcall] at hwait'
      exact absurd ⟨wait', hwait', hrest⟩ (hnone call' step)
  have hbefore : ∀ {step : ℕ}, (runId, step) ∈ spawns es → step ≤ run.currentStep := by
    intro step hmem
    obtain ⟨r, hr, hstep⟩ := h.spawned hmem
    rw [hrun] at hr
    obtain rfl := Option.some.inj hr
    exact hstep.resolve_right fun ⟨call, hcall⟩ => hnone call step hcall
  refine ⟨fun {step} hmem => ⟨run, hrun, ?_⟩,
    fun hmem => ⟨run, hrun, (hawaits hmem).2⟩,
    fun hmem hmem' => (hawaits hmem).1.trans (hawaits hmem').1.symm,
    fun step => ?_⟩
  · rw [spawns_append, hnew, List.mem_append] at hmem
    rcases hmem with hold | hlast
    · exact Or.inl (hbefore hold)
    · obtain ⟨-, rfl⟩ := Prod.mk.inj (List.mem_singleton.mp hlast)
      exact Or.inr ⟨call, hself⟩
  · rw [spawns_append, hnew, List.count_append]
    by_cases hstep : step = run.currentStep + 1
    · have hfirst : (runId, step) ∉ spawns es := fun hmem => by
        have := hbefore hmem
        omega
      rw [List.count_eq_zero_of_not_mem hfirst, Nat.zero_add]
      exact List.count_le_length
    · have hother : (runId, step) ∉ [(runId, run.currentStep + 1)] := fun hmem =>
        hstep (Prod.mk.inj (List.mem_singleton.mp hmem)).2
      rw [List.count_eq_zero_of_not_mem hother]
      exact h.once step

/-- **The advance that waits resumes**: the run is at the step it has
spawned. -/
theorem SpawnsBehind.resumed (h : SpawnsBehind runId es s) {call : ℕ}
    {wait : SpawnWait} (hwait : s.waits call = some wait)
    (hcaller : wait.caller = .advance) (hid : wait.runId = runId)
    (steps : List RunStepState) (hnew : spawns new = []) :
    SpawnsBehind runId (es ++ new)
      ((s.settle call).write wait.runId (.goTo wait.stepIdx steps)) := by
  have hself : Awaits s.waits runId call wait.stepIdx :=
    ⟨wait, hwait, hcaller, hid, rfl⟩
  obtain ⟨run, hrun, hstepIdx⟩ := h.awaited hself
  -- no other advance of the run waits
  have hnone : ∀ {call' step : ℕ},
      ¬ Awaits (Function.update s.waits call none) runId call' step := by
    rintro call' step ⟨wait', hwait', hrest⟩
    by_cases hcall : call' = call
    · subst hcall
      rw [Function.update_self] at hwait'
      exact absurd hwait' (by simp)
    · rw [Function.update_of_ne hcall] at hwait'
      exact hcall (h.alone ⟨wait', hwait', hrest⟩ hself)
  refine ⟨fun {step} hmem => ?_, fun hmem => absurd hmem hnone,
    fun hmem => absurd hmem hnone, fun step => ?_⟩
  · rw [PipelineState.write_row, PipelineState.settle_runs, hid, if_pos rfl, hrun]
    refine ⟨_, rfl, Or.inl ?_⟩
    show step ≤ wait.stepIdx
    rw [spawns_append, hnew, List.append_nil] at hmem
    obtain ⟨r, hr, hstep⟩ := h.spawned hmem
    rw [hrun] at hr
    obtain rfl := Option.some.inj hr
    rcases hstep with hle | ⟨call', hcall'⟩
    · omega
    · obtain rfl := h.alone hcall' hself
      exact (hcall'.eq hwait).2.2.ge
  · rw [spawns_append, hnew, List.append_nil]
    exact h.once step

/-- **Every step keeps what is known of the spawned steps**, as long as the
advances of the run do not overlap. -/
theorem SpawnsBehind.next (rt : Runtime) {a : PipelineAction}
    (h : SpawnsBehind runId es s) (hin : AdvancesAlone runId s a) :
    SpawnsBehind runId (es ++ (pipelineRuns rt).emits s a)
      ((pipelineRuns rt).next s a) := by
  have hstep := runStep rt s a
  generalize (pipelineRuns rt).next s a = s' at hstep ⊢
  generalize (pipelineRuns rt).emits s a = new at hstep ⊢
  have hsame : ∀ call step, Awaits s.waits runId call step
      ↔ Awaits s.waits runId call step := fun _ _ => Iff.rfl
  have hsilent : ∀ step, (runId, step) ∉ ([] : List (ℕ × ℕ)) :=
    fun _ => List.not_mem_nil
  cases hstep with
  | refused hes =>
    exact h.kept (fun run hrun => ⟨run, hrun, rfl⟩) hsame
      (by rw [spawns_refused hes]; exact hsilent)
  | started hpipeline hsteps =>
    exact h.kept (fun run hrun => ⟨run, Table.row_insert_of_some _ _ hrun, rfl⟩)
      hsame hsilent
  | @startWaits call _ _ _ _ _ _ hfree hpipeline hsteps =>
    have hwaits : ∀ first call' step,
        Awaits (Function.update s.waits call (some ⟨.start, s.runs.next, 0, first⟩))
          runId call' step ↔ Awaits s.waits runId call' step := fun first =>
      awaits_update (not_awaits_of_free hfree) fun wait heq hwait => by
        obtain rfl := Option.some.inj heq
        exact nomatch hwait.1
    -- the first step is spawned as the run gets its row
    by_cases hid : runId = s.runs.next
    · exact h.of_new (hid ▸ Table.row_next _) (hid ▸ Table.row_insert_next _ _)
        (hwaits _) (hid ▸ rfl)
    · refine h.kept (fun run hrun => ⟨run, Table.row_insert_of_some _ _ hrun, rfl⟩)
        (hwaits _) (fun step hmem => ?_)
      exact hid (Prod.mk.inj (List.mem_singleton.mp hmem)).1
  | stopped hrun hrunning hcurrent hstop =>
    refine h.kept (write_currentStep rfl fun r hr _ => ?_) hsame hsilent
    rw [hrun] at hr
    rw [← Option.some.inj hr]
    rfl
  | completed hrun hrunning hcurrent hgo hlast =>
    refine h.kept (write_currentStep rfl fun r hr _ => ?_) hsame hsilent
    rw [hrun] at hr
    rw [← Option.some.inj hr]
    rfl
  | @advanced _ _ id _ _ _ run _ _ hrun hrunning hcurrent hgo hnext =>
    by_cases hid : id = runId
    · -- no call waits for the run, so all that was spawned is at its step or before
      subst hid
      have hnone := hin _ _ _ _ _ run rfl hrun hrunning
      refine ⟨fun {step} hmem => ?_, fun hmem => absurd hmem (hnone _ _),
        fun hmem => absurd hmem (hnone _ _), fun step => ?_⟩
      · rw [PipelineState.write_row, if_pos rfl, hrun]
        refine ⟨_, rfl, Or.inl ?_⟩
        rw [spawns_append, List.mem_append] at hmem
        obtain ⟨r, hr, hstep⟩ := h.spawned (hmem.resolve_right (hsilent step))
        rw [hrun] at hr
        obtain rfl := Option.some.inj hr
        rcases hstep with hle | ⟨call, hawaits⟩
        · exact Nat.le_succ_of_le hle
        · exact absurd hawaits (hnone call step)
      · rw [spawns_append, List.count_append]
        exact h.once step
    · exact h.kept (write_currentStep rfl fun _ _ heq => absurd heq hid) hsame hsilent
  | @advanceWaits call _ id _ _ _ run _ _ _ hfree hrun hrunning hcurrent hgo hnext =>
    by_cases hid : id = runId
    · subst hid
      exact h.awaiting (hin _ _ _ _ _ run rfl hrun hrunning) hrun rfl rfl rfl rfl
    · refine h.kept (fun r hr => ⟨r, hr, rfl⟩)
        (awaits_update (not_awaits_of_free hfree) fun wait heq hwait => ?_)
        (fun step hmem => ?_)
      · obtain rfl := Option.some.inj heq
        exact hid hwait.2
      · exact hid (Prod.mk.inj (List.mem_singleton.mp hmem)).1.symm
  | cancelled hrun hopen =>
    exact h.kept (write_currentStep rfl fun _ _ _ => rfl) hsame hsilent
  | startResumed hwait hcaller =>
    refine h.kept (write_currentStep rfl fun _ _ _ => rfl)
      (awaits_update (fun step hawaits => ?_) nofun) hsilent
    rw [(hawaits.eq hwait).1] at hcaller
    exact absurd hcaller (by decide)
  | @advanceResumed call _ _ wait hwait hcaller =>
    by_cases hid : wait.runId = runId
    · exact h.resumed hwait hcaller hid _ rfl
    · refine h.kept (write_currentStep rfl fun _ _ heq => absurd heq hid)
        (awaits_update (fun step hawaits => hid (hawaits.eq hwait).2.1) nofun) hsilent

end

/-! ## Whole runs -/

theorem spawnsKnown_initial : SpawnsKnown [] .initial :=
  ⟨fun h => absurd h List.not_mem_nil, fun _ => Nat.zero_le _⟩

theorem spawnsBehind_initial (runId : ℕ) : SpawnsBehind runId [] .initial :=
  ⟨fun h => absurd h List.not_mem_nil, (fun ⟨_, h, _⟩ => nomatch h),
    (fun ⟨_, h, _⟩ => nomatch h), fun _ => Nat.zero_le _⟩

theorem spawnedByAdvance_of_pos {rt : Runtime} {a : PipelineAction} {runId step : ℕ}
    (hpos : 0 < step) (h : (runId, step) ∈ spawns ((pipelineRuns rt).emits s a)) :
    SpawnedByAdvance s ((pipelineRuns rt).next s a) a runId step :=
  (spawned_by rt s a h).resolve_left fun hfirst => absurd hfirst.1 (Nat.ne_of_gt hpos)

/-- A run of the sample pipeline, advanced once. -/
def sampleAdvanced : List PipelineAction :=
  [.start 0 sampleWorkflows 1 "ann" 100, .spawned 0 (.ok "") 101,
    .advance 1 sampleWorkflows 1 true none 102, .spawned 1 (.ok "") 103]

end MissionControl
