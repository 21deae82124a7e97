import MissionControl.PipelineRuns

/-!
# What pipeline runs keep

Two things should be kept while requests overlap: a run that is over, and a
result that an advance was acknowledged for. A request that has waited for
its spawn writes the snapshot it holds without looking at the run again, so
both can be lost. `pipelineRuns_keep_iff` says exactly when they are not:
each time a request resumes, its run is still running, and no advance has
been acknowledged for the step it has spawned or a later one.

The invariant behind it (`RunsAt`) holds as long as requests resume in time:
every run stands at its current step or is over, and so does every snapshot
that is held, at the step that is spawned.
-/

namespace MissionControl

/-! ## The invariant -/

/-- **A row as the requests leave it**: at its current step, or over. -/
def PipelineRun.Sound (run : PipelineRun) : Prop :=
  (run.status = .running ∧ StepsAt run.stepsSnapshot run.currentStep)
    ∨ (run.status.Terminal ∧ StepsOver run.stepsSnapshot)

/-- A snapshot that is held: at the step that is spawned, which is the first
one for a start. -/
structure SpawnWait.Sound (wait : SpawnWait) : Prop where
  at_step : StepsAt wait.steps wait.stepIdx
  start_iff : wait.caller = .start ↔ wait.stepIdx = 0

/-- An advance was acknowledged with a result for the step. -/
def Acknowledged (es : List PipelineEvent) (runId step : ℕ) : Prop :=
  ∃ e ∈ es, e.Acknowledges runId step

/-- **What holds as long as requests resume in time.** -/
structure RunsAt (es : List PipelineEvent) (s : PipelineState) : Prop where
  /-- Every run is at its step or over. -/
  run_sound : ∀ {id : ℕ} {run : PipelineRun}, s.runs.row id = some run → run.Sound
  wait_sound : ∀ {call : ℕ} {wait : SpawnWait}, s.waits call = some wait → wait.Sound
  /-- A call waits for a run of as many steps. -/
  wait_run : ∀ {call : ℕ} {wait : SpawnWait}, s.waits call = some wait →
    ∃ run, s.runs.row wait.runId = some run
      ∧ run.stepsSnapshot.length = wait.steps.length
  acknowledged : ∀ {id i : ℕ}, Acknowledged es id i →
    ∃ run, s.runs.row id = some run ∧ i < run.stepsSnapshot.length
      ∧ (run.status = .running → i < run.currentStep)
  /-- The step before the current one is acknowledged. -/
  behind : ∀ {id : ℕ} {run : PipelineRun}, s.runs.row id = some run →
    run.status = .running → 0 < run.currentStep →
    Acknowledged es id (run.currentStep - 1)

theorem Acknowledged.of_append {es new : List PipelineEvent} {runId step : ℕ}
    (h : Acknowledged (es ++ new) runId step) :
    Acknowledged es runId step ∨ ∃ e ∈ new, e.Acknowledges runId step := by
  obtain ⟨e, he, hack⟩ := h
  exact (List.mem_append.mp he).imp (fun he => ⟨e, he, hack⟩) (fun he => ⟨e, he, hack⟩)

theorem Acknowledged.append {es : List PipelineEvent} {runId step : ℕ}
    (h : Acknowledged es runId step) (new : List PipelineEvent) :
    Acknowledged (es ++ new) runId step := by
  obtain ⟨e, he, hack⟩ := h
  exact ⟨e, List.mem_append_left new he, hack⟩

theorem Acknowledged.of_silent {es new : List PipelineEvent} {runId step : ℕ}
    (h : Acknowledged (es ++ new) runId step)
    (hnew : ∀ e ∈ new, ¬ e.Acknowledges runId step) :
    Acknowledged es runId step :=
  h.of_append.resolve_right fun ⟨e, he, hack⟩ => hnew e he hack

theorem PipelineEvent.Refusal.not_acknowledges {e : PipelineEvent} (h : e.Refusal)
    (runId step : ℕ) : ¬ e.Acknowledges runId step := by
  cases e <;> simp_all [Refusal, Acknowledges]

theorem runsAt_initial : RunsAt [] .initial where
  run_sound h := nomatch h
  wait_sound h := nomatch h
  wait_run h := nomatch h
  acknowledged h := by
    obtain ⟨e, he, -⟩ := h
    exact absurd he List.not_mem_nil
  behind h := nomatch h

section

variable {es new : List PipelineEvent} {s s' : PipelineState}

/-- **A row is rewritten**, and calls at most stop waiting. -/
theorem RunsAt.rewritten (h : RunsAt es s) {runId : ℕ} {run run' : PipelineRun}
    (hrun : s.runs.row runId = some run)
    (hrow : ∀ id, s'.runs.row id = if id = runId then some run' else s.runs.row id)
    (hwaits : ∀ call wait, s'.waits call = some wait → s.waits call = some wait)
    (hsound : run'.Sound)
    (hlength : run'.stepsSnapshot.length = run.stepsSnapshot.length)
    (hnew : ∀ e ∈ new, ∀ id i, e.Acknowledges id i →
      id = runId ∧ i < run.stepsSnapshot.length)
    (hacked : run'.status = .running → ∀ i, Acknowledged (es ++ new) runId i →
      i < run'.currentStep)
    (hbehind : run'.status = .running → 0 < run'.currentStep →
      Acknowledged (es ++ new) runId (run'.currentStep - 1)) :
    RunsAt (es ++ new) s' where
  run_sound {id r} hr := by
    rw [hrow] at hr
    split at hr
    · obtain rfl := Option.some.inj hr
      exact hsound
    · exact h.run_sound hr
  wait_sound {call wait} hwait := h.wait_sound (hwaits call wait hwait)
  wait_run {call wait} hwait := by
    obtain ⟨r, hr, hlen⟩ := h.wait_run (hwaits call wait hwait)
    rw [hrow]
    split
    · next hid =>
      rw [hid, hrun] at hr
      obtain rfl := Option.some.inj hr
      exact ⟨run', rfl, hlength.trans hlen⟩
    · exact ⟨r, hr, hlen⟩
  acknowledged {id i} hack := by
    rw [hrow]
    by_cases hid : id = runId
    · subst hid
      rw [if_pos rfl]
      refine ⟨run', rfl, ?_, fun hrunning => hacked hrunning i hack⟩
      rw [hlength]
      rcases hack.of_append with hold | ⟨e, he, hnewack⟩
      · obtain ⟨r, hr, hlt, -⟩ := h.acknowledged hold
        rw [hrun] at hr
        obtain rfl := Option.some.inj hr
        exact hlt
      · exact (hnew e he id i hnewack).2
    · rw [if_neg hid]
      exact h.acknowledged
        (hack.of_silent fun e he hnewack => hid (hnew e he id i hnewack).1)
  behind {id r} hr hrunning hpos := by
    rw [hrow] at hr
    split at hr
    · next hid =>
      subst hid
      obtain rfl := Option.some.inj hr
      exact hbehind hrunning hpos
    · exact (h.behind hr hrunning hpos).append new

/-- **A run is started**, and its call may go to wait. -/
theorem RunsAt.inserted (h : RunsAt es s) {run : PipelineRun}
    (hruns : s'.runs = s.runs.insert run) (hrunning : run.status = .running)
    (hcurrent : run.currentStep = 0) (hat : StepsAt run.stepsSnapshot 0)
    (hwaits : ∀ call wait, s'.waits call = some wait →
      s.waits call = some wait
        ∨ wait = ⟨.start, s.runs.next, 0, run.stepsSnapshot⟩)
    (hnew : ∀ e ∈ new, ∀ id i, ¬ e.Acknowledges id i) :
    RunsAt (es ++ new) s' where
  run_sound {id r} hr := by
    rw [hruns, Table.row_insert_eq_some] at hr
    rcases hr with ⟨-, rfl⟩ | hr
    · exact Or.inl ⟨hrunning, hcurrent ▸ hat⟩
    · exact h.run_sound hr
  wait_sound {call wait} hwait := by
    rcases hwaits call wait hwait with hwait | rfl
    · exact h.wait_sound hwait
    · exact ⟨hat, iff_of_true rfl rfl⟩
  wait_run {call wait} hwait := by
    rw [hruns]
    rcases hwaits call wait hwait with hwait | rfl
    · obtain ⟨r, hr, hlen⟩ := h.wait_run hwait
      exact ⟨r, Table.row_insert_of_some _ _ hr, hlen⟩
    · exact ⟨run, Table.row_insert_next _ _, rfl⟩
  acknowledged {id i} hack := by
    obtain ⟨r, hr, hlt⟩ := h.acknowledged
      (hack.of_silent fun e he => hnew e he id i)
    exact ⟨r, hruns ▸ Table.row_insert_of_some _ _ hr, hlt⟩
  behind {id r} hr hrun hpos := by
    rw [hruns, Table.row_insert_eq_some] at hr
    rcases hr with ⟨-, rfl⟩ | hr
    · omega
    · exact (h.behind hr hrun hpos).append new

/-- **An advance goes to wait.** -/
theorem RunsAt.waiting (h : RunsAt es s) {call : ℕ} {wait : SpawnWait}
    (hsound : wait.Sound)
    (hrun : ∃ run, s.runs.row wait.runId = some run
      ∧ run.stepsSnapshot.length = wait.steps.length)
    (hnew : ∀ e ∈ new, ∀ id i, ¬ e.Acknowledges id i) :
    RunsAt (es ++ new) (s.await call wait) where
  run_sound := h.run_sound
  wait_sound {call' wait'} hwait := by
    unfold PipelineState.await at hwait
    dsimp only at hwait
    by_cases hcall : call' = call
    · subst hcall
      rw [Function.update_self] at hwait
      obtain rfl := Option.some.inj hwait
      exact hsound
    · rw [Function.update_of_ne hcall] at hwait
      exact h.wait_sound hwait
  wait_run {call' wait'} hwait := by
    unfold PipelineState.await at hwait
    dsimp only at hwait
    by_cases hcall : call' = call
    · subst hcall
      rw [Function.update_self] at hwait
      obtain rfl := Option.some.inj hwait
      exact hrun
    · rw [Function.update_of_ne hcall] at hwait
      exact h.wait_run hwait
  acknowledged {id i} hack :=
    h.acknowledged (hack.of_silent fun e he => hnew e he id i)
  behind hr hrunning hpos := (h.behind hr hrunning hpos).append new

end

/-! ## One step -/

/-- **A request resumes in time**: its run is still running, and no advance
has been acknowledged for the step it has spawned or a later one. -/
def ResumesInTime (es : List PipelineEvent) (s : PipelineState)
    (a : PipelineAction) : Prop :=
  ∀ call result now wait, a = .spawned call result now →
    s.waits call = some wait →
    (∃ run, s.runs.row wait.runId = some run ∧ run.status = .running)
    ∧ ∀ i, Acknowledged es wait.runId i → i < wait.stepIdx

theorem PipelineState.write_row_of_some {s : PipelineState} {runId : ℕ}
    {run : PipelineRun} (hrun : s.runs.row runId = some run)
    (f : PipelineRun → PipelineRun) (id : ℕ) :
    (s.write runId f).runs.row id
      = if id = runId then some (f run) else s.runs.row id := by
  rw [write_row, hrun, Option.map_some]

theorem PipelineState.of_settle {s : PipelineState} {call call' : ℕ}
    {wait : SpawnWait} (h : (s.settle call).waits call' = some wait) :
    s.waits call' = some wait := by
  unfold settle at h
  dsimp only at h
  by_cases hcall : call' = call
  · subst hcall
    rw [Function.update_self] at h
    exact absurd h (by simp)
  · rwa [Function.update_of_ne hcall] at h

variable {es : List PipelineEvent} {s : PipelineState}

theorem RunsAt.stepsAt (h : RunsAt es s) {id : ℕ} {run : PipelineRun}
    (hrun : s.runs.row id = some run) (hrunning : run.status = .running) :
    StepsAt run.stepsSnapshot run.currentStep := by
  rcases h.run_sound hrun with ⟨-, hat⟩ | ⟨hterminal, -⟩
  · exact hat
  · rw [hrunning] at hterminal
    exact absurd hterminal (by decide)

/-- **Every step keeps the invariant**, as long as requests resume in time. -/
theorem RunsAt.next (rt : Runtime) (h : RunsAt es s) {a : PipelineAction}
    (hin : ResumesInTime es s a) :
    RunsAt (es ++ (pipelineRuns rt).emits s a) ((pipelineRuns rt).next s a) := by
  have hstep := runStep rt s a
  generalize (pipelineRuns rt).next s a = s' at hstep ⊢
  generalize (pipelineRuns rt).emits s a = new at hstep ⊢
  cases hstep with
  | refused hes =>
    have hnew : ∀ e ∈ new, ∀ id i, ¬ e.Acknowledges id i := fun e he id i =>
      (hes e he).not_acknowledges id i
    exact { h with
      acknowledged := fun hack =>
        h.acknowledged (hack.of_silent fun e he => hnew e he _ _)
      behind := fun hr hrunning hpos => (h.behind hr hrunning hpos).append new }
  | started hpipeline hsteps =>
    refine h.inserted rfl rfl rfl (stepsAt_startSnapshot _ hsteps _)
      (fun call wait hwait => Or.inl hwait) ?_
    simp [PipelineEvent.Acknowledges]
  | @startWaits call _ _ _ _ _ _ hfree hpipeline hsteps =>
    refine h.inserted rfl rfl rfl (stepsAt_startSnapshot _ hsteps _)
      (fun call' wait hwait => ?_) ?_
    · dsimp only at hwait
      by_cases hcall : call' = call
      · subst hcall
        rw [Function.update_self] at hwait
        exact Or.inr (Option.some.inj hwait).symm
      · rw [Function.update_of_ne hcall] at hwait
        exact Or.inl hwait
    · simp [PipelineEvent.Acknowledges]
  | @stopped _ _ runId _ _ run _ hrun hrunning hcurrent hstop =>
    have hat := h.stepsAt hrun hrunning
    refine h.rewritten hrun (PipelineState.write_row_of_some hrun _)
      (fun _ _ => id)
      (Or.inr ⟨show RunStatus.failed.Terminal by decide, hat.stopped _ _ _⟩)
      (PipelineRun.length_stoppedSteps _ _ _) ?_ nofun nofun
    simp only [List.mem_cons, List.not_mem_nil, or_false]
    rintro e (rfl | rfl) id i hack
    · exact absurd hack (by simp [PipelineEvent.Acknowledges])
    · obtain ⟨rfl, rfl⟩ := hack
      exact ⟨rfl, hat.lt⟩
  | @completed _ _ runId _ _ _ run _ hrun hrunning hcurrent hgo hlast =>
    have hat := h.stepsAt hrun hrunning
    refine h.rewritten hrun (PipelineState.write_row_of_some hrun _)
      (fun _ _ => id)
      (Or.inr ⟨show RunStatus.completed.Terminal by decide,
        hat.completed _ _ _ hlast⟩)
      (PipelineRun.length_markedSteps _ _ _) ?_ nofun nofun
    simp only [List.mem_cons, List.not_mem_nil, or_false]
    rintro e (rfl | rfl) id i hack
    · exact absurd hack (by simp [PipelineEvent.Acknowledges])
    · obtain ⟨rfl, rfl⟩ := hack
      exact ⟨rfl, hat.lt⟩
  | @advanced _ _ runId _ _ _ run _ _ hrun hrunning hcurrent hgo hnext =>
    have hat := h.stepsAt hrun hrunning
    refine h.rewritten hrun (PipelineState.write_row_of_some hrun _)
      (fun _ _ => id) (Or.inl ⟨hrunning, hat.next _ _ _ hnext⟩)
      (PipelineRun.length_nextSteps _ _ _) ?_ (fun _ i hack => ?_) (fun _ _ => ?_)
    · simp only [List.mem_cons, List.not_mem_nil, or_false]
      rintro e (rfl | rfl) id i hack
      · exact absurd hack (by simp [PipelineEvent.Acknowledges])
      · obtain ⟨rfl, rfl⟩ := hack
        exact ⟨rfl, hat.lt⟩
    · show i < run.currentStep + 1
      rcases hack.of_append with hold | ⟨e, he, hnewack⟩
      · obtain ⟨r, hr, -, hlt⟩ := h.acknowledged hold
        rw [hrun] at hr
        obtain rfl := Option.some.inj hr
        exact Nat.lt_succ_of_lt (hlt hrunning)
      · simp only [List.mem_cons, List.not_mem_nil, or_false] at he
        rcases he with rfl | rfl
        · exact absurd hnewack (by simp [PipelineEvent.Acknowledges])
        · obtain ⟨-, rfl⟩ := hnewack
          exact Nat.lt_succ_self _
    · exact ⟨_, List.mem_append_right _ (List.mem_cons_of_mem _ List.mem_cons_self),
        rfl, rfl⟩
  | advanceWaits hfree hrun hrunning hcurrent hgo hnext =>
    have hat := h.stepsAt hrun hrunning
    refine h.waiting ⟨hat.next _ _ _ hnext, by simp⟩
      ⟨_, hrun, (PipelineRun.length_nextSteps _ _ _).symm⟩ ?_
    simp [PipelineEvent.Acknowledges]
  | cancelled hrun hopen =>
    refine h.rewritten hrun (PipelineState.write_row_of_some hrun _)
      (fun _ _ => id)
      (Or.inr ⟨show RunStatus.cancelled.Terminal by decide, stepsOver_cancel _ _⟩)
      (List.length_map _) ?_ nofun nofun
    simp [PipelineEvent.Acknowledges]
  | @startResumed _ result now wait hwait hcaller =>
    obtain ⟨⟨run, hrun, hrunning⟩, hacked⟩ := hin _ _ _ _ rfl hwait
    obtain ⟨r, hr, hlength⟩ := h.wait_run hwait
    rw [hrun] at hr
    obtain rfl := Option.some.inj hr
    have hsound := h.wait_sound hwait
    have hzero := hsound.start_iff.mp hcaller
    -- nothing was acknowledged, so the run is still at its first step
    have hnone : ∀ i, ¬ Acknowledged es _ i := fun i hack => by
      have := hacked i hack
      omega
    have hcurrent : run.currentStep = 0 := by
      by_contra hne
      exact hnone _ (h.behind hrun hrunning (Nat.pos_of_ne_zero hne))
    have hnew : ∀ e ∈ [PipelineEvent.startResponse wait.runId
        (wait.spawnedSteps result now) (some result)], ∀ id i,
        ¬ e.Acknowledges id i := by
      simp [PipelineEvent.Acknowledges]
    refine h.rewritten hrun (PipelineState.write_row_of_some hrun _)
      (fun _ _ => PipelineState.of_settle) (Or.inl ⟨hrunning, ?_⟩)
      ((SpawnWait.length_spawnedSteps _ _ _).trans hlength.symm)
      (fun e he id i hack => absurd hack (hnew e he id i)) ?_ ?_
    · show StepsAt _ run.currentStep
      rw [hcurrent, ← hzero]
      exact hsound.at_step.spawned _ _
    · exact fun _ i hack => absurd (hack.of_silent fun e he => hnew e he _ i) (hnone i)
    · exact fun _ hpos => absurd hcurrent (Nat.ne_of_gt hpos)
  | @advanceResumed _ _ _ wait hwait hcaller =>
    obtain ⟨⟨run, hrun, hrunning⟩, hacked⟩ := hin _ _ _ _ rfl hwait
    obtain ⟨r, hr, hlength⟩ := h.wait_run hwait
    rw [hrun] at hr
    obtain rfl := Option.some.inj hr
    have hsound := h.wait_sound hwait
    have hpos : 0 < wait.stepIdx := Nat.pos_of_ne_zero fun hzero => by
      rw [hsound.start_iff.mpr hzero] at hcaller
      exact absurd hcaller (by decide)
    have hlt := hsound.at_step.lt
    refine h.rewritten hrun (PipelineState.write_row_of_some hrun _)
      (fun _ _ => PipelineState.of_settle)
      (Or.inl ⟨hrunning, hsound.at_step.spawned _ _⟩)
      ((SpawnWait.length_spawnedSteps _ _ _).trans hlength.symm) ?_
      (fun _ i hack => ?_) (fun _ _ => ?_)
    · intro e he id i hack
      obtain rfl := List.mem_singleton.mp he
      obtain ⟨rfl, rfl⟩ := hack
      exact ⟨rfl, by omega⟩
    · show i < wait.stepIdx
      rcases hack.of_append with hold | ⟨e, he, hnewack⟩
      · exact hacked i hold
      · obtain rfl := List.mem_singleton.mp he
        obtain ⟨-, rfl⟩ := hnewack
        omega
    · exact ⟨_, List.mem_append_right _ List.mem_cons_self, rfl, rfl⟩

/-! ## What is kept -/

/-- Two rows of one run say the same about its result. -/
structure PipelineRun.SameResult (run run' : PipelineRun) : Prop where
  status : run'.status = run.status
  currentStep : run'.currentStep = run.currentStep
  stepsSnapshot : run'.stepsSnapshot = run.stepsSnapshot
  completedAt : run'.completedAt = run.completedAt

/-- **What a step is to keep**: runs that are over, and results that were
acknowledged before or are acknowledged by the step. -/
structure KeepsResults (rt : Runtime) (es : List PipelineEvent)
    (s : PipelineState) (a : PipelineAction) : Prop where
  terminal : ∀ id run, s.runs.row id = some run → run.status.Terminal →
    ∃ run', ((pipelineRuns rt).next s a).runs.row id = some run'
      ∧ run.SameResult run'
  acknowledged : ∀ id i,
    Acknowledged (es ++ (pipelineRuns rt).emits s a) id i →
    ∀ run, ((pipelineRuns rt).next s a).runs.row id = some run →
    ∀ step, run.stepsSnapshot[i]? = some step → step.Closed

theorem RunsAt.closed (h : RunsAt es s) {id i : ℕ} (hack : Acknowledged es id i)
    {run : PipelineRun} (hrun : s.runs.row id = some run) {step : RunStepState}
    (hstep : run.stepsSnapshot[i]? = some step) : step.Closed := by
  obtain ⟨r, hr, -, hlt⟩ := h.acknowledged hack
  rw [hrun] at hr
  obtain rfl := Option.some.inj hr
  rcases h.run_sound hrun with ⟨hrunning, hat⟩ | ⟨-, hover⟩
  · exact (hat.before i step hstep (hlt hrunning)).closed
  · exact hover step (List.mem_of_getElem? hstep)

/-- **A run that is over is left alone**, as long as requests resume in time. -/
theorem RunsAt.terminal_kept (rt : Runtime) {a : PipelineAction}
    (hin : ResumesInTime es s a) {id : ℕ} {run : PipelineRun}
    (hrun : s.runs.row id = some run) (hterminal : run.status.Terminal) :
    ((pipelineRuns rt).next s a).runs.row id = some run := by
  have hstep := runStep rt s a
  generalize (pipelineRuns rt).next s a = s' at hstep ⊢
  generalize (pipelineRuns rt).emits s a = new at hstep ⊢
  -- a row that is rewritten was running, or waited to run
  have hother : ∀ {runId : ℕ} {r : PipelineRun}, s.runs.row runId = some r →
      r.status = .running ∨ r.status = .pending → id ≠ runId := by
    rintro runId r hr hopen rfl
    rw [hrun] at hr
    obtain rfl := Option.some.inj hr
    rcases hopen with hopen | hopen <;> rw [hopen] at hterminal <;>
      exact absurd hterminal (by decide)
  have hwrite : ∀ {t : PipelineState} {runId : ℕ} {r : PipelineRun}
      {f : PipelineRun → PipelineRun}, t.runs = s.runs →
      s.runs.row runId = some r → r.status = .running ∨ r.status = .pending →
      (t.write runId f).runs.row id = some run := by
    intro t runId r f ht hr hopen
    rw [PipelineState.write_row, if_neg (hother hr hopen), ht, hrun]
  cases hstep with
  | refused hes => exact hrun
  | started hpipeline hsteps => exact Table.row_insert_of_some _ _ hrun
  | startWaits hfree hpipeline hsteps => exact Table.row_insert_of_some _ _ hrun
  | stopped hr hrunning hcurrent hstop => exact hwrite rfl hr (Or.inl hrunning)
  | completed hr hrunning hcurrent hgo hlast => exact hwrite rfl hr (Or.inl hrunning)
  | advanced hr hrunning hcurrent hgo hnext => exact hwrite rfl hr (Or.inl hrunning)
  | advanceWaits hfree hr hrunning hcurrent hgo hnext => exact hrun
  | cancelled hr hopen => exact hwrite rfl hr hopen
  | startResumed hwait hcaller =>
    obtain ⟨⟨r, hr, hrunning⟩, -⟩ := hin _ _ _ _ rfl hwait
    exact hwrite rfl hr (Or.inl hrunning)
  | advanceResumed hwait hcaller =>
    obtain ⟨⟨r, hr, hrunning⟩, -⟩ := hin _ _ _ _ rfl hwait
    exact hwrite rfl hr (Or.inl hrunning)

/-- **A request that resumes** puts the snapshot that it held into its run. -/
theorem resumed_row (rt : Runtime) {call : ℕ} (result : SpawnResult) (now : ℕ)
    {wait : SpawnWait} (hwait : s.waits call = some wait) {run : PipelineRun}
    (hrun : s.runs.row wait.runId = some run) :
    ∃ run', ((pipelineRuns rt).next s (.spawned call result now)).runs.row
        wait.runId = some run'
      ∧ run'.stepsSnapshot = wait.spawnedSteps result now := by
  show ∃ run', (resumeSpawn s call result now).1.runs.row wait.runId = some run' ∧ _
  unfold resumeSpawn
  rw [hwait]
  dsimp only
  cases wait.caller with
  | start =>
    refine ⟨run.keep (wait.spawnedSteps result now), ?_, rfl⟩
    rw [PipelineState.write_row, if_pos rfl, PipelineState.settle_runs, hrun]
    rfl
  | advance =>
    refine ⟨(run.keep (wait.spawnedSteps result now)).goTo wait.stepIdx
      (wait.spawnedSteps result now), ?_, rfl⟩
    rw [PipelineState.write_row, if_pos rfl, PipelineState.write_row, if_pos rfl,
      PipelineState.settle_runs, hrun]
    rfl

/-- **A step keeps the results exactly if the request it resumes does so in
time.** -/
theorem RunsAt.keepsResults_iff (rt : Runtime) (h : RunsAt es s)
    (a : PipelineAction) : KeepsResults rt es s a ↔ ResumesInTime es s a := by
  constructor
  · rintro hkeeps call result now wait rfl hwait
    obtain ⟨run, hrun, hlength⟩ := h.wait_run hwait
    have hat := (h.wait_sound hwait).at_step.spawned result now
    obtain ⟨run', hrun', hsnapshot⟩ := resumed_row rt result now hwait hrun
    refine ⟨?_, fun i hack => ?_⟩
    · rcases h.run_sound hrun with ⟨hrunning, -⟩ | ⟨hterminal, hover⟩
      · exact ⟨run, hrun, hrunning⟩
      · -- the snapshot of a run that is over would have to be at a step
        obtain ⟨r, hr, hsame⟩ := hkeeps.terminal _ run hrun hterminal
        rw [hrun'] at hr
        obtain rfl := Option.some.inj hr
        rw [← hsame.stepsSnapshot, hsnapshot] at hover
        exact absurd hover hat.not_over
    · obtain ⟨r, hr, hlt, -⟩ := h.acknowledged hack
      rw [hrun] at hr
      obtain rfl := Option.some.inj hr
      have hi : i < (wait.spawnedSteps result now).length := by
        rw [SpawnWait.length_spawnedSteps, ← hlength]
        exact hlt
      have hstep := List.getElem?_eq_getElem hi
      have hclosed := hkeeps.acknowledged _ i (hack.append _) run' hrun' _
        (by rw [hsnapshot]; exact hstep)
      by_contra hle
      rcases Nat.lt_or_eq_of_le (Nat.le_of_not_lt hle) with hlt | heq
      · exact hclosed.1 (hat.after i _ hstep hlt)
      · subst heq
        exact hclosed.2 (hat.current _ hstep)
  · intro hin
    refine ⟨fun id run hrun hterminal => ⟨run, ?_, ⟨rfl, rfl, rfl, rfl⟩⟩, ?_⟩
    · exact RunsAt.terminal_kept rt hin hrun hterminal
    · exact fun id i hack run hrun step hstep => (h.next rt hin).closed hack hrun hstep

/-- **Runs keep their results exactly when requests resume in time**: in any
interleaving of requests, from no run at all, every step leaves the runs that
are over as they are and shows no acknowledged step as pending or running
exactly if, each time a request resumes, its run is still running and no
advance has been acknowledged for the step it has spawned or a later one. -/
theorem pipelineRuns_keep_iff (rt : Runtime) (as : List PipelineAction) :
    (pipelineRuns rt).Throughout (KeepsResults rt) .initial as
      ↔ (pipelineRuns rt).Throughout ResumesInTime .initial as :=
  (pipelineRuns rt).throughout_iff runsAt_initial
    (fun _ _ _ h hin => h.next rt hin) (fun _ _ a h => h.keepsResults_iff rt a) as

/-! ## A cancelled run that goes on -/

/-- A pipeline of two steps. -/
def sampleWorkflows : Workflows where
  pipeline id :=
    if id = 1 then some ⟨"release", [⟨1, some .stop⟩, ⟨2, some .stop⟩]⟩ else none
  template id := if id = 1 ∨ id = 2 then
    some ⟨"work", "Do it.", .finite 300⟩ else none

/-- The run is cancelled while its first step is spawned. -/
def sampleCancelled : List PipelineAction :=
  [.start 0 sampleWorkflows 1 "ann" 100, .cancel 1 101, .spawned 0 (.ok "") 102]

/-- **A cancelled run is written once more**: its first step, skipped by the
cancellation, is shown as running when the start resumes. -/
theorem not_pipelineRuns_keep :
    ¬ ∀ (rt : Runtime) (as : List PipelineAction),
      (pipelineRuns rt).Throughout (KeepsResults rt) .initial as := by
  intro h
  have hlast := h sampleRuntime sampleCancelled [_, _] _ (List.prefix_refl _)
  obtain ⟨run, hrun, hsame⟩ := hlast.terminal 1 _ rfl (by decide)
  have hstatus := congrArg (List.map RunStepState.status) hsame.stepsSnapshot
  rw [← Option.some.inj hrun] at hstatus
  exact absurd hstatus (by decide)

end MissionControl
