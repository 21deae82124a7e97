import MissionControl.Lifecycle

/-!
# What a completed job has been through

`Step.jobMove` lists what one step can do to the row of a job: nothing, a
change of status by a request, a start, or the end of the execution that is
in flight. `Played` ties the rows to the trace: an execution that waits has
had every step before it dispatched and returned in the order of the plan,
and a completed job has one execution that went through the whole plan.

Put together they are the life of a job over every run (`job_lifecycle`).

A job can be started again after it has failed, so turns are kept by execution and not by
job. Which execution is that of the row is known from `Sound`; that an execution which
completes has been through the plan of the row, from the plan being no column that a
request writes.
-/

namespace MissionControl

/-! ## The row of a job -/

/-- The columns of a job that no request writes are the same. -/
structure ProvisionJob.SameRequest (job job' : ProvisionJob) : Prop where
  tenantId : job'.tenantId = job.tenantId
  jobType : job'.jobType = job.jobType
  dryRun : job'.dryRun = job.dryRun
  requestedBy : job'.requestedBy = job.requestedBy
  requestJson : job'.requestJson = job.requestJson
  planJson : job'.planJson = job.planJson

namespace ProvisionJob.SameRequest

theorem refl (job : ProvisionJob) : job.SameRequest job :=
  ⟨rfl, rfl, rfl, rfl, rfl, rfl⟩

theorem trans {job job' job'' : ProvisionJob} (h : job.SameRequest job')
    (h' : job'.SameRequest job'') : job.SameRequest job'' :=
  ⟨h'.tenantId.trans h.tenantId, h'.jobType.trans h.jobType,
    h'.dryRun.trans h.dryRun, h'.requestedBy.trans h.requestedBy,
    h'.requestJson.trans h.requestJson, h'.planJson.trans h.planJson⟩

theorem symm {job job' : ProvisionJob} (h : job.SameRequest job') :
    job'.SameRequest job :=
  ⟨h.tenantId.symm, h.jobType.symm, h.dryRun.symm, h.requestedBy.symm,
    h.requestJson.symm, h.planJson.symm⟩

theorem running (job : ProvisionJob) :
    job.SameRequest { job with status := .running } :=
  ⟨rfl, rfl, rfl, rfl, rfl, rfl⟩

theorem completedJob (ex : Execution) (job : ProvisionJob) :
    job.SameRequest (ex.completedJob job) :=
  ⟨rfl, rfl, rfl, rfl, rfl, rfl⟩

theorem failedJob (ex : Execution) (err : Exception) (job : ProvisionJob) :
    job.SameRequest (ex.failedJob err job) :=
  ⟨rfl, rfl, rfl, rfl, rfl, rfl⟩

theorem write (action : ProvisionJobAction) (actor : String)
    (job : ProvisionJob) : job.SameRequest (action.write actor job) := by
  cases action <;> exact ⟨rfl, rfl, rfl, rfl, rfl, rfl⟩

end ProvisionJob.SameRequest

/-- **What a step can do to the row of a job.** -/
inductive JobMove (s : State) (id : ℕ) (job : ProvisionJob) :
    Action → ProvisionJob → Prop
  | stays {a} : JobMove s id job a job
  | transition {actor action} (hsource : job.status ∈ action.sources) :
    JobMove s id job (.transition id actor action) (action.write actor job)
  /-- An execution starts, and may fail at its first step. -/
  | execute {e actor fsError job'} (hstatus : job.status = .approved)
      (hsame : job.SameRequest job')
      (hnew : job'.status = .running ∨ job'.status = .failed) :
    JobMove s id job (.execute e id actor fsError) job'
  | resume {e event ex job'} (hex : s.executions e = some ex)
      (hawait : ex.awaiting.isSome = true) (hid : ex.jobId = id)
      (hsame : job.SameRequest job')
      (hnew : job'.status = .completed ∨ job'.status = .failed) :
    JobMove s id job (.resume e event) job'

theorem JobMove.sameRequest {s : State} {id : ℕ} {job job' : ProvisionJob}
    {a : Action} (h : JobMove s id job a job') : job.SameRequest job' := by
  cases h with
  | stays => exact .refl job
  | @transition actor action _ => exact .write action actor job
  | execute _ hsame _ => exact hsame
  | resume _ _ _ hsame _ => exact hsame

/-- What the loop of an execution does to the row of a job: it may end the
job of the execution. -/
theorem Advance.job {site : Site} {s s' : State} {e : ℕ} {ex : Execution}
    {es : List Event} (h : Advance site s e ex s' es) {id : ℕ}
    {job : ProvisionJob} (hjob : s.jobs.row id = some job) :
    s'.jobs.row id = some job
      ∨ ex.jobId = id ∧ ∃ job', s'.jobs.row id = some job'
        ∧ job.SameRequest job'
        ∧ (job'.status = .failed ∨ ex.rest = [] ∧ job'.status = .completed) := by
  by_cases hid : ex.jobId = id
  · subst hid
    cases h with
    | completes hrest =>
      refine Or.inr ⟨rfl, ex.completedJob job, ?_, .completedJob ex job,
        Or.inr ⟨hrest, rfl⟩⟩
      rw [State.complete_jobs, Table.row_update_self, hjob, Option.map_some]
    | @throws _ _ err _ _ =>
      refine Or.inr ⟨rfl, ex.failedJob err job, ?_, .failedJob ex err job,
        Or.inl rfl⟩
      rw [State.fail_jobs, Table.row_update_self, hjob, Option.map_some]
    | dispatches _ _ => exact Or.inl hjob
  · refine Or.inl ?_
    cases h with
    | completes _ =>
      rw [State.complete_jobs, Table.row_update_of_ne _ _ (Ne.symm hid), hjob]
    | throws _ _ =>
      rw [State.fail_jobs, Table.row_update_of_ne _ _ (Ne.symm hid), hjob]
    | dispatches _ _ => exact hjob

/-- **Every step moves a row in one of the listed ways.** -/
theorem Step.jobMove {site : Site} {s s' : State} {a : Action}
    {es : List Event} (hstep : Step site s a s' es) {id : ℕ}
    {job : ProvisionJob} (hjob : s.jobs.row id = some job) :
    ∃ job', s'.jobs.row id = some job' ∧ JobMove s id job a job' := by
  cases hstep with
  | refused _ => exact ⟨job, hjob, .stays⟩
  | createTenant _ _ _ =>
    exact ⟨job, Table.row_insert_of_some _ _ hjob, .stays⟩
  | decommission _ _ _ => exact ⟨job, Table.row_insert_of_some _ _ hjob, .stays⟩
  | postJob _ _ => exact ⟨job, Table.row_insert_of_some _ _ hjob, .stays⟩
  | @transition jobId actor action job₁ _ hjob₁ _ hsource =>
    by_cases hid : id = jobId
    · subst hid
      obtain rfl : job = job₁ := Option.some.inj (hjob.symm.trans hjob₁)
      refine ⟨action.write actor job, ?_, .transition hsource⟩
      rw [Table.row_update_self, hjob, Option.map_some]
    · refine ⟨job, ?_, .stays⟩
      rw [Table.row_update_of_ne _ _ hid, hjob]
  | @execute e jobId actor _ _ _ _ _ hfree hstart hadvance =>
    obtain ⟨job₁, tenant, hs, -, rfl⟩ := startExecution_eq_ok.mp hstart
    by_cases hid : id = jobId
    · subst hid
      obtain rfl : job = job₁ := Option.some.inj (hjob.symm.trans hs.jobRow)
      have hrunning : (s.start e (job.execution tenant id actor)).jobs.row id
          = some { job with status := .running } := by
        show (s.jobs.update id _).row id = _
        rw [Table.row_update_self, hjob, Option.map_some]
      -- the loop leaves the job running, or ends it at once
      rcases hadvance.job hrunning with h | ⟨-, job', h, hsame, hend⟩
      · exact ⟨_, h, .execute hs.approved (.running job) (Or.inl rfl)⟩
      · refine ⟨job', h, .execute hs.approved
          (.trans (.running job) hsame) (Or.inr ?_)⟩
        exact hend.resolve_right (fun hrest => hs.hasSteps hrest.1)
    · have hsame : (s.start e (job₁.execution tenant jobId actor)).jobs.row id
          = some job := by
        show (s.jobs.update jobId _).row id = _
        rw [Table.row_update_of_ne _ _ hid, hjob]
      rcases hadvance.job hsame with h | ⟨hid', -⟩
      · exact ⟨job, h, .stays⟩
      · exact absurd hid'.symm hid
  | @resumeError e _ ex _ err hex hawait _ =>
    by_cases hid : ex.jobId = id
    · subst hid
      refine ⟨ex.failedJob err job, ?_,
        .resume hex (by simp [hawait]) rfl (.failedJob ex err job)
          (Or.inr rfl)⟩
      rw [State.fail_jobs, Table.row_update_self, hjob, Option.map_some]
    · refine ⟨job, ?_, .stays⟩
      rw [State.fail_jobs, Table.row_update_of_ne _ _ (Ne.symm hid), hjob]
  | resumeOk hex hawait _ hadvance =>
    rcases hadvance.job hjob with h | ⟨hid, job', h, hsame, hend⟩
    · exact ⟨job, h, .stays⟩
    · exact ⟨job', h, .resume hex (by simp [hawait]) hid hsame
        (hend.symm.imp_left And.right)⟩

/-- **Where a new row comes from.** -/
inductive NewJob (site : Site) (s s' : State) (es : List Event) :
    ProvisionJob → Prop
  | bootstrap {request actor r}
      (hread : readBootstrapRequest site.rt site.web request = .ok r)
      (htenant : s'.tenants.row s.tenants.next = some (r.tenant site.web actor)) :
    NewJob site s s' es (r.job site.web s.tenants.next actor)
  | decommission {tenantId request actor t r}
      (htenant : s'.tenants.row tenantId = some t)
      (hread : readDecommissionRequest site.rt request = .ok r) :
    NewJob site s s' es (r.job tenantId t actor)
  | posted {body actor t r} (hread : readQueueRequest site.rt body = .ok r)
      (htenant : s'.tenants.row r.tenantId = some t)
      (hshown : .jobPosted s.jobs.next ∈ es) :
    NewJob site s s' es (r.job actor)

theorem NewJob.tenant {site : Site} {s s' : State} {es : List Event}
    {job : ProvisionJob} (h : NewJob site s s' es job) :
    ∃ t, s'.tenants.row job.tenantId = some t := by
  cases h with
  | bootstrap _ htenant => exact ⟨_, htenant⟩
  | decommission htenant _ => exact ⟨_, htenant⟩
  | posted _ htenant _ => exact ⟨_, htenant⟩

theorem Advance.job_none {site : Site} {s s' : State} {e : ℕ} {ex : Execution}
    {es : List Event} (h : Advance site s e ex s' es) {id : ℕ}
    (hid : s.jobs.row id = none) : s'.jobs.row id = none := by
  have hwrite : ∀ f, (s.jobs.update ex.jobId f).row id = none := by
    intro f
    rw [Table.row_update]
    split
    · next heq => rw [← heq, hid, Option.map_none]
    · exact hid
  cases h with
  | completes _ => exact hwrite _
  | throws _ _ => exact hwrite _
  | dispatches _ _ => exact hid

/-- **A row after a step** was there before, or it is a new one under the
next id. -/
theorem Step.job_origin {site : Site} {s s' : State} {a : Action}
    {es : List Event} (hstep : Step site s a s' es) {id : ℕ}
    {job' : ProvisionJob} (hjob' : s'.jobs.row id = some job') :
    (∃ job, s.jobs.row id = some job ∧ JobMove s id job a job')
      ∨ id = s.jobs.next ∧ NewJob site s s' es job' := by
  cases hold : s.jobs.row id with
  | some job =>
    obtain ⟨job₁, hjob₁, hmove⟩ := hstep.jobMove hold
    obtain rfl : job₁ = job' := Option.some.inj (hjob₁.symm.trans hjob')
    exact Or.inl ⟨job, rfl, hmove⟩
  | none =>
    have hinsert : ∀ job, (s.jobs.insert job).row id = some job' →
        id = s.jobs.next ∧ job' = job := by
      intro job h
      exact ((Table.row_insert_eq_some _ _).mp h).resolve_right (by simp [hold])
    have hupdate : ∀ jobId f, (s.jobs.update jobId f).row id = none := by
      intro jobId f
      rw [Table.row_update]
      split
      · next heq => rw [← heq, hold, Option.map_none]
      · exact hold
    have hgone : s'.jobs.row id ≠ none := by simp [hjob']
    refine Or.inr ?_
    cases hstep with
    | refused _ => exact absurd hold hgone
    | createTenant hread _ _ =>
      obtain ⟨hid, rfl⟩ := hinsert _ hjob'
      exact ⟨hid, .bootstrap hread (Table.row_insert_next _ _)⟩
    | decommission _ htenant hread =>
      obtain ⟨hid, rfl⟩ := hinsert _ hjob'
      exact ⟨hid, .decommission htenant hread⟩
    | postJob hread htenant =>
      obtain ⟨hid, rfl⟩ := hinsert _ hjob'
      exact ⟨hid, .posted hread htenant (List.mem_singleton_self _)⟩
    | transition _ _ _ => exact absurd (hupdate _ _) hgone
    | @execute e _ _ _ ex _ _ _ _ _ hadvance =>
      have hstart : (s.start e ex).jobs.row id = none := hupdate _ _
      exact absurd (hadvance.job_none hstart) hgone
    | resumeError _ _ _ => exact absurd (hupdate _ _) hgone
    | resumeOk _ _ _ hadvance => exact absurd (hadvance.job_none hold) hgone

theorem Step.terminal {site : Site} {es es' : List Event} {s s' : State}
    {a : Action} (h : Sound none es s) (hstep : Step site s a s' es') {id : ℕ}
    {job : ProvisionJob} (hjob : s.jobs.row id = some job)
    (hterminal : job.status ∈ [.completed, .cancelled]) :
    s'.jobs.row id = some job := by
  obtain ⟨job', hjob', hmove⟩ := hstep.jobMove hjob
  have hne : job.status ≠ .approved ∧ job.status ≠ .running := by
    refine ⟨fun hs => ?_, fun hs => ?_⟩
    · rw [hs] at hterminal
      exact absurd hterminal (by decide)
    · rw [hs] at hterminal
      exact absurd hterminal (by decide)
  cases hmove with
  | stays => exact hjob'
  | @transition _ action hsource =>
    have hnot : ∀ status ∈ action.sources,
        status ∉ [ProvisionJobStatus.completed, .cancelled] := by
      cases action <;> decide
    exact absurd hterminal (hnot _ hsource)
  | execute hstatus _ _ => exact absurd hstatus hne.1
  | resume hex hawait hid _ _ =>
    exact absurd (h.busy ⟨hex, Or.inl hawait⟩ (hid ▸ hjob)).1 hne.2

/-- A running job leaves its status by the end of the execution that put it
there. -/
theorem Step.leaves_running {site : Site} {es es' : List Event} {s s' : State}
    {a : Action} (h : Sound none es s) (hstep : Step site s a s' es') {id : ℕ}
    {job job' : ProvisionJob} (hjob : s.jobs.row id = some job)
    (hrunning : job.status = .running) (hjob' : s'.jobs.row id = some job')
    (hleft : job'.status ≠ .running) :
    ∃ e event, a = .resume e event ∧ lastStarter id es = some e := by
  obtain ⟨job₁, hjob₁, hmove⟩ := hstep.jobMove hjob
  obtain rfl : job₁ = job' := Option.some.inj (hjob₁.symm.trans hjob')
  cases hmove with
  | stays => exact absurd hrunning hleft
  | @transition _ action hsource =>
    rw [hrunning] at hsource
    cases action <;> exact absurd hsource (by decide)
  | execute hstatus _ _ =>
    rw [hrunning] at hstatus
    exact absurd hstatus (by decide)
  | @resume e event ex _ hex hawait hid _ _ =>
    subst hid
    exact ⟨e, event, rfl, (h.busy ⟨hex, Or.inl hawait⟩ hjob).2.1⟩

/-! ## The turns of an execution -/

/-- What an event shows of the loop of an execution: a step handed over, or
its outcome. -/
def Event.turnOf (e : ℕ) : Event → Option (Json ⊕ Except Exception StepResult)
  | .dispatched e' _ step _ => if e' = e then some (.inl step) else none
  | .returned e' _ outcome => if e' = e then some (.inr outcome) else none
  | _ => none

/-- **The turns of an execution** in a trace, oldest first. -/
def turns (e : ℕ) (es : List Event) : List (Json ⊕ Except Exception StepResult) :=
  es.filterMap (Event.turnOf e)

/-- Each step handed over and returned, in order. -/
def cleanTurns (steps : List Json) (results : List StepResult) :
    List (Json ⊕ Except Exception StepResult) :=
  (steps.zip results).flatMap (fun (step, result) => [.inl step, .inr (.ok result)])

/-- One result for each step, with exit code 0, and skipped exactly in a dry
run. -/
def Clean (dryRun : Bool) (steps : List Json) (results : List StepResult) : Prop :=
  results.length = steps.length
    ∧ ∀ r ∈ results, r.code = some 0 ∧ r.skipped = dryRun

theorem turns_append (e : ℕ) (es es' : List Event) :
    turns e (es ++ es') = turns e es ++ turns e es' :=
  List.filterMap_append

theorem cleanTurns_concat {steps : List Json} {results : List StepResult}
    (h : results.length = steps.length) (step : Json) (result : StepResult) :
    cleanTurns (steps ++ [step]) (results ++ [result])
      = cleanTurns steps results ++ [.inl step, .inr (.ok result)] := by
  unfold cleanTurns
  rw [List.zip_append h.symm, List.flatMap_append]
  rfl

theorem Clean.concat {dryRun : Bool} {steps : List Json}
    {results : List StepResult} (h : Clean dryRun steps results) (step : Json)
    {result : StepResult} (hcode : result.code = some 0)
    (hskipped : result.skipped = dryRun) :
    Clean dryRun (steps ++ [step]) (results ++ [result]) := by
  refine ⟨by simp [h.1], fun r hr => ?_⟩
  rcases List.mem_append.mp hr with hr | hr
  · exact h.2 r hr
  · rw [List.mem_singleton.mp hr]
    exact ⟨hcode, hskipped⟩

theorem Advance.turns_of_ne {site : Site} {s s' : State} {e : ℕ}
    {ex : Execution} {es : List Event} (h : Advance site s e ex s' es) {e' : ℕ}
    (hne : e' ≠ e) : turns e' es = [] := by
  cases h with
  | completes _ => rfl
  | throws _ _ => rfl
  | dispatches _ _ => simp [turns, Event.turnOf, Ne.symm hne]

theorem turns_startArtifacts {rt : Runtime} {p : Process} {job : ProvisionJob}
    {tenant : Tenant} {jobId : ℕ} {fsError : Option Exception}
    {artifacts : List Event}
    (h : startArtifacts rt p job tenant jobId fsError = .ok artifacts) (e : ℕ) :
    turns e artifacts = [] := by
  rcases startArtifacts_ok h with rfl | ⟨path, content, rfl⟩
  · rfl
  · rfl

/-- The transport of a step belongs to a dry run exactly if the execution
does, unless it was refused. -/
theorem isDryRun_of_beginStep {rt : Runtime} {p : Process} {ex : Execution}
    {step : Json} {transport : Transport}
    (h : beginStep rt p ex step = .ok transport) :
    transport = runProvisionStep rt p step ex.dryRun := by
  unfold beginStep at h
  obtain ⟨key, -, h⟩ := bind_eq_ok.mp h
  obtain ⟨title, -, h⟩ := bind_eq_ok.mp h
  obtain ⟨text, -, h⟩ := bind_eq_ok.mp h
  split at h
  · exact absurd h (by simp)
  · split at h
    · exact absurd h (by simp)
    · exact (Except.ok.inj h).symm

theorem invalidCommand_ne_ok (rt : Runtime) (step : Json) (t : Transport) :
    provisionTransport.invalidCommand rt step ≠ .ok t := by
  intro ht
  unfold provisionTransport.invalidCommand at ht
  obtain ⟨key, -, ht⟩ := bind_eq_ok.mp ht
  obtain ⟨text, -, ht⟩ := bind_eq_ok.mp ht
  exact absurd ht (by simp)

/-- A transport that is not refused knows whether it is of a dry run. -/
theorem provisionTransport_isDryRun {rt : Runtime} {p : Process} {step : Json}
    {dryRun : Bool} {transport : Transport}
    (h : provisionTransport rt p step dryRun = .ok transport) :
    transport.isDryRun = dryRun := by
  unfold provisionTransport at h
  obtain ⟨command, -, h⟩ := bind_eq_ok.mp h
  obtain ⟨parts, -, h⟩ := bind_eq_ok.mp h
  split at h
  · exact absurd h (invalidCommand_ne_ok _ _ _)
  · split at h
    · exact absurd h (invalidCommand_ne_ok _ _ _)
    · obtain ⟨root, -, h⟩ := bind_eq_ok.mp h
      obtain ⟨timeout, -, h⟩ := bind_eq_ok.mp h
      dsimp only at h
      split at h
      · split at h
        · exact absurd h (by simp)
        · obtain ⟨key, -, h⟩ := bind_eq_ok.mp h
          obtain rfl := Except.ok.inj h
          rfl
      · split at h
        · next hdry =>
          obtain rfl := Except.ok.inj h
          exact hdry.symm
        · next hdry =>
          have hlive : dryRun = false := by simpa using hdry
          split at h
          · obtain rfl := Except.ok.inj h
            exact hlive.symm
          · obtain rfl := Except.ok.inj h
            exact hlive.symm

/-- **A step that resolves was skipped exactly in a dry run.** -/
theorem settle_runProvisionStep {rt : Runtime} {p : Process} {d : Daemon}
    {step : Json} {dryRun : Bool} {event : StepEvent} {result : StepResult}
    (h : settle rt d (runProvisionStep rt p step dryRun) event
      = some (.ok result)) :
    result.code = some 0 ∧ result.skipped = dryRun := by
  obtain ⟨hcode, hskipped⟩ := settle_ok h
  refine ⟨hcode, ?_⟩
  unfold runProvisionStep at h hskipped
  cases ht : provisionTransport rt p step dryRun with
  | ok transport =>
    rw [ht] at hskipped
    exact hskipped.trans (provisionTransport_isDryRun ht)
  | error err =>
    rw [ht] at h
    cases event <;> simp [settle] at h

/-! ## The invariant of the turns -/

def Standing (e : ℕ) (ex : Execution) (es : List Event) : Prop :=
  ∃ done results, ex.plan = done ++ ex.rest ∧ Clean ex.dryRun done results
    ∧ turns e es = cleanTurns done results

def Waiting (site : Site) (e : ℕ) (ex : Execution) (transport : Transport)
    (es : List Event) : Prop :=
  ∃ done results step more, ex.plan = done ++ step :: more
    ∧ ex.rest = step :: more ∧ Clean ex.dryRun done results
    ∧ turns e es = cleanTurns done results ++ [.inl step]
    ∧ transport = runProvisionStep site.rt site.web step ex.dryRun

/-- The execution that went through the whole plan of a job. -/
def PlayedBy (job : ProvisionJob) (e : ℕ) (es : List Event) : Prop :=
  ∃ results, Clean job.dryRun job.planJson results
    ∧ turns e es = cleanTurns job.planJson results

/-- **The turns in a trace against the state**, for all executions but the
one that has the thread. -/
structure Played (site : Site) (thread : Option ℕ) (es : List Event)
    (s : State) : Prop where
  fresh : ∀ {e}, thread ≠ some e → s.executions e = none → turns e es = []
  waiting : ∀ {e ex transport}, thread ≠ some e → s.executions e = some ex →
    ex.awaiting = some transport → Waiting site e ex transport es
  completed : ∀ {id job}, s.jobs.row id = some job → job.status = .completed →
    ∃ e ex, thread ≠ some e ∧ s.executions e = some ex ∧ ex.jobId = id
      ∧ ex.awaiting = none ∧ PlayedBy job e es

theorem Played.initial (site : Site) : Played site none [] State.initial where
  fresh _ _ := rfl
  waiting _ h := nomatch h
  completed h := nomatch h

section Keeps

variable {site : Site} {thread : Option ℕ} {es es' : List Event} {s s' : State}

theorem Played.append (h : Played site thread es s)
    (hes : ∀ e, thread ≠ some e → turns e es' = []) :
    Played site thread (es ++ es') s := by
  have hturns : ∀ {e}, thread ≠ some e → turns e (es ++ es') = turns e es := by
    intro e he
    rw [turns_append, hes e he, List.append_nil]
  refine ⟨fun he hex => ?_, fun he hex hawait => ?_, fun hjob hdone => ?_⟩
  · rw [hturns he]
    exact h.fresh he hex
  · obtain ⟨done, results, step, more, hplan, hrest, hclean, ht, htransport⟩ :=
      h.waiting he hex hawait
    exact ⟨done, results, step, more, hplan, hrest, hclean,
      (hturns he).trans ht, htransport⟩
  · obtain ⟨e, ex, he, hex, hid, hawait, results, hclean, ht⟩ :=
      h.completed hjob hdone
    exact ⟨e, ex, he, hex, hid, hawait, results, hclean, (hturns he).trans ht⟩

theorem Played.jobs (h : Played site thread es s)
    (hexec : s'.executions = s.executions)
    (hjobs : ∀ {id job'}, s'.jobs.row id = some job' →
      job'.status = .completed → s.jobs.row id = some job') :
    Played site thread es s' where
  fresh he hex := h.fresh he (hexec ▸ hex)
  waiting he hex hawait := h.waiting he (hexec ▸ hex) hawait
  completed hjob hdone := by
    obtain ⟨e, ex, he, hex, hrest⟩ := h.completed (hjobs hjob hdone) hdone
    exact ⟨e, ex, he, by rw [hexec]; exact hex, hrest⟩

theorem Played.insert (h : Played site thread es s) {job : ProvisionJob}
    (hjobs : s'.jobs = s.jobs.insert job) (hexec : s'.executions = s.executions)
    (hstatus : job.status = .queued) : Played site thread es s' := by
  refine h.jobs hexec (fun hrow hdone => ?_)
  rw [hjobs, Table.row_insert_eq_some] at hrow
  rcases hrow with ⟨-, rfl⟩ | hold
  · rw [hstatus] at hdone
    exact absurd hdone (by decide)
  · exact hold

theorem Played.take (h : Played site none es s) {e : ℕ}
    (hex : ∀ ex, s.executions e = some ex → ex.awaiting.isSome = true) :
    Played site (some e) es s where
  fresh _ h₁ := h.fresh (by simp) h₁
  waiting _ h₁ hawait := h.waiting (by simp) h₁ hawait
  completed hjob hdone := by
    obtain ⟨e', ex', -, hex', hid, hawait, hplayed⟩ := h.completed hjob hdone
    refine ⟨e', ex', ?_, hex', hid, hawait, hplayed⟩
    intro heq
    obtain rfl : e = e' := Option.some.inj heq
    have := hex ex' hex'
    rw [hawait] at this
    exact absurd this (by simp)

theorem Played.start {e : ℕ} (h : Played site (some e) es s) (ex : Execution) :
    Played site (some e) es (s.start e ex) := by
  have hother : ∀ {e₁}, some e ≠ some e₁ →
      (s.start e ex).executions e₁ = s.executions e₁ := by
    intro e₁ he₁
    have hne : e₁ ≠ e := fun heq => he₁ (heq ▸ rfl)
    rw [State.start_executions, Function.update_of_ne hne]
  refine ⟨fun he₁ h₁ => h.fresh he₁ (hother he₁ ▸ h₁),
    fun he₁ h₁ => h.waiting he₁ (hother he₁ ▸ h₁),
    fun {id job'} hrow hdone => ?_⟩
  rw [State.start_jobs, Table.row_update] at hrow
  split at hrow
  · obtain ⟨job, -, rfl⟩ := Option.map_eq_some_iff.mp hrow
    exact absurd hdone (by simp)
  · obtain ⟨e₁, ex₁, he₁, hex₁, hrest⟩ := h.completed hrow hdone
    exact ⟨e₁, ex₁, he₁, by rw [hother he₁]; exact hex₁, hrest⟩

/-- The execution that has the thread writes its variables and, at its end,
the row of its job. -/
theorem Played.release {e : ℕ} (h : Played site (some e) es s) (ex' : Execution)
    (hexec : s'.executions = Function.update s.executions e (some ex'))
    (hjobs : ∀ {id job'}, s'.jobs.row id = some job' →
      job'.status = .completed → s.jobs.row id = some job'
        ∨ ex'.jobId = id ∧ ex'.awaiting = none ∧ PlayedBy job' e es)
    (hwaiting : ∀ transport, ex'.awaiting = some transport →
      Waiting site e ex' transport es) : Played site none es s' := by
  have hother : ∀ {e₁}, e₁ ≠ e → s'.executions e₁ = s.executions e₁ := by
    intro e₁ hne
    rw [hexec, Function.update_of_ne hne]
  have hself : s'.executions e = some ex' := by
    rw [hexec, Function.update_self]
  have hthread : ∀ {e₁}, e₁ ≠ e → some e ≠ some e₁ :=
    fun hne heq => hne (Option.some.inj heq).symm
  refine ⟨fun {e₁} _ h₁ => ?_, fun {e₁ ex₁ _} _ h₁ hawait => ?_,
    fun {id job'} hjob hdone => ?_⟩
  · by_cases hne : e₁ = e
    · rw [hne, hself] at h₁
      exact absurd h₁ (by simp)
    · exact h.fresh (hthread hne) (hother hne ▸ h₁)
  · by_cases hne : e₁ = e
    · subst hne
      obtain rfl : ex' = ex₁ := Option.some.inj (hself.symm.trans h₁)
      exact hwaiting _ hawait
    · exact h.waiting (hthread hne) (hother hne ▸ h₁) hawait
  · rcases hjobs hjob hdone with hold | ⟨hid, hawait, hplayed⟩
    · obtain ⟨e₁, ex₁, he₁, hex₁, hrest⟩ := h.completed hold hdone
      have hne : e₁ ≠ e := fun heq => he₁ (heq ▸ rfl)
      exact ⟨e₁, ex₁, by simp, by rw [hother hne]; exact hex₁, hrest⟩
    · exact ⟨e, ex', by simp, hself, hid, hawait, hplayed⟩

theorem Played.fail {e : ℕ} (h : Played site (some e) es s) (ex : Execution)
    (err : Exception) : Played site none es (s.fail e ex err) := by
  refine h.release { ex with awaiting := none } rfl ?_ ?_
  · intro id job' hjob hdone
    rw [State.fail_jobs, Table.row_update] at hjob
    split at hjob
    · obtain ⟨job, -, rfl⟩ := Option.map_eq_some_iff.mp hjob
      exact absurd hdone (by simp [Execution.failedJob])
    · exact Or.inl hjob
  · intro transport hawait
    exact absurd hawait (by simp)

/-- **The loop of an execution keeps the turns in order.** -/
theorem Played.advance {e : ℕ} (h : Played site (some e) es s) {ex : Execution}
    (hstanding : Standing e ex es)
    (hreads : ∀ job, s.jobs.row ex.jobId = some job → ex.Reads job)
    (hadvance : Advance site s e ex s' es') :
    Played site none (es ++ es') s' := by
  have hquiet := h.append
    (fun e' he => hadvance.turns_of_ne (fun heq => he (heq ▸ rfl)))
  obtain ⟨done, results, hplan, hclean, hturns⟩ := hstanding
  cases hadvance with
  | completes hrest =>
    refine hquiet.release { ex with awaiting := none } rfl ?_ ?_
    · intro id job' hjob _
      rw [State.complete_jobs, Table.row_update] at hjob
      split at hjob
      · next hid =>
        obtain ⟨job, hrow, rfl⟩ := Option.map_eq_some_iff.mp hjob
        obtain ⟨-, -, hdry, hplan'⟩ := hreads job hrow
        rw [hrest, List.append_nil] at hplan
        refine Or.inr ⟨hid.symm, rfl, results, ?_, ?_⟩
        · show Clean job.dryRun job.planJson results
          rw [← hdry, ← hplan', hplan]
          exact hclean
        · show turns e _ = cleanTurns job.planJson results
          rw [← hplan', hplan, turns_append, hturns]
          exact List.append_nil _
      · exact Or.inl hjob
    · intro transport hawait
      exact absurd hawait (by simp)
  | throws _ _ => exact hquiet.fail ex _
  | @dispatches step more transport hrest hbegin =>
    refine hquiet.release { ex with awaiting := some transport } rfl
      (fun hjob _ => Or.inl hjob) ?_
    intro transport' hawait
    obtain rfl : transport = transport' := by simpa using hawait
    refine ⟨done, results, step, more, hrest ▸ hplan, hrest, hclean, ?_,
      isDryRun_of_beginStep hbegin⟩
    rw [turns_append, hturns]
    simp [turns, Event.turnOf]

end Keeps

/-- **Every step keeps the turns in order.** -/
theorem Played.step {site : Site} {es es' : List Event} {s s' : State}
    {a : Action} (hsound : Sound none es s) (h : Played site none es s)
    (hstep : Step site s a s' es') : Played site none (es ++ es') s' := by
  cases hstep with
  | refused _ => exact h.append (fun _ _ => rfl)
  | createTenant _ _ _ =>
    refine Played.append ?_ (fun _ _ => rfl)
    exact h.insert rfl rfl rfl
  | decommission _ _ _ =>
    refine Played.append ?_ (fun _ _ => rfl)
    exact h.insert rfl rfl rfl
  | postJob _ _ =>
    refine Played.append ?_ (fun _ _ => rfl)
    exact h.insert rfl rfl rfl
  | @transition jobId actor action job _ hjob _ _ =>
    refine Played.append (h.jobs rfl ?_) (fun _ _ => rfl)
    intro id job' hrow hdone
    rw [Table.row_update] at hrow
    split at hrow
    · rw [hjob, Option.map_some] at hrow
      obtain rfl := Option.some.inj hrow
      cases action <;> exact absurd hdone (by simp [ProvisionJobAction.write])
    · exact hrow
  | @execute e jobId actor _ _ artifacts _ _ hfree hstart hadvance =>
    obtain ⟨job, tenant, hs, hartifacts, rfl⟩ := startExecution_eq_ok.mp hstart
    -- the execution starts with no turn, and its loop runs to the first wait
    have hnone : ∀ e', turns e' (artifacts ++ [.started e jobId actor]) = [] := by
      intro e'
      rw [turns_append, turns_startArtifacts hartifacts]
      rfl
    have hnotyet : ∀ ex, s.executions e = some ex →
        ex.awaiting.isSome = true := by
      intro ex hex
      rw [hfree] at hex
      exact absurd hex (by simp)
    have htaken := ((h.take hnotyet).append
      (fun e' _ => hnone e')).start (job.execution tenant jobId actor)
    have hstanding : Standing e (job.execution tenant jobId actor)
        (es ++ (artifacts ++ [.started e jobId actor])) := by
      refine ⟨[], [], rfl, ⟨rfl, by simp⟩, ?_⟩
      rw [turns_append, hnone, h.fresh (by simp) hfree]
      rfl
    have h₂ := htaken.advance hstanding ?_ hadvance
    · simpa only [List.append_assoc, List.singleton_append] using h₂
    · intro job₁ hrow
      replace hrow : (s.jobs.update jobId _).row jobId = some job₁ := hrow
      rw [Table.row_update_self, hs.jobRow, Option.map_some] at hrow
      obtain rfl := Option.some.inj hrow
      exact ⟨rfl, rfl, rfl, rfl⟩
  | @resumeError e _ ex _ err hex hawait _ =>
    have h₁ := h.take (e := e) (fun ex' hex' => by
      obtain rfl : ex = ex' := Option.some.inj (hex.symm.trans hex')
      simp [hawait])
    refine Played.fail (h₁.append (fun e' he => ?_)) ex err
    have hne : e ≠ e' := fun heq => he (heq ▸ rfl)
    simp [turns, Event.turnOf, hne]
  | @resumeOk e _ ex transport result _ _ hex hawait hsettle hadvance =>
    have h₁ := h.take (e := e) (fun ex' hex' => by
      obtain rfl : ex = ex' := Option.some.inj (hex.symm.trans hex')
      simp [hawait])
    have h₂ : Played site (some e)
        (es ++ [.returned e ex.jobId (.ok result)]) s := by
      refine h₁.append (fun e' he => ?_)
      have hne : e ≠ e' := fun heq => he (heq ▸ rfl)
      simp [turns, Event.turnOf, hne]
    -- the step that was waited for is done, and the loop runs on from the next one
    obtain ⟨done, results, step, more, hplan, hrest, hclean, hturns, rfl⟩ :=
      h.waiting (by simp) hex hawait
    obtain ⟨hcode, hskipped⟩ := settle_runProvisionStep hsettle
    have hstanding : Standing e (ex.record result)
        (es ++ [.returned e ex.jobId (.ok result)]) := by
      refine ⟨done ++ [step], results ++ [result], ?_,
        hclean.concat step hcode hskipped, ?_⟩
      · show ex.plan = done ++ [step] ++ ex.rest.tail
        rw [hplan, hrest, List.append_assoc]
        rfl
      · rw [turns_append, hturns, cleanTurns_concat hclean.1]
        simp [turns, Event.turnOf]
    have h₃ := h₂.advance hstanding ?_ hadvance
    · simpa only [List.append_assoc, List.singleton_append] using h₃
    · intro job hrow
      obtain ⟨job₁, hrow₁, hreads⟩ := hsound.reads hex
      obtain rfl : job₁ = job := Option.some.inj (hrow₁.symm.trans hrow)
      exact hreads

/-- **The turns are in order all along every run.** -/
theorem played_run (site : Site) (as : List Action) :
    Played site none ((controlPlane site).trace .initial as)
      ((controlPlane site).state .initial as) :=
  ((controlPlane site).invariant (I := fun es s => Sound none es s
      ∧ Played site none es s) ⟨Sound.initial, Played.initial site⟩
    (fun _ s a h => ⟨h.1.step (controlPlane_step site s a),
      h.2.step h.1 (controlPlane_step site s a)⟩) as).2

/-! ## The life of a job -/

/-- **The life of a job over every run**: completed and cancelled are final;
running is left by the execution that started last for the job; and a
completed job has an execution in which every step of the plan was handed
over once, in order, and returned exit code 0 – skipped, in a dry run. -/
theorem job_lifecycle (site : Site) :
    (∀ as bs id job,
        ((controlPlane site).state .initial as).jobs.row id = some job →
        job.status ∈ [.completed, .cancelled] →
        ∃ job', ((controlPlane site).state .initial (as ++ bs)).jobs.row id
          = some job' ∧ job'.status = job.status)
      ∧ (∀ as a id job job',
        ((controlPlane site).state .initial as).jobs.row id = some job →
        job.status = .running →
        ((controlPlane site).state .initial (as ++ [a])).jobs.row id
          = some job' → job'.status ≠ .running →
        ∃ e event, a = .resume e event
          ∧ lastStarter id ((controlPlane site).trace .initial as) = some e)
      ∧ ∀ as id job,
        ((controlPlane site).state .initial as).jobs.row id = some job →
        job.status = .completed →
        ∃ e actor results,
          .started e id actor ∈ (controlPlane site).trace .initial as
          ∧ Clean job.dryRun job.planJson results
          ∧ turns e ((controlPlane site).trace .initial as)
            = cleanTurns job.planJson results := by
  refine ⟨fun as bs id job hjob hterminal => ⟨job, ?_, rfl⟩,
    fun as a id job job' hjob hrunning hjob' hleft => ?_,
    fun as id job hjob hdone => ?_⟩
  · induction bs using List.reverseRecOn with
    | nil => rwa [List.append_nil]
    | append_singleton bs b ih =>
      rw [← List.append_assoc, Machine.state_concat]
      exact (controlPlane_step site _ b).terminal (sound_run site _) ih hterminal
  · rw [Machine.state_concat] at hjob'
    exact (controlPlane_step site _ a).leaves_running (sound_run site as) hjob
      hrunning hjob' hleft
  · obtain ⟨e, ex, -, hex, rfl, -, results, hclean, hturns⟩ :=
      (played_run site as).completed hjob hdone
    exact ⟨e, ex.actor, results, (sound_run site as).started hex, hclean, hturns⟩

/-- A posted job of one step that completes. -/
def samplePosted : List Action :=
  [.createTenant (sampleRequest true) "ann",
    samplePost true ["/usr/bin/systemctl", "daemon-reload"] false,
    .transition 2 "bob" .approve, .execute 0 2 "cy" none, .resume 0 .immediate]

theorem job_lifecycle_posted :
    ∃ job e actor results,
      ((controlPlane sampleSite).state .initial samplePosted).jobs.row 2 = some job
      ∧ .started e 2 actor ∈ (controlPlane sampleSite).trace .initial samplePosted
      ∧ Clean true job.planJson results
      ∧ turns e ((controlPlane sampleSite).trace .initial samplePosted)
        = cleanTurns job.planJson results := by
  have hrow : (((controlPlane sampleSite).state .initial
      samplePosted).jobs.row 2).map (fun job => (job.status, job.dryRun))
      = some (.completed, true) := rfl
  obtain ⟨job, hjob, hcolumns⟩ := Option.map_eq_some_iff.mp hrow
  obtain ⟨hstatus, hdry⟩ := Prod.mk.inj hcolumns
  obtain ⟨e, actor, results, hstarted, hclean, hturns⟩ :=
    (job_lifecycle sampleSite).2.2 _ _ job hjob hstatus
  exact ⟨job, e, actor, results, hjob, hstarted, hdry ▸ hclean, hturns⟩

end MissionControl
