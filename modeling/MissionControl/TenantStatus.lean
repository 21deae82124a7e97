import MissionControl.Completion

/-!
# The status of a tenant against its jobs

`tenants.status` is meant to say whether a live job of the tenant is running
(`StatusAgrees`). Each execution writes it from what it read when it
started, without a look at the other jobs of the tenant, so it agrees only
along some runs – and `statusAgrees_iff` says which: exactly those in which
every execution that ends meets `Action.StatusFits`.

An execution that ends is summed up by `EndsAs`: its job is not running any
more, its tenant has the status it writes, and every other row is as before.
-/

namespace MissionControl

/-- The two statuses of a tenant whose job is running. -/
def TenantStatus.inProgress : TenantStatus → Bool
  | provisioning | decommissioning => true
  | _ => false

/-- A live job of the tenant is running. -/
def State.LiveRunning (s : State) (tenantId : ℕ) : Prop :=
  ∃ id job, s.jobs.row id = some job ∧ job.tenantId = tenantId
    ∧ job.dryRun = false ∧ job.status = .running

/-- Another live job of the tenant is running than the one of the
execution. -/
def State.OtherLive (s : State) (ex : Execution) : Prop :=
  ∃ id job, id ≠ ex.jobId ∧ s.jobs.row id = some job
    ∧ job.tenantId = ex.tenantId ∧ job.dryRun = false ∧ job.status = .running

/-- **The status agrees with the jobs**, for every tenant. -/
def StatusAgrees (s : State) : Prop :=
  ∀ tenantId t, s.tenants.row tenantId = some t →
    (t.status.inProgress = true ↔ s.LiveRunning tenantId)

/-- The status an execution writes at its end. -/
def Execution.endStatus (ex : Execution) : Ending → TenantStatus
  | .completes => ex.completedTenantStatus
  | .fails => .error

/-- **The condition on an action that ends an execution**: a dry run that
completes has started while the tenant was in progress exactly if another
live job of the tenant is running now; at any other end none is. -/
def Action.StatusFits (site : Site) (s : State) (a : Action) : Prop :=
  ∀ ex ending, a.ending site s = some (ex, ending) →
    if ex.dryRun = true ∧ ending = .completes then
      (ex.previousTenantStatus.inProgress = true ↔ s.OtherLive ex)
    else ¬ s.OtherLive ex

/-- The condition in one form: the status that is written is one of progress
exactly if another live job is running. -/
theorem endStatus_inProgress_iff (s : State) (ex : Execution) (ending : Ending) :
    ((ex.endStatus ending).inProgress = true ↔ s.OtherLive ex)
      ↔ if ex.dryRun = true ∧ ending = .completes then
          (ex.previousTenantStatus.inProgress = true ↔ s.OtherLive ex)
        else ¬ s.OtherLive ex := by
  cases ending with
  | fails =>
    rw [if_neg (fun h => absurd h.2 (by decide))]
    simp [Execution.endStatus, TenantStatus.inProgress]
  | completes =>
    cases hdry : ex.dryRun with
    | true =>
      simp [Execution.endStatus, Execution.completedTenantStatus, hdry]
    | false =>
      have hwrite : (ex.endStatus .completes).inProgress = false := by
        unfold Execution.endStatus Execution.completedTenantStatus
        simp only [hdry, Bool.false_eq_true, if_false]
        split
        · rfl
        · rfl
      simp [hwrite]

/-! ## Ending an execution -/

/-- **What the end of an execution leaves behind.** -/
structure EndsAs (s s' : State) (ex : Execution) (status : TenantStatus) :
    Prop where
  jobSelf : ∀ {job}, s'.jobs.row ex.jobId = some job → job.status ≠ .running
  jobOther : ∀ {id}, id ≠ ex.jobId → s'.jobs.row id = s.jobs.row id
  tenantSelf : s'.tenants.row ex.tenantId
    = (s.tenants.row ex.tenantId).map (fun t => { t with status })
  tenantOther : ∀ {id}, id ≠ ex.tenantId →
    s'.tenants.row id = s.tenants.row id

theorem EndsAs.of_writes {s s₀ s' : State} {ex : Execution}
    {status : TenantStatus} (f : ProvisionJob → ProvisionJob)
    (h₀ : s₀ = s ∨ ∃ e, s₀ = s.start e ex)
    (hjobs : s'.jobs = s₀.jobs.update ex.jobId f)
    (hf : ∀ job, (f job).status ≠ .running)
    (htenants : s'.tenants
      = s₀.tenants.update ex.tenantId (fun t => { t with status })) :
    EndsAs s s' ex status := by
  refine ⟨fun {job} hjob => ?_, fun {id} hid => ?_, ?_, fun {id} hid => ?_⟩
  · rw [hjobs, Table.row_update_self] at hjob
    obtain ⟨job₀, -, rfl⟩ := Option.map_eq_some_iff.mp hjob
    exact hf job₀
  · rw [hjobs, Table.row_update_of_ne _ _ hid]
    rcases h₀ with rfl | ⟨e, rfl⟩
    · rfl
    · exact Table.row_update_of_ne _ _ hid
  · rw [htenants, Table.row_update_self]
    rcases h₀ with rfl | ⟨e, rfl⟩
    · rfl
    · rw [State.start_tenants]
      show ((s.tenants.update _ _).row _).map _ = _
      rw [Table.row_update_self, Option.map_map]
      rfl
  · rw [htenants, Table.row_update_of_ne _ _ hid]
    rcases h₀ with rfl | ⟨e, rfl⟩
    · rfl
    · exact Table.row_update_of_ne _ _ hid

theorem Advance.endsAs {site : Site} {s s₀ s' : State} {e : ℕ}
    {ex ex' : Execution} {es : List Event}
    (h₀ : s₀ = s ∨ ∃ e, s₀ = s.start e ex) (hcall : ex.SameCall ex')
    (hadvance : Advance site s₀ e ex' s' es) {ending : Ending}
    (hending : ex'.ending site = some ending) :
    EndsAs s s' ex (ex.endStatus ending) := by
  have hjobId : ex'.jobId = ex.jobId := by rw [hcall]
  have htenantId : ex'.tenantId = ex.tenantId := by rw [hcall]
  have hstatus : ex'.completedTenantStatus = ex.completedTenantStatus := by
    rw [hcall]
    rfl
  cases hadvance with
  | completes hrest =>
    obtain rfl : Ending.completes = ending := by
      simpa [Execution.ending, hrest] using hending
    refine EndsAs.of_writes ex'.completedJob h₀ ?_
      (fun job => by simp [Execution.completedJob]) ?_
    · rw [State.complete_jobs, hjobId]
    · show s₀.tenants.update ex'.tenantId _ = _
      rw [htenantId, hstatus]
      rfl
  | @throws step more err hrest hbegin =>
    obtain rfl : Ending.fails = ending := by
      simpa [Execution.ending, hrest, hbegin] using hending
    refine EndsAs.of_writes (ex'.failedJob err) h₀ ?_
      (fun job => by simp [Execution.failedJob]) ?_
    · rw [State.fail_jobs, hjobId]
    · show s₀.tenants.update ex'.tenantId _ = _
      rw [htenantId]
      rfl
  | dispatches hrest hbegin =>
    exact absurd hending (by simp [Execution.ending, hrest, hbegin])

/-- **An action that ends an execution leaves what the end writes.** -/
theorem Step.endsAs {site : Site} {s s' : State} {a : Action} {es : List Event}
    (hstep : Step site s a s' es) {ex : Execution} {ending : Ending}
    (h : a.ending site s = some (ex, ending)) :
    EndsAs s s' ex (ex.endStatus ending) := by
  cases hstep with
  | refused hnone => exact absurd (hnone.symm.trans h) (by simp)
  | createTenant _ _ _ => exact absurd h (by simp [Action.ending])
  | decommission _ _ _ => exact absurd h (by simp [Action.ending])
  | postJob _ _ => exact absurd h (by simp [Action.ending])
  | transition _ _ _ => exact absurd h (by simp [Action.ending])
  | @execute e jobId actor fsError ex₁ artifacts _ _ hfree hstart hadvance =>
    obtain ⟨hending, rfl⟩ : ex₁.ending site = some ending ∧ ex₁ = ex := by
      simpa [Action.ending, hfree, hstart] using h
    exact hadvance.endsAs (Or.inr ⟨e, rfl⟩) (Execution.sameCall_self ex₁) hending
  | @resumeError e event ex₁ transport err hex hawait hsettle =>
    obtain ⟨rfl, rfl⟩ : ex₁ = ex ∧ Ending.fails = ending := by
      simpa [Action.ending, hex, hawait, hsettle] using h
    exact EndsAs.of_writes (ex₁.failedJob err) (Or.inl rfl) rfl
      (fun job => by simp [Execution.failedJob]) rfl
  | @resumeOk e event ex₁ transport result _ _ hex hawait hsettle hadvance =>
    obtain ⟨hending, rfl⟩ :
        (ex₁.record result).ending site = some ending ∧ ex₁ = ex := by
      simpa [Action.ending, hex, hawait, hsettle] using h
    exact hadvance.endsAs (Or.inl rfl) (Execution.sameCall_record ex₁ result)
      hending

/-! ## The tenant of a job -/

def Linked (s : State) : Prop :=
  ∀ id job, s.jobs.row id = some job → ∃ t, s.tenants.row job.tenantId = some t

theorem Advance.tenant {site : Site} {s s' : State} {e : ℕ} {ex : Execution}
    {es : List Event} (h : Advance site s e ex s' es) {id : ℕ} {t : Tenant}
    (ht : s.tenants.row id = some t) :
    ∃ status, s'.tenants.row id = some { t with status } := by
  have hwrite : ∀ status, ∃ status',
      (s.setTenantStatus ex.tenantId status).tenants.row id
        = some { t with status := status' } := by
    intro status
    show ∃ status', (s.tenants.update _ _).row id = _
    rw [Table.row_update]
    split
    · next hid => exact ⟨status, by rw [← hid, ht]; rfl⟩
    · exact ⟨t.status, ht⟩
  cases h with
  | completes _ => exact hwrite _
  | throws _ _ => exact hwrite _
  | dispatches _ _ => exact ⟨t.status, ht⟩

/-- **A tenant keeps everything but its status** over every step. -/
theorem Step.tenant {site : Site} {s s' : State} {a : Action} {es : List Event}
    (hstep : Step site s a s' es) {id : ℕ} {t : Tenant}
    (ht : s.tenants.row id = some t) :
    ∃ status, s'.tenants.row id = some { t with status } := by
  have hwrite : ∀ tenantId status, ∃ status',
      (s.setTenantStatus tenantId status).tenants.row id
        = some { t with status := status' } := by
    intro tenantId status
    show ∃ status', (s.tenants.update _ _).row id = _
    rw [Table.row_update]
    split
    · next hid => exact ⟨status, by rw [← hid, ht]; rfl⟩
    · exact ⟨t.status, ht⟩
  cases hstep with
  | refused _ => exact ⟨t.status, ht⟩
  | createTenant _ _ _ => exact ⟨t.status, Table.row_insert_of_some _ _ ht⟩
  | decommission _ _ _ => exact ⟨t.status, ht⟩
  | postJob _ _ => exact ⟨t.status, ht⟩
  | transition _ _ _ => exact ⟨t.status, ht⟩
  | @execute e _ _ _ ex _ _ _ _ _ hadvance =>
    obtain ⟨status, h₁⟩ := hwrite ex.tenantId ex.startedTenantStatus
    obtain ⟨status', h₂⟩ := Advance.tenant hadvance (t := { t with status }) h₁
    exact ⟨status', h₂⟩
  | resumeError _ _ _ => exact hwrite _ _
  | resumeOk _ _ _ hadvance => exact hadvance.tenant ht

theorem Linked.step {site : Site} {s s' : State} {a : Action} {es : List Event}
    (h : Linked s) (hstep : Step site s a s' es) : Linked s' := by
  intro id job' hjob'
  rcases hstep.job_origin hjob' with ⟨job, hjob, hmove⟩ | ⟨-, hnew⟩
  · obtain ⟨t, ht⟩ := h id job hjob
    obtain ⟨status, ht'⟩ := hstep.tenant ht
    refine ⟨{ t with status }, ?_⟩
    rw [hmove.sameRequest.tenantId]
    exact ht'
  · exact hnew.tenant

/-- What the results about the status know of a reachable state. -/
def Reached (s : State) : Prop := (∃ es, Sound none es s) ∧ Linked s

theorem Reached.initial : Reached .initial :=
  ⟨⟨[], Sound.initial⟩, fun _ _ h => nomatch h⟩

theorem Reached.next {s : State} (site : Site) (a : Action) (h : Reached s) :
    Reached ((controlPlane site).next s a) := by
  obtain ⟨⟨es, hsound⟩, hlinked⟩ := h
  exact ⟨⟨_, hsound.step (controlPlane_step site s a)⟩,
    hlinked.step (controlPlane_step site s a)⟩

theorem reached_run (site : Site) (as : List Action) :
    Reached ((controlPlane site).state .initial as) :=
  (controlPlane site).state_invariant Reached.initial
    (fun _ a h => h.next site a) as

/-! ## When the status agrees -/

/-- A step that changes no status and lets no job into or out of `running`
keeps the agreement. -/
theorem StatusAgrees.of_rows {s s' : State} (h : StatusAgrees s)
    (hrunning : ∀ tenantId, s'.LiveRunning tenantId ↔ s.LiveRunning tenantId)
    (htenants : ∀ {id t}, s'.tenants.row id = some t →
      (∃ t', s.tenants.row id = some t' ∧ t'.status = t.status)
        ∨ t.status.inProgress = false ∧ ¬ s.LiveRunning id) :
    StatusAgrees s' := by
  intro tenantId t ht
  rw [hrunning]
  rcases htenants ht with ⟨t', ht', hstatus⟩ | ⟨hidle, hnone⟩
  · rw [← hstatus]
    exact h tenantId t' ht'
  · rw [hidle]
    simpa using hnone

theorem liveRunning_congr {s s' : State}
    (h : ∀ id job, job.status = .running → job.dryRun = false →
      (s'.jobs.row id = some job ↔ s.jobs.row id = some job)) (tenantId : ℕ) :
    s'.LiveRunning tenantId ↔ s.LiveRunning tenantId := by
  refine ⟨fun hl => ?_, fun hl => ?_⟩
  · obtain ⟨id, job, hjob, htenant, hlive, hrun⟩ := hl
    exact ⟨id, job, (h id job hrun hlive).mp hjob, htenant, hlive, hrun⟩
  · obtain ⟨id, job, hjob, htenant, hlive, hrun⟩ := hl
    exact ⟨id, job, (h id job hrun hlive).mpr hjob, htenant, hlive, hrun⟩

theorem liveRunning_insert {s s' : State} {job : ProvisionJob}
    (hjobs : s'.jobs = s.jobs.insert job) (hstatus : job.status = .queued)
    (tenantId : ℕ) : s'.LiveRunning tenantId ↔ s.LiveRunning tenantId := by
  refine liveRunning_congr (fun id job' hrun _ => ?_) tenantId
  rw [hjobs, Table.row_insert_eq_some]
  refine ⟨fun hrow => hrow.resolve_left ?_, Or.inr⟩
  rintro ⟨-, rfl⟩
  rw [hstatus] at hrun
  exact absurd hrun (by decide)

theorem liveRunning_transition {s : State} {jobId : ℕ} {actor : String}
    {action : ProvisionJobAction} {job : ProvisionJob}
    (hjob : s.jobs.row jobId = some job) (hsource : job.status ∈ action.sources)
    (tenantId : ℕ) :
    State.LiveRunning { s with jobs := s.jobs.update jobId (action.write actor) }
      tenantId ↔ s.LiveRunning tenantId := by
  refine liveRunning_congr (fun id job' hrun _ => ?_) tenantId
  by_cases hid : id = jobId
  · subst hid
    rw [Table.row_update_self, hjob, Option.map_some, Option.some.injEq,
      Option.some.injEq]
    refine ⟨fun heq => ?_, fun heq => ?_⟩
    · rw [← heq] at hrun
      cases action <;> exact absurd hrun (by simp [ProvisionJobAction.write])
    · rw [heq, hrun] at hsource
      cases action <;> exact absurd hsource (by decide)
  · rw [Table.row_update_of_ne _ _ hid]

/-- A start that comes to its first wait: a live job is running now, and the
status says so; a dry run writes the status it has read. -/
theorem StatusAgrees.start {s : State} (h : StatusAgrees s) {rt : Runtime}
    {e jobId : ℕ} {actor : String} {job : ProvisionJob} {tenant : Tenant}
    (hs : Startable rt s jobId actor job tenant) :
    StatusAgrees (s.start e (job.execution tenant jobId actor)) := by
  have hrow : ∀ id, (s.start e (job.execution tenant jobId actor)).jobs.row id
      = if id = jobId then some { job with status := .running }
        else s.jobs.row id := by
    intro id
    rw [State.start_jobs, Table.row_update]
    show (if id = jobId then (s.jobs.row jobId).map _ else _) = _
    rw [hs.jobRow, Option.map_some]
  have hidle : job.status ≠ .running := by
    rw [hs.approved]
    decide
  -- the live jobs that run: the ones before, and this one if it is live
  have hrunning : ∀ tenantId,
      (s.start e (job.execution tenant jobId actor)).LiveRunning tenantId
        ↔ (tenantId = job.tenantId ∧ job.dryRun = false)
          ∨ s.LiveRunning tenantId := by
    intro tenantId
    refine ⟨fun hl => ?_, fun hl => ?_⟩
    · obtain ⟨id, job', hjob', htenant, hlive, hrun⟩ := hl
      rw [hrow] at hjob'
      split at hjob'
      · obtain rfl := Option.some.inj hjob'
        exact Or.inl ⟨htenant.symm, hlive⟩
      · exact Or.inr ⟨id, job', hjob', htenant, hlive, hrun⟩
    · rcases hl with ⟨rfl, hlive⟩ | ⟨id, job', hjob', htenant, hlive, hrun⟩
      · exact ⟨jobId, { job with status := .running },
          by rw [hrow, if_pos rfl], rfl, hlive, rfl⟩
      · refine ⟨id, job', ?_, htenant, hlive, hrun⟩
        rw [hrow, if_neg]
        · exact hjob'
        · rintro rfl
          obtain rfl : job = job' :=
            Option.some.inj (hs.jobRow.symm.trans hjob')
          exact hidle hrun
  intro tenantId t ht
  rw [hrunning]
  replace ht : (s.tenants.update job.tenantId _).row tenantId = some t := ht
  rw [Table.row_update] at ht
  split at ht
  · next hid =>
    subst hid
    rw [hs.tenantRow, Option.map_some] at ht
    obtain rfl := Option.some.inj ht
    cases hdry : job.dryRun with
    | true =>
      have hold := h job.tenantId tenant hs.tenantRow
      simpa [Execution.startedTenantStatus, ProvisionJob.execution, hdry]
        using hold
    | false =>
      have hbusy : (job.execution tenant jobId
          actor).startedTenantStatus.inProgress = true := by
        unfold Execution.startedTenantStatus
        rw [if_neg (by simp [ProvisionJob.execution, hdry])]
        split
        · rfl
        · rfl
      simp [hbusy]
  · next hid =>
    rw [h tenantId t ht]
    simp [hid]

/-- **At the end of an execution the status agrees exactly if the one that is
written does.** -/
theorem EndsAs.agrees_iff {s s' : State} {ex : Execution}
    {status : TenantStatus} (h : EndsAs s s' ex status) (hagrees : StatusAgrees s)
    {job : ProvisionJob} (hjob : s.jobs.row ex.jobId = some job)
    (htenantId : ex.tenantId = job.tenantId) {t : Tenant}
    (ht : s.tenants.row ex.tenantId = some t) :
    StatusAgrees s' ↔ (status.inProgress = true ↔ s.OtherLive ex) := by
  have hself : s'.LiveRunning ex.tenantId ↔ s.OtherLive ex := by
    refine ⟨fun hl => ?_, fun hl => ?_⟩
    · obtain ⟨id, job', hjob', htenant, hlive, hrun⟩ := hl
      have hid : id ≠ ex.jobId := by
        rintro rfl
        exact h.jobSelf hjob' hrun
      exact ⟨id, job', hid, h.jobOther hid ▸ hjob', htenant, hlive, hrun⟩
    · obtain ⟨id, job', hid, hjob', htenant, hlive, hrun⟩ := hl
      exact ⟨id, job', by rw [h.jobOther hid, hjob'], htenant, hlive, hrun⟩
  have hother : ∀ tenantId, tenantId ≠ ex.tenantId →
      (s'.LiveRunning tenantId ↔ s.LiveRunning tenantId) := by
    intro tenantId hne
    refine ⟨fun hl => ?_, fun hl => ?_⟩
    · obtain ⟨id, job', hjob', htenant, hlive, hrun⟩ := hl
      have hid : id ≠ ex.jobId := by
        rintro rfl
        exact h.jobSelf hjob' hrun
      exact ⟨id, job', h.jobOther hid ▸ hjob', htenant, hlive, hrun⟩
    · obtain ⟨id, job', hjob', htenant, hlive, hrun⟩ := hl
      have hid : id ≠ ex.jobId := by
        rintro rfl
        obtain rfl : job = job' := Option.some.inj (hjob.symm.trans hjob')
        exact hne (htenant.symm.trans htenantId.symm)
      exact ⟨id, job', by rw [h.jobOther hid, hjob'], htenant, hlive, hrun⟩
  have hrow := h.tenantSelf
  rw [ht, Option.map_some] at hrow
  refine ⟨fun hall => ?_, fun hstatus tenantId t' ht' => ?_⟩
  · rw [← hself]
    exact hall ex.tenantId _ hrow
  · by_cases hid : tenantId = ex.tenantId
    · subst hid
      obtain rfl := Option.some.inj (hrow.symm.trans ht')
      rw [hself]
      exact hstatus
    · rw [h.tenantOther hid] at ht'
      rw [hother tenantId hid]
      exact hagrees tenantId t' ht'

theorem Step.ending_job {site : Site} {s s' : State} {a : Action}
    {es : List Event} (hstep : Step site s a s' es) (hreached : Reached s)
    {ex : Execution} {ending : Ending}
    (h : a.ending site s = some (ex, ending)) :
    ∃ job t, s.jobs.row ex.jobId = some job ∧ ex.Reads job
      ∧ s.tenants.row ex.tenantId = some t := by
  obtain ⟨⟨es, hsound⟩, hlinked⟩ := hreached
  have hresume : ∀ e, s.executions e = some ex →
      ∃ job t, s.jobs.row ex.jobId = some job ∧ ex.Reads job
        ∧ s.tenants.row ex.tenantId = some t := by
    intro e hex
    obtain ⟨job, hjob, hreads⟩ := hsound.reads hex
    obtain ⟨t, ht⟩ := hlinked _ job hjob
    exact ⟨job, t, hjob, hreads, hreads.1 ▸ ht⟩
  cases hstep with
  | refused hnone => exact absurd (hnone.symm.trans h) (by simp)
  | createTenant _ _ _ => exact absurd h (by simp [Action.ending])
  | decommission _ _ _ => exact absurd h (by simp [Action.ending])
  | postJob _ _ => exact absurd h (by simp [Action.ending])
  | transition _ _ _ => exact absurd h (by simp [Action.ending])
  | execute hfree hstart _ =>
    obtain ⟨-, rfl⟩ := by simpa [Action.ending, hfree, hstart] using h
    obtain ⟨job, tenant, hs, -, rfl⟩ := startExecution_eq_ok.mp hstart
    exact ⟨job, tenant, hs.jobRow, ⟨rfl, rfl, rfl, rfl⟩, hs.tenantRow⟩
  | resumeError hex hawait hsettle =>
    obtain ⟨rfl, -⟩ := by simpa [Action.ending, hex, hawait, hsettle] using h
    exact hresume _ hex
  | resumeOk hex hawait hsettle _ =>
    obtain ⟨-, rfl⟩ := by simpa [Action.ending, hex, hawait, hsettle] using h
    exact hresume _ hex

theorem StatusAgrees.step {site : Site} {s : State} {a : Action}
    (hreached : Reached s) (h : StatusAgrees s)
    (hending : a.ending site s = none) :
    StatusAgrees ((controlPlane site).next s a) := by
  have hstep := controlPlane_step site s a
  generalize (controlPlane site).next s a = s' at hstep ⊢
  generalize (controlPlane site).emits s a = es at hstep
  have hsame : ∀ {s₁ : State}, s₁.tenants = s.tenants → ∀ {id t},
      s₁.tenants.row id = some t →
      (∃ t', s.tenants.row id = some t' ∧ t'.status = t.status)
        ∨ t.status.inProgress = false ∧ ¬ s.LiveRunning id :=
    fun heq _ t ht => Or.inl ⟨t, heq ▸ ht, rfl⟩
  cases hstep with
  | refused _ => exact h
  | createTenant _ _ _ =>
    refine h.of_rows (liveRunning_insert rfl rfl) (fun {id t} ht => ?_)
    rcases (Table.row_insert_eq_some _ _).mp ht with ⟨rfl, rfl⟩ | hold
    · refine Or.inr ⟨rfl, ?_⟩
      -- no job has the id that the new tenant takes
      rintro ⟨id, job, hjob, hid, -, -⟩
      obtain ⟨t, ht⟩ := hreached.2 id job hjob
      rw [hid, Table.row_next] at ht
      exact absurd ht (by simp)
    · exact Or.inl ⟨t, hold, rfl⟩
  | decommission _ _ _ => exact h.of_rows (liveRunning_insert rfl rfl) (hsame rfl)
  | postJob _ _ => exact h.of_rows (liveRunning_insert rfl rfl) (hsame rfl)
  | transition hjob _ hsource =>
    exact h.of_rows (liveRunning_transition hjob hsource) (hsame rfl)
  | @execute e _ _ _ _ _ _ _ hfree hstart hadvance =>
    have hnone := hending
    simp only [Action.ending, hfree, hstart, Option.isSome_none,
      Bool.false_eq_true, if_false, Option.map_eq_none_iff] at hnone
    obtain ⟨job, tenant, hs, -, rfl⟩ := startExecution_eq_ok.mp hstart
    cases hadvance with
    | completes hrest => exact absurd hnone (by simp [Execution.ending, hrest])
    | throws hrest hbegin =>
      exact absurd hnone (by simp [Execution.ending, hrest, hbegin])
    | dispatches _ _ => exact h.start (e := e) hs
  | resumeError hex hawait hsettle =>
    exact absurd hending (by simp [Action.ending, hex, hawait, hsettle])
  | resumeOk hex hawait hsettle hadvance =>
    have hnone := hending
    simp only [Action.ending, hex, hawait, hsettle, Option.bind_some,
      Option.map_eq_none_iff] at hnone
    cases hadvance with
    | completes hrest => exact absurd hnone (by simp [Execution.ending, hrest])
    | throws hrest hbegin =>
      exact absurd hnone (by simp [Execution.ending, hrest, hbegin])
    | dispatches _ _ => exact h

/-- **A step keeps the agreement exactly if it meets the condition.** -/
theorem statusAgrees_next_iff {site : Site} {s : State} {a : Action}
    (hreached : Reached s) (h : StatusAgrees s) :
    StatusAgrees ((controlPlane site).next s a) ↔ a.StatusFits site s := by
  cases hending : a.ending site s with
  | none =>
    refine ⟨fun _ ex ending hsome => ?_, fun _ => h.step hreached hending⟩
    exact absurd (hending.symm.trans hsome) (by simp)
  | some r =>
    obtain ⟨ex, ending⟩ := r
    obtain ⟨job, t, hjob, hreads, ht⟩ := (controlPlane_step site s a).ending_job hreached hending
    have hends := (controlPlane_step site s a).endsAs hending
    rw [hends.agrees_iff h hjob hreads.1 ht, endStatus_inProgress_iff]
    refine ⟨fun hfits ex' ending' hsome => ?_, fun hfits => hfits ex ending hending⟩
    obtain ⟨rfl, rfl⟩ := Prod.mk.inj (Option.some.inj (hending.symm.trans hsome))
    exact hfits

/-- **The status of every tenant agrees with its jobs all along a run exactly
if every execution that ends in the run meets the condition.** -/
theorem statusAgrees_iff (site : Site) (as : List Action) :
    (controlPlane site).Always StatusAgrees .initial as
      ↔ (controlPlane site).EachStep (fun s a => a.StatusFits site s)
          .initial as :=
  (controlPlane site).always_iff_eachStep Reached.initial
    (fun _ a h => h.next site a) (fun _ _ h => nomatch h)
    (fun _ _ hreached h => statusAgrees_next_iff hreached h) as

/-- A dry run of the tenant's decommission that fails while the live
bootstrap waits for its first step. -/
def sampleOverlap : List Action :=
  sampleStart false ++ [.decommission 1 (.obj []) "dee",
    .transition 2 "bob" .approve, .execute 1 2 "cy" none,
    .resume 1 (.unanswered "Provisioner socket timeout")]

/-- The tenant has the status `error` while its live job is running. -/
theorem not_statusAgrees_sampleOverlap :
    ¬ StatusAgrees ((controlPlane sampleSite).state .initial sampleOverlap) := by
  intro h
  have htenant : (((controlPlane sampleSite).state .initial
      sampleOverlap).tenants.row 1).map (·.status) = some .error := rfl
  have hrow : (((controlPlane sampleSite).state .initial
      sampleOverlap).jobs.row 1).map
        (fun job => (job.tenantId, job.dryRun, job.status))
      = some (1, false, .running) := rfl
  obtain ⟨t, ht, hstatus⟩ := Option.map_eq_some_iff.mp htenant
  obtain ⟨job, hjob, hcolumns⟩ := Option.map_eq_some_iff.mp hrow
  simp only [Prod.mk.injEq] at hcolumns
  have hbusy := (h 1 t ht).mpr ⟨1, job, hjob, hcolumns⟩
  rw [hstatus] at hbusy
  exact absurd hbusy (by decide)

end MissionControl
