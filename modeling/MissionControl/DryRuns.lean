import MissionControl.TenantStatus

/-!
# Leaving a dry run out

Does the execution of a dry-run job change the status of its tenant? A run
is compared with the one in which an execution is left out: the accepted
requests of the other executions and of the API, in their order.

`Shadow` couples the two states. The tables are the same but for the rows
the execution is about: a job that it has left running, failed or completed
may still be approved without it – and then every request that is accepted
with it is accepted or without effect without it.

`dryRun_leaves_status_iff` is the answer: the statuses agree along the whole
run exactly if the execution fails only in a tenant that already has the
status `error`, and completes only while the status is the one it has read
at its start.
-/

namespace MissionControl

def Action.executionOf : Action → Option ℕ
  | .execute e _ _ _ => some e
  | .resume e _ => some e
  | _ => none

/-- Whether an action is kept when an execution is left out: it has an effect
and is no part of the execution. -/
def keepsWithout (site : Site) (e : ℕ) (s : State) (a : Action) : Bool :=
  decide (a.executionOf ≠ some e) && !((controlPlane site).emits s a).isEmpty

/-- **The run without an execution.** -/
def without (site : Site) (e : ℕ) (as : List Action) : List Action :=
  (controlPlane site).kept (keepsWithout site e) .initial as

/-- The statuses of all tenants are the same. -/
def SameStatus (s t : State) : Prop :=
  ∀ id, (s.tenants.row id).map (·.status) = (t.tenants.row id).map (·.status)

/-- **The condition on an action of the execution**: it fails only in a
tenant with the status `error`, and completes only while the status is the
one it has read. -/
def Action.LeavesStatus (site : Site) (e : ℕ) (s : State) (a : Action) : Prop :=
  a.executionOf = some e → ∀ ex ending t,
    a.ending site s = some (ex, ending) →
    s.tenants.row ex.tenantId = some t →
    match ending with
    | .fails => t.status = .error
    | .completes => t.status = ex.previousTenantStatus

/-! ## Rows with and without an execution -/

/-- Whoever has approved a job, it has an approver. -/
def ProvisionJob.HasApprover (job : ProvisionJob) : Prop :=
  job.approvedBy.getD "" ≠ ""

/-- **A row with the execution, and without it.** -/
structure Shadows (job job' : ProvisionJob) : Prop where
  request : job.SameRequest job'
  /-- The statuses agree, or the execution has taken the job on from
  `approved`. -/
  status : job.status = job'.status
    ∨ (job.status = .running ∨ job.status = .failed ∨ job.status = .completed)
      ∧ job'.status = .approved ∧ job'.HasApprover ∧ job.dryRun = true
  /-- The approvers agree, or it does not matter who has approved. -/
  approver : job.approvedBy = job'.approvedBy
    ∨ job'.HasApprover ∧ job.dryRun = true

theorem Shadows.refl (job : ProvisionJob) : Shadows job job :=
  ⟨.refl job, Or.inl rfl, Or.inl rfl⟩

theorem Shadows.taken {job job' job₁ : ProvisionJob} (h : Shadows job job')
    (hsame : job.SameRequest job₁)
    (hstatus : job₁.status = .running ∨ job₁.status = .failed
      ∨ job₁.status = .completed)
    (hleft : job'.status = .approved) (hhas : job'.HasApprover)
    (hdry : job.dryRun = true) : Shadows job₁ job' := by
  have hdry₁ : job₁.dryRun = true := hsame.dryRun.trans hdry
  exact ⟨hsame.symm.trans h.request, Or.inr ⟨hstatus, hleft, hhas, hdry₁⟩,
    Or.inr ⟨hhas, hdry₁⟩⟩

theorem Shadows.write {job job' : ProvisionJob} (h : Shadows job job')
    {f : ProvisionJob → ProvisionJob}
    (hsame : ∀ j : ProvisionJob, j.SameRequest (f j))
    (hstatus : ∀ j j', (f j).status = (f j').status)
    (happrover : ∀ j, (f j).approvedBy = j.approvedBy) :
    Shadows (f job) (f job') := by
  refine ⟨((hsame job).symm.trans h.request).trans (hsame job'),
    Or.inl (hstatus _ _), ?_⟩
  unfold ProvisionJob.HasApprover
  rw [happrover, happrover]
  exact h.approver.imp_right
    (fun hhas => ⟨hhas.1, (hsame job).dryRun.trans hhas.2⟩)

/-- **A request that moves the one row** moves the other to the same status,
or leaves it there. -/
theorem Shadows.transition {job job' : ProvisionJob} (h : Shadows job job')
    {action : ProvisionJobAction} (actor : String)
    (hsource : job.status ∈ action.sources) :
    Shadows (action.write actor job)
      (if job'.status ∈ action.sources then action.write actor job' else job') := by
  have hboth : (action.write actor job).SameRequest (action.write actor job') :=
    ((ProvisionJob.SameRequest.write action actor job).symm.trans
      h.request).trans (.write action actor job')
  rcases h.status with heq | ⟨hfrom, hleft, hhas, hdry⟩
  · rw [if_pos (heq ▸ hsource)]
    cases action with
    | approve => exact ⟨hboth, Or.inl rfl, Or.inl rfl⟩
    | reject => exact ⟨hboth, Or.inl rfl, h.approver⟩
    | cancel => exact ⟨hboth, Or.inl rfl, h.approver⟩
  · -- without the execution the job is approved still
    cases action with
    | approve =>
      rw [if_neg (by rw [hleft]; decide)]
      exact ⟨(ProvisionJob.SameRequest.write .approve actor job).symm.trans
        h.request, Or.inl hleft.symm, Or.inr ⟨hhas, hdry⟩⟩
    | reject =>
      rw [if_pos (by rw [hleft]; decide)]
      exact ⟨hboth, Or.inl rfl, h.approver⟩
    | cancel =>
      rw [if_pos (by rw [hleft]; decide)]
      exact ⟨hboth, Or.inl rfl, h.approver⟩

/-! ## States with and without an execution -/

/-- **The coupling of the two states.** -/
structure Shadow (e : ℕ) (s t : State) : Prop where
  tenants : t.tenants = s.tenants
  next : t.jobs.next = s.jobs.next
  jobs : ∀ id, Option.Rel Shadows (s.jobs.row id) (t.jobs.row id)
  executions : ∀ {e'}, e' ≠ e → t.executions e' = s.executions e'
  absent : t.executions e = none
  dry : ∀ {ex}, s.executions e = some ex → ex.dryRun = true

theorem Shadow.initial (e : ℕ) : Shadow e .initial .initial where
  tenants := rfl
  next := rfl
  jobs _ := .none
  executions _ := rfl
  absent := rfl
  dry h := nomatch h

theorem Shadow.row {e : ℕ} {s t : State} (h : Shadow e s t) {id : ℕ}
    {job : ProvisionJob} (hjob : s.jobs.row id = some job) :
    ∃ job', t.jobs.row id = some job' ∧ Shadows job job' := by
  have hrel := h.jobs id
  rw [hjob] at hrel
  cases hrow : t.jobs.row id with
  | none =>
    rw [hrow] at hrel
    cases hrel
  | some job' =>
    rw [hrow] at hrel
    cases hrel with
    | some hshadows => exact ⟨job', rfl, hshadows⟩

theorem rel_update {jobs jobs' : Table ProvisionJob}
    (h : ∀ id, Option.Rel Shadows (jobs.row id) (jobs'.row id)) (jobId : ℕ)
    {f g : ProvisionJob → ProvisionJob}
    (hfg : ∀ job job', jobs.row jobId = some job → jobs'.row jobId = some job' →
      Shadows job job' → Shadows (f job) (g job')) (id : ℕ) :
    Option.Rel Shadows ((jobs.update jobId f).row id)
      ((jobs'.update jobId g).row id) := by
  rw [Table.row_update, Table.row_update]
  split
  · have hrel := h jobId
    cases hrow : jobs.row jobId with
    | none =>
      rw [hrow] at hrel
      cases hrow' : jobs'.row jobId with
      | none => exact .none
      | some job' =>
        rw [hrow'] at hrel
        cases hrel
    | some job =>
      rw [hrow] at hrel
      cases hrow' : jobs'.row jobId with
      | none =>
        rw [hrow'] at hrel
        cases hrel
      | some job' =>
        rw [hrow'] at hrel
        cases hrel with
        | some hshadows => exact .some (hfg job job' hrow hrow' hshadows)
  · exact h id

theorem rel_insert {jobs jobs' : Table ProvisionJob}
    (h : ∀ id, Option.Rel Shadows (jobs.row id) (jobs'.row id))
    (hnext : jobs'.next = jobs.next) (job : ProvisionJob) (id : ℕ) :
    Option.Rel Shadows ((jobs.insert job).row id) ((jobs'.insert job).row id) := by
  by_cases hid : id = jobs.next
  · subst hid
    rw [Table.row_insert_next, ← hnext, Table.row_insert_next]
    exact .some (Shadows.refl job)
  · rw [Table.row_insert_of_ne _ _ hid,
      Table.row_insert_of_ne _ _ (by rw [hnext]; exact hid)]
    exact h id

/-- An update of one table alone, at a row that the other one shadows. -/
theorem rel_update_left {jobs jobs' : Table ProvisionJob}
    (h : ∀ id, Option.Rel Shadows (jobs.row id) (jobs'.row id)) (jobId : ℕ)
    {f : ProvisionJob → ProvisionJob}
    (hf : ∀ job job', jobs.row jobId = some job → jobs'.row jobId = some job' →
      Shadows job job' → Shadows (f job) job') (id : ℕ) :
    Option.Rel Shadows ((jobs.update jobId f).row id) (jobs'.row id) := by
  have hself : jobs'.update jobId (fun job' => job') = jobs' :=
    Table.update_eq_self _ (fun _ _ => rfl)
  rw [← hself]
  exact rel_update h jobId hf id

section Kept

variable {e e' : ℕ} {s t s' t' : State}

theorem Shadow.insert (h : Shadow e s t) (job : ProvisionJob)
    (htenants : t'.tenants = s'.tenants) (hjobs : s'.jobs = s.jobs.insert job)
    (hjobs' : t'.jobs = t.jobs.insert job) (hexec : s'.executions = s.executions)
    (hexec' : t'.executions = t.executions) : Shadow e s' t' where
  tenants := htenants
  next := by rw [hjobs, hjobs', Table.next_insert, Table.next_insert, h.next]
  jobs id := by
    rw [hjobs, hjobs']
    exact rel_insert h.jobs h.next job id
  executions hne := by rw [hexec, hexec', h.executions hne]
  absent := by rw [hexec', h.absent]
  dry hex := h.dry (hexec ▸ hex)

theorem Shadow.both (h : Shadow e s t) (hne : e' ≠ e) (ex : Execution)
    (jobId : ℕ) (f : ProvisionJob → ProvisionJob)
    (hsame : ∀ j : ProvisionJob, j.SameRequest (f j))
    (hstatus : ∀ j j', (f j).status = (f j').status)
    (happrover : ∀ j, (f j).approvedBy = j.approvedBy)
    (htenants : t'.tenants = s'.tenants)
    (hjobs : s'.jobs = s.jobs.update jobId f)
    (hjobs' : t'.jobs = t.jobs.update jobId f)
    (hexec : s'.executions = Function.update s.executions e' (some ex))
    (hexec' : t'.executions = Function.update t.executions e' (some ex)) :
    Shadow e s' t' where
  tenants := htenants
  next := by rw [hjobs, hjobs', Table.next_update, Table.next_update, h.next]
  jobs id := by
    rw [hjobs, hjobs']
    exact rel_update h.jobs jobId
      (fun _ _ _ _ hs => hs.write (f := f) hsame hstatus happrover) id
  executions {e₁} hne₁ := by
    rw [hexec, hexec']
    by_cases heq : e₁ = e'
    · rw [heq, Function.update_self, Function.update_self]
    · rw [Function.update_of_ne heq, Function.update_of_ne heq,
        h.executions hne₁]
  absent := by rw [hexec', Function.update_of_ne (Ne.symm hne), h.absent]
  dry {ex₁} hex := by
    rw [hexec, Function.update_of_ne (Ne.symm hne)] at hex
    exact h.dry hex

theorem Shadow.setTenantStatus (h : Shadow e s t) (id : ℕ)
    (status : TenantStatus) : (t.setTenantStatus id status).tenants
      = (s.setTenantStatus id status).tenants := by
  show t.tenants.update _ _ = s.tenants.update _ _
  rw [h.tenants]

theorem Shadow.start (h : Shadow e s t) (hne : e' ≠ e) (ex : Execution) :
    Shadow e (s.start e' ex) (t.start e' ex) :=
  h.both hne ex ex.jobId (fun job => { job with status := .running }) .running
    (fun _ _ => rfl) (fun _ => rfl) (h.setTenantStatus _ _) rfl rfl rfl rfl

theorem Shadow.fail (h : Shadow e s t) (hne : e' ≠ e) (ex : Execution)
    (err : Exception) : Shadow e (s.fail e' ex err) (t.fail e' ex err) :=
  h.both hne { ex with awaiting := none } ex.jobId (ex.failedJob err)
    (.failedJob ex err) (fun _ _ => rfl) (fun _ => rfl)
    (h.setTenantStatus _ _) rfl rfl rfl rfl

theorem Shadow.complete (h : Shadow e s t) (hne : e' ≠ e) (ex : Execution) :
    Shadow e (s.complete e' ex) (t.complete e' ex) :=
  h.both hne { ex with awaiting := none } ex.jobId ex.completedJob
    (.completedJob ex) (fun _ _ => rfl) (fun _ => rfl)
    (h.setTenantStatus _ _) rfl rfl rfl rfl

theorem Shadow.setExecution (h : Shadow e s t) (hne : e' ≠ e)
    (ex : Execution) :
    Shadow e (s.setExecution e' ex) (t.setExecution e' ex) where
  tenants := h.tenants
  next := h.next
  jobs := h.jobs
  executions {e₁} hne₁ := by
    rw [State.setExecution_executions, State.setExecution_executions]
    by_cases heq : e₁ = e'
    · rw [heq, Function.update_self, Function.update_self]
    · rw [Function.update_of_ne heq, Function.update_of_ne heq,
        h.executions hne₁]
  absent := by
    rw [State.setExecution_executions, Function.update_of_ne (Ne.symm hne),
      h.absent]
  dry {ex₁} hex := by
    rw [State.setExecution_executions, Function.update_of_ne (Ne.symm hne)] at hex
    exact h.dry hex

theorem Shadow.advance {site : Site} (h : Shadow e s t) (hne : e' ≠ e)
    {ex : Execution} {es : List Event} (hadvance : Advance site s e' ex s' es) :
    ∃ t', Advance site t e' ex t' es ∧ Shadow e s' t' := by
  cases hadvance with
  | completes hrest => exact ⟨_, .completes hrest, h.complete hne ex⟩
  | throws hrest hbegin => exact ⟨_, .throws hrest hbegin, h.fail hne ex _⟩
  | dispatches hrest hbegin =>
    exact ⟨_, .dispatches hrest hbegin, h.setExecution hne _⟩

theorem Shadows.hasApprover {job job' : ProvisionJob} (h : Shadows job job')
    (hhas : job.HasApprover) : job'.HasApprover := by
  rcases h.approver with heq | ⟨hhas', -⟩
  · unfold ProvisionJob.HasApprover at hhas ⊢
    rw [← heq]
    exact hhas
  · exact hhas'

theorem Shadows.approved {job job' : ProvisionJob} (h : Shadows job job')
    (happroved : job.status = .approved) : job'.status = .approved := by
  rcases h.status with heq | ⟨hfrom, -⟩
  · exact heq ▸ happroved
  · rw [happroved] at hfrom
    exact absurd hfrom (by decide)

/-- **A job that may start with the execution may start without it.** -/
theorem Shadow.startable {rt : Runtime} (h : Shadow e s t) {jobId : ℕ}
    {actor : String} {job : ProvisionJob} {tenant : Tenant}
    (hs : Startable rt s jobId actor job tenant) :
    ∃ job', Startable rt t jobId actor job' tenant ∧ Shadows job job' := by
  obtain ⟨job', hjob', hshadows⟩ := h.row hs.jobRow
  have hreq := hshadows.request
  -- the approver can only differ for a dry run
  have happrover : job'.dryRun = false → job'.approvedBy = job.approvedBy := by
    intro hlive
    rw [hreq.dryRun] at hlive
    rcases hshadows.approver with heq | ⟨-, hdry⟩
    · exact heq.symm
    · rw [hdry] at hlive
      exact absurd hlive (by decide)
  refine ⟨job', ⟨hjob', ?_, hshadows.approved hs.approved, ?_, ?_,
    hshadows.hasApprover hs.hasApprover, fun hlive => ?_, fun hlive => ?_⟩,
    hshadows⟩
  · rw [h.tenants, hreq.tenantId]
    exact hs.tenantRow
  · rw [hreq.planJson]
    exact hs.hasSteps
  · unfold ProvisionJob.requestedDryRun
    rw [hreq.requestJson, hreq.dryRun]
    exact hs.metadata
  · rw [happrover hlive, hreq.requestedBy]
    exact hs.requester (hreq.dryRun ▸ hlive)
  · rw [happrover hlive]
    exact hs.runner (hreq.dryRun ▸ hlive)

theorem Shadows.startExecution {job job' : ProvisionJob} (h : Shadows job job')
    (rt : Runtime) (p : Process) (tenant : Tenant) (jobId : ℕ) (actor : String)
    (fsError : Option Exception) :
    startArtifacts rt p job' tenant jobId fsError
        = startArtifacts rt p job tenant jobId fsError
      ∧ job'.execution tenant jobId actor = job.execution tenant jobId actor := by
  have hreq := h.request
  refine ⟨?_, ?_⟩
  · unfold startArtifacts ensureProvisionArtifacts
    rw [hreq.jobType, hreq.requestJson]
  · unfold ProvisionJob.execution
    rw [hreq.tenantId, hreq.jobType, hreq.dryRun, hreq.planJson]

/-- **A request that moves the row of a job** moves the other row as well, or
is refused there. -/
theorem Shadow.transition {site : Site} (h : Shadow e s t) {jobId : ℕ}
    {actor : String} {action : ProvisionJobAction} {job : ProvisionJob}
    {tenant : Tenant} (hjob : s.jobs.row jobId = some job)
    (htenant : s.tenants.row job.tenantId = some tenant)
    (hsource : job.status ∈ action.sources) :
    Shadow e { s with jobs := s.jobs.update jobId (action.write actor) }
      ((controlPlane site).next t (.transition jobId actor action)) := by
  obtain ⟨job', hjob', hshadows⟩ := h.row hjob
  have hmoved := hshadows.transition actor hsource
  by_cases hsource' : job'.status ∈ action.sources
  · rw [if_pos hsource'] at hmoved
    have htenant' : t.tenants.row job'.tenantId = some tenant := by
      rw [h.tenants, hshadows.request.tenantId]
      exact htenant
    rw [(Step.transition hjob' htenant' hsource').next_eq (by simp)]
    refine ⟨h.tenants, h.next, rel_update h.jobs jobId ?_, h.executions, h.absent,
      h.dry⟩
    intro job₁ job₁' hjob₁ hjob₁' _
    obtain rfl : job = job₁ := Option.some.inj (hjob.symm.trans hjob₁)
    obtain rfl : job' = job₁' := Option.some.inj (hjob'.symm.trans hjob₁')
    exact hmoved
  · rw [if_neg hsource'] at hmoved
    have hsame : (controlPlane site).next t (.transition jobId actor action)
        = t := by
      have hstep := controlPlane_step site t (.transition jobId actor action)
      generalize (controlPlane site).next t _ = t' at hstep ⊢
      generalize (controlPlane site).emits t _ = es at hstep
      cases hstep with
      | refused _ => rfl
      | transition hjob₁ _ hsource₁ =>
        obtain rfl := Option.some.inj (hjob'.symm.trans hjob₁)
        exact absurd hsource₁ hsource'
    rw [hsame]
    refine ⟨h.tenants, h.next, rel_update_left h.jobs jobId ?_, h.executions,
      h.absent, h.dry⟩
    intro job₁ job₁' hjob₁ hjob₁' _
    obtain rfl : job = job₁ := Option.some.inj (hjob.symm.trans hjob₁)
    obtain rfl : job' = job₁' := Option.some.inj (hjob'.symm.trans hjob₁')
    exact hmoved

/-- **A step of another execution or of the API has a step without it**, or
it changes nothing without it. -/
theorem Shadow.step {site : Site} {a : Action} {es : List Event}
    (h : Shadow e s t) (hother : a.executionOf ≠ some e) (hes : es ≠ [])
    (hstep : Step site s a s' es) :
    Shadow e s' ((controlPlane site).next t a) := by
  cases hstep with
  | refused _ => exact absurd rfl hes
  | @createTenant request actor r hread hslug huser =>
    have hstep' : Step site t (.createTenant request actor) _ _ :=
      .createTenant hread (by rw [h.tenants]; exact hslug)
        (by rw [h.tenants]; exact huser)
    rw [hstep'.next_eq (by simp)]
    refine h.insert (r.job site.web s.tenants.next actor) ?_ rfl ?_ rfl rfl
    · show t.tenants.insert _ = s.tenants.insert _
      rw [h.tenants]
    · show t.jobs.insert _ = _
      rw [h.tenants]
  | @decommission tenantId request actor tenant r hid htenant hread =>
    have hstep' : Step site t (.decommission tenantId request actor) _ _ :=
      .decommission hid (by rw [h.tenants]; exact htenant) hread
    rw [hstep'.next_eq (by simp)]
    exact h.insert (r.job tenantId tenant actor) h.tenants rfl rfl rfl rfl
  | @postJob body actor tenant r hread htenant =>
    have hstep' : Step site t (.postJob body actor) _ _ :=
      .postJob hread (by rw [h.tenants]; exact htenant)
    rw [hstep'.next_eq (by simp)]
    exact h.insert (r.job actor) h.tenants rfl rfl rfl rfl
  | @transition jobId actor action job tenant hjob htenant hsource =>
    exact h.transition hjob htenant hsource
  | @execute e' jobId actor fsError ex artifacts _ events hfree hstart hadvance =>
    have hne : e' ≠ e := fun heq => hother (heq ▸ rfl)
    -- the job may be one that the execution has left: it can be started without it, too
    obtain ⟨job, tenant, hs, hartifacts, rfl⟩ := startExecution_eq_ok.mp hstart
    obtain ⟨job', hs', hshadows⟩ := h.startable hs
    obtain ⟨harts, hexec⟩ := hshadows.startExecution site.rt site.web tenant
      jobId actor fsError
    obtain ⟨t', hadvance', hshadow⟩ :=
      (h.start hne (job.execution tenant jobId actor)).advance hne hadvance
    have hstart' : startExecution site.rt site.web t jobId actor fsError
        = .ok (job.execution tenant jobId actor, artifacts) :=
      startExecution_eq_ok.mpr ⟨job', tenant, hs', harts.trans hartifacts,
        hexec.symm⟩
    have hfree' : t.executions e' = none := by rw [h.executions hne, hfree]
    rw [(Step.execute hfree' hstart' hadvance').next_eq (by simp)]
    exact hshadow
  | @resumeError e' event ex transport err hex hawait hsettle =>
    have hne : e' ≠ e := fun heq => hother (heq ▸ rfl)
    have hex' : t.executions e' = some ex := by rw [h.executions hne, hex]
    rw [(Step.resumeError hex' hawait hsettle).next_eq (by simp)]
    exact h.fail hne ex err
  | @resumeOk e' event ex transport result _ _ hex hawait hsettle hadvance =>
    have hne : e' ≠ e := fun heq => hother (heq ▸ rfl)
    have hex' : t.executions e' = some ex := by rw [h.executions hne, hex]
    obtain ⟨t', hadvance', hshadow⟩ := h.advance hne hadvance
    rw [(Step.resumeOk hex' hawait hsettle hadvance').next_eq (by simp)]
    exact hshadow

end Kept

/-! ## The steps of the execution itself -/

section Left

variable {site : Site} {e : ℕ} {s t s' : State} {ex : Execution}

theorem Shadow.approved (hs : Reached s) (ht : Reached t) (h : Shadow e s t)
    (hex : s.executions e = some ex) (hawait : ex.awaiting.isSome = true)
    {job' : ProvisionJob} (hjob' : t.jobs.row ex.jobId = some job') :
    job'.status = .approved ∧ job'.HasApprover := by
  obtain ⟨⟨es, hsound⟩, -⟩ := hs
  obtain ⟨⟨es', hsound'⟩, -⟩ := ht
  obtain ⟨job, hjob, -⟩ := hsound.reads hex
  obtain ⟨job₁, hjob₁, hshadows⟩ := h.row hjob
  obtain rfl : job₁ = job' := Option.some.inj (hjob₁.symm.trans hjob')
  obtain ⟨hrun, hlast, -⟩ := hsound.busy ⟨hex, Or.inl hawait⟩ hjob
  rcases hshadows.status with heq | ⟨-, happroved, hhas, -⟩
  · -- otherwise another execution of the job would be in flight
    obtain ⟨e₁, ex₁, hbusy, hid⟩ := hsound'.running hjob' (heq ▸ hrun)
    have hne : e₁ ≠ e := by
      rintro rfl
      have hsome := hbusy.1
      rw [h.absent] at hsome
      exact absurd hsome (by simp)
    have hbusy₁ : s.Busy none e₁ ex₁ := ⟨h.executions hne ▸ hbusy.1, hbusy.2⟩
    have hlast₁ := (hsound.busy hbusy₁ (hid ▸ hjob)).2.1
    rw [hid, hlast] at hlast₁
    exact absurd (Option.some.inj hlast₁).symm hne
  · exact ⟨happroved, hhas⟩

/-- A write of the execution to its own variables and to the row of its job,
which is approved without it. -/
theorem Shadow.own (h : Shadow e s t) (ex : Execution)
    (htenants : s'.tenants = s.tenants)
    (hexec : s'.executions = Function.update s.executions e (some ex))
    (hdry : ex.dryRun = true) {jobId : ℕ} {f : ProvisionJob → ProvisionJob}
    (hjobs : s'.jobs = s.jobs.update jobId f)
    (hsame : ∀ j : ProvisionJob, j.SameRequest (f j))
    (hstatus : ∀ j, (f j).status = .running ∨ (f j).status = .failed
      ∨ (f j).status = .completed)
    (hlive : ∀ job, s.jobs.row jobId = some job → job.dryRun = true)
    (hleft : ∀ job', t.jobs.row jobId = some job' →
      job'.status = .approved ∧ job'.HasApprover) : Shadow e s' t where
  tenants := h.tenants.trans htenants.symm
  next := by rw [hjobs, Table.next_update, h.next]
  jobs id := by
    rw [hjobs]
    refine rel_update_left h.jobs jobId (fun job job' hjob hjob' hs => ?_) id
    obtain ⟨happroved, hhas⟩ := hleft job' hjob'
    exact hs.taken (hsame job) (hstatus _) happroved hhas (hlive job hjob)
  executions {e₁} hne := by
    rw [hexec, Function.update_of_ne hne, h.executions hne]
  absent := h.absent
  dry {ex₁} hex := by
    rw [hexec, Function.update_self] at hex
    exact Option.some.inj hex ▸ hdry

theorem setTenantStatus_eq_self {id : ℕ} {status : TenantStatus}
    (h : ∀ tenant, s.tenants.row id = some tenant → tenant.status = status) :
    (s.setTenantStatus id status).tenants = s.tenants :=
  Table.update_eq_self _ (fun tenant htenant => by rw [← h tenant htenant])

/-- The loop of the execution, where each write of a status finds it there
already. -/
theorem Shadow.advanceOwn {es : List Event} (h : Shadow e s t)
    (hdry : ex.dryRun = true)
    (hlive : ∀ job, s.jobs.row ex.jobId = some job → job.dryRun = true)
    (hleft : ∀ job', t.jobs.row ex.jobId = some job' →
      job'.status = .approved ∧ job'.HasApprover)
    (hstatus : ∀ ending, ex.ending site = some ending → ∀ tenant,
      s.tenants.row ex.tenantId = some tenant →
      tenant.status = ex.endStatus ending)
    (hadvance : Advance site s e ex s' es) : Shadow e s' t := by
  cases hadvance with
  | completes hrest =>
    refine h.own { ex with awaiting := none } (f := ex.completedJob)
      (setTenantStatus_eq_self ?_) rfl hdry rfl (.completedJob ex)
      (fun _ => Or.inr (Or.inr rfl)) hlive hleft
    exact hstatus .completes (by simp [Execution.ending, hrest])
  | @throws step more err hrest hbegin =>
    refine h.own { ex with awaiting := none } (f := ex.failedJob err)
      (setTenantStatus_eq_self ?_) rfl hdry rfl (.failedJob ex err)
      (fun _ => Or.inr (Or.inl rfl)) hlive hleft
    exact hstatus .fails (by simp [Execution.ending, hrest, hbegin])
  | @dispatches step more transport hrest hbegin =>
    refine ⟨h.tenants, h.next, h.jobs, fun {e₁} hne => ?_, h.absent,
      fun {ex₁} hex => ?_⟩
    · rw [State.setExecution_executions, Function.update_of_ne hne,
        h.executions hne]
    · rw [State.setExecution_executions, Function.update_self] at hex
      exact Option.some.inj hex ▸ hdry

/-- For a dry run the condition says that a write at the end finds its status
there already. -/
theorem Action.LeavesStatus.endStatus {a : Action} {ending : Ending}
    {tenant : Tenant} (h : a.LeavesStatus site e s)
    (hown : a.executionOf = some e) (hdry : ex.dryRun = true)
    (hending : a.ending site s = some (ex, ending))
    (htenant : s.tenants.row ex.tenantId = some tenant) :
    tenant.status = ex.endStatus ending := by
  have hstatus := h hown ex ending tenant hending htenant
  cases ending with
  | fails => exact hstatus
  | completes =>
    show tenant.status = ex.completedTenantStatus
    unfold Execution.completedTenantStatus
    rw [if_pos hdry]
    exact hstatus

theorem dryRun_of_execution (hs : Reached s) (hex : s.executions e = some ex)
    (hdry : ex.dryRun = true) (job : ProvisionJob)
    (hjob : s.jobs.row ex.jobId = some job) : job.dryRun = true := by
  obtain ⟨⟨es, hsound⟩, -⟩ := hs
  obtain ⟨job₁, hjob₁, -, -, hread, -⟩ := hsound.reads hex
  obtain rfl : job₁ = job := Option.some.inj (hjob₁.symm.trans hjob)
  exact hread.symm.trans hdry

/-- **A step of the execution changes nothing that is seen without it**, if
it meets the condition. -/
theorem Shadow.stepOwn {a : Action} {es : List Event} (hs : Reached s)
    (ht : Reached t) (h : Shadow e s t) (hown : a.executionOf = some e)
    (hdry : ∀ ex, s'.executions e = some ex → ex.dryRun = true)
    (hleaves : a.LeavesStatus site e s) (hstep : Step site s a s' es) :
    Shadow e s' t := by
  cases hstep with
  | refused _ => exact h
  | createTenant _ _ _ => exact absurd hown (by simp [Action.executionOf])
  | decommission _ _ _ => exact absurd hown (by simp [Action.executionOf])
  | postJob _ _ => exact absurd hown (by simp [Action.executionOf])
  | transition _ _ _ => exact absurd hown (by simp [Action.executionOf])
  | @execute e₁ jobId actor fsError ex artifacts _ _ hfree hstart hadvance =>
    obtain rfl : e₁ = e := Option.some.inj hown
    obtain ⟨exEnd, hexEnd, hcall⟩ := hadvance.execution
    have hdryRun : ex.dryRun = true := by
      rw [← hdry exEnd hexEnd, hcall]
    have hending : ∀ ending, ex.ending site = some ending →
        Action.ending site s (.execute e₁ jobId actor fsError)
          = some (ex, ending) := by
      intro ending hsome
      simp [Action.ending, hfree, hstart, hsome]
    obtain ⟨job, tenant, hstartable, -, rfl⟩ := startExecution_eq_ok.mp hstart
    -- the start writes the status it has read
    have htenants : (s.start e₁ (job.execution tenant jobId actor)).tenants
        = s.tenants := by
      refine setTenantStatus_eq_self (fun tenant₁ htenant₁ => ?_)
      obtain rfl : tenant = tenant₁ :=
        Option.some.inj (hstartable.tenantRow.symm.trans htenant₁)
      unfold Execution.startedTenantStatus
      rw [if_pos hdryRun]
      rfl
    obtain ⟨job', hjob', hshadows⟩ := h.row hstartable.jobRow
    have hleft : ∀ job₁, t.jobs.row jobId = some job₁ →
        job₁.status = .approved ∧ job₁.HasApprover := by
      intro job₁ hjob₁
      obtain rfl : job' = job₁ := Option.some.inj (hjob'.symm.trans hjob₁)
      exact ⟨hshadows.approved hstartable.approved,
        hshadows.hasApprover hstartable.hasApprover⟩
    have hstarted : Shadow e₁ (s.start e₁ (job.execution tenant jobId actor)) t := by
      refine h.own (job.execution tenant jobId actor) htenants rfl hdryRun rfl .running
        (fun _ => Or.inl rfl) ?_ hleft
      intro job₁ hjob₁
      obtain rfl : job = job₁ :=
        Option.some.inj (hstartable.jobRow.symm.trans hjob₁)
      exact hdryRun
    refine hstarted.advanceOwn hdryRun ?_ hleft ?_ hadvance
    · intro job₁ hjob₁
      replace hjob₁ : (s.jobs.update jobId _).row jobId = some job₁ := hjob₁
      rw [Table.row_update_self, hstartable.jobRow, Option.map_some] at hjob₁
      obtain rfl := Option.some.inj hjob₁
      exact hdryRun
    · intro ending hsome tenant₁ htenant₁
      rw [htenants] at htenant₁
      exact hleaves.endStatus hown hdryRun (hending ending hsome) htenant₁
  | @resumeError e₁ event ex transport err hex hawait hsettle =>
    obtain rfl : e₁ = e := Option.some.inj hown
    have hdryRun : ex.dryRun = true :=
      hdry { ex with awaiting := none } (Function.update_self _ _ _)
    refine h.own { ex with awaiting := none } (f := ex.failedJob err)
      (setTenantStatus_eq_self ?_) rfl hdryRun rfl (.failedJob ex err)
      (fun _ => Or.inr (Or.inl rfl)) (dryRun_of_execution hs hex hdryRun)
      (fun job' => Shadow.approved hs ht h hex (by simp [hawait]))
    have hending : Action.ending site s (.resume e₁ event) = some (ex, .fails) := by
      simp [Action.ending, hex, hawait, hsettle]
    intro tenant htenant
    exact hleaves.endStatus hown hdryRun hending htenant
  | @resumeOk e₁ event ex transport result _ _ hex hawait hsettle hadvance =>
    obtain rfl : e₁ = e := Option.some.inj hown
    obtain ⟨exEnd, hexEnd, hcall⟩ := hadvance.execution
    have hdryRun : ex.dryRun = true := by
      rw [← hdry exEnd hexEnd, hcall]
      rfl
    have hrecord : (ex.record result).dryRun = true := hdryRun
    have hlive := dryRun_of_execution hs hex hdryRun
    refine h.advanceOwn hrecord hlive
      (fun job' => Shadow.approved hs ht h hex (by simp [hawait])) ?_ hadvance
    intro ending hsome tenant htenant
    have hending : Action.ending site s (.resume e₁ event) = some (ex, ending) := by
      simp [Action.ending, hex, hawait, hsettle, hsome]
    have hstatus := hleaves.endStatus hown hdryRun hending htenant
    exact hstatus

end Left

/-! ## The run with and without the execution -/

/-- The execution, as far as it has started, is a dry run. -/
def State.DryRun (s : State) (e : ℕ) : Prop :=
  ∀ ex, s.executions e = some ex → ex.dryRun = true

theorem Step.eq_of_nil {site : Site} {s s' : State} {a : Action}
    {es : List Event} (hstep : Step site s a s' es) (hes : es = []) : s' = s := by
  cases hstep with
  | refused _ => rfl
  | createTenant _ _ _ => exact absurd hes (by simp)
  | decommission _ _ _ => exact absurd hes (by simp)
  | postJob _ _ => exact absurd hes (by simp)
  | transition _ _ _ => exact absurd hes (by simp)
  | execute _ _ _ => exact absurd hes (by simp)
  | resumeError _ _ _ => exact absurd hes (by simp)
  | resumeOk _ _ _ _ => exact absurd hes (by simp)

/-- The execution that an action ends is the one the action is part of. -/
theorem Step.execution_of_ending {site : Site} {s s' : State} {a : Action}
    {es : List Event} (hstep : Step site s a s' es) {e : ℕ} {ex : Execution}
    {ending : Ending} (hown : a.executionOf = some e)
    (hending : a.ending site s = some (ex, ending)) :
    ∃ ex', s'.executions e = some ex' ∧ ex.SameCall ex' := by
  cases hstep with
  | refused hnone => exact absurd (hnone.symm.trans hending) (by simp)
  | createTenant _ _ _ => exact absurd hown (by simp [Action.executionOf])
  | decommission _ _ _ => exact absurd hown (by simp [Action.executionOf])
  | postJob _ _ => exact absurd hown (by simp [Action.executionOf])
  | transition _ _ _ => exact absurd hown (by simp [Action.executionOf])
  | @execute e₁ _ _ _ ex₁ _ _ _ hfree hstart hadvance =>
    obtain rfl : e₁ = e := Option.some.inj hown
    obtain ⟨-, rfl⟩ : ex₁.ending site = some ending ∧ ex₁ = ex := by
      simpa [Action.ending, hfree, hstart] using hending
    exact hadvance.execution
  | @resumeError e₁ _ ex₁ _ err hex hawait hsettle =>
    obtain rfl : e₁ = e := Option.some.inj hown
    obtain ⟨rfl, -⟩ : ex₁ = ex ∧ Ending.fails = ending := by
      simpa [Action.ending, hex, hawait, hsettle] using hending
    exact ⟨{ ex₁ with awaiting := none }, Function.update_self _ _ _, rfl⟩
  | @resumeOk e₁ _ ex₁ _ result _ _ hex hawait hsettle hadvance =>
    obtain rfl : e₁ = e := Option.some.inj hown
    obtain ⟨-, rfl⟩ : (ex₁.record result).ending site = some ending
        ∧ ex₁ = ex := by
      simpa [Action.ending, hex, hawait, hsettle] using hending
    obtain ⟨ex', hex', hcall⟩ := hadvance.execution
    exact ⟨ex', hex', by rw [hcall]; rfl⟩

/-- What is a dry run at the end of a run was one all along it. -/
theorem dryRun_eachStep (site : Site) (e : ℕ) {as : List Action}
    (hdry : ((controlPlane site).state .initial as).DryRun e) :
    (controlPlane site).EachStep
      (fun s a => ((controlPlane site).next s a).DryRun e) .initial as := by
  have hback : ∀ bs s, ((controlPlane site).state s bs).DryRun e → s.DryRun e := by
    intro bs s hend ex hex
    suffices h : ∃ ex', ((controlPlane site).state s bs).executions e = some ex'
        ∧ ex.SameCall ex' by
      obtain ⟨ex', hex', hcall⟩ := h
      rw [← hend ex' hex', hcall]
    clear hend
    induction bs using List.reverseRecOn with
    | nil => exact ⟨ex, hex, rfl⟩
    | append_singleton bs b ih =>
      obtain ⟨ex₁, hex₁, hcall₁⟩ := ih
      rw [Machine.state_concat]
      obtain ⟨ex₂, hex₂, hcall₂⟩ := (controlPlane_step site _ b).execution hex₁
      refine ⟨ex₂, hex₂, ?_⟩
      rw [hcall₂, hcall₁]
      rfl
  intro p a ⟨bs, hbs⟩
  show State.DryRun ((controlPlane site).next _ a) e
  rw [← Machine.state_concat]
  refine hback bs _ ?_
  rw [← Machine.state_append, hbs]
  exact hdry

/-- **A step with the execution and without it** keeps the coupling, if it
meets the condition. -/
theorem Shadow.keeps {site : Site} {e : ℕ} {s t : State} {a : Action}
    (hs : Reached s) (ht : Reached t) (h : Shadow e s t)
    (hdry : ((controlPlane site).next s a).DryRun e)
    (hleaves : a.LeavesStatus site e s) :
    Shadow e ((controlPlane site).next s a)
      (if keepsWithout site e s a then (controlPlane site).next t a else t) := by
  have hstep := controlPlane_step site s a
  by_cases hown : a.executionOf = some e
  · rw [if_neg (by simp [keepsWithout, hown])]
    exact h.stepOwn hs ht hown hdry hleaves hstep
  · by_cases hes : (controlPlane site).emits s a = []
    · rw [if_neg (by simp [keepsWithout, hes]), hstep.eq_of_nil hes]
      exact h
    · rw [if_pos (by simpa [keepsWithout, hes] using hown)]
      exact h.step hown hes hstep

/-- **A step of the execution that does not meet the condition is seen.** -/
theorem not_sameStatus_next {site : Site} {e : ℕ} {s t : State} {a : Action}
    (h : Shadow e s t)
    (hdry : ((controlPlane site).next s a).DryRun e)
    (hbreak : ¬ a.LeavesStatus site e s) :
    ¬ SameStatus ((controlPlane site).next s a)
      (if keepsWithout site e s a then (controlPlane site).next t a else t) := by
  have hstep := controlPlane_step site s a
  unfold Action.LeavesStatus at hbreak
  push Not at hbreak
  obtain ⟨hown, ex, ending, tenant, hending, htenant, hdiffers⟩ := hbreak
  rw [if_neg (by simp [keepsWithout, hown])]
  intro hsame
  have hdryRun : ex.dryRun = true := by
    obtain ⟨ex', hex', hcall⟩ := hstep.execution_of_ending hown hending
    rw [← hdry ex' hex', hcall]
  have hwritten := hsame ex.tenantId
  rw [(hstep.endsAs hending).tenantSelf, h.tenants, htenant] at hwritten
  have hstatus : ex.endStatus ending = tenant.status := by simpa using hwritten
  cases ending with
  | fails => exact hdiffers hstatus.symm
  | completes =>
    refine hdiffers (hstatus.symm.trans ?_)
    show ex.completedTenantStatus = _
    unfold Execution.completedTenantStatus
    rw [if_pos hdryRun]

/-- **A dry run leaves the status of every tenant alone, all along the run,
exactly if it fails only in a tenant with the status `error` and completes
only while the status is the one it has read.** -/
theorem dryRun_leaves_status_iff (site : Site) (e : ℕ) (as : List Action)
    (hdry : ∀ ex, ((controlPlane site).state .initial as).executions e = some ex →
      ex.dryRun = true) :
    (∀ p, p <+: as → SameStatus ((controlPlane site).state .initial p)
        ((controlPlane site).state .initial (without site e p)))
      ↔ (controlPlane site).EachStep (fun s a => a.LeavesStatus site e s)
          .initial as := by
  refine (controlPlane site).kept_agrees_iff
    (R := fun s t => (Reached s ∧ Reached t) ∧ Shadow e s t)
    ⟨⟨.initial, .initial⟩, .initial e⟩ (fun s t h id => by rw [h.2.tenants])
    ?_ ?_ (dryRun_eachStep site e hdry)
  · intro s t a ⟨⟨hs, ht⟩, hshadow⟩ hdryNext hleaves
    refine ⟨⟨hs.next site a, ?_⟩, hshadow.keeps hs ht hdryNext hleaves⟩
    split
    · exact ht.next site a
    · exact ht
  · intro s t a ⟨_, hshadow⟩ hdryNext hbreak
    exact not_sameStatus_next hshadow hdryNext hbreak

/-- The dry run of the sample tenant's bootstrap leaves every status alone
while it waits for its first step. -/
theorem dryRun_leaves_status_sample :
    SameStatus ((controlPlane sampleSite).state .initial (sampleStart true))
      ((controlPlane sampleSite).state .initial
        (without sampleSite 0 (sampleStart true))) := by
  refine (dryRun_leaves_status_iff sampleSite 0 (sampleStart true) ?_).mpr ?_ _
    (List.prefix_refl _)
  · intro ex hex
    have hdry : (((controlPlane sampleSite).state .initial
        (sampleStart true)).executions 0).map (·.dryRun) = some true := rfl
    rw [hex] at hdry
    exact Option.some.inj hdry
  · have hnone : Action.ending sampleSite ((controlPlane sampleSite).state .initial
        [.createTenant (sampleRequest true) "ann", .transition 1 "bob" .approve])
        (.execute 0 1 "cy" none) = none := rfl
    refine .cons _ (fun h => ?_) (.cons _ (fun h => ?_) (.cons _ (fun _ => ?_)
      (Machine.eachStep_nil _ _ _)))
    · exact absurd h (by simp [Action.executionOf])
    · exact absurd h (by simp [Action.executionOf])
    · intro ex ending tenant hending
      exact absurd (hnone.symm.trans hending) (by simp)

/-- The failed dry run of `sampleOverlap` has put the tenant into `error`;
without it the tenant is in `provisioning`. -/
theorem not_dryRun_leaves_status_sampleOverlap :
    (∀ ex, ((controlPlane sampleSite).state .initial sampleOverlap).executions 1
        = some ex → ex.dryRun = true)
      ∧ ¬ SameStatus ((controlPlane sampleSite).state .initial sampleOverlap)
        ((controlPlane sampleSite).state .initial
          (without sampleSite 1 sampleOverlap)) := by
  refine ⟨fun ex hex => ?_, fun hsame => ?_⟩
  · have hdry : (((controlPlane sampleSite).state .initial
        sampleOverlap).executions 1).map (·.dryRun) = some true := rfl
    rw [hex] at hdry
    exact Option.some.inj hdry
  · have hwith : (((controlPlane sampleSite).state .initial
        sampleOverlap).tenants.row 1).map (·.status) = some .error := rfl
    have hwithout : (((controlPlane sampleSite).state .initial
        (without sampleSite 1 sampleOverlap)).tenants.row 1).map (·.status)
        = some .provisioning := rfl
    have hboth := hsame 1
    rw [hwith, hwithout] at hboth
    exact absurd hboth (by decide)

end MissionControl
