import MissionControl.ControlPlane

/-!
# The life of a job

The status of a job is checked once, when an execution starts, and other
requests are served during every wait of its loop. What makes the check last
is one invariant (`Sound`): a job is `running` exactly while one execution
of it is in flight, that execution is the last one that started for it, and
the approver the execution was checked against is still the one in the row –
no request changes a running job.

Two results are read off: the two-person rule at every step that is handed
over (`dispatched_two_person`), and the life of a job over whole runs
(`job_lifecycle`).
-/

namespace MissionControl

/-! ## Reading a trace -/

/-- The latest of the values a trace shows. -/
def latest {α : Type} (f : Event → Option α) (es : List Event) : Option α :=
  (es.filterMap f).getLast?

theorem latest_append {α : Type} (f : Event → Option α) (es es' : List Event) :
    latest f (es ++ es') = (latest f es').or (latest f es) := by
  unfold latest
  rw [List.filterMap_append, List.getLast?_append]

theorem latest_append_of_forall {α : Type} {f : Event → Option α}
    {es es' : List Event} (h : ∀ ev ∈ es', f ev = none) :
    latest f (es ++ es') = latest f es := by
  have hnil : es'.filterMap f = [] := List.filterMap_eq_nil_iff.mpr h
  rw [latest_append, latest, hnil]
  rfl

/-- The approver an event shows for a job. -/
def Event.approverOf (jobId : ℕ) : Event → Option String
  | .transitioned id .approve actor => if id = jobId then some actor else none
  | _ => none

/-- The execution an event shows to start for a job. -/
def Event.starterOf (jobId : ℕ) : Event → Option ℕ
  | .started e id _ => if id = jobId then some e else none
  | _ => none

/-- The actor of the most recent approval of a job. -/
def lastApprover (jobId : ℕ) (es : List Event) : Option String :=
  latest (Event.approverOf jobId) es

/-- The execution that started last for a job. -/
def lastStarter (jobId : ℕ) (es : List Event) : Option ℕ :=
  latest (Event.starterOf jobId) es

/-- An event that is neither an approval nor a start. -/
def Event.Quiet (ev : Event) : Prop :=
  (∀ id, ev.approverOf id = none) ∧ ∀ id, ev.starterOf id = none

theorem quiet_of_advance {site : Site} {s s' : State} {e : ℕ} {ex : Execution}
    {es : List Event} (h : Advance site s e ex s' es) : ∀ ev ∈ es, ev.Quiet := by
  intro ev hev
  cases h with
  | completes _ =>
    rw [List.mem_singleton.mp hev]
    exact ⟨fun _ => rfl, fun _ => rfl⟩
  | throws _ _ =>
    rw [List.mem_singleton.mp hev]
    exact ⟨fun _ => rfl, fun _ => rfl⟩
  | dispatches _ _ =>
    rw [List.mem_singleton.mp hev]
    exact ⟨fun _ => rfl, fun _ => rfl⟩

theorem quiet_of_startArtifacts {rt : Runtime} {p : Process}
    {job : ProvisionJob} {tenant : Tenant} {jobId : ℕ}
    {fsError : Option Exception} {artifacts : List Event}
    (h : startArtifacts rt p job tenant jobId fsError = .ok artifacts) :
    ∀ ev ∈ artifacts, ev.Quiet := by
  intro ev hev
  rcases startArtifacts_ok h with rfl | ⟨path, content, rfl⟩
  · exact absurd hev List.not_mem_nil
  · rw [List.mem_singleton.mp hev]
    exact ⟨fun _ => rfl, fun _ => rfl⟩

/-! ## The invariant -/

/-- The columns of a job that an execution has read and no request writes. -/
def Execution.Reads (ex : Execution) (job : ProvisionJob) : Prop :=
  ex.tenantId = job.tenantId ∧ ex.jobType = job.jobType
    ∧ ex.dryRun = job.dryRun ∧ ex.plan = job.planJson

/-- The same call of `executeProvisionJob` at two moments. -/
def Execution.SameCall (ex ex' : Execution) : Prop :=
  ex' = { ex with
    rest := ex'.rest, stepResults := ex'.stepResults, awaiting := ex'.awaiting }

theorem Execution.sameCall_self (ex : Execution) : ex.SameCall ex := rfl

theorem Execution.sameCall_record (ex : Execution) (result : StepResult) :
    ex.SameCall (ex.record result) := rfl

/-- **An execution is in flight**: it waits for a step, or it is the one
that has the thread. -/
def State.Busy (s : State) (thread : Option ℕ) (e : ℕ) (ex : Execution) : Prop :=
  s.executions e = some ex ∧ (ex.awaiting.isSome = true ∨ thread = some e)

/-- The approval a running job was checked for. -/
def ProvisionJob.ApprovedFor (job : ProvisionJob) (actor : String) : Prop :=
  ∃ approver, job.approvedBy = some approver
    ∧ (job.dryRun = false → approver ≠ job.requestedBy ∧ approver ≠ actor)

/-- **The invariant of a run**, with the execution that has the thread. -/
structure Sound (thread : Option ℕ) (es : List Event) (s : State) : Prop where
  /-- An execution has read the row of its job. -/
  reads : ∀ {e ex}, s.executions e = some ex →
    ∃ job, s.jobs.row ex.jobId = some job ∧ ex.Reads job
  started : ∀ {e ex}, s.executions e = some ex →
    .started e ex.jobId ex.actor ∈ es
  /-- While it is in flight its job is running, approved as it was checked,
  and no other execution has started for the job. -/
  busy : ∀ {e ex job}, s.Busy thread e ex → s.jobs.row ex.jobId = some job →
    job.status = .running ∧ lastStarter ex.jobId es = some e
      ∧ job.ApprovedFor ex.actor
  /-- A running job has an execution in flight. -/
  running : ∀ {id job}, s.jobs.row id = some job → job.status = .running →
    ∃ e ex, s.Busy thread e ex ∧ ex.jobId = id
  /-- The approver in the row is the actor of the last approval. -/
  approver : ∀ id, lastApprover id es = (s.jobs.row id).bind (·.approvedBy)

theorem Sound.initial : Sound none [] State.initial where
  reads h := nomatch h
  started h := nomatch h
  busy h := nomatch h.1
  running h := nomatch h
  approver _ := rfl

section Keeps

variable {thread : Option ℕ} {es es' : List Event} {s s' : State}

theorem Sound.append (h : Sound thread es s) {es' : List Event} (hes : ∀ ev ∈ es', ev.Quiet) :
    Sound thread (es ++ es') s where
  reads := h.reads
  started hex := List.mem_append_left _ (h.started hex)
  busy hbusy hjob := by
    obtain ⟨hrun, hlast, happ⟩ := h.busy hbusy hjob
    refine ⟨hrun, ?_, happ⟩
    rw [lastStarter, latest_append_of_forall (fun ev hev => (hes ev hev).2 _)]
    exact hlast
  running := h.running
  approver id := by
    rw [lastApprover, latest_append_of_forall (fun ev hev => (hes ev hev).1 _)]
    exact h.approver id

theorem Sound.resume (h : Sound none es s) {e : ℕ} {ex : Execution}
    (hex : s.executions e = some ex) (hawait : ex.awaiting.isSome = true) :
    Sound (some e) es s := by
  have hbusy : ∀ {e' ex'}, s.Busy (some e) e' ex' ↔ s.Busy none e' ex' := by
    intro e' ex'
    refine ⟨fun hb => ⟨hb.1, Or.inl ?_⟩, fun hb => ⟨hb.1, Or.inl ?_⟩⟩
    · rcases hb.2 with ha | he
      · exact ha
      · obtain rfl : e = e' := Option.some.inj he
        obtain rfl : ex = ex' := Option.some.inj (hex.symm.trans hb.1)
        exact hawait
    · exact hb.2.resolve_right (by simp)
  refine ⟨h.reads, h.started, fun hb => h.busy (hbusy.mp hb), ?_, h.approver⟩
  intro id job hjob hrun
  obtain ⟨e', ex', hb, hid⟩ := h.running hjob hrun
  exact ⟨e', ex', hbusy.mpr hb, hid⟩

theorem Sound.insert (h : Sound thread es s) {job : ProvisionJob}
    (hjobs : s'.jobs = s.jobs.insert job) (hexec : s'.executions = s.executions)
    (hstatus : job.status = .queued) (happrover : job.approvedBy = none) :
    Sound thread es s' := by
  have hbusy : ∀ {e ex}, s'.Busy thread e ex ↔ s.Busy thread e ex := by
    intro e ex
    rw [State.Busy, hexec, State.Busy]
  have hrow : ∀ {id job'}, s.jobs.row id = some job' →
      s'.jobs.row id = some job' := by
    intro id job' hid
    rw [hjobs]
    exact Table.row_insert_of_some _ _ hid
  refine ⟨?_, ?_, ?_, ?_, ?_⟩
  · intro e ex hex
    rw [hexec] at hex
    obtain ⟨job', hjob', hreads⟩ := h.reads hex
    exact ⟨job', hrow hjob', hreads⟩
  · intro e ex hex
    exact h.started (hexec ▸ hex)
  · intro e ex job' hb hjob'
    obtain ⟨job'', hold, -⟩ := h.reads (hbusy.mp hb).1
    obtain rfl : job'' = job' := Option.some.inj ((hrow hold).symm.trans hjob')
    exact h.busy (hbusy.mp hb) hold
  · intro id job' hjob' hrun
    rw [hjobs, Table.row_insert_eq_some] at hjob'
    rcases hjob' with ⟨-, rfl⟩ | hold
    · rw [hstatus] at hrun
      exact absurd hrun (by decide)
    · obtain ⟨e, ex, hb, hid⟩ := h.running hold hrun
      exact ⟨e, ex, hbusy.mpr hb, hid⟩
  · intro id
    rw [h.approver id, hjobs]
    by_cases hid : id = s.jobs.next
    · subst hid
      rw [Table.row_next, Table.row_insert_next]
      exact happrover.symm
    · rw [Table.row_insert_of_ne _ _ hid]

theorem Sound.transition (h : Sound thread es s) {jobId : ℕ} {actor : String}
    {action : ProvisionJobAction} {job : ProvisionJob}
    (hjob : s.jobs.row jobId = some job) (hsource : job.status ∈ action.sources) :
    Sound thread (es ++ [.transitioned jobId action actor])
      { s with jobs := s.jobs.update jobId (action.write actor) } := by
  -- no request changes a job that is running, so none that an execution is busy with
  have hidle : job.status ≠ .running := by
    intro hrun
    rw [hrun] at hsource
    cases action <;> exact absurd hsource (by decide)
  have hother : ∀ {e ex}, s.Busy thread e ex → ex.jobId ≠ jobId := by
    rintro e ex hb rfl
    exact hidle (h.busy hb hjob).1
  refine ⟨?_, ?_, ?_, ?_, ?_⟩
  · intro e ex hex
    obtain ⟨job', hjob', hreads⟩ := h.reads hex
    by_cases hid : ex.jobId = jobId
    · obtain rfl : job' = job :=
        Option.some.inj (hjob'.symm.trans (hid ▸ hjob))
      refine ⟨action.write actor job', ?_, ?_⟩
      · rw [hid, Table.row_update_self, hjob, Option.map_some]
      · cases action <;> exact hreads
    · exact ⟨job', by rw [Table.row_update_of_ne _ _ hid, hjob'], hreads⟩
  · intro e ex hex
    exact List.mem_append_left _ (h.started hex)
  · intro e ex job' hb hjob'
    rw [Table.row_update_of_ne _ _ (hother hb)] at hjob'
    obtain ⟨hrun, hlast, happ⟩ := h.busy hb hjob'
    refine ⟨hrun, ?_, happ⟩
    rw [lastStarter, latest_append_of_forall (by simp [Event.starterOf])]
    exact hlast
  · intro id job' hjob' hrun
    by_cases hid : id = jobId
    · subst hid
      rw [Table.row_update_self, hjob, Option.map_some] at hjob'
      obtain rfl := Option.some.inj hjob'
      cases action <;> exact absurd hrun (by simp [ProvisionJobAction.write])
    · rw [Table.row_update_of_ne _ _ hid] at hjob'
      exact h.running hjob' hrun
  · intro id
    have hold := h.approver id
    rw [lastApprover] at hold ⊢
    rw [latest_append, hold]
    by_cases hid : id = jobId
    · subst hid
      rw [Table.row_update_self, hjob]
      cases action with
      | approve => simp [latest, Event.approverOf, ProvisionJobAction.write]
      | reject => rfl
      | cancel => rfl
    · have hnone : Event.approverOf id (.transitioned jobId action actor)
          = none := by
        cases action <;> simp [Event.approverOf, Ne.symm hid]
      rw [Table.row_update_of_ne _ _ hid, latest,
        List.filterMap_cons_none hnone]
      rfl

theorem Sound.start (h : Sound none es s) {rt : Runtime} {e jobId : ℕ}
    {actor : String} {job : ProvisionJob} {tenant : Tenant}
    (hfree : s.executions e = none)
    (hs : Startable rt s jobId actor job tenant) :
    Sound (some e) (es ++ [.started e jobId actor])
      (s.start e (job.execution tenant jobId actor)) := by
  have hjob := hs.jobRow
  have hidle : job.status ≠ .running := by
    rw [hs.approved]
    decide
  -- the executions there were are still waiting, for other jobs
  have hothers : ∀ {e' ex'}, e' ≠ e →
      (s.start e (job.execution tenant jobId actor)).Busy (some e) e' ex' →
      s.Busy none e' ex' ∧ ex'.jobId ≠ jobId := by
    intro e' ex' hne hb
    have hb' : s.Busy none e' ex' := by
      refine ⟨?_, Or.inl (hb.2.resolve_right ?_)⟩
      · simpa [Function.update_of_ne hne] using hb.1
      · simpa using Ne.symm hne
    refine ⟨hb', ?_⟩
    rintro rfl
    exact hidle (h.busy hb' hjob).1
  have hself : ∀ {ex'}, (s.start e (job.execution tenant jobId actor)).executions e
      = some ex' → ex' = job.execution tenant jobId actor := by
    intro ex' hex
    simpa using hex.symm
  refine ⟨?_, ?_, ?_, ?_, ?_⟩
  · intro e' ex' hex
    by_cases he : e' = e
    · subst he
      obtain rfl := hself hex
      refine ⟨{ job with status := .running }, ?_, rfl, rfl, rfl, rfl⟩
      show (s.jobs.update jobId _).row jobId = _
      rw [Table.row_update_self, hjob]
      rfl
    · have hex' : s.executions e' = some ex' := by
        simpa [Function.update_of_ne he] using hex
      obtain ⟨job', hjob', hreads⟩ := h.reads hex'
      show ∃ job'', (s.jobs.update jobId _).row ex'.jobId = some job'' ∧ _
      by_cases hid : ex'.jobId = jobId
      · obtain rfl : job' = job :=
          Option.some.inj (hjob'.symm.trans (hid ▸ hjob))
        refine ⟨{ job' with status := .running }, ?_, hreads⟩
        rw [hid, Table.row_update_self, hjob]
        rfl
      · exact ⟨job', by rw [Table.row_update_of_ne _ _ hid, hjob'], hreads⟩
  · intro e' ex' hex
    by_cases he : e' = e
    · subst he
      obtain rfl := hself hex
      exact List.mem_append_right _ (List.mem_singleton_self _)
    · exact List.mem_append_left _
        (h.started (by simpa [Function.update_of_ne he] using hex))
  · intro e' ex' job' hb hjob'
    by_cases he : e' = e
    · subst he
      obtain rfl := hself hb.1
      replace hjob' : (s.jobs.update jobId _).row jobId = some job' := hjob'
      rw [Table.row_update_self, hjob, Option.map_some] at hjob'
      obtain rfl := Option.some.inj hjob'
      refine ⟨rfl, ?_, ?_⟩
      · rw [lastStarter, latest_append]
        simp [latest, Event.starterOf, ProvisionJob.execution]
      · cases happ : job.approvedBy with
        | none => exact absurd (by rw [happ]; rfl) hs.hasApprover
        | some approver =>
          have hreq := hs.requester
          have hrun := hs.runner
          rw [happ] at hreq hrun
          exact ⟨approver, by simp, fun hlive => ⟨hreq hlive, hrun hlive⟩⟩
    · obtain ⟨hb', hid⟩ := hothers he hb
      replace hjob' : (s.jobs.update jobId _).row ex'.jobId = some job' := hjob'
      rw [Table.row_update_of_ne _ _ hid] at hjob'
      obtain ⟨hrun, hlast, happ⟩ := h.busy hb' hjob'
      refine ⟨hrun, ?_, happ⟩
      rw [lastStarter, latest_append_of_forall
        (by simp [Event.starterOf, Ne.symm hid])]
      exact hlast
  · intro id job' hjob' hrun
    replace hjob' : (s.jobs.update jobId _).row id = some job' := hjob'
    by_cases hid : id = jobId
    · exact ⟨e, job.execution tenant jobId actor,
        ⟨Function.update_self _ _ _, Or.inr rfl⟩, hid.symm⟩
    · rw [Table.row_update_of_ne _ _ hid] at hjob'
      obtain ⟨e', ex', hb, hid'⟩ := h.running hjob' hrun
      have he : e' ≠ e := by
        rintro rfl
        exact absurd hb.1 (by simp [hfree])
      refine ⟨e', ex', ⟨?_, Or.inl (hb.2.resolve_right (by simp))⟩, hid'⟩
      simpa [Function.update_of_ne he] using hb.1
  · intro id
    rw [lastApprover, latest_append_of_forall (by simp [Event.approverOf])]
    show latest _ es = ((s.jobs.update jobId _).row id).bind _
    rw [show latest _ es = _ from h.approver id]
    by_cases hid : id = jobId
    · subst hid
      rw [Table.row_update_self, hjob]
      rfl
    · rw [Table.row_update_of_ne _ _ hid]

theorem Sound.dispatch {e : ℕ} (h : Sound (some e) es s) {ex ex' : Execution}
    (hex : s.executions e = some ex) (hcall : ex.SameCall ex')
    (hawait : ex'.awaiting.isSome = true) : Sound none es (s.setExecution e ex') := by
  have hbusy : ∀ {e₁ ex₁}, e₁ ≠ e → (s.setExecution e ex').Busy none e₁ ex₁ →
      s.Busy (some e) e₁ ex₁ := by
    intro e₁ ex₁ hne hb
    exact ⟨by simpa [Function.update_of_ne hne] using hb.1,
      Or.inl (hb.2.resolve_right (by simp))⟩
  have hself : ∀ {ex₁}, (s.setExecution e ex').executions e = some ex₁ →
      ex₁ = ex' := by
    intro ex₁ h₁
    simpa using h₁.symm
  have hjobId : ex'.jobId = ex.jobId := by rw [hcall]
  have hactor : ex'.actor = ex.actor := by rw [hcall]
  refine ⟨?_, ?_, ?_, ?_, h.approver⟩
  · intro e₁ ex₁ h₁
    by_cases he : e₁ = e
    · subst he
      obtain rfl := hself h₁
      obtain ⟨job, hjob, hreads⟩ := h.reads hex
      refine ⟨job, hjobId ▸ hjob, ?_⟩
      rw [hcall]
      exact hreads
    · exact h.reads (by simpa [Function.update_of_ne he] using h₁)
  · intro e₁ ex₁ h₁
    by_cases he : e₁ = e
    · subst he
      obtain rfl := hself h₁
      rw [hjobId, hactor]
      exact h.started hex
    · exact h.started (by simpa [Function.update_of_ne he] using h₁)
  · intro e₁ ex₁ job hb hjob
    by_cases he : e₁ = e
    · subst he
      obtain rfl := hself hb.1
      rw [hjobId] at hjob ⊢
      rw [hactor]
      exact h.busy ⟨hex, Or.inr rfl⟩ hjob
    · exact h.busy (hbusy he hb) hjob
  · intro id job hjob hrun
    obtain ⟨e₁, ex₁, hb, hid⟩ := h.running hjob hrun
    by_cases he : e₁ = e
    · subst he
      obtain rfl : ex = ex₁ := Option.some.inj (hex.symm.trans hb.1)
      exact ⟨e₁, ex', ⟨by simp, Or.inl hawait⟩, hjobId.trans hid⟩
    · refine ⟨e₁, ex₁, ⟨?_, Or.inl (hb.2.resolve_right ?_)⟩, hid⟩
      · simpa [Function.update_of_ne he] using hb.1
      · simpa using Ne.symm he

theorem Sound.finish {e : ℕ} (h : Sound (some e) es s) {ex : Execution}
    (ex' : Execution) (f : ProvisionJob → ProvisionJob) (hex : s.executions e = some ex)
    (hcall : ex.SameCall ex') (hawait : ex'.awaiting = none)
    (hjobs : s'.jobs = s.jobs.update ex.jobId f)
    (hexec : s'.executions = Function.update s.executions e (some ex'))
    (hreads : ∀ ex₁ job, Execution.Reads ex₁ job → ex₁.Reads (f job))
    (hstatus : ∀ job, (f job).status ≠ .running)
    (happrover : ∀ job, (f job).approvedBy = job.approvedBy) :
    Sound none es s' := by
  have hjobId : ex'.jobId = ex.jobId := by rw [hcall]
  have hactor : ex'.actor = ex.actor := by rw [hcall]
  have hself : ∀ {ex₁}, s'.executions e = some ex₁ → ex₁ = ex' := by
    intro ex₁ h₁
    rw [hexec, Function.update_self] at h₁
    exact (Option.some.inj h₁).symm
  have hother : ∀ {e₁ ex₁}, e₁ ≠ e → s'.executions e₁ = some ex₁ →
      s.executions e₁ = some ex₁ := by
    intro e₁ ex₁ hne h₁
    rwa [hexec, Function.update_of_ne hne] at h₁
  -- an execution in flight is another one, of another job
  have hbusy : ∀ {e₁ ex₁}, s'.Busy none e₁ ex₁ →
      s.Busy (some e) e₁ ex₁ ∧ ex₁.jobId ≠ ex.jobId := by
    intro e₁ ex₁ hb
    have hawait₁ := hb.2.resolve_right (by simp)
    have hne : e₁ ≠ e := by
      rintro rfl
      rw [hself hb.1, hawait] at hawait₁
      exact absurd hawait₁ (by simp)
    have hb₁ : s.Busy (some e) e₁ ex₁ := ⟨hother hne hb.1, Or.inl hawait₁⟩
    refine ⟨hb₁, fun hid => hne ?_⟩
    obtain ⟨job, hjob, -⟩ := h.reads hex
    have h₁ := (h.busy hb₁ (hid ▸ hjob)).2.1
    have h₂ := (h.busy ⟨hex, Or.inr rfl⟩ hjob).2.1
    rw [hid, h₂] at h₁
    exact (Option.some.inj h₁).symm
  have hrow : ∀ {id job}, s.jobs.row id = some job → ∃ job',
      s'.jobs.row id = some job'
        ∧ ∀ ex₁, Execution.Reads ex₁ job → ex₁.Reads job' := by
    intro id job hjob
    rw [hjobs, Table.row_update]
    split
    · next hid => exact ⟨f job, by rw [← hid, hjob]; rfl, fun ex₁ => hreads ex₁ job⟩
    · exact ⟨job, hjob, fun _ hr => hr⟩
  refine ⟨?_, ?_, ?_, ?_, ?_⟩
  · intro e₁ ex₁ h₁
    by_cases he : e₁ = e
    · subst he
      obtain rfl := hself h₁
      obtain ⟨job, hjob, hr⟩ := h.reads hex
      obtain ⟨job', hjob', hr'⟩ := hrow hjob
      refine ⟨job', hjobId ▸ hjob', ?_⟩
      rw [hcall]
      exact hr' ex hr
    · obtain ⟨job, hjob, hr⟩ := h.reads (hother he h₁)
      obtain ⟨job', hjob', hr'⟩ := hrow hjob
      exact ⟨job', hjob', hr' ex₁ hr⟩
  · intro e₁ ex₁ h₁
    by_cases he : e₁ = e
    · subst he
      obtain rfl := hself h₁
      rw [hjobId, hactor]
      exact h.started hex
    · exact h.started (hother he h₁)
  · intro e₁ ex₁ job hb hjob
    obtain ⟨hb₁, hid⟩ := hbusy hb
    rw [hjobs, Table.row_update_of_ne _ _ hid] at hjob
    exact h.busy hb₁ hjob
  · intro id job hjob hrun
    rw [hjobs, Table.row_update] at hjob
    split at hjob
    · obtain ⟨job', -, rfl⟩ := Option.map_eq_some_iff.mp hjob
      exact absurd hrun (hstatus job')
    · next hid =>
      obtain ⟨e₁, ex₁, hb, hid₁⟩ := h.running hjob hrun
      have hne : e₁ ≠ e := by
        rintro rfl
        obtain rfl : ex = ex₁ := Option.some.inj (hex.symm.trans hb.1)
        exact hid hid₁.symm
      refine ⟨e₁, ex₁, ⟨?_, Or.inl (hb.2.resolve_right ?_)⟩, hid₁⟩
      · rw [hexec, Function.update_of_ne hne]
        exact hb.1
      · simpa using Ne.symm hne
  · intro id
    rw [h.approver id, hjobs, Table.row_update]
    split
    · next hid =>
      subst hid
      cases hjob : s.jobs.row ex.jobId with
      | none => rfl
      | some job => exact (happrover job).symm
    · rfl

theorem Sound.fail {e : ℕ} (h : Sound (some e) es s) {ex ex' : Execution}
    (hex : s.executions e = some ex) (hcall : ex.SameCall ex')
    (err : Exception) : Sound none es (s.fail e ex' err) := by
  have hjobId : ex'.jobId = ex.jobId := by rw [hcall]
  refine h.finish { ex' with awaiting := none } (ex'.failedJob err) hex ?_ rfl
    (by rw [← hjobId]; rfl) rfl (fun _ _ hr => hr)
    (fun _ => by simp [Execution.failedJob]) (fun _ => rfl)
  rw [hcall]
  rfl

theorem Sound.complete {e : ℕ} (h : Sound (some e) es s) {ex ex' : Execution}
    (hex : s.executions e = some ex) (hcall : ex.SameCall ex') :
    Sound none es (s.complete e ex') := by
  have hjobId : ex'.jobId = ex.jobId := by rw [hcall]
  refine h.finish { ex' with awaiting := none } ex'.completedJob hex ?_ rfl
    (by rw [← hjobId]; rfl) rfl (fun _ _ hr => hr)
    (fun _ => by simp [Execution.completedJob]) (fun _ => rfl)
  rw [hcall]
  rfl

theorem Sound.advance {site : Site} {e : ℕ} (h : Sound (some e) es s)
    {ex ex' : Execution} (hex : s.executions e = some ex)
    (hcall : ex.SameCall ex') (hadvance : Advance site s e ex' s' es') :
    Sound none (es ++ es') s' := by
  have hquiet := quiet_of_advance hadvance
  cases hadvance with
  | completes _ => exact (h.complete hex hcall).append hquiet
  | throws _ _ => exact (h.fail hex hcall _).append hquiet
  | dispatches _ _ =>
    refine (h.dispatch hex ?_ rfl).append hquiet
    rw [hcall]
    rfl

end Keeps

/-- **Every step keeps the invariant.** -/
theorem Sound.step {site : Site} {es es' : List Event} {s s' : State}
    {a : Action} (h : Sound none es s) (hstep : Step site s a s' es') :
    Sound none (es ++ es') s' := by
  cases hstep with
  | refused _ => exact h.append (by simp)
  | createTenant _ _ _ =>
    refine Sound.append ?_ ?_
    · exact h.insert rfl rfl rfl rfl
    · simp [Event.Quiet, Event.approverOf, Event.starterOf]
  | decommission _ _ _ =>
    refine Sound.append ?_ ?_
    · exact h.insert rfl rfl rfl rfl
    · simp [Event.Quiet, Event.approverOf, Event.starterOf]
  | postJob _ _ =>
    refine Sound.append ?_ ?_
    · exact h.insert rfl rfl rfl rfl
    · simp [Event.Quiet, Event.approverOf, Event.starterOf]
  | transition hjob _ hsource => exact h.transition hjob hsource
  | execute hfree hstart hadvance =>
    obtain ⟨job, tenant, hs, hartifacts, rfl⟩ := startExecution_eq_ok.mp hstart
    have h₁ := (h.append (quiet_of_startArtifacts hartifacts)).start hfree hs
    have h₂ := h₁.advance (Function.update_self _ _ _)
      (Execution.sameCall_self _) hadvance
    simpa only [List.append_assoc, List.singleton_append] using h₂
  | resumeError hex hawait _ =>
    have h₁ := (h.resume hex (by simp [hawait])).fail hex
      (Execution.sameCall_self _)
    exact (h₁ _).append (by simp [Event.Quiet, Event.approverOf, Event.starterOf])
  | @resumeOk e _ ex _ result _ _ hex hawait _ hadvance =>
    have hquiet : ∀ ev ∈ [Event.returned e ex.jobId (.ok result)],
        ev.Quiet := by
      simp [Event.Quiet, Event.approverOf, Event.starterOf]
    have h₁ := (h.resume hex (by simp [hawait])).append hquiet
    have h₂ := h₁.advance hex (Execution.sameCall_record _ _) hadvance
    simpa only [List.append_assoc, List.singleton_append] using h₂

/-- **The invariant holds all along every run.** -/
theorem sound_run (site : Site) (as : List Action) :
    Sound none ((controlPlane site).trace .initial as)
      ((controlPlane site).state .initial as) :=
  (controlPlane site).invariant Sound.initial
    (fun _ s a h => h.step (controlPlane_step site s a)) as

/-! ## The call an execution is -/

theorem Advance.execution {site : Site} {s s' : State} {e : ℕ}
    {ex : Execution} {es : List Event} (h : Advance site s e ex s' es) :
    ∃ ex', s'.executions e = some ex' ∧ ex.SameCall ex' := by
  cases h with
  | completes _ => exact ⟨_, Function.update_self _ _ _, rfl⟩
  | throws _ _ => exact ⟨_, Function.update_self _ _ _, rfl⟩
  | dispatches _ _ => exact ⟨_, Function.update_self _ _ _, rfl⟩

theorem Advance.executions_of_ne {site : Site} {s s' : State} {e : ℕ}
    {ex : Execution} {es : List Event} (h : Advance site s e ex s' es) {e' : ℕ}
    (hne : e' ≠ e) : s'.executions e' = s.executions e' := by
  cases h with
  | completes _ => exact Function.update_of_ne hne _ _
  | throws _ _ => exact Function.update_of_ne hne _ _
  | dispatches _ _ => exact Function.update_of_ne hne _ _

theorem Step.execution {site : Site} {s s' : State} {a : Action}
    {es : List Event} (hstep : Step site s a s' es) {e : ℕ} {ex : Execution}
    (hex : s.executions e = some ex) :
    ∃ ex', s'.executions e = some ex' ∧ ex.SameCall ex' := by
  have hadvanced : ∀ {s₁ e₁ ex₁ es₁}, Advance site s₁ e₁ ex₁ s' es₁ →
      (e₁ = e → ex.SameCall ex₁) → (e ≠ e₁ → s₁.executions e = some ex) →
      ∃ ex', s'.executions e = some ex' ∧ ex.SameCall ex' := by
    intro s₁ e₁ ex₁ es₁ hadvance hsame hother
    by_cases heq : e = e₁
    · subst heq
      obtain ⟨ex', hex', hcall⟩ := hadvance.execution
      refine ⟨ex', hex', ?_⟩
      rw [hcall, hsame rfl]
      rfl
    · exact ⟨ex, by rw [hadvance.executions_of_ne heq, hother heq], rfl⟩
  cases hstep with
  | refused _ => exact ⟨ex, hex, rfl⟩
  | createTenant _ _ _ => exact ⟨ex, hex, rfl⟩
  | decommission _ _ _ => exact ⟨ex, hex, rfl⟩
  | postJob _ _ => exact ⟨ex, hex, rfl⟩
  | transition _ _ _ => exact ⟨ex, hex, rfl⟩
  | @execute e₁ _ _ _ ex₁ _ _ _ hfree _ hadvance =>
    refine hadvanced hadvance (fun heq => ?_) (fun hne => ?_)
    · rw [heq, hex] at hfree
      exact absurd hfree (by simp)
    · rw [State.start_executions, Function.update_of_ne hne, hex]
  | @resumeError e₁ _ ex₁ _ err hex₁ _ _ =>
    by_cases heq : e = e₁
    · subst heq
      obtain rfl : ex = ex₁ := Option.some.inj (hex.symm.trans hex₁)
      exact ⟨{ ex with awaiting := none }, Function.update_self _ _ _, rfl⟩
    · refine ⟨ex, ?_, rfl⟩
      rw [State.fail_executions, Function.update_of_ne heq, hex]
  | @resumeOk e₁ _ ex₁ _ result _ _ hex₁ _ _ hadvance =>
    refine hadvanced hadvance (fun heq => ?_) (fun _ => hex)
    subst heq
    obtain rfl : ex = ex₁ := Option.some.inj (hex.symm.trans hex₁)
    exact ex.sameCall_record result

/-- **Where the variables of an execution come from**: it is the same call
as before, or it has just read the status of its tenant. -/
theorem Step.execution_origin {site : Site} {s s' : State} {a : Action}
    {es : List Event} (hstep : Step site s a s' es) {e : ℕ} {ex : Execution}
    (hex : s'.executions e = some ex) :
    (∃ ex₀, s.executions e = some ex₀ ∧ ex₀.SameCall ex)
      ∨ ∃ t, s.tenants.row ex.tenantId = some t
        ∧ ex.previousTenantStatus = t.status := by
  cases hold : s.executions e with
  | some ex₀ =>
    obtain ⟨ex', hex', hcall⟩ := hstep.execution hold
    obtain rfl : ex' = ex := Option.some.inj (hex'.symm.trans hex)
    exact Or.inl ⟨ex₀, rfl, hcall⟩
  | none =>
    have hgone : ∀ {e₁ ex₁}, s.executions e₁ = some ex₁ → e ≠ e₁ := by
      rintro e₁ ex₁ hex₁ rfl
      exact absurd (hold.symm.trans hex₁) (by simp)
    have hnone : s'.executions e ≠ none := by simp [hex]
    cases hstep with
    | refused _ => exact absurd hold hnone
    | createTenant _ _ _ => exact absurd hold hnone
    | decommission _ _ _ => exact absurd hold hnone
    | postJob _ _ => exact absurd hold hnone
    | transition _ _ _ => exact absurd hold hnone
    | @execute e₁ _ _ _ ex₁ _ _ _ _ hstart hadvance =>
      by_cases heq : e = e₁
      · subst heq
        obtain ⟨ex', hex', hcall⟩ := hadvance.execution
        obtain rfl : ex' = ex := Option.some.inj (hex'.symm.trans hex)
        obtain ⟨job, tenant, hs, -, rfl⟩ := startExecution_eq_ok.mp hstart
        refine Or.inr ⟨tenant, ?_, ?_⟩
        · rw [hcall]
          exact hs.tenantRow
        · rw [hcall]
          rfl
      · refine absurd ?_ hnone
        rw [hadvance.executions_of_ne heq, State.start_executions,
          Function.update_of_ne heq, hold]
    | resumeError hex₁ _ _ =>
      refine absurd ?_ hnone
      rw [State.fail_executions, Function.update_of_ne (hgone hex₁), hold]
    | resumeOk hex₁ _ _ hadvance =>
      refine absurd ?_ hnone
      rw [hadvance.executions_of_ne (hgone hex₁), hold]

/-! ## The two-person rule -/

/-- **A step that is handed over** is the next one of an execution, which
waits for it afterwards. -/
theorem Step.dispatched {site : Site} {s s' : State} {a : Action}
    {es : List Event} (hstep : Step site s a s' es) {e jobId : ℕ} {step : Json}
    {transport : Transport} (h : .dispatched e jobId step transport ∈ es) :
    ∃ ex more, s'.executions e = some ex ∧ ex.jobId = jobId
      ∧ ex.awaiting = some transport ∧ ex.rest = step :: more
      ∧ beginStep site.rt site.web ex step = .ok transport := by
  have hadv : ∀ {s₁ e₁ ex₁ es₁}, Advance site s₁ e₁ ex₁ s' es₁ →
      .dispatched e jobId step transport ∈ es₁ →
      ∃ ex more, s'.executions e = some ex ∧ ex.jobId = jobId
        ∧ ex.awaiting = some transport ∧ ex.rest = step :: more
        ∧ beginStep site.rt site.web ex step = .ok transport := by
    intro s₁ e₁ ex₁ es₁ hadvance hmem
    cases hadvance with
    | completes _ => simp at hmem
    | throws _ _ => simp at hmem
    | @dispatches step' more transport' hrest hbegin =>
      obtain ⟨rfl, rfl, rfl, rfl⟩ : e = e₁ ∧ jobId = ex₁.jobId ∧ step = step'
          ∧ transport = transport' := by simpa using hmem
      exact ⟨_, more, Function.update_self _ _ _, rfl, rfl, hrest, hbegin⟩
  cases hstep with
  | refused _ => simp at h
  | createTenant _ _ _ => simp at h
  | decommission _ _ _ => simp at h
  | postJob _ _ => simp at h
  | transition _ _ _ => simp at h
  | execute _ hstart hadvance =>
    obtain ⟨job, tenant, -, hartifacts, -⟩ := startExecution_eq_ok.mp hstart
    refine hadv hadvance ?_
    rcases startArtifacts_ok hartifacts with rfl | ⟨path, content, rfl⟩
    · simpa using h
    · simpa using h
  | resumeError _ _ _ => simp at h
  | resumeOk _ _ _ hadvance => exact hadv hadvance (by simpa using h)

/-- **The two-person rule, at every step that is handed over.** Whatever has
happened in the run, the approver of a live job is then neither its requester
nor the actor of the execution, is the actor of the job's last approval, and
the execution is the only one of the job in flight. -/
theorem dispatched_two_person (site : Site) (as : List Action) (a : Action)
    {e jobId : ℕ} {step : Json} {transport : Transport} {job : ProvisionJob}
    (h : .dispatched e jobId step transport
      ∈ (controlPlane site).emits ((controlPlane site).state .initial as) a)
    (hjob : ((controlPlane site).state .initial (as ++ [a])).jobs.row jobId
      = some job) (hlive : job.dryRun = false) :
    ∃ ex approver,
      ((controlPlane site).state .initial (as ++ [a])).executions e = some ex
      ∧ .started e jobId ex.actor
        ∈ (controlPlane site).trace .initial (as ++ [a])
      ∧ job.approvedBy = some approver ∧ approver ≠ job.requestedBy
      ∧ approver ≠ ex.actor
      ∧ lastApprover jobId ((controlPlane site).trace .initial (as ++ [a]))
        = some approver
      ∧ ∀ e' ex', ((controlPlane site).state .initial (as ++ [a])).executions e'
          = some ex' → ex'.jobId = jobId → ex'.awaiting.isSome = true →
        e' = e := by
  have hsound := sound_run site (as ++ [a])
  have hstep := controlPlane_step site ((controlPlane site).state .initial as) a
  obtain ⟨ex, more, hex, hid, hawait, -, -⟩ := hstep.dispatched h
  rw [← Machine.state_concat] at hex
  subst hid
  have hbusy : State.Busy _ none e ex := ⟨hex, Or.inl (by simp [hawait])⟩
  obtain ⟨-, hlast, approver, happ, hpersons⟩ := hsound.busy hbusy hjob
  obtain ⟨hrequester, hactor⟩ := hpersons hlive
  refine ⟨ex, approver, hex, hsound.started hex, happ, hrequester, hactor, ?_,
    ?_⟩
  · rw [hsound.approver, hjob]
    exact happ
  · intro e' ex' hex' hid' hawait'
    have hjob' := hid' ▸ hjob
    obtain ⟨-, hlast', -⟩ := hsound.busy ⟨hex', Or.inl hawait'⟩ hjob'
    rw [hid', hlast] at hlast'
    exact (Option.some.inj hlast').symm

/-- The live bootstrap of the sample tenant hands its first step over. -/
theorem dispatched_two_person_sample :
    ∃ ex approver,
      ((controlPlane sampleSite).state .initial (sampleStart false)).executions 0
        = some ex
      ∧ lastApprover 1
          ((controlPlane sampleSite).trace .initial (sampleStart false))
        = some approver
      ∧ approver ≠ ex.actor := by
  have hjob : (((controlPlane sampleSite).state .initial
      (sampleStart false)).jobs.row 1).isSome = true := rfl
  obtain ⟨job, hjob⟩ := Option.isSome_iff_exists.mp hjob
  have hlive : (((controlPlane sampleSite).state .initial
      (sampleStart false)).jobs.row 1).map (·.dryRun) = some false := rfl
  rw [hjob] at hlive
  obtain ⟨ex, approver, hex, -, -, -, hactor, hlast, -⟩ :=
    dispatched_two_person sampleSite
      [.createTenant (sampleRequest false) "ann", .transition 1 "bob" .approve]
      (.execute 0 1 "cy" none) (List.mem_of_getElem? (i := 2) rfl) hjob
      (Option.some.inj hlive)
  exact ⟨ex, approver, hex, hlast, hactor⟩

end MissionControl
