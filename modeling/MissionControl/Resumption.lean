import MissionControl.Agreement
import MissionControl.Integrity

/-!
# Executing a failed job again

A failed job may be approved and executed again. It starts from its first step, and what its
first execution has done to the host stays done. The commands of a bootstrap are meant for
this: `install -d`, `cp -n` and `cp -f` may run twice. But the first of them is `useradd`,
which fails for a user that exists, so that no job gets past its first step that has been
past it before (`not_resumes_sampleFailed`).

`bootstrap_resumes_iff` says which failures a job recovers from: those of its first step that
left no user behind.

The host is played beside the control plane: what a command does to it is the set of users
that it leaves. Both directions turn on one fact, when the user is there as the job starts
again (`mem_usersAgain_iff`): the first step then fails whatever is done, and otherwise the
whole plan goes through, which is played step by step (`state_resumed`).
-/

namespace MissionControl

/-! ## The host -/

def ProvisionStep.createsUser (step : ProvisionStep) : Option String :=
  match step.command with
  | program :: args => if basename program = "useradd" then args.getLast? else none
  | [] => none

/-- Whether a command succeeds: `useradd` fails for a user that exists. -/
def ProvisionStep.succeedsOn (users : List String) (step : ProvisionStep) : Bool :=
  match step.createsUser with
  | some user => decide (user ∉ users)
  | none => true

def ProvisionStep.applyTo (users : List String) (step : ProvisionStep) : List String :=
  step.createsUser.toList ++ users

/-- The transport of a planned step of a live job. -/
def Site.transport (site : Site) (step : ProvisionStep) : Transport :=
  runProvisionStep site.rt site.web step.toJson false

def Site.Resolves (site : Site) (step : ProvisionStep) (event : StepEvent) : Prop :=
  ∃ result, settle site.rt site.daemon (site.transport step) event = some (.ok result)

def Site.Throws (site : Site) (step : ProvisionStep) (event : StepEvent) : Prop :=
  ∃ err, settle site.rt site.daemon (site.transport step) event = some (.error err)

/-- The command has run, and ended with an exit code. -/
def StepEvent.Exits (code : ℤ) : StepEvent → Prop
  | .child (.close exit _ _) => exit = some code
  | .answered events =>
    ∀ attempt, ∃ stdout stderr, events attempt = (false, .close (some code) stdout stderr)
  | _ => False

/-- **The steps that the host has executed**, one after the other: the users after them, and
the steps that are left. -/
inductive Executed (site : Site) : List String → List ProvisionStep → List StepEvent →
    List String → List ProvisionStep → Prop
  | nil {users steps} : Executed site users steps [] users steps
  | cons {users step steps event events users' steps'}
      (hsucceeds : step.succeedsOn users = true) (hresolves : site.Resolves step event)
      (hrest : Executed site (step.applyTo users) steps events users' steps') :
    Executed site users (step :: steps) (event :: events) users' steps'

/-- **An execution that nothing disturbs**: it goes on until a command fails on the host, or
until no step is left. -/
inductive Undisturbed (site : Site) (users : List String) (plan : List ProvisionStep) :
    List StepEvent → Prop
  | completes {events users'} (hexecuted : Executed site users plan events users' []) :
    Undisturbed site users plan events
  | fails {events event users' step steps code}
      (hexecuted : Executed site users plan events users' (step :: steps))
      (hfails : step.succeedsOn users' = false) (hcode : code ≠ 0) (hexits : event.Exits code)
      (hthrows : site.Throws step event) :
    Undisturbed site users plan (events ++ [event])

/-- **A site that can execute a plan**: the driver takes texts, live runs are switched on,
and every command can reach the host. -/
structure Site.Executes (site : Site) (plan : List ProvisionStep) : Prop where
  texts : ∀ s : String, site.rt.bindable (some (.str s)) = true
  enabled : allowExec site.rt site.web = true
  reaches : ∀ step ∈ plan, ∃ event, site.Resolves step event

/-! ## A job that fails, and is executed again -/

/-- **A live bootstrap job that fails for a transient reason**: its execution has been through
the steps of `answers`, and the next one throws where the host would have executed it. The
job is approved and executed again, as the two-person rule asks for. -/
structure FailedBootstrap (site : Site) where
  before : List Action
  e : ℕ
  jobId : ℕ
  actor : String
  job : ProvisionJob
  tenant : Tenant
  startable : Startable site.rt ((controlPlane site).state .initial before) jobId actor job
    tenant
  artifacts : ∃ es, startArtifacts site.rt site.web job tenant jobId none = .ok es
  free : ((controlPlane site).state .initial before).executions e = none
  bootstrap : job.jobType = .bootstrap
  plan : job.planJson = (tenant.bootstrapPlan site.web).map ProvisionStep.toJson
  live : job.dryRun = false
  executes : site.Executes (tenant.bootstrapPlan site.web)
  /-- The users of the host before the first execution. -/
  users : List String
  answers : List StepEvent
  reached : List String
  step : ProvisionStep
  rest : List ProvisionStep
  executed : Executed site users (tenant.bootstrapPlan site.web) answers reached (step :: rest)
  transient : step.succeedsOn reached = true
  failure : StepEvent
  throws : site.Throws step failure
  /-- The command has had its effect all the same. -/
  applied : Bool
  approver : String
  runner : String
  e' : ℕ
  again : e' ≠ e
  free' : ((controlPlane site).state .initial before).executions e' = none
  named : approver ≠ ""
  requester : approver ≠ job.requestedBy
  differs : approver ≠ runner

namespace FailedBootstrap

variable {site : Site} (b : FailedBootstrap site)

/-- The users of the host when the job is executed again. -/
def usersAgain : List String := if b.applied then b.step.applyTo b.reached else b.reached

def failed : List Action :=
  b.before ++ .execute b.e b.jobId b.actor none
    :: (b.answers ++ [b.failure]).map (.resume b.e)

/-- The run to the start of the second execution. -/
def restarted : List Action :=
  b.failed ++ [.transition b.jobId b.approver .approve, .execute b.e' b.jobId b.runner none]

/-- The run to the end of the second execution. -/
def resumed (events : List StepEvent) : List Action :=
  b.restarted ++ events.map (.resume b.e')

/-- **The job can be resumed**: its second execution can be played, and ends completed. -/
def Resumes : Prop :=
  (∃ events, Undisturbed site b.usersAgain (b.tenant.bootstrapPlan site.web) events)
    ∧ ∀ events, Undisturbed site b.usersAgain (b.tenant.bootstrapPlan site.web) events →
      (((controlPlane site).state .initial (b.resumed events)).jobs.row b.jobId).map
        ProvisionJob.status = some .completed

end FailedBootstrap

/-! ## Playing the steps of a plan -/

section Play

variable {site : Site} {s : State} {e jobId : ℕ}

/-- **A planned step is handed over** where live runs are switched on. -/
theorem beginStep_planned {plan : List ProvisionStep} (hsite : site.Executes plan)
    {ex : Execution} (hlive : ex.dryRun = false) (step : ProvisionStep) :
    beginStep site.rt site.web ex step.toJson = .ok (site.transport step) := by
  unfold beginStep
  refine bind_eq_ok.mpr ⟨some (.str step.key), rfl, ?_⟩
  refine bind_eq_ok.mpr ⟨some (.str step.title), rfl, ?_⟩
  refine bind_eq_ok.mpr ⟨step.title, rfl, ?_⟩
  rw [hsite.texts, hlive, hsite.enabled]
  rfl

/-- **An execution of a live job waits** for the first of the steps that are left. -/
def State.WaitsFor (site : Site) (s : State) (e jobId : ℕ) (steps : List ProvisionStep) : Prop :=
  ∃ ex step more, s.executions e = some ex ∧ ex.jobId = jobId ∧ ex.dryRun = false
    ∧ steps = step :: more ∧ ex.rest = steps.map ProvisionStep.toJson
    ∧ ex.awaiting = some (site.transport step)

/-- **A job that can be started** waits for its first step. -/
theorem waitsFor_execute {plan : List ProvisionStep} (hsite : site.Executes plan)
    {actor : String} {job : ProvisionJob} {tenant : Tenant}
    (hstart : Startable site.rt s jobId actor job tenant)
    (hartifacts : ∃ es, startArtifacts site.rt site.web job tenant jobId none = .ok es)
    (hfree : s.executions e = none) (hlive : job.dryRun = false)
    {steps : List ProvisionStep} (hplan : job.planJson = steps.map ProvisionStep.toJson) :
    ((controlPlane site).next s (.execute e jobId actor none)).WaitsFor site e jobId steps := by
  have hne : steps ≠ [] := by
    rintro rfl
    exact hstart.hasSteps hplan
  obtain ⟨step, more, rfl⟩ := List.exists_cons_of_ne_nil hne
  obtain ⟨es, hes⟩ := hartifacts
  have hok := startExecution_eq_ok.mpr ⟨job, tenant, hstart, hes, rfl⟩
  have hrest : (job.execution tenant jobId actor).rest
      = step.toJson :: more.map ProvisionStep.toJson := hplan
  have hadvance : Advance site (s.start e (job.execution tenant jobId actor)) e
      (job.execution tenant jobId actor) _ _ :=
    .dispatches hrest (beginStep_planned hsite hlive step)
  rw [(Step.execute hfree hok hadvance).next_eq (by simp)]
  exact ⟨_, step, more, Function.update_self _ _ _, rfl, hlive, rfl, hplan, rfl⟩

theorem State.WaitsFor.resolves {plan : List ProvisionStep} (hsite : site.Executes plan)
    {step next : ProvisionStep} {more : List ProvisionStep} {event : StepEvent}
    (h : s.WaitsFor site e jobId (step :: next :: more)) (hevent : site.Resolves step event) :
    ((controlPlane site).next s (.resume e event)).WaitsFor site e jobId (next :: more) := by
  obtain ⟨ex, _, _, hex, hid, hlive, heq, hrest, hawait⟩ := h
  obtain ⟨rfl, rfl⟩ := List.cons.inj heq
  obtain ⟨result, hsettle⟩ := hevent
  have hrest' : (ex.record result).rest = next.toJson :: more.map ProvisionStep.toJson := by
    show ex.rest.tail = _
    rw [hrest]
    rfl
  have hlive' : (ex.record result).dryRun = false := hlive
  have hadvance : Advance site s e (ex.record result) _ _ :=
    .dispatches hrest' (beginStep_planned hsite hlive' next)
  rw [(Step.resumeOk hex hawait hsettle hadvance).next_eq (by simp)]
  exact ⟨_, next, more, Function.update_self _ _ _, hid, hlive, rfl, hrest', rfl⟩

/-- **The last step resolves**: the job is completed. -/
theorem State.WaitsFor.completes {step : ProvisionStep} {event : StepEvent}
    (h : s.WaitsFor site e jobId [step]) (hevent : site.Resolves step event)
    {job : ProvisionJob} (hjob : s.jobs.row jobId = some job) :
    (((controlPlane site).next s (.resume e event)).jobs.row jobId).map ProvisionJob.status
      = some .completed := by
  obtain ⟨ex, _, _, hex, hid, -, heq, hrest, hawait⟩ := h
  obtain ⟨rfl, rfl⟩ := List.cons.inj heq
  obtain ⟨result, hsettle⟩ := hevent
  have hrest' : (ex.record result).rest = [] := by
    show ex.rest.tail = _
    rw [hrest]
    rfl
  have hadvance : Advance site s e (ex.record result) _ _ := .completes hrest'
  rw [(Step.resumeOk hex hawait hsettle hadvance).next_eq (by simp), State.complete_jobs]
  obtain rfl : (ex.record result).jobId = jobId := hid
  rw [Table.row_update_self, hjob]
  rfl

/-- **A step throws**: the job has failed. -/
theorem State.WaitsFor.throws {step : ProvisionStep} {steps : List ProvisionStep}
    {event : StepEvent} (h : s.WaitsFor site e jobId (step :: steps))
    (hevent : site.Throws step event) {job : ProvisionJob}
    (hjob : s.jobs.row jobId = some job) :
    (((controlPlane site).next s (.resume e event)).jobs.row jobId).map ProvisionJob.status
      = some .failed := by
  obtain ⟨ex, _, _, hex, hid, -, heq, -, hawait⟩ := h
  obtain ⟨rfl, rfl⟩ := List.cons.inj heq
  obtain ⟨err, hsettle⟩ := hevent
  rw [(Step.resumeError hex hawait hsettle).next_eq (by simp), State.fail_jobs, hid,
    Table.row_update_self, hjob]
  rfl

theorem Executed.of_nil {users users' : List String} {events : List StepEvent}
    {steps : List ProvisionStep} (h : Executed site users [] events users' steps) :
    events = [] ∧ steps = [] := by
  cases h
  exact ⟨rfl, rfl⟩

theorem Executed.of_no_events {users users' : List String} {steps steps' : List ProvisionStep}
    (h : Executed site users steps [] users' steps') : users' = users ∧ steps' = steps := by
  cases h
  exact ⟨rfl, rfl⟩

/-- **After the steps that the host has executed** the next one is waited for. -/
theorem Executed.waitsFor {plan : List ProvisionStep} (hsite : site.Executes plan)
    {users users' : List String} {steps steps' : List ProvisionStep} {events : List StepEvent}
    (h : Executed site users steps events users' steps') (hleft : steps' ≠ [])
    (hwaits : s.WaitsFor site e jobId steps) :
    ((controlPlane site).state s (events.map (.resume e))).WaitsFor site e jobId steps' := by
  induction h generalizing s with
  | nil => exact hwaits
  | @cons _ step steps _ _ _ _ _ hresolves hrest ih =>
    rw [List.map_cons, Machine.state_cons]
    cases steps with
    | nil => exact absurd hrest.of_nil.2 hleft
    | cons next more => exact ih hleft (hwaits.resolves hsite hresolves)

theorem sameRequest_state (site : Site) {job : ProvisionJob} (hjob : s.jobs.row jobId = some job)
    (as : List Action) :
    ∃ job', ((controlPlane site).state s as).jobs.row jobId = some job'
      ∧ job.SameRequest job' := by
  induction as using List.reverseRecOn with
  | nil => exact ⟨job, hjob, .refl job⟩
  | append_singleton as a ih =>
    obtain ⟨job', hjob', hsame⟩ := ih
    obtain ⟨job'', hjob'', hmove⟩ := (controlPlane_step site _ a).jobMove hjob'
    rw [Machine.state_concat]
    exact ⟨job'', hjob'', hsame.trans hmove.sameRequest⟩

theorem tenant_state (site : Site) {id : ℕ} {t : Tenant} (ht : s.tenants.row id = some t)
    (as : List Action) :
    ∃ status, ((controlPlane site).state s as).tenants.row id = some { t with status } := by
  induction as using List.reverseRecOn with
  | nil => exact ⟨t.status, ht⟩
  | append_singleton as a ih =>
    obtain ⟨status, ht'⟩ := ih
    obtain ⟨status', ht''⟩ := (controlPlane_step site _ a).tenant ht'
    rw [Machine.state_concat]
    exact ⟨status', ht''⟩

/-- **After the whole plan** the job is completed. -/
theorem Executed.completed {plan : List ProvisionStep} (hsite : site.Executes plan)
    {users users' : List String} {steps : List ProvisionStep} {events : List StepEvent}
    (h : Executed site users steps events users' []) (hwaits : s.WaitsFor site e jobId steps)
    {job : ProvisionJob} (hjob : s.jobs.row jobId = some job) :
    (((controlPlane site).state s (events.map (.resume e))).jobs.row jobId).map
      ProvisionJob.status = some .completed := by
  generalize hnone : ([] : List ProvisionStep) = left at h
  induction h generalizing s job with
  | nil =>
    obtain ⟨_, _, _, -, -, -, heq, -, -⟩ := hwaits
    exact absurd (hnone.trans heq) nofun
  | @cons _ step steps event events _ _ _ hresolves hrest ih =>
    rw [List.map_cons, Machine.state_cons]
    cases steps with
    | nil =>
      obtain ⟨rfl, -⟩ := hrest.of_nil
      exact hwaits.completes hresolves hjob
    | cons next more =>
      obtain ⟨job', hjob', -⟩ := sameRequest_state site hjob [.resume e event]
      exact ih (hwaits.resolves hsite hresolves) hjob' hnone

theorem Executed.failed {plan : List ProvisionStep} (hsite : site.Executes plan)
    {users users' : List String} {step : ProvisionStep} {steps more : List ProvisionStep}
    {events : List StepEvent} {event : StepEvent}
    (h : Executed site users steps events users' (step :: more))
    (hevent : site.Throws step event) (hwaits : s.WaitsFor site e jobId steps)
    {job : ProvisionJob} (hjob : s.jobs.row jobId = some job) :
    (((controlPlane site).state s ((events ++ [event]).map (.resume e))).jobs.row jobId).map
      ProvisionJob.status = some .failed := by
  obtain ⟨job', hjob', -⟩ := sameRequest_state site hjob (events.map (.resume e))
  rw [List.map_append, Machine.state_append]
  exact (h.waitsFor hsite (List.cons_ne_nil _ _) hwaits).throws hevent hjob'

theorem Step.executions_of_resume {s' : State} {es : List Event} {event : StepEvent}
    (h : Step site s (.resume e event) s' es) {e' : ℕ} (hne : e' ≠ e) :
    s'.executions e' = s.executions e' := by
  cases h with
  | refused _ => rfl
  | resumeError _ _ _ => exact Function.update_of_ne hne _ _
  | resumeOk _ _ _ hadvance => exact hadvance.executions_of_ne hne

theorem Step.executions_of_execute {s' : State} {es : List Event} {actor : String}
    {fsError : Option Exception} (h : Step site s (.execute e jobId actor fsError) s' es)
    {e' : ℕ} (hne : e' ≠ e) : s'.executions e' = s.executions e' := by
  cases h with
  | refused _ => rfl
  | execute _ _ hadvance =>
    rw [hadvance.executions_of_ne hne, State.start_executions]
    exact Function.update_of_ne hne _ _

theorem executions_state (site : Site) {e' : ℕ} (hne : e' ≠ e) (events : List StepEvent) :
    ((controlPlane site).state s (events.map (.resume e))).executions e' = s.executions e' := by
  induction events generalizing s with
  | nil => rfl
  | cons event events ih =>
    rw [List.map_cons, Machine.state_cons, ih]
    exact (controlPlane_step site s (.resume e event)).executions_of_resume hne

end Play

/-! ## The second execution -/

namespace FailedBootstrap

variable {site : Site} (b : FailedBootstrap site)

/-- The artifacts of a job are the same where its request and its tenant are. -/
theorem startArtifacts_again (job' : ProvisionJob) (hsame : b.job.SameRequest job')
    (status : TenantStatus) :
    ∃ es, startArtifacts site.rt site.web job' { b.tenant with status } b.jobId none
      = .ok es := by
  obtain ⟨es, hes⟩ := b.artifacts
  refine ⟨es, ?_⟩
  unfold startArtifacts ensureProvisionArtifacts at hes ⊢
  rw [hsame.jobType, hsame.requestJson]
  exact hes

/-- **The job fails** in its first execution. -/
theorem failed_row :
    ∃ job' status,
      ((controlPlane site).state .initial b.failed).jobs.row b.jobId = some job'
        ∧ ((controlPlane site).state .initial b.failed).tenants.row b.job.tenantId
          = some { b.tenant with status }
        ∧ job'.status = .failed ∧ b.job.SameRequest job' := by
  obtain ⟨job', hjob', hsame⟩ := sameRequest_state site b.startable.jobRow
    (.execute b.e b.jobId b.actor none :: (b.answers ++ [b.failure]).map (.resume b.e))
  obtain ⟨status, htenant⟩ := tenant_state site b.startable.tenantRow
    (.execute b.e b.jobId b.actor none :: (b.answers ++ [b.failure]).map (.resume b.e))
  have hwaits := waitsFor_execute b.executes b.startable b.artifacts b.free b.live b.plan
  obtain ⟨job₁, hjob₁, -⟩ := sameRequest_state site b.startable.jobRow
    [.execute b.e b.jobId b.actor none]
  have hstatus := b.executed.failed b.executes b.throws hwaits hjob₁
  rw [← Machine.state_append] at hjob' htenant
  refine ⟨job', status, hjob', htenant, ?_, hsame⟩
  rw [Machine.state_append, Machine.state_cons] at hjob'
  rw [hjob'] at hstatus
  exact Option.some.inj hstatus

theorem free_failed : ((controlPlane site).state .initial b.failed).executions b.e' = none := by
  unfold failed
  rw [Machine.state_append, Machine.state_cons, executions_state site b.again,
    (controlPlane_step site _ _).executions_of_execute b.again]
  exact b.free'

/-- **The job waits for its first step again**, once it has been approved and started. -/
theorem waitsFor_restarted :
    ((controlPlane site).state .initial b.restarted).WaitsFor site b.e' b.jobId
      (b.tenant.bootstrapPlan site.web) := by
  obtain ⟨job', status, hjob', htenant, hfailed, hsame⟩ := b.failed_row
  have htenant' : ((controlPlane site).state .initial b.failed).tenants.row job'.tenantId
      = some { b.tenant with status } := by
    rw [hsame.tenantId]
    exact htenant
  have happroved : Step site _ (.transition b.jobId b.approver .approve) _ _ :=
    .transition hjob' htenant' (by rw [hfailed]; decide)
  unfold restarted
  rw [Machine.state_append, Machine.state_cons, Machine.state_cons, Machine.state_nil,
    happroved.next_eq (List.cons_ne_nil _ _)]
  set job'' := ProvisionJobAction.approve.write b.approver job' with hjob''
  have hsame' : b.job.SameRequest job'' := hsame.trans (.write .approve b.approver job')
  set s := (controlPlane site).state .initial b.failed with hs
  have hfree : State.executions { s with
      jobs := s.jobs.update b.jobId (ProvisionJobAction.approve.write b.approver) } b.e'
      = none := b.free_failed
  have hstart : Startable site.rt { s with
      jobs := s.jobs.update b.jobId (ProvisionJobAction.approve.write b.approver) } b.jobId
      b.runner job'' { b.tenant with status } := by
    refine ⟨?_, ?_, rfl, ?_, ?_, b.named, fun _ => ?_, fun _ => b.differs⟩
    · show (Table.update _ _ _).row _ = _
      rw [Table.row_update_self, hjob']
      rfl
    · rw [hsame'.tenantId]
      exact htenant
    · rw [hsame'.planJson]
      exact b.startable.hasSteps
    · have hmetadata := b.startable.metadata
      unfold ProvisionJob.requestedDryRun at hmetadata ⊢
      rw [hsame'.requestJson, hsame'.dryRun]
      exact hmetadata
    · rw [hsame'.requestedBy]
      exact b.requester
  exact waitsFor_execute b.executes hstart (b.startArtifacts_again job'' hsame' status) hfree
    (hsame'.dryRun.trans b.live) (hsame'.planJson.trans b.plan)

end FailedBootstrap

/-! ## What the host makes of a plan -/

section Host

variable {site : Site}

theorem Executed.suffix {users users' : List String} {steps steps' : List ProvisionStep}
    {events : List StepEvent} (h : Executed site users steps events users' steps') :
    steps' <:+ steps := by
  induction h with
  | nil => exact List.suffix_refl _
  | cons _ _ _ ih => exact ih.trans (List.suffix_cons _ _)

theorem Executed.mem_users {users users' : List String} {steps steps' : List ProvisionStep}
    {events : List StepEvent} (h : Executed site users steps events users' steps')
    {user : String} (huser : user ∈ users) : user ∈ users' := by
  induction h with
  | nil => exact huser
  | cons _ _ _ ih => exact ih (List.mem_append_right _ huser)

theorem ProvisionStep.succeedsOn_of_none {step : ProvisionStep} (h : step.createsUser = none)
    (users : List String) : step.succeedsOn users = true := by
  unfold succeedsOn
  rw [h]

theorem ProvisionStep.succeedsOn_iff {step : ProvisionStep} {user : String}
    (h : step.createsUser = some user) (users : List String) :
    step.succeedsOn users = true ↔ user ∉ users := by
  unfold succeedsOn
  rw [h]
  exact decide_eq_true_iff

theorem ProvisionStep.mem_applyTo {step : ProvisionStep} {user : String}
    (h : step.createsUser = some user) (users : List String) : user ∈ step.applyTo users := by
  unfold applyTo
  rw [h]
  exact List.mem_cons_self

/-- **The host executes the steps that create no user**, all of them. -/
theorem exists_executed {steps : List ProvisionStep}
    (hreaches : ∀ step ∈ steps, ∃ event, site.Resolves step event)
    (hnone : ∀ step ∈ steps, step.createsUser = none) (users : List String) :
    ∃ events users', Executed site users steps events users' [] := by
  induction steps generalizing users with
  | nil => exact ⟨[], users, .nil⟩
  | cons step steps ih =>
    obtain ⟨event, hevent⟩ := hreaches step List.mem_cons_self
    obtain ⟨events, users', hrest⟩ :=
      ih (fun step' h => hreaches step' (List.mem_cons_of_mem _ h))
        (fun step' h => hnone step' (List.mem_cons_of_mem _ h)) (step.applyTo users)
    have hsucceeds := step.succeedsOn_of_none (hnone step List.mem_cons_self) users
    exact ⟨event :: events, users', .cons hsucceeds hevent hrest⟩

/-- **The first step of a bootstrap creates the user**, and no other one does. -/
theorem exists_bootstrapPlan (p : Process) (t : Tenant) :
    ∃ first more, t.bootstrapPlan p = first :: more
      ∧ first.createsUser = some t.linuxUser ∧ ∀ step ∈ more, step.createsUser = none := by
  have hnone : ∀ {step : ProvisionStep} {program : String} {args : List String},
      step.command = program :: args → basename program ≠ "useradd" →
        step.createsUser = none := by
    intro step program args hcommand hne
    unfold ProvisionStep.createsUser
    rw [hcommand]
    exact if_neg hne
  refine ⟨_, _, rfl, rfl, fun step hstep => ?_⟩
  simp only [List.mem_cons, List.not_mem_nil, or_false] at hstep
  obtain rfl | rfl | rfl | rfl | rfl | rfl | rfl | rfl | rfl := hstep <;>
    exact hnone rfl (by decide +kernel)

end Host

/-! ## How a command fails -/

section Fails

variable {rt : Runtime} {d : Daemon}

/-- A child that ends with another exit code than zero is no success, however often it is
tried. -/
theorem retryLoop_exits {code : ℤ} (hcode : code ≠ 0) (cmd : String) (attempt attempts : ℕ) :
    (retryLoop cmd (fun _ => (false, .close (some code) "" "")) attempt attempts).ok
      = false := by
  have hok : (runOnce false (.close (some code) "" "")).ok = false := by
    simpa [runOnce] using hcode
  induction attempts generalizing attempt with
  | zero => exact hok
  | succ attempts ih =>
    unfold retryLoop
    dsimp only
    rw [hok, if_neg Bool.false_ne_true]
    split
    · exact ih (attempt + 1)
    · exact hok

/-- **The response to a live request** whose command ends with another exit code than zero
reports no success. -/
theorem handleRequest_exits {code : ℤ} (hcode : code ≠ 0) {req : ProvisionerRequest}
    (hlive : req.dryRun = false) :
    (handleRequest d req (fun _ => (false, .close (some code) "" ""))).ok = false := by
  unfold handleRequest
  split
  · rfl
  · cases validateCommand d req.command req.args with
    | some err => rfl
    | none =>
      have hok := retryLoop_exits hcode (basename req.command) 0
        (if basename req.command = "useradd" then 5 else 0)
      dsimp only
      rw [hlive, if_neg Bool.false_ne_true]
      unfold runWithRetry
      dsimp only
      rw [hok]
      rfl

theorem join_str (sep : String) (texts : List String) :
    Json.join rt sep (texts.map .str) = .ok (sep.intercalate texts) := by
  have helements : Json.toStr.elementTexts rt (texts.map .str) = .ok texts := by
    induction texts with
    | nil => rfl
    | cons text texts ih =>
      rw [List.map_cons]
      unfold Json.toStr.elementTexts
      rw [ih]
      rfl
  unfold Json.join
  rw [helements]
  rfl

theorem runProvisionStep_command {p : Process} {step : ProvisionStep} {dryRun : Bool}
    {program : Json} {args : List Json} {timeoutMs : Json}
    (h : runProvisionStep rt p step.toJson dryRun = .command program args timeoutMs) :
    ∃ texts : List String, args = texts.map .str := by
  unfold runProvisionStep at h
  split at h
  · next transport htransport =>
    subst h
    unfold provisionTransport at htransport
    obtain ⟨command, hget, h⟩ := bind_eq_ok.mp htransport
    obtain ⟨parts, hparts, h⟩ := bind_eq_ok.mp h
    rw [← Json.get?_of_get hget, step.get_command] at hparts
    cases hcommand : step.command with
    | nil =>
      rw [hcommand] at hparts
      obtain rfl : [] = parts := Except.ok.inj hparts
      exact absurd h (invalidCommand_ne_ok _ _ _)
    | cons first texts =>
      rw [hcommand] at hparts
      obtain rfl : Json.str first :: texts.map .str = parts := Except.ok.inj hparts
      dsimp only at h
      split at h
      · exact absurd h (invalidCommand_ne_ok _ _ _)
      · obtain ⟨root, -, h⟩ := bind_eq_ok.mp h
        obtain ⟨timeout, -, h⟩ := bind_eq_ok.mp h
        split at h
        · split at h
          · exact absurd h (by simp)
          · obtain ⟨key, -, h⟩ := bind_eq_ok.mp h
            exact absurd (Except.ok.inj h) (by simp)
        · split at h
          · exact absurd (Except.ok.inj h) (by simp)
          · split at h
            · obtain ⟨-, rfl, -⟩ := Transport.command.inj (Except.ok.inj h)
              exact ⟨"-n" :: first :: texts, rfl⟩
            · obtain ⟨-, rfl, -⟩ := Transport.command.inj (Except.ok.inj h)
              exact ⟨texts, rfl⟩
  · exact absurd h (by simp)

/-- **A step that can resolve can fail**: its command ends with another exit code. -/
theorem exists_throws {site : Site} {step : ProvisionStep} {event : StepEvent}
    (h : site.Resolves step event) {code : ℤ} (hcode : code ≠ 0) :
    ∃ event' : StepEvent, event'.Exits code ∧ site.Throws step event' := by
  obtain ⟨result, hsettle⟩ := h
  have hskipped := (settle_runProvisionStep hsettle).2
  have hdry := (settle_ok hsettle).2
  rw [hskipped] at hdry
  unfold Site.Throws
  -- the step that resolves has told by which way it goes: by the daemon, or by a child
  cases htransport : site.transport step with
  | provisioner payload =>
    rw [htransport] at hsettle hdry
    cases event with
    | answered events =>
      refine ⟨.answered fun _ => (false, .close (some code) "" ""), fun _ => ⟨"", "", rfl⟩, ?_⟩
      unfold settle at hsettle ⊢
      dsimp only at hsettle ⊢
      cases hread : readRequest site.rt payload with
      | error err =>
        rw [hread] at hsettle
        exact absurd hsettle nofun
      | ok req =>
        have hlive : req.dryRun = false := by
          unfold readRequest at hread
          obtain ⟨command, -, hread⟩ := bind_eq_ok.mp hread
          obtain ⟨args, -, hread⟩ := bind_eq_ok.mp hread
          obtain rfl := Except.ok.inj hread
          exact hdry.symm
        have hno := handleRequest_exits (d := site.daemon) hcode hlive
        dsimp only
        unfold runProvisionerCommand
        rw [hno]
        exact ⟨_, rfl⟩
    | child event => exact absurd hsettle nofun
    | unanswered message => exact absurd hsettle nofun
    | immediate => exact absurd hsettle nofun
  | command program args timeoutMs =>
    rw [htransport] at hsettle
    obtain ⟨texts, rfl⟩ := runProvisionStep_command htransport
    refine ⟨.child (.close (some code) "" ""), rfl, ?_⟩
    cases event with
    | child event =>
      unfold settle at hsettle ⊢
      dsimp only at hsettle ⊢
      cases program with
      | str program =>
        unfold runCommand
        dsimp only
        rw [if_neg (by simpa using hcode), join_str]
        exact ⟨_, rfl⟩
      | null => exact absurd hsettle nofun
      | bool b => exact absurd hsettle nofun
      | num n => exact absurd hsettle nofun
      | arr elements => exact absurd hsettle nofun
      | obj fields => exact absurd hsettle nofun
    | answered events => exact absurd hsettle nofun
    | unanswered message => exact absurd hsettle nofun
    | immediate => exact absurd hsettle nofun
  | skipped =>
    rw [htransport] at hdry
    exact absurd hdry nofun
  | rejected err =>
    rw [htransport] at hsettle
    cases event <;> exact absurd hsettle nofun

end Fails

/-! ## Which failures a job recovers from -/

namespace FailedBootstrap

variable {site : Site} (b : FailedBootstrap site)

theorem state_resumed (events : List StepEvent) :
    (controlPlane site).state .initial (b.resumed events)
      = (controlPlane site).state ((controlPlane site).state .initial b.restarted)
        (events.map (.resume b.e')) :=
  (controlPlane site).state_append _ _ _

theorem exists_restarted :
    ∃ job', ((controlPlane site).state .initial b.restarted).jobs.row b.jobId = some job' := by
  obtain ⟨job', status, hjob', -, -, -⟩ := b.failed_row
  obtain ⟨job'', hjob'', -⟩ := sameRequest_state site hjob'
    [.transition b.jobId b.approver .approve, .execute b.e' b.jobId b.runner none]
  rw [← Machine.state_append] at hjob''
  exact ⟨job'', hjob''⟩

/-- **The user is on the host again** exactly if the first execution got past its first step,
or that step had its effect. -/
theorem mem_usersAgain_iff :
    b.tenant.linuxUser ∈ b.usersAgain ↔ ¬ (b.answers = [] ∧ b.applied = false) := by
  obtain ⟨first, more, hplan, hfirst, -⟩ := exists_bootstrapPlan site.web b.tenant
  have hexecuted := b.executed
  rw [hplan] at hexecuted
  unfold usersAgain
  cases hanswers : b.answers with
  | nil =>
    rw [hanswers] at hexecuted
    -- the step that fails is the first one
    have hstep : b.step = first := (List.cons.inj hexecuted.of_no_events.2).1
    have htransient := b.transient
    rw [hstep] at htransient ⊢
    have hfree := (ProvisionStep.succeedsOn_iff hfirst _).mp htransient
    cases b.applied with
    | false => simpa using hfree
    | true => simpa using ProvisionStep.mem_applyTo hfirst b.reached
  | cons event events =>
    rw [hanswers] at hexecuted
    have hreached : b.tenant.linuxUser ∈ b.reached := by
      cases hexecuted with
      | cons _ _ hrest => exact hrest.mem_users (ProvisionStep.mem_applyTo hfirst b.users)
    refine iff_of_true ?_ (fun h => absurd h.1 (List.cons_ne_nil _ _))
    split
    · exact List.mem_append_right _ hreached
    · exact hreached

/-- **Where the user is there**, the second execution fails at its first step. -/
theorem not_resumes_of_mem (h : b.tenant.linuxUser ∈ b.usersAgain) : ¬ b.Resumes := by
  rintro ⟨-, hcompletes⟩
  obtain ⟨first, more, hplan, hfirst, -⟩ := exists_bootstrapPlan site.web b.tenant
  have hwaits := b.waitsFor_restarted
  rw [hplan] at hwaits hcompletes
  obtain ⟨event, hevent⟩ := b.executes.reaches first (by rw [hplan]; exact List.mem_cons_self)
  obtain ⟨event', hexits, hthrows⟩ := exists_throws hevent (by decide : (9 : ℤ) ≠ 0)
  have hfails : first.succeedsOn b.usersAgain = false := by
    rw [Bool.eq_false_iff]
    exact fun hsucceeds => (ProvisionStep.succeedsOn_iff hfirst _).mp hsucceeds h
  obtain ⟨job', hjob'⟩ := b.exists_restarted
  have hnothing : Executed site b.usersAgain (first :: more) [] b.usersAgain (first :: more) :=
    .nil
  have hfailed := hnothing.failed b.executes hthrows hwaits hjob'
  have hdone := hcompletes _ (.fails hnothing hfails (by decide) hexits hthrows)
  rw [b.state_resumed] at hdone
  exact absurd (hfailed.symm.trans hdone) nofun

/-- **Where the user is not there**, the second execution goes through the whole plan. -/
theorem resumes_of_notMem (h : b.tenant.linuxUser ∉ b.usersAgain) : b.Resumes := by
  obtain ⟨first, more, hplan, hfirst, hnone⟩ := exists_bootstrapPlan site.web b.tenant
  have hwaits := b.waitsFor_restarted
  have hreaches := b.executes.reaches
  have hsucceeds := (ProvisionStep.succeedsOn_iff hfirst b.usersAgain).mpr h
  unfold Resumes
  rw [hplan] at hwaits hreaches ⊢
  refine ⟨?_, fun events hevents => ?_⟩
  · obtain ⟨event, hevent⟩ := hreaches first List.mem_cons_self
    obtain ⟨events, users', hrest⟩ := exists_executed
      (fun step hstep => hreaches step (List.mem_cons_of_mem _ hstep)) hnone
      (first.applyTo b.usersAgain)
    exact ⟨event :: events, .completes (.cons hsucceeds hevent hrest)⟩
  · rw [b.state_resumed]
    obtain ⟨job', hjob'⟩ := b.exists_restarted
    cases hevents with
    | completes hexecuted => exact hexecuted.completed b.executes hwaits hjob'
    | @fails _ _ _ step _ _ hexecuted hfails _ _ _ =>
      exfalso
      -- no step of the plan fails: the first has no user in its way, the others create none
      generalize hsteps : first :: more = plan at hexecuted
      cases hexecuted with
      | nil =>
        obtain ⟨rfl, -⟩ := List.cons.inj hsteps
        exact absurd (hsucceeds.symm.trans hfails) nofun
      | cons _ _ hrest =>
        obtain ⟨-, rfl⟩ := List.cons.inj hsteps
        have hmem : step ∈ more := hrest.suffix.subset List.mem_cons_self
        exact absurd ((ProvisionStep.succeedsOn_of_none (hnone step hmem) _).symm.trans hfails)
          nofun

end FailedBootstrap

/-- **A failed bootstrap can be resumed** exactly where its first step has failed, and has
created no user. -/
theorem bootstrap_resumes_iff (site : Site) (b : FailedBootstrap site) :
    b.Resumes ↔ b.answers = [] ∧ b.applied = false := by
  constructor
  · intro h
    by_contra hpast
    exact b.not_resumes_of_mem (b.mem_usersAgain_iff.mpr hpast) h
  · intro h
    exact b.resumes_of_notMem fun hmem => b.mem_usersAgain_iff.mp hmem h

/-! ## A site that can execute its plans -/

section Executes

variable {site : Site}

theorem exists_payload (hmode : provisionMode site.rt site.web = "daemon")
    (htoken : provisionerToken site.web ≠ "") {step : ProvisionStep}
    (hroot : step.requiresRoot = true) {program : String} {args : List String}
    (hcommand : step.command = program :: args) (hprogram : program ≠ "") :
    ∃ payload, site.transport step = .provisioner payload
      ∧ payload.token = provisionerToken site.web ∧ payload.command = .str program
      ∧ payload.args = args.map .str ∧ payload.dryRun = false := by
  have htransport : ∃ payload,
      provisionTransport site.rt site.web step.toJson false = .ok (.provisioner payload)
        ∧ payload.token = provisionerToken site.web ∧ payload.command = .str program
        ∧ payload.args = args.map .str ∧ payload.dryRun = false := by
    let timeoutMs := Json.or (some (.num (.finite step.timeoutMs))) (.num (.finite 15000))
    refine ⟨⟨provisionerToken site.web, .str program, args.map .str, timeoutMs, false,
      some (.str step.key)⟩, ?_, rfl, rfl, rfl, rfl⟩
    unfold provisionTransport
    refine bind_eq_ok.mpr ⟨some (.arr (step.command.map .str)), rfl, ?_⟩
    refine bind_eq_ok.mpr ⟨.str program :: args.map .str, by rw [hcommand]; rfl, ?_⟩
    dsimp only
    rw [if_neg (by simpa using hprogram)]
    refine bind_eq_ok.mpr ⟨some (.bool step.requiresRoot), rfl, ?_⟩
    refine bind_eq_ok.mpr ⟨some (.num (.finite step.timeoutMs)), rfl, ?_⟩
    rw [if_pos (by simp [hroot, hmode]), if_neg htoken]
    exact bind_eq_ok.mpr ⟨some (.str step.key), rfl, rfl⟩
  obtain ⟨payload, hok, hpayload⟩ := htransport
  refine ⟨payload, ?_, hpayload⟩
  unfold Site.transport runProvisionStep
  rw [hok]

theorem program_ne_empty {d : Daemon} {program : String} {args : List String}
    (h : validateCommand d program args = none) : program ≠ "" := by
  rintro rfl
  cases h

/-- **A step that the daemon accepts** resolves when its command ends with exit code 0. -/
theorem resolves_of_accepted (hmode : provisionMode site.rt site.web = "daemon")
    (htoken : provisionerToken site.web ≠ "")
    (hsame : site.daemon.token = provisionerToken site.web) {step : ProvisionStep}
    (hroot : step.requiresRoot = true) (haccepted : step.Accepted site.daemon) :
    site.Resolves step (.answered fun _ => (false, .close (some 0) "" "")) := by
  obtain ⟨program, args, hcommand, hvalid⟩ := haccepted
  obtain ⟨payload, htransport, hpayload, hprogram, hargs, hlive⟩ :=
    exists_payload hmode htoken hroot hcommand (program_ne_empty hvalid)
  have hread : readRequest site.rt payload = _ := readRequest_str hprogram hargs
  have hloop : ∀ cmd attempt attempts,
      (retryLoop cmd (fun _ => (false, .close (some 0) "" "")) attempt attempts).ok = true := by
    intro cmd attempt attempts
    cases attempts with
    | zero => rfl
    | succ attempts =>
      unfold retryLoop
      rfl
  have hresponse : (handleRequest site.daemon ⟨payload.token, program, args, payload.dryRun⟩
      (fun _ => (false, .close (some 0) "" ""))).ok = true := by
    unfold handleRequest runWithRetry
    dsimp only
    rw [if_neg (by rw [hpayload, hsame]; exact not_not.mpr rfl), hvalid, hlive]
    dsimp only
    rw [if_neg Bool.false_ne_true, hloop]
    rfl
  obtain ⟨result, hresult⟩ := runProvisionerCommand_of_ok hresponse
  refine ⟨result, ?_⟩
  unfold settle
  rw [htransport]
  dsimp only
  rw [hread]
  exact congrArg some hresult

theorem throws_of_accepted (hmode : provisionMode site.rt site.web = "daemon")
    (htoken : provisionerToken site.web ≠ "") {step : ProvisionStep}
    (hroot : step.requiresRoot = true) (haccepted : step.Accepted site.daemon)
    (message : String) : site.Throws step (.unanswered message) := by
  obtain ⟨program, args, hcommand, hvalid⟩ := haccepted
  obtain ⟨payload, htransport, -⟩ :=
    exists_payload hmode htoken hroot hcommand (program_ne_empty hvalid)
  refine ⟨.error message, ?_⟩
  rw [htransport]
  rfl

end Executes

/-! ## A job that cannot be resumed -/

/-- A live bootstrap job that is approved. -/
def sampleApproved : List Action :=
  [.createTenant (sampleRequest false) "ann", .transition 1 "bob" .approve]

theorem requiresRoot_bootstrapPlan {p : Process} {t : Tenant} {step : ProvisionStep}
    (hstep : step ∈ t.bootstrapPlan p) : step.requiresRoot = true := by
  unfold Tenant.bootstrapPlan buildBootstrapPlan at hstep
  simp only [List.mem_cons, List.not_mem_nil, or_false] at hstep
  obtain rfl | rfl | rfl | rfl | rfl | rfl | rfl | rfl | rfl | rfl := hstep <;> rfl

/-- The sample job may be started, has the plan of its tenant, and the daemon accepts every
step of it. -/
theorem exists_startable_sample :
    ∃ (tenant : Tenant) (job : ProvisionJob), Startable sampleRuntime
        ((controlPlane sampleSite).state .initial sampleApproved) 1 "cy" job tenant
      ∧ (∃ es, startArtifacts sampleRuntime sampleProcess job tenant 1 none = .ok es)
      ∧ job.planJson = (tenant.bootstrapPlan sampleProcess).map ProvisionStep.toJson
      ∧ (∀ step ∈ tenant.bootstrapPlan sampleProcess, step.Accepted sampleDaemon)
      ∧ job.dryRun = false ∧ job.requestedBy = "ann" ∧ job.jobType = .bootstrap := by
  -- the tenant that is created has a plan that the daemon accepts
  obtain ⟨s', hcreate⟩ : ∃ s', createTenantAndBootstrapJob sampleRuntime sampleProcess .initial
      (sampleRequest false) "ann" = .ok (s', 1, 1) := ⟨_, rfl⟩
  obtain ⟨t, job₀, ht, hjob₀, htenant₀, hplan₀, haccepted, -⟩ :=
    plans_accepted sameEnvironment_sample hcreate
  have hstate : (controlPlane sampleSite).state .initial sampleApproved
      = (controlPlane sampleSite).state s' [.transition 1 "bob" .approve] := by
    have hs' : (controlPlane sampleSite).next .initial (.createTenant (sampleRequest false) "ann")
        = s' := by
      show (answered State.initial (createTenantAndBootstrapJob sampleRuntime sampleProcess
        .initial (sampleRequest false) "ann") _).1 = s'
      rw [hcreate]
      rfl
    rw [← hs']
    exact Machine.state_cons _ _ _ _
  obtain ⟨⟨ex, artifacts⟩, hstart⟩ : ∃ r, startExecution sampleRuntime sampleProcess
      ((controlPlane sampleSite).state .initial sampleApproved) 1 "cy" none = .ok r := ⟨_, rfl⟩
  obtain ⟨job, tenant, hstartable, hartifacts, -⟩ := startExecution_eq_ok.mp hstart
  obtain ⟨job', hjob', hrequest⟩ := sameRequest_state sampleSite hjob₀
    [.transition 1 "bob" .approve]
  obtain ⟨status, htenant'⟩ := tenant_state sampleSite ht [.transition 1 "bob" .approve]
  rw [← hstate] at hjob' htenant'
  obtain rfl : job' = job := Option.some.inj (hjob'.symm.trans hstartable.jobRow)
  have hrow := hstartable.tenantRow
  rw [hrequest.tenantId, htenant₀] at hrow
  obtain rfl : { t with status } = tenant := Option.some.inj (htenant'.symm.trans hrow)
  have hdata : (((controlPlane sampleSite).state .initial sampleApproved).jobs.row 1).map
      (fun job => (job.dryRun, job.requestedBy, job.jobType))
      = some (false, "ann", .bootstrap) := by decide +kernel
  rw [hjob'] at hdata
  obtain ⟨hlive, hdata⟩ := Prod.mk.inj (Option.some.inj hdata)
  obtain ⟨hrequester, hbootstrap⟩ := Prod.mk.inj hdata
  exact ⟨{ t with status }, job', hstartable, ⟨_, hartifacts⟩, hrequest.planJson.trans hplan₀,
    haccepted, hlive, hrequester, hbootstrap⟩

/-- **The user is created, and the second step is not answered.** -/
theorem exists_sampleFailed : ∃ b : FailedBootstrap sampleSite, b.answers ≠ [] := by
  have hmode : provisionMode sampleSite.rt sampleSite.web = "daemon" := by decide +kernel
  have htoken : provisionerToken sampleSite.web ≠ "" := by decide +kernel
  have hsame : sampleSite.daemon.token = provisionerToken sampleSite.web := by decide +kernel
  obtain ⟨t, job, hstartable, hartifacts, hplanJson, haccepted, hlive, hrequester, hbootstrap⟩ :=
    exists_startable_sample
  -- the first step creates the user, the second does not
  obtain ⟨first, more, hplan, hfirst, hnone⟩ := exists_bootstrapPlan sampleProcess t
  obtain ⟨step, rest, rfl⟩ : ∃ step rest, more = step :: rest := by
    cases more with
    | nil => exact absurd (congrArg List.length hplan) (show (10 : ℕ) ≠ 1 by decide)
    | cons step rest => exact ⟨step, rest, rfl⟩
  have hresolves : ∀ step ∈ t.bootstrapPlan sampleProcess, sampleSite.Resolves step
      (.answered fun _ => (false, .close (some 0) "" "")) := fun step hstep =>
    resolves_of_accepted hmode htoken hsame (requiresRoot_bootstrapPlan hstep)
      (haccepted step hstep)
  have hfirstMem : first ∈ t.bootstrapPlan sampleProcess := by
    rw [hplan]
    exact List.mem_cons_self
  have hstepMem : step ∈ t.bootstrapPlan sampleProcess := by
    rw [hplan]
    exact List.mem_cons_of_mem _ List.mem_cons_self
  have hthrows : sampleSite.Throws step (.unanswered "Provisioner socket timeout") :=
    throws_of_accepted hmode htoken (requiresRoot_bootstrapPlan hstepMem)
      (haccepted step hstepMem) _
  have hexecuted : Executed sampleSite [] (t.bootstrapPlan sampleProcess)
      [.answered fun _ => (false, .close (some 0) "" "")] (first.applyTo []) (step :: rest) := by
    rw [hplan]
    exact .cons ((ProvisionStep.succeedsOn_iff hfirst []).mpr List.not_mem_nil)
      (hresolves first hfirstMem) .nil
  refine ⟨{
    before := sampleApproved, e := 0, jobId := 1, actor := "cy", job, tenant := t
    startable := hstartable, artifacts := hartifacts, free := rfl, bootstrap := hbootstrap
    plan := hplanJson, live := hlive
    executes := ⟨fun _ => rfl, by decide +kernel, fun step hstep => ⟨_, hresolves step hstep⟩⟩
    users := [], answers := [.answered fun _ => (false, .close (some 0) "" "")]
    reached := first.applyTo [], step, rest, executed := hexecuted
    transient := step.succeedsOn_of_none (hnone step List.mem_cons_self) _
    failure := .unanswered "Provisioner socket timeout", throws := hthrows, applied := false
    approver := "bob", runner := "cy", e' := 1, again := by decide, free' := rfl
    named := by decide, requester := ?_, differs := by decide }, List.cons_ne_nil _ _⟩
  rw [hrequester]
  decide

/-- **A bootstrap that has created its user** and fails at the next step fails at its first
step ever after. -/
theorem not_resumes_sampleFailed :
    ¬ ∀ (site : Site) (b : FailedBootstrap site), b.Resumes := by
  intro h
  obtain ⟨b, hanswers⟩ := exists_sampleFailed
  have hmem := b.mem_usersAgain_iff.mpr fun hfirst => hanswers hfirst.1
  exact b.not_resumes_of_mem hmem (h sampleSite b)

end MissionControl
