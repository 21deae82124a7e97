import MissionControl.Executor
import MissionControl.Library.Machine

/-!
# The control plane

The requests of the API and the settling of awaited steps, in any order and
number, are the actions of one machine (`controlPlane`). A request that
throws is refused: it leaves the state alone and shows nothing.

`controlPlane_step` says once what a step can do (`Step`), and `Advance`
what the loop of an execution can; the invariants of the following modules
are case splits over these two.

An action that settles a step runs the loop of its execution up to the next wait, which
may be the end of it. So what an action ends is said before the step (`Action.ending`), and
`Step` has a case for each way in which the loop can stop.
-/

namespace MissionControl

/-- **Where the control plane runs**: the runtime, the environment of the
web server, and the daemon it talks to. -/
structure Site where
  rt : Runtime
  web : Process
  daemon : Daemon

inductive Action where
  /-- `POST /api/super/tenants`. -/
  | createTenant (request : Json) (actor : String)
  /-- `POST /api/super/tenants/[id]/decommission`. -/
  | decommission (tenantId : ℕ) (request : Json) (actor : String)
  /-- `POST /api/super/provision-jobs`. -/
  | postJob (body : Json) (actor : String)
  /-- `POST /api/super/provision-jobs/[id]`. -/
  | transition (jobId : ℕ) (actor : String) (action : ProvisionJobAction)
  /-- `POST /api/super/provision-jobs/[id]/run`, as the execution `e`. -/
  | execute (e jobId : ℕ) (actor : String) (fsError : Option Exception)
  /-- The step that the execution `e` waits for settles. -/
  | resume (e : ℕ) (event : StepEvent)

/-- What a request leaves and shows: nothing new if it throws. -/
def answered {α : Type} (s : State) (x : Except Exception α)
    (f : α → State × List Event) : State × List Event :=
  match x with
  | .ok r => f r
  | .error _ => (s, [])

/-- **The control plane.** An execution id that is in use is refused. -/
def controlPlane (site : Site) : Machine State Action Event where
  step s
    | .createTenant request actor =>
      answered s (createTenantAndBootstrapJob site.rt site.web s request actor)
        (fun (s', tenantId, jobId) => (s', [.tenantCreated tenantId jobId]))
    | .decommission tenantId request actor =>
      answered s (createTenantDecommissionJob site.rt s tenantId request actor)
        (fun (s', jobId) => (s', [.decommissionQueued tenantId jobId]))
    | .postJob body actor =>
      answered s (queueProvisionJob site.rt s body actor)
        (fun (s', jobId) => (s', [.jobPosted jobId]))
    | .transition jobId actor action =>
      answered s (transitionProvisionJobStatus s jobId actor action)
        (fun s' => (s', [.transitioned jobId action actor]))
    | .execute e jobId actor fsError =>
      if (s.executions e).isSome then (s, [])
      else
        answered s
          (executeProvisionJob site.rt site.web s e jobId actor fsError) id
    | .resume e event => s.resume site.rt site.web site.daemon e event

/-! ## The end of an execution -/

inductive Ending where
  | completes | fails
  deriving DecidableEq

/-- How the loop ends from where an execution stands, if it does not come to
a wait. -/
def Execution.ending (site : Site) (ex : Execution) : Option Ending :=
  match ex.rest with
  | [] => some .completes
  | step :: _ =>
    match beginStep site.rt site.web ex step with
    | .error _ => some .fails
    | .ok _ => none

/-- **The execution an action ends**, as it stood before, and how: an action
that starts an execution can end it at once, one that settles a step can end
it with the step. -/
def Action.ending (site : Site) (s : State) : Action → Option (Execution × Ending)
  | .execute e jobId actor fsError =>
    if (s.executions e).isSome then none
    else match startExecution site.rt site.web s jobId actor fsError with
      | .error _ => none
      | .ok (ex, _) => (ex.ending site).map (fun ending => (ex, ending))
  | .resume e event =>
    match s.executions e with
    | none => none
    | some ex =>
      match ex.awaiting.bind
          (fun transport => settle site.rt site.daemon transport event) with
      | none => none
      | some (.error _) => some (ex, .fails)
      | some (.ok result) =>
        ((ex.record result).ending site).map (fun ending => (ex, ending))
  | _ => none

/-! ## What a step can do -/

/-- **What the loop can do from where an execution stands.** -/
inductive Advance (site : Site) (s : State) (e : ℕ) (ex : Execution) :
    State → List Event → Prop
  | completes (hrest : ex.rest = []) :
    Advance site s e ex (s.complete e ex) [.completed e ex.jobId]
  /-- The next step throws before it is handed over. -/
  | throws {step more err} (hrest : ex.rest = step :: more)
      (hbegin : beginStep site.rt site.web ex step = .error err) :
    Advance site s e ex (s.fail e ex err) [.failed e ex.jobId err]
  | dispatches {step more transport} (hrest : ex.rest = step :: more)
      (hbegin : beginStep site.rt site.web ex step = .ok transport) :
    Advance site s e ex
      (s.setExecution e { ex with awaiting := some transport })
      [.dispatched e ex.jobId step transport]

/-- **What a step of the control plane can do.** -/
inductive Step (site : Site) (s : State) :
    Action → State → List Event → Prop
  | refused {a} (hending : a.ending site s = none) : Step site s a s []
  | createTenant {request actor r}
      (hread : readBootstrapRequest site.rt site.web request = .ok r)
      (hslug : s.tenants.any (fun t => t.slug = r.slug) = false)
      (huser : s.tenants.any (fun t => t.linuxUser = r.linuxUser) = false) :
    Step site s (.createTenant request actor)
      { s with
        tenants := s.tenants.insert (r.tenant site.web actor)
        jobs := s.jobs.insert (r.job site.web s.tenants.next actor) }
      [.tenantCreated s.tenants.next s.jobs.next]
  | decommission {tenantId request actor t r} (hid : tenantId ≠ 0)
      (htenant : s.tenants.row tenantId = some t)
      (hread : readDecommissionRequest site.rt request = .ok r) :
    Step site s (.decommission tenantId request actor)
      { s with jobs := s.jobs.insert (r.job tenantId t actor) }
      [.decommissionQueued tenantId s.jobs.next]
  | postJob {body actor t r} (hread : readQueueRequest site.rt body = .ok r)
      (htenant : s.tenants.row r.tenantId = some t) :
    Step site s (.postJob body actor)
      { s with jobs := s.jobs.insert (r.job actor) } [.jobPosted s.jobs.next]
  | transition {jobId actor action job t}
      (hjob : s.jobs.row jobId = some job)
      (htenant : s.tenants.row job.tenantId = some t)
      (hsource : job.status ∈ action.sources) :
    Step site s (.transition jobId actor action)
      { s with jobs := s.jobs.update jobId (action.write actor) }
      [.transitioned jobId action actor]
  /-- An execution starts, and its loop runs to its first wait or its end. -/
  | execute {e jobId actor fsError ex artifacts s' events}
      (hfree : s.executions e = none)
      (hstart : startExecution site.rt site.web s jobId actor fsError
        = .ok (ex, artifacts))
      (hadvance : Advance site (s.start e ex) e ex s' events) :
    Step site s (.execute e jobId actor fsError) s'
      (artifacts ++ .started e jobId actor :: events)
  /-- The step an execution waits for settles with an error. -/
  | resumeError {e event ex transport err} (hex : s.executions e = some ex)
      (hawait : ex.awaiting = some transport)
      (hsettle : settle site.rt site.daemon transport event
        = some (.error err)) :
    Step site s (.resume e event) (s.fail e ex err)
      [.returned e ex.jobId (.error err), .failed e ex.jobId err]
  /-- The step an execution waits for settles, and its loop goes on. -/
  | resumeOk {e event ex transport result s' events}
      (hex : s.executions e = some ex) (hawait : ex.awaiting = some transport)
      (hsettle : settle site.rt site.daemon transport event
        = some (.ok result))
      (hadvance : Advance site s e (ex.record result) s' events) :
    Step site s (.resume e event) s'
      (.returned e ex.jobId (.ok result) :: events)

section

variable (site : Site) (s : State)

theorem advance_spec (e : ℕ) (ex : Execution) :
    Advance site s e ex (s.advance site.rt site.web e ex).1
      (s.advance site.rt site.web e ex).2 := by
  unfold State.advance
  split
  · next hrest => exact .completes hrest
  · next step more hrest =>
    split
    · next err hbegin => exact .throws hrest hbegin
    · next transport hbegin => exact .dispatches hrest hbegin

theorem answered_spec {α : Type} {a : Action} {x : Except Exception α}
    {f : α → State × List Event}
    (herror : ∀ err, x = .error err → a.ending site s = none)
    (h : ∀ r, x = .ok r → Step site s a (f r).1 (f r).2) :
    Step site s a (answered s x f).1 (answered s x f).2 := by
  cases x with
  | error err => exact .refused (herror err rfl)
  | ok r => exact h r rfl

theorem resume_spec (e : ℕ) (event : StepEvent) :
    Step site s (.resume e event)
      (s.resume site.rt site.web site.daemon e event).1
      (s.resume site.rt site.web site.daemon e event).2 := by
  unfold State.resume
  split
  · next hex => exact .refused (by simp [Action.ending, hex])
  · next ex hex =>
    split
    · next hbind => exact .refused (by simp [Action.ending, hex, hbind])
    · next err hbind =>
      obtain ⟨transport, hawait, hsettle⟩ := Option.bind_eq_some_iff.mp hbind
      exact .resumeError hex hawait hsettle
    · next result hbind =>
      obtain ⟨transport, hawait, hsettle⟩ := Option.bind_eq_some_iff.mp hbind
      exact .resumeOk hex hawait hsettle (advance_spec site s e _)

theorem createTenant_spec (request : Json) (actor : String)
    {r : State × ℕ × ℕ}
    (h : createTenantAndBootstrapJob site.rt site.web s request actor = .ok r) :
    Step site s (.createTenant request actor) r.1
      [.tenantCreated r.2.1 r.2.2] := by
  unfold createTenantAndBootstrapJob at h
  obtain ⟨req, hread, h⟩ := bind_eq_ok.mp h
  split at h
  · exact absurd h (by simp)
  · next hslug =>
    split at h
    · exact absurd h (by simp)
    · next huser =>
      obtain rfl := Except.ok.inj h
      exact .createTenant hread (by simpa using hslug) (by simpa using huser)

theorem decommission_spec (tenantId : ℕ) (request : Json) (actor : String)
    {r : State × ℕ}
    (h : createTenantDecommissionJob site.rt s tenantId request actor = .ok r) :
    Step site s (.decommission tenantId request actor) r.1
      [.decommissionQueued tenantId r.2] := by
  unfold createTenantDecommissionJob at h
  split at h
  · exact absurd h (by simp)
  · next hid =>
    split at h
    · exact absurd h (by simp)
    · next t htenant =>
      obtain ⟨req, hread, h⟩ := bind_eq_ok.mp h
      obtain rfl := Except.ok.inj h
      exact .decommission hid htenant hread

theorem postJob_spec (body : Json) (actor : String) {r : State × ℕ}
    (h : queueProvisionJob site.rt s body actor = .ok r) :
    Step site s (.postJob body actor) r.1 [.jobPosted r.2] := by
  unfold queueProvisionJob at h
  obtain ⟨req, hread, h⟩ := bind_eq_ok.mp h
  split at h
  · exact absurd h (by simp)
  · next t htenant =>
    obtain rfl := Except.ok.inj h
    exact .postJob hread htenant

theorem getProvisionJob_eq_some {jobId : ℕ} {job : ProvisionJob} {t : Tenant} :
    getProvisionJob s jobId = some (job, t)
      ↔ s.jobs.row jobId = some job ∧ s.tenants.row job.tenantId = some t := by
  unfold getProvisionJob
  rw [Option.bind_eq_some_iff]
  refine ⟨fun h => ?_, fun h => ⟨job, h.1, by rw [h.2]; rfl⟩⟩
  obtain ⟨job', hjob, h⟩ := h
  obtain ⟨t', htenant, h⟩ := Option.map_eq_some_iff.mp h
  obtain ⟨rfl, rfl⟩ := Prod.mk.inj h
  exact ⟨hjob, htenant⟩

theorem transition_spec (jobId : ℕ) (actor : String)
    (action : ProvisionJobAction) {s' : State}
    (h : transitionProvisionJobStatus s jobId actor action = .ok s') :
    Step site s (.transition jobId actor action) s'
      [.transitioned jobId action actor] := by
  unfold transitionProvisionJobStatus at h
  split at h
  · exact absurd h (by simp)
  · next job t hget =>
    obtain ⟨hjob, htenant⟩ := (getProvisionJob_eq_some s).mp hget
    split at h
    · exact absurd h (by simp)
    · split at h
      · exact absurd h (by simp)
      · next hsource =>
        obtain rfl := Except.ok.inj h
        exact .transition hjob htenant (not_not.mp hsource)

theorem execute_spec (e jobId : ℕ) (actor : String)
    (fsError : Option Exception) (hfree : s.executions e = none)
    {r : State × List Event}
    (h : executeProvisionJob site.rt site.web s e jobId actor fsError = .ok r) :
    Step site s (.execute e jobId actor fsError) r.1 r.2 := by
  unfold executeProvisionJob at h
  obtain ⟨⟨ex, artifacts⟩, hstart, h⟩ := bind_eq_ok.mp h
  obtain rfl := Except.ok.inj h
  exact .execute hfree hstart (advance_spec site (s.start e ex) e ex)

theorem ending_of_execute_error (e jobId : ℕ) (actor : String)
    (fsError : Option Exception) {err : Exception}
    (h : executeProvisionJob site.rt site.web s e jobId actor fsError
      = .error err) :
    Action.ending site s (.execute e jobId actor fsError) = none := by
  unfold executeProvisionJob at h
  cases hstart : startExecution site.rt site.web s jobId actor fsError with
  | error _ => simp [Action.ending, hstart]
  | ok r =>
    rw [hstart] at h
    exact absurd h (by simp [bind, Except.bind])

/-- **Every step of the control plane is one of the listed ones.** -/
theorem controlPlane_step (a : Action) :
    Step site s a ((controlPlane site).next s a)
      ((controlPlane site).emits s a) := by
  unfold Machine.next Machine.emits controlPlane
  cases a with
  | createTenant request actor =>
    dsimp only
    exact answered_spec site s (fun _ _ => rfl)
      (fun r hr => createTenant_spec site s request actor hr)
  | decommission tenantId request actor =>
    dsimp only
    exact answered_spec site s (fun _ _ => rfl)
      (fun r hr => decommission_spec site s tenantId request actor hr)
  | postJob body actor =>
    dsimp only
    exact answered_spec site s (fun _ _ => rfl)
      (fun r hr => postJob_spec site s body actor hr)
  | transition jobId actor action =>
    dsimp only
    exact answered_spec site s (fun _ _ => rfl)
      (fun r hr => transition_spec site s jobId actor action hr)
  | execute e jobId actor fsError =>
    dsimp only
    split
    · next hused => exact .refused (if_pos hused)
    · next hfree =>
      refine answered_spec site s (fun err herr => ?_) (fun r hr =>
        execute_spec site s e jobId actor fsError (by simpa using hfree) hr)
      exact ending_of_execute_error site s e jobId actor fsError herr
  | resume e event => exact resume_spec site s e event

end

/-! ## What starting checks -/

/-- **What the checks of `executeProvisionJob` have found** when they let a
job be started. -/
structure Startable (rt : Runtime) (s : State) (jobId : ℕ) (actor : String)
    (job : ProvisionJob) (tenant : Tenant) : Prop where
  jobRow : s.jobs.row jobId = some job
  tenantRow : s.tenants.row job.tenantId = some tenant
  approved : job.status = .approved
  hasSteps : job.planJson ≠ []
  metadata : job.requestedDryRun rt = .ok job.dryRun
  hasApprover : job.approvedBy.getD "" ≠ ""
  requester : job.dryRun = false → job.approvedBy.getD "" ≠ job.requestedBy
  runner : job.dryRun = false → job.approvedBy.getD "" ≠ actor

theorem startExecution_eq_ok {rt : Runtime} {p : Process} {s : State}
    {jobId : ℕ} {actor : String} {fsError : Option Exception} {ex : Execution}
    {artifacts : List Event} :
    startExecution rt p s jobId actor fsError = .ok (ex, artifacts)
      ↔ ∃ job tenant, Startable rt s jobId actor job tenant
        ∧ startArtifacts rt p job tenant jobId fsError = .ok artifacts
        ∧ ex = job.execution tenant jobId actor := by
  refine ⟨fun h => ?_, fun h => ?_⟩
  · unfold startExecution at h
    split at h
    · exact absurd h (by simp)
    · next job tenant hget =>
      obtain ⟨hjob, htenant⟩ := (getProvisionJob_eq_some s).mp hget
      split at h
      · exact absurd h (by simp)
      · next hstatus =>
        split at h
        · exact absurd h (by simp)
        · next hplan =>
          dsimp only at h
          obtain ⟨dryRun, hdry, h⟩ := bind_eq_ok.mp h
          split at h
          · exact absurd h (by simp)
          · next hmatch =>
            split at h
            · exact absurd h (by simp)
            · next happrover =>
              split at h
              · exact absurd h (by simp)
              · next hrequester =>
                split at h
                · exact absurd h (by simp)
                · next hrunner =>
                  obtain ⟨arts, harts, h⟩ := bind_eq_ok.mp h
                  obtain ⟨rfl, rfl⟩ := Prod.mk.inj (Except.ok.inj h)
                  obtain rfl : dryRun = job.dryRun := not_not.mp hmatch
                  exact ⟨job, tenant, ⟨hjob, htenant, not_not.mp hstatus,
                    hplan, hdry, happrover, fun hl hc => hrequester ⟨hl, hc⟩,
                    fun hl hc => hrunner ⟨hl, hc⟩⟩, harts, rfl⟩
  · obtain ⟨job, tenant, hs, harts, rfl⟩ := h
    unfold startExecution
    rw [(getProvisionJob_eq_some s).mpr ⟨hs.jobRow, hs.tenantRow⟩]
    dsimp only
    rw [if_neg (not_not.mpr hs.approved), if_neg hs.hasSteps, hs.metadata]
    show (if job.dryRun ≠ job.dryRun then _ else _) = _
    rw [if_neg (not_not.mpr rfl), if_neg hs.hasApprover,
      if_neg (fun hc => hs.requester hc.1 hc.2),
      if_neg (fun hc => hs.runner hc.1 hc.2), harts]
    rfl

theorem startArtifacts_ok {rt : Runtime} {p : Process} {job : ProvisionJob}
    {tenant : Tenant} {jobId : ℕ} {fsError : Option Exception}
    {artifacts : List Event}
    (h : startArtifacts rt p job tenant jobId fsError = .ok artifacts) :
    artifacts = [] ∨ ∃ path content,
      artifacts = [.wroteArtifact jobId path content] := by
  unfold startArtifacts at h
  split at h
  · obtain ⟨⟨path, content⟩, -, h⟩ := bind_eq_ok.mp h
    dsimp only at h
    split at h
    · exact absurd h (by simp)
    · exact Or.inr ⟨path, content, (Except.ok.inj h).symm⟩
  · exact Or.inl (Except.ok.inj h).symm

/-! ## Determinism -/

theorem Advance.eq {site : Site} {s s' : State} {e : ℕ} {ex : Execution}
    {es : List Event} (h : Advance site s e ex s' es) :
    s.advance site.rt site.web e ex = (s', es) := by
  unfold State.advance
  cases h with
  | completes hrest => rw [hrest]
  | throws hrest hbegin =>
    rw [hrest]
    simp only [hbegin]
  | dispatches hrest hbegin =>
    rw [hrest]
    simp only [hbegin]

/-- **A step that shows something is the step of its action.** -/
theorem Step.next_eq {site : Site} {s s' : State} {a : Action}
    {es : List Event} (h : Step site s a s' es) (hes : es ≠ []) :
    (controlPlane site).next s a = s' := by
  have hanswered : ∀ {α : Type} {x : Except Exception α} {r : α}
      {f : α → State × List Event}, x = .ok r →
      (answered s x f).1 = (f r).1 := by
    rintro α x r f rfl
    rfl
  cases h with
  | refused _ => exact absurd rfl hes
  | @createTenant request actor r hread hslug huser =>
    unfold Machine.next controlPlane
    dsimp only
    refine hanswered (r := (_, s.tenants.next, s.jobs.next)) ?_
    unfold createTenantAndBootstrapJob
    refine bind_eq_ok.mpr ⟨r, hread, ?_⟩
    rw [hslug, huser]
    rfl
  | @decommission tenantId request actor t r hid htenant hread =>
    refine hanswered (r := (_, s.jobs.next)) ?_
    unfold createTenantDecommissionJob
    rw [if_neg hid, htenant]
    exact bind_eq_ok.mpr ⟨r, hread, rfl⟩
  | @postJob body actor t r hread htenant =>
    refine hanswered (r := (_, s.jobs.next)) ?_
    unfold queueProvisionJob
    refine bind_eq_ok.mpr ⟨r, hread, ?_⟩
    rw [htenant]
  | @transition jobId actor action job t hjob htenant hsource =>
    refine hanswered (r := { s with
      jobs := s.jobs.update jobId (action.write actor) }) ?_
    have hopen : job.status ∉ [.running, .completed, .cancelled] := by
      revert hsource
      cases action <;> cases job.status <;> decide
    unfold transitionProvisionJobStatus
    rw [(getProvisionJob_eq_some s).mpr ⟨hjob, htenant⟩]
    dsimp only
    rw [if_neg hopen, if_neg (not_not.mpr hsource)]
  | @execute e jobId actor fsError ex artifacts s' events hfree hstart hadvance =>
    unfold Machine.next controlPlane
    dsimp only
    rw [if_neg (by simp [hfree])]
    refine hanswered (r := (s', artifacts ++ .started e jobId actor :: events)) ?_
    unfold executeProvisionJob
    refine bind_eq_ok.mpr ⟨(ex, artifacts), hstart, ?_⟩
    dsimp only
    rw [hadvance.eq]
  | @resumeError e event ex transport err hex hawait hsettle =>
    show (s.resume site.rt site.web site.daemon e event).1 = _
    unfold State.resume
    rw [hex]
    dsimp only
    rw [hawait, Option.bind_some, hsettle]
  | @resumeOk e event ex transport result s' events hex hawait hsettle hadvance =>
    show (s.resume site.rt site.web site.daemon e event).1 = _
    unfold State.resume
    rw [hex]
    dsimp only
    rw [hawait, Option.bind_some, hsettle]
    dsimp only
    rw [hadvance.eq]

/-- The job an event shows to be posted. -/
def Event.postedJob : Event → Option ℕ
  | .jobPosted id => some id
  | _ => none

/-! ## A sample site -/

/-- The site of the sample environment. -/
def sampleSite : Site := ⟨sampleRuntime, sampleProcess, sampleDaemon⟩

/-- A request for a tenant on the account `alice`. -/
def sampleRequest (dryRun : Bool) : Json :=
  .obj [("slug", .str "alice"), ("display_name", .str "Alice"),
    ("linux_user", .str "alice"), ("gateway_port", .num (.finite 20001)),
    ("dry_run", .bool dryRun)]

/-- The tenant's bootstrap job, created by `ann`, approved by `bob` and
started by `cy`. -/
def sampleStart (dryRun : Bool) : List Action :=
  [.createTenant (sampleRequest dryRun) "ann", .transition 1 "bob" .approve,
    .execute 0 1 "cy" none]

/-- A job of one step, posted for the first tenant by `dee`. -/
def samplePost (dryRun : Bool) (command : List String) (requiresRoot : Bool) :
    Action :=
  .postJob (.obj [("tenant_id", .num (.finite 1)), ("job_type", .str "update"),
    ("dry_run", .bool dryRun), ("request_json", .obj [("dry_run", .bool dryRun)]),
    ("plan_json", .arr [.obj [("key", .str "step"), ("title", .str "Step"),
      ("command", .arr (command.map .str)),
      ("requires_root", .bool requiresRoot)]])]) "dee"

/-- The daemon's answer when its child ends with an exit code. -/
def sampleAnswer (code : ℤ) : StepEvent :=
  .answered (fun _ => (false, .close (some code) "" ""))

end MissionControl
