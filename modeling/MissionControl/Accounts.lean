import MissionControl.PlannedJobs

/-!
# The accounts that are deleted

A decommission with `remove_linux_user` runs `userdel -r` for the tenant's
user, whatever has become of the tenant's bootstrap: nothing asks whether
the account is one that the system has created. What the code does ensure is
less (`userdel_dispatched`). The user is the one of the job's own tenant, for
which the creation of the tenant has queued a `useradd`; and a tenant that is
found `active` has been set up – a live bootstrap of it has completed
(`ActiveBacked`), so its `useradd` has run before, with success.
-/

namespace MissionControl

/-! ## What `active` says -/

/-- A live job that sets the tenant up has completed. -/
def State.Backed (s : State) (tenantId : ℕ) : Prop :=
  ∃ id job, s.jobs.row id = some job ∧ job.tenantId = tenantId
    ∧ job.dryRun = false ∧ job.jobType ≠ .decommission ∧ job.status = .completed

/-- **Who is `active` has been set up**: the tenants, and the executions
that have read the status. -/
structure ActiveBacked (s : State) : Prop where
  tenants : ∀ {id t}, s.tenants.row id = some t → t.status = .active →
    s.Backed id
  executions : ∀ {e ex}, s.executions e = some ex →
    ex.previousTenantStatus = .active → s.Backed ex.tenantId

theorem ActiveBacked.initial : ActiveBacked .initial where
  tenants h := nomatch h
  executions h := nomatch h

theorem State.Backed.step {site : Site} {es es' : List Event} {s s' : State}
    {a : Action} (hsound : Sound none es s) (hstep : Step site s a s' es')
    {tenantId : ℕ} (h : s.Backed tenantId) : s'.Backed tenantId := by
  obtain ⟨id, job, hjob, htenant, hlive, htype, hdone⟩ := h
  refine ⟨id, job, ?_, htenant, hlive, htype, hdone⟩
  exact hstep.terminal hsound hjob (by rw [hdone]; exact List.mem_cons_self)

theorem active_of_setTenantStatus {s : State} {tenantId : ℕ}
    {status : TenantStatus} {id : ℕ} {t : Tenant}
    (ht : (s.setTenantStatus tenantId status).tenants.row id = some t)
    (hactive : t.status = .active) :
    (∃ t₀, s.tenants.row id = some t₀ ∧ t₀.status = .active)
      ∨ tenantId = id ∧ status = .active := by
  replace ht : (s.tenants.update tenantId _).row id = some t := ht
  rw [Table.row_update] at ht
  split at ht
  · next hid =>
    obtain ⟨t₀, -, rfl⟩ := Option.map_eq_some_iff.mp ht
    exact Or.inr ⟨hid.symm, hactive⟩
  · exact Or.inl ⟨t, ht, hactive⟩

/-- **Where `active` comes from in the loop**: it was there, the execution
has read it, or the job of the execution has just completed. -/
theorem Advance.active {site : Site} {s s' : State} {e : ℕ} {ex : Execution}
    {es : List Event} (h : Advance site s e ex s' es) {job : ProvisionJob}
    (hjob : s.jobs.row ex.jobId = some job) (hreads : ex.Reads job) {id : ℕ}
    {t : Tenant} (ht : s'.tenants.row id = some t) (hactive : t.status = .active) :
    (∃ t₀, s.tenants.row id = some t₀ ∧ t₀.status = .active)
      ∨ (ex.tenantId = id ∧ ex.previousTenantStatus = .active)
      ∨ s'.Backed id := by
  cases h with
  | completes _ =>
    rcases active_of_setTenantStatus ht hactive with hold | ⟨rfl, hstatus⟩
    · exact Or.inl hold
    · refine Or.inr ?_
      unfold Execution.completedTenantStatus at hstatus
      split at hstatus
      · exact Or.inl ⟨rfl, hstatus⟩
      · next hlive =>
        split at hstatus
        · exact absurd hstatus (by decide)
        · next htype =>
          obtain ⟨htenantId, hjobType, hdryRun, -⟩ := hreads
          refine Or.inr ⟨ex.jobId, ex.completedJob job, ?_, htenantId.symm, ?_,
            ?_, rfl⟩
          · rw [State.complete_jobs, Table.row_update_self, hjob, Option.map_some]
          · show job.dryRun = false
            rw [← hdryRun]
            simpa using hlive
          · show job.jobType ≠ .decommission
            rw [← hjobType]
            exact htype
  | throws _ _ =>
    rcases active_of_setTenantStatus ht hactive with hold | ⟨-, hstatus⟩
    · exact Or.inl hold
    · exact absurd hstatus (by decide)
  | dispatches _ _ => exact Or.inl ⟨t, ht, hactive⟩

/-- **Every step keeps it.** -/
theorem ActiveBacked.step {site : Site} {es es' : List Event} {s s' : State}
    {a : Action} (hsound : Sound none es s) (h : ActiveBacked s)
    (hstep : Step site s a s' es') : ActiveBacked s' := by
  have hmono : ∀ {id}, s.Backed id → s'.Backed id :=
    fun hb => hb.step hsound hstep
  refine ⟨fun {id t} ht hactive => ?_, fun {e ex} hex hactive => ?_⟩
  · cases hstep with
    | refused _ => exact h.tenants ht hactive
    | createTenant _ _ _ =>
      rcases (Table.row_insert_eq_some _ _).mp ht with ⟨-, rfl⟩ | hold
      · exact absurd hactive (by simp [BootstrapRequest.tenant])
      · exact hmono (h.tenants hold hactive)
    | decommission _ _ _ => exact hmono (h.tenants ht hactive)
    | postJob _ _ => exact hmono (h.tenants ht hactive)
    | transition _ _ _ => exact hmono (h.tenants ht hactive)
    | @execute e jobId actor _ _ _ _ _ _ hstart hadvance =>
      obtain ⟨job, tenant, hs, -, rfl⟩ := startExecution_eq_ok.mp hstart
      have hread : tenant.status = .active → s'.Backed job.tenantId :=
        fun hst => hmono (h.tenants hs.tenantRow hst)
      have hrow : (s.start e (job.execution tenant jobId actor)).jobs.row jobId
          = some { job with status := .running } := by
        show (s.jobs.update jobId _).row jobId = _
        rw [Table.row_update_self, hs.jobRow, Option.map_some]
      rcases hadvance.active hrow ⟨rfl, rfl, rfl, rfl⟩ ht hactive with
        ⟨t₀, ht₀, hactive₀⟩ | ⟨rfl, hprevious⟩ | hbacked
      · rcases active_of_setTenantStatus ht₀ hactive₀ with
          ⟨t₁, ht₁, hactive₁⟩ | ⟨rfl, hstatus⟩
        · exact hmono (h.tenants ht₁ hactive₁)
        · -- a start writes `active` only for a dry run that has read it
          unfold Execution.startedTenantStatus at hstatus
          split at hstatus
          · exact hread hstatus
          · split at hstatus
            · exact absurd hstatus (by decide)
            · exact absurd hstatus (by decide)
      · exact hread hprevious
      · exact hbacked
    | resumeError _ _ _ =>
      rcases active_of_setTenantStatus ht hactive with
        ⟨t₀, ht₀, hactive₀⟩ | ⟨-, hstatus⟩
      · exact hmono (h.tenants ht₀ hactive₀)
      · exact absurd hstatus (by decide)
    | @resumeOk _ _ ex _ _ _ _ hex _ _ hadvance =>
      obtain ⟨job, hjob, hreads⟩ := hsound.reads hex
      rcases hadvance.active hjob hreads ht hactive with
        ⟨t₀, ht₀, hactive₀⟩ | ⟨rfl, hprevious⟩ | hbacked
      · exact hmono (h.tenants ht₀ hactive₀)
      · have hread := h.executions hex
        exact hmono (hread hprevious)
      · exact hbacked
  · rcases hstep.execution_origin hex with ⟨ex₀, hex₀, hcall⟩ | ⟨t, ht, hprevious⟩
    · have hread := h.executions hex₀
      rw [hcall] at hactive ⊢
      exact hmono (hread hactive)
    · exact hmono (h.tenants ht (hprevious ▸ hactive))

/-- **Who is `active` has been set up, all along every run.** -/
theorem activeBacked_run (site : Site) (as : List Action) :
    ActiveBacked ((controlPlane site).state .initial as) :=
  ((controlPlane site).invariant (I := fun es s => Sound none es s
      ∧ ActiveBacked s) ⟨Sound.initial, ActiveBacked.initial⟩
    (fun _ s a h => ⟨h.1.step (controlPlane_step site s a),
      h.2.step h.1 (controlPlane_step site s a)⟩) as).2

/-! ## The steps about accounts -/

def Runs (step : Json) (command : List String) : Prop :=
  Json.get? (some step) "command" = some (.arr (command.map .str))

def areTexts : List Json → List String → Bool
  | [], [] => true
  | .str s :: values, text :: texts => s = text && areTexts values texts
  | _, _ => false

theorem areTexts_iff {values : List Json} {texts : List String} :
    areTexts values texts = true ↔ values = texts.map .str := by
  induction values, texts using areTexts.induct with
  | case1 => exact ⟨fun _ => rfl, fun _ => rfl⟩
  | case2 s values text texts ih => simp [areTexts, ih]
  | case3 values texts hnil hcons =>
    unfold areTexts
    refine ⟨fun h => ?_, ?_⟩
    · split at h
      · exact absurd rfl (hnil rfl)
      · exact absurd rfl (hcons _ _ _ _ rfl)
      · cases h
    · rintro rfl
      cases texts with
      | nil => exact absurd rfl (hnil rfl)
      | cons text texts => exact absurd rfl (hcons _ _ _ _ rfl)

instance (step : Json) (command : List String) : Decidable (Runs step command) :=
  match h : Json.get? (some step) "command" with
  | some (.arr values) => decidable_of_iff (areTexts values command = true) <| by
      unfold Runs
      rw [h, areTexts_iff, Option.some.injEq, Json.arr.injEq]
  | none | some .null | some (.bool _) | some (.num _) | some (.str _) | some (.obj _) =>
    .isFalse fun hruns => nomatch h.symm.trans hruns

def useraddCommand (user : String) : List String :=
  ["/usr/sbin/useradd", "-m", "-s", "/bin/bash", user]

def userdelCommand (user : String) : List String :=
  ["/usr/sbin/userdel", "-r", user]

/-- **A live bootstrap of the tenant has created the account**: one of its
executions has handed the `useradd` over, and it has returned with success. -/
def UseraddRan (es : List Event) (s : State) (tenantId : ℕ) (user : String) :
    Prop :=
  ∃ e jobId actor job step result,
    s.jobs.row jobId = some job ∧ job.tenantId = tenantId
      ∧ job.jobType = .bootstrap ∧ job.dryRun = false
      ∧ .started e jobId actor ∈ es ∧ Runs step (useraddCommand user)
      ∧ [.inl step, .inr (.ok result)] <:+: turns e es ∧ result.code = some 0

theorem runs_toJson_iff (step : ProvisionStep) (command : List String) :
    Runs step.toJson command ↔ step.command = command := by
  unfold Runs
  rw [step.get_command, Option.some.injEq, Json.arr.injEq]
  exact ⟨map_str_injective, fun h => h ▸ rfl⟩

theorem bootstrapPlan_head (p : Process) (t : Tenant) :
    ∃ step more, t.bootstrapPlan p = step :: more
      ∧ step.command = useraddCommand t.linuxUser :=
  ⟨_, _, rfl, rfl⟩

theorem bootstrapPlan_not_userdel {p : Process} {t : Tenant}
    {step : ProvisionStep} (hstep : step ∈ t.bootstrapPlan p) (user : String) :
    step.command ≠ userdelCommand user := by
  have hhead : step.command.head? ≠ some "/usr/sbin/userdel" := by
    unfold Tenant.bootstrapPlan buildBootstrapPlan at hstep
    simp only [List.mem_cons, List.not_mem_nil, or_false] at hstep
    rcases hstep with rfl | rfl | rfl | rfl | rfl | rfl | rfl | rfl | rfl | rfl
    all_goals
      rw [List.head?_cons]
      decide
  intro heq
  exact hhead (heq ▸ rfl)

theorem decommissionPlan_userdel {t : Tenant} {options : DecommissionOptions}
    {step : ProvisionStep} (hstep : step ∈ buildDecommissionPlan t.plan options)
    {user : String} (hcommand : step.command = userdelCommand user) :
    user = t.linuxUser := by
  have hne : ∀ program args, program ≠ "/usr/sbin/userdel" →
      program :: args ≠ userdelCommand user :=
    fun program args hprogram heq => hprogram (List.cons.inj heq).1
  unfold buildDecommissionPlan at hstep
  rw [List.mem_append, List.mem_append] at hstep
  rcases hstep with (hstep | hstep) | hstep
  · simp only [List.mem_cons, List.not_mem_nil, or_false] at hstep
    rcases hstep with rfl | rfl
    · exact absurd hcommand (hne _ _ (by decide))
    · exact absurd hcommand (hne _ _ (by decide))
  · split at hstep
    · simp only [List.mem_cons, List.not_mem_nil, or_false] at hstep
      rcases hstep with rfl | rfl
      · exact absurd hcommand (hne _ _ (by decide))
      · exact absurd hcommand (hne _ _ (by decide))
    · exact absurd hstep List.not_mem_nil
  · split at hstep
    · rw [List.mem_singleton] at hstep
      subst hstep
      have hargs := List.cons.inj (List.cons.inj (List.cons.inj hcommand).2).2
      exact hargs.1.symm
    · exact absurd hstep List.not_mem_nil

/-! ## What precedes a deletion -/

/-- **A tenant that has been set up has its account**: where no job was
posted, the completed live job is a bootstrap, and its `useradd` has run. -/
theorem State.Backed.useraddRan (site : Site) (as : List Action)
    (hposts : ∀ id, .jobPosted id ∉ (controlPlane site).trace .initial as)
    {tenantId : ℕ} {t : Tenant}
    (ht : ((controlPlane site).state .initial as).tenants.row tenantId = some t)
    (h : ((controlPlane site).state .initial as).Backed tenantId) :
    UseraddRan ((controlPlane site).trace .initial as)
      ((controlPlane site).state .initial as) tenantId t.linuxUser := by
  obtain ⟨jobId, job, hjob, rfl, hlive, htype, hdone⟩ := h
  obtain ⟨t', ht', hplan⟩ :=
    ((planned_run site as).planned hjob).resolve_left (hposts jobId)
  obtain rfl : t' = t := Option.some.inj (ht'.symm.trans ht)
  obtain ⟨hbootstrap, hplan⟩ := hplan.resolve_right (fun hd => htype hd.1)
  obtain ⟨e, ex, -, hex, rfl, -, results, hclean, hturns⟩ :=
    (played_run site as).completed hjob hdone
  obtain ⟨step, more, hsteps, hcommand⟩ := bootstrapPlan_head site.web t'
  rw [hsteps, List.map_cons] at hplan
  rw [hplan] at hclean hturns
  cases results with
  | nil => exact absurd hclean.1 (by simp)
  | cons result results =>
    refine ⟨e, ex.jobId, ex.actor, job, step.toJson, result, hjob, rfl,
      hbootstrap, hlive, (sound_run site as).started hex,
      (runs_toJson_iff _ _).mpr hcommand, ?_,
      (hclean.2 result List.mem_cons_self).1⟩
    rw [hturns]
    exact ⟨[], cleanTurns _ results, rfl⟩

/-- **What the deletion of an account rests on**, in a run without posted
jobs: the account is the one of the job's own tenant, for which a bootstrap
job with its `useradd` has been queued; and if the execution has found the
tenant `active`, the `useradd` of a live bootstrap of the tenant has run
before, with success. -/
theorem userdel_dispatched (site : Site) (as : List Action) (a : Action)
    (hposts : ∀ id,
      .jobPosted id ∉ (controlPlane site).trace .initial (as ++ [a]))
    {e jobId : ℕ} {step : Json} {transport : Transport} {job : ProvisionJob}
    {user : String}
    (h : .dispatched e jobId step transport
      ∈ (controlPlane site).emits ((controlPlane site).state .initial as) a)
    (hjob : ((controlPlane site).state .initial (as ++ [a])).jobs.row jobId
      = some job) (hruns : Runs step (userdelCommand user)) :
    ∃ t, ((controlPlane site).state .initial (as ++ [a])).tenants.row
        job.tenantId = some t ∧ user = t.linuxUser
      ∧ job.jobType = .decommission
      ∧ (∃ id job', ((controlPlane site).state .initial (as ++ [a])).jobs.row id
          = some job' ∧ job'.tenantId = job.tenantId ∧ job'.jobType = .bootstrap
        ∧ ∃ step' ∈ job'.planJson, Runs step' (useraddCommand user))
      ∧ ∀ ex, ((controlPlane site).state .initial (as ++ [a])).executions e
          = some ex → ex.previousTenantStatus = .active →
        UseraddRan ((controlPlane site).trace .initial as)
          ((controlPlane site).state .initial as) job.tenantId user := by
  have hstep := controlPlane_step site ((controlPlane site).state .initial as) a
  obtain ⟨t, ht, hplan⟩ :=
    ((planned_run site (as ++ [a])).planned hjob).resolve_left (hposts jobId)
  obtain ⟨hmem, -⟩ := dispatched_mem_plan site as a h hjob
  -- the step is one of the planners, so the job is a decommission
  obtain ⟨htype, rfl⟩ : job.jobType = .decommission ∧ user = t.linuxUser := by
    rcases hplan with ⟨-, hplan⟩ | ⟨htype, options, hplan⟩
    · rw [hplan] at hmem
      obtain ⟨step', hstep', rfl⟩ := List.mem_map.mp hmem
      exact absurd ((runs_toJson_iff _ _).mp hruns)
        (bootstrapPlan_not_userdel hstep' user)
    · rw [hplan] at hmem
      obtain ⟨step', hstep', rfl⟩ := List.mem_map.mp hmem
      exact ⟨htype, decommissionPlan_userdel hstep'
        ((runs_toJson_iff _ _).mp hruns)⟩
  refine ⟨t, ht, rfl, htype, ?_, fun ex hex hactive => ?_⟩
  · obtain ⟨id, job', hjob', htenant, hbootstrap, hplan'⟩ :=
      (planned_run site (as ++ [a])).bootstrap ht
    obtain ⟨step', more, hsteps, hcommand⟩ := bootstrapPlan_head site.web t
    refine ⟨id, job', hjob', htenant, hbootstrap, step'.toJson, ?_,
      (runs_toJson_iff _ _).mpr hcommand⟩
    rw [hplan', hsteps]
    exact List.mem_cons_self
  · have htenantId : ex.tenantId = job.tenantId := by
      obtain ⟨ex', more, hex', rfl, -⟩ := hstep.dispatched h
      rw [← Machine.state_concat] at hex'
      obtain rfl : ex' = ex := Option.some.inj (hex'.symm.trans hex)
      obtain ⟨job', hjob', hreads, -⟩ := (sound_run site (as ++ [a])).reads hex
      obtain rfl : job' = job := Option.some.inj (hjob'.symm.trans hjob)
      exact hreads
    have hposts' : ∀ id,
        .jobPosted id ∉ (controlPlane site).trace .initial as := by
      intro id hmem
      refine hposts id ?_
      rw [Machine.trace_concat]
      exact List.mem_append_left _ hmem
    -- the status was read before this step, or by this step
    have hbacked : ((controlPlane site).state .initial as).Backed
        job.tenantId := by
      have hinv := activeBacked_run site as
      rw [Machine.state_concat] at hex
      rw [← htenantId]
      rcases hstep.execution_origin hex with
        ⟨ex₀, hex₀, hcall⟩ | ⟨t₀, ht₀, hprevious⟩
      · have hread := hinv.executions hex₀
        rw [hcall] at hactive ⊢
        exact hread hactive
      · exact hinv.tenants ht₀ (hprevious ▸ hactive)
    obtain ⟨_, job₀, hjob₀, htenant₀, -⟩ := id hbacked
    obtain ⟨t₀, ht₀⟩ := (reached_run site as).2 _ job₀ hjob₀
    rw [htenant₀] at ht₀
    obtain ⟨status, ht₁⟩ := hstep.tenant ht₀
    rw [← Machine.state_concat, ht] at ht₁
    obtain rfl := Option.some.inj ht₁
    exact hbacked.useraddRan (t := t₀) site as hposts' ht₀

/-- An execution hands over the step that deletes an account. -/
def Event.deletes (e jobId : ℕ) (user : String) : Event → Bool
  | .dispatched e' id step _ => e' = e && id = jobId && decide (Runs step (userdelCommand user))
  | _ => false

/-- A tenant is set up live, and its live decommission waits for its second step. -/
def sampleOffboarding : List Action :=
  sampleStart false ++ List.replicate 10 (.resume 0 (sampleAnswer 0))
    ++ [.decommission 1 (.obj [("dry_run", .bool false), ("remove_linux_user", .bool true)]) "dee",
      .transition 2 "bob" .approve, .execute 1 2 "cy" none, .resume 1 (sampleAnswer 0)]

/-- The run of the decommission: nothing was posted, the tenant was active when it started, and its
next step is the one that deletes the account. -/
theorem sampleOffboarding_run :
    ((controlPlane sampleSite).trace .initial
        (sampleOffboarding ++ [.resume 1 (sampleAnswer 0)])).filterMap Event.postedJob = []
      ∧ (((controlPlane sampleSite).state .initial
          (sampleOffboarding ++ [.resume 1 (sampleAnswer 0)])).jobs.row 2).map (·.tenantId) = some 1
      ∧ (((controlPlane sampleSite).state .initial
          (sampleOffboarding ++ [.resume 1 (sampleAnswer 0)])).executions 1).map
            (·.previousTenantStatus) = some .active
      ∧ ((controlPlane sampleSite).emits ((controlPlane sampleSite).state .initial
          sampleOffboarding) (.resume 1 (sampleAnswer 0))).any (Event.deletes 1 2 "alice")
        = true := by
  decide +kernel

/-- The account that the removal deletes is the one of the tenant, and its bootstrap has created
it. -/
theorem userdel_dispatched_alice :
    ∃ t, ((controlPlane sampleSite).state .initial
        (sampleOffboarding ++ [.resume 1 (sampleAnswer 0)])).tenants.row 1 = some t
      ∧ "alice" = t.linuxUser
      ∧ UseraddRan ((controlPlane sampleSite).trace .initial sampleOffboarding)
        ((controlPlane sampleSite).state .initial sampleOffboarding) 1 "alice" := by
  obtain ⟨hposts, hjob, hex, hdeletes⟩ := sampleOffboarding_run
  obtain ⟨job, hjob, htenant⟩ := Option.map_eq_some_iff.mp hjob
  obtain ⟨ex, hex, hactive⟩ := Option.map_eq_some_iff.mp hex
  obtain ⟨event, hmem, hevent⟩ := List.any_eq_true.mp hdeletes
  cases event with
  | dispatched e id step transport =>
    unfold Event.deletes at hevent
    simp only [Bool.and_eq_true, decide_eq_true_eq] at hevent
    obtain ⟨⟨rfl, rfl⟩, hruns⟩ := hevent
    obtain ⟨t, ht, huser, -, -, hran⟩ := userdel_dispatched sampleSite sampleOffboarding
      (.resume 1 (sampleAnswer 0))
      (fun id hmem => by
        have hsome := List.filterMap_eq_nil_iff.mp hposts _ hmem
        exact absurd hsome (by simp [Event.postedJob]))
      hmem hjob hruns
    have huseradd := hran ex hex hactive
    rw [htenant] at ht huseradd
    exact ⟨t, ht, huser, huseradd⟩
  | _ => cases hevent

def Event.startedJob : Event → Option ℕ
  | .started _ id _ => some id
  | _ => none

/-- The live decommission of a tenant that was never set up, until its second
step waits. -/
def sampleRemoval : List Action :=
  [.createTenant (sampleRequest true) "ann",
    .decommission 1 (.obj [("dry_run", .bool false),
      ("remove_linux_user", .bool true)]) "dee",
    .transition 2 "bob" .approve, .execute 0 2 "cy" none,
    .resume 0 (sampleAnswer 0)]

/-- The step of the removal that deletes the account. -/
def sampleUserdel : ProvisionStep :=
  { key := "remove-linux-user"
    title := "Remove linux user alice"
    command := userdelCommand "alice"
    requiresRoot := true
    timeoutMs := 15000 }

theorem sampleRemoval_dispatched :
    ∃ transport, .dispatched 0 2 sampleUserdel.toJson transport
      ∈ (controlPlane sampleSite).emits
        ((controlPlane sampleSite).state .initial sampleRemoval)
        (.resume 0 (sampleAnswer 0)) :=
  ⟨_, List.mem_of_getElem? (i := 1) rfl⟩

/-- The run of the removal: only the decommission has started, and it is live. -/
theorem sampleRemoval_run :
    ((controlPlane sampleSite).trace .initial sampleRemoval).filterMap
        Event.startedJob = [2]
      ∧ (((controlPlane sampleSite).state .initial sampleRemoval).jobs.row 2).map
          (fun job => (job.tenantId, job.dryRun, job.jobType))
        = some (1, false, .decommission) := by
  decide +kernel

/-- **The account of a tenant that was never set up is deleted**: the job is
live, and no bootstrap of the tenant has run. -/
theorem userdel_without_useradd :
    (∃ transport, .dispatched 0 2 sampleUserdel.toJson transport
        ∈ (controlPlane sampleSite).emits
          ((controlPlane sampleSite).state .initial sampleRemoval)
          (.resume 0 (sampleAnswer 0)))
      ∧ (((controlPlane sampleSite).state .initial sampleRemoval).jobs.row 2).map
          (fun job => (job.tenantId, job.dryRun)) = some (1, false)
      ∧ ¬ UseraddRan ((controlPlane sampleSite).trace .initial sampleRemoval)
        ((controlPlane sampleSite).state .initial sampleRemoval) 1 "alice" := by
  obtain ⟨hstarts, hrow⟩ := sampleRemoval_run
  obtain ⟨job₂, hjob₂, hdata⟩ := Option.map_eq_some_iff.mp hrow
  obtain ⟨htenant₂, hdata⟩ := Prod.mk.inj hdata
  obtain ⟨hlive₂, htype₂⟩ := Prod.mk.inj hdata
  rw [hjob₂]
  refine ⟨sampleRemoval_dispatched, ?_, fun hran => ?_⟩
  · rw [Option.map_some, htenant₂, hlive₂]
  obtain ⟨e, jobId, actor, job, step, result, hjob, -, htype, -, hstarted, -⟩ :=
    hran
  -- the only job that has started is the decommission
  have hmem : jobId ∈ ((controlPlane sampleSite).trace .initial
      sampleRemoval).filterMap Event.startedJob :=
    List.mem_filterMap.mpr ⟨_, hstarted, rfl⟩
  rw [hstarts, List.mem_singleton] at hmem
  subst hmem
  rw [hjob₂] at hjob
  obtain rfl := Option.some.inj hjob
  rw [htype₂] at htype
  cases htype

end MissionControl
