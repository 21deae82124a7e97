import MissionControl.TenantRows

/-!
# Jobs with the plan of their tenant

A job stores its plan when it is created and is executed much later. The
tenant creation and the decommission store a plan of the planners, for the
row of the job's own tenant; a posted job stores whatever the body has. What
is known of a plan at its execution is therefore where the job comes from
(`planned_run`), and a step that is handed over is a step of the stored plan
(`dispatched_mem_plan`).
-/

namespace MissionControl

/-- **A job with a plan of its own tenant.** -/
def ProvisionJob.Planned (p : Process) (s : State) (job : ProvisionJob) : Prop :=
  ∃ t, s.tenants.row job.tenantId = some t
    ∧ (job.jobType = .bootstrap
        ∧ job.planJson = (t.bootstrapPlan p).map ProvisionStep.toJson
      ∨ job.jobType = .decommission ∧ ∃ options, job.planJson
        = (buildDecommissionPlan t.plan options).map ProvisionStep.toJson)

def State.HasBootstrap (p : Process) (s : State) (tenantId : ℕ) (t : Tenant) :
    Prop :=
  ∃ id job, s.jobs.row id = some job ∧ job.tenantId = tenantId
    ∧ job.jobType = .bootstrap
    ∧ job.planJson = (t.bootstrapPlan p).map ProvisionStep.toJson

/-- **Where the jobs of a state come from.** -/
structure PlannedJobs (p : Process) (es : List Event) (s : State) : Prop where
  planned : ∀ {id job}, s.jobs.row id = some job →
    .jobPosted id ∈ es ∨ job.Planned p s
  bootstrap : ∀ {id t}, s.tenants.row id = some t → s.HasBootstrap p id t

theorem PlannedJobs.initial (p : Process) : PlannedJobs p [] .initial where
  planned h := nomatch h
  bootstrap h := nomatch h

theorem ProvisionJob.Planned.step {site : Site} {s s' : State} {a : Action}
    {es : List Event} (hstep : Step site s a s' es) {job job' : ProvisionJob}
    (h : job.Planned site.web s) (hsame : job.SameRequest job') :
    job'.Planned site.web s' := by
  obtain ⟨t, ht, hplan⟩ := h
  obtain ⟨status, ht'⟩ := hstep.tenant ht
  refine ⟨{ t with status }, by rw [hsame.tenantId]; exact ht', ?_⟩
  rw [hsame.jobType, hsame.planJson]
  exact hplan

theorem State.HasBootstrap.step {site : Site} {s s' : State} {a : Action}
    {es : List Event} (hstep : Step site s a s' es) {tenantId : ℕ} {t : Tenant}
    (h : s.HasBootstrap site.web tenantId t) :
    s'.HasBootstrap site.web tenantId t := by
  obtain ⟨id, job, hjob, htenant, htype, hplan⟩ := h
  obtain ⟨job', hjob', hmove⟩ := hstep.jobMove hjob
  have hsame := hmove.sameRequest
  exact ⟨id, job', hjob', hsame.tenantId.trans htenant,
    hsame.jobType.trans htype, hsame.planJson.trans hplan⟩

/-- **Every step keeps what is known of the plans.** -/
theorem PlannedJobs.step {site : Site} {es es' : List Event} {s s' : State}
    {a : Action} (h : PlannedJobs site.web es s) (hstep : Step site s a s' es') :
    PlannedJobs site.web (es ++ es') s' := by
  refine ⟨fun {id job'} hjob' => ?_, fun {id t} ht => ?_⟩
  · rcases hstep.job_origin hjob' with ⟨job, hjob, hmove⟩ | ⟨rfl, hnew⟩
    · rcases h.planned hjob with hposted | hplanned
      · exact Or.inl (List.mem_append_left _ hposted)
      · exact Or.inr (hplanned.step hstep hmove.sameRequest)
    · cases hnew with
      | bootstrap _ htenant =>
        exact Or.inr ⟨_, htenant, Or.inl ⟨rfl, rfl⟩⟩
      | @decommission _ _ _ _ r htenant _ =>
        exact Or.inr ⟨_, htenant, Or.inr ⟨rfl, r.options, rfl⟩⟩
      | posted _ _ hshown => exact Or.inl (List.mem_append_right _ hshown)
  · rcases hstep.tenant_origin ht with ⟨t₀, status, ht₀, rfl⟩ | ⟨rfl, hnew⟩
    · exact (h.bootstrap ht₀).step hstep
    · exact hnew.job

/-- **Every job that was not posted has a plan of its own tenant, all along
every run**, and every tenant has its bootstrap job. -/
theorem planned_run (site : Site) (as : List Action) :
    PlannedJobs site.web ((controlPlane site).trace .initial as)
      ((controlPlane site).state .initial as) :=
  (controlPlane site).invariant (PlannedJobs.initial site.web)
    (fun _ s a h => h.step (controlPlane_step site s a)) as

/-- **A step that is handed over is a step of the stored plan**, and the
transport is the one `runProvisionStep` has for it. -/
theorem dispatched_mem_plan (site : Site) (as : List Action) (a : Action)
    {e jobId : ℕ} {step : Json} {transport : Transport} {job : ProvisionJob}
    (h : .dispatched e jobId step transport
      ∈ (controlPlane site).emits ((controlPlane site).state .initial as) a)
    (hjob : ((controlPlane site).state .initial (as ++ [a])).jobs.row jobId
      = some job) :
    step ∈ job.planJson
      ∧ transport = runProvisionStep site.rt site.web step job.dryRun := by
  have hstep := controlPlane_step site ((controlPlane site).state .initial as) a
  obtain ⟨ex, more, hex, rfl, hawait, hrest, hbegin⟩ := hstep.dispatched h
  rw [← Machine.state_concat] at hex
  obtain ⟨job', hjob', -, -, hdry, hplan⟩ := (sound_run site (as ++ [a])).reads hex
  obtain rfl : job' = job := Option.some.inj (hjob'.symm.trans hjob)
  obtain ⟨done, _, step', more', hexplan, hrest', -⟩ :=
    (played_run site (as ++ [a])).waiting (by simp) hex hawait
  refine ⟨?_, hdry ▸ isDryRun_of_beginStep hbegin⟩
  rw [← hplan, hexplan, ← hrest', hrest]
  exact List.mem_append_right _ List.mem_cons_self

/-! ## Steps of the planners -/

theorem ProvisionStep.get_command (step : ProvisionStep) :
    Json.get? (some step.toJson) "command"
      = some (.arr (step.command.map .str)) := rfl

theorem map_str_injective {xs ys : List String}
    (h : xs.map Json.str = ys.map Json.str) : xs = ys :=
  List.map_injective_iff.mpr (fun _ _ h => Json.str.inj h) h

end MissionControl
