import MissionControl.Allowlist
import MissionControl.TenantRows

/-!
# The planners and the daemon agree

The web server plans with its own code and the daemon validates with its
own: two grammars of slugs, two ways to join a path, fixed texts on one side
and expressions on the other. Where both read the same environment
(`SameEnvironment`), every step that is planned for a well-formed tenant is
confined to that tenant's user (`ProvisionStep.BelongsTo`), and so accepted
– for each request that a tenant creation accepts, and each combination of
options of a decommission (`plans_accepted`).
-/

namespace MissionControl

/-- **Both processes see the same environment**, with a home root and a
workspace name that paths can be built from, and a template that is neither
the service template nor an artifact. -/
structure SameEnvironment (p : Process) (d : Daemon) : Prop where
  homeRoot : d.tenantHomeRoot = getTenantHomeRoot p
  workspace : d.tenantWorkspaceDirname = getTenantWorkspaceDirname p
  dataDir : d.dataDir = dataDir p
  repoRoot : d.repoRoot = repoRoot p
  template : d.templateOpenclawJson = templateOpenclawJsonPath p
  wellConfigured : d.WellConfigured
  template_ne_unit : templateOpenclawJsonPath p ≠ gatewaySystemdTemplatePath p
  template_not_artifact :
    ¬ (pathJoin [MissionControl.dataDir p, "provisioner"] ++ "/").toList
      <+: (templateOpenclawJsonPath p).toList

def ProvisionStep.Accepted (d : Daemon) (step : ProvisionStep) : Prop :=
  ∃ command args, step.command = command :: args
    ∧ validateCommand d command args = none

/-- **A step that stays within the tenant of a user.** -/
def ProvisionStep.BelongsTo (d : Daemon) (u : String) (step : ProvisionStep) :
    Prop :=
  ∃ command args, ∃ tool : Tool, step.command = command :: args
    ∧ basename command = tool.name ∧ ConfinedTo d u tool args

theorem ProvisionStep.BelongsTo.accepted {d : Daemon} (hd : d.WellConfigured)
    {u : String} (hu : isSafeUser u = true) {step : ProvisionStep}
    (h : step.BelongsTo d u) : step.Accepted d := by
  obtain ⟨command, args, tool, hcommand, htool, hconf⟩ := h
  refine ⟨command, args, hcommand, ?_⟩
  exact (validateCommand_eq_none_iff hd command args).mpr
    ⟨tool, htool, Or.inl ⟨u, hu, hconf⟩⟩

/-! ## Slugs -/

/-- The first and the last character of a slug of the web server. -/
def slugEnd : List (Char × Char) := [('0', '9'), ('a', 'z')]

/-- **A slug of the web server is one of the daemon**: the two bounds on the
length are the same. -/
theorem isSlugText_of_isValidSlug {slug : String}
    (h : isValidSlug slug = true) : IsSlugText slug.toList := by
  have hparse : RegExp.parse slugRe.toList
      = some (.seq (.cls slugEnd) (.seq (.rep (.cls slugClass) 1 30)
          (.seq (.cls slugEnd) .empty))) := rfl
  have hend : ∀ c, Pattern.inClass slugEnd c = true →
      Pattern.inClass slugClass c = true := by
    intro c hc
    simp only [Pattern.inClass, slugEnd, slugClass, List.any_cons,
      Bool.or_eq_true] at hc ⊢
    exact Or.inr hc
  have hmatch := (regExpTest_iff hparse slug).mp h
  rw [Pattern.matches_cls_seq] at hmatch
  obtain ⟨c, w, hslug, hc, hmatch⟩ := hmatch
  rw [Pattern.matches_seq] at hmatch
  obtain ⟨m, v, rfl, hm, hmatch⟩ := hmatch
  rw [Pattern.matches_cls_seq] at hmatch
  obtain ⟨c', _, rfl, hc', rfl⟩ := hmatch
  obtain ⟨hmin, hmax, hm⟩ := (Pattern.matches_rep_cls _ _ _ _).mp hm
  have hlength : slug.toList.length = m.length + 2 := by
    rw [hslug]
    simp
  refine ⟨by omega, by omega, fun x hx => ?_⟩
  rw [hslug] at hx
  simp only [List.mem_cons, List.mem_append, List.not_mem_nil, or_false] at hx
  rcases hx with rfl | hx | rfl
  · exact hend _ hc
  · exact hm x hx
  · exact hend _ hc'

theorem IsSlugText.ordinary {s : List Char} (h : IsSlugText s) :
    Posix.Ordinary s := by
  obtain ⟨hmin, -, hclass⟩ := h
  have hslash : '/' ∉ s := fun hmem => absurd (hclass _ hmem) (by decide)
  refine ⟨?_, hslash, ?_, ?_⟩
  · rintro rfl
    exact absurd hmin (by decide)
  · rintro rfl
    exact absurd hmin (by decide)
  · rintro rfl
    exact absurd hmin (by decide)

/-! ## The sources of the copies -/

theorem getProvisionArtifactDir_eq (p : Process) {slug : String}
    (h : isValidSlug slug = true) : getProvisionArtifactDir p slug
      = pathJoin [dataDir p, "provisioner"] ++ "/" ++ slug :=
  pathJoin_concat [dataDir p] (by decide) (isSlugText_of_isValidSlug h).ordinary

theorem gatewaySystemdTemplatePath_eq (p : Process) :
    gatewaySystemdTemplatePath p
      = pathJoin [repoRoot p, "ops", "templates"] ++ "/"
        ++ "openclaw-gateway@.service" :=
  pathJoin_concat [repoRoot p, "ops"] (by decide) (by decide)

section Sources

variable {p : Process} {d : Daemon} (henv : SameEnvironment p d)

include henv

theorem SameEnvironment.gatewaySystemdTemplate :
    d.gatewaySystemdTemplate = gatewaySystemdTemplatePath p := by
  unfold Daemon.gatewaySystemdTemplate gatewaySystemdTemplatePath
  rw [henv.repoRoot]

/-- **An env artifact is what the daemon takes for one**: it matches the
expression, and it is neither of the templates. -/
theorem SameEnvironment.artifact {slug : String} (h : isValidSlug slug = true) :
    regExpTest d.provisionerEnvRe
        (getProvisionArtifactDir p slug ++ "/openclaw-gateway.env") = true
      ∧ getProvisionArtifactDir p slug ++ "/openclaw-gateway.env"
        ≠ d.templateOpenclawJson
      ∧ getProvisionArtifactDir p slug ++ "/openclaw-gateway.env"
        ≠ d.gatewaySystemdTemplate := by
  rw [getProvisionArtifactDir_eq p h]
  refine ⟨?_, ?_, ?_⟩
  · refine (provisionerEnvRe_iff d _).mpr ⟨slug, isSlugText_of_isValidSlug h, ?_⟩
    rw [henv.dataDir]
  · -- the artifact lies in the directory the template is not in
    intro heq
    refine henv.template_not_artifact ⟨(slug ++ "/openclaw-gateway.env").toList, ?_⟩
    rw [← henv.template, ← heq, ← String.toList_append]
    simp only [String.append_assoc]
  · -- the two files end differently
    intro heq
    rw [henv.gatewaySystemdTemplate, gatewaySystemdTemplatePath_eq] at heq
    have hlast := congrArg (fun s : String => s.toList.getLast?) heq
    simp only [String.toList_append, List.getLast?_append] at hlast
    rw [show "/openclaw-gateway.env".toList.getLast? = some 'v' by decide,
      show "openclaw-gateway@.service".toList.getLast? = some 'e' by decide,
      Option.some_or, Option.some_or] at hlast
    exact absurd hlast (by decide)

end Sources

/-! ## The plans -/

section Plans

variable {p : Process} {d : Daemon} {t : Tenant}

theorem SameEnvironment.tenantDirs (henv : SameEnvironment p d)
    (ht : t.WellFormed p) :
    d.tenantDirs t.linuxUser = [t.openclawHome, t.workspaceRoot] := by
  rw [← joinPosix_tenantDirs henv.wellConfigured ht.linuxUser, henv.homeRoot,
    henv.workspace, ht.openclawHome, ht.workspaceRoot]

theorem SameEnvironment.home (henv : SameEnvironment p d) (ht : t.WellFormed p) :
    joinPosix [getTenantHomeRoot p, t.linuxUser] = d.home t.linuxUser := by
  rw [← henv.homeRoot, joinPosix_home_eq henv.wellConfigured ht.linuxUser]

theorem SameEnvironment.openclawHome (henv : SameEnvironment p d)
    (ht : t.WellFormed p) : t.openclawHome = d.home t.linuxUser ++ "/.openclaw" := by
  have hdirs := henv.tenantDirs ht
  unfold Daemon.tenantDirs at hdirs
  exact (List.cons.inj hdirs).1.symm

/-- **Every step that sets a tenant up stays within the tenant.** -/
theorem bootstrapPlan_belongsTo (henv : SameEnvironment p d)
    (ht : t.WellFormed p) (hset : templateOpenclawJsonPath p ≠ "")
    {step : ProvisionStep} (hstep : step ∈ t.bootstrapPlan p) :
    step.BelongsTo d t.linuxUser := by
  have hdirs := henv.tenantDirs ht
  obtain ⟨hsource, hne, hunit⟩ := henv.artifact ht.slug
  unfold Tenant.bootstrapPlan buildBootstrapPlan bootstrapOptions at hstep
  simp only [Tenant.plan, List.mem_cons, List.not_mem_nil, or_false] at hstep
  rcases hstep with rfl | rfl | rfl | rfl | rfl | rfl | rfl | rfl | rfl | rfl
  · exact ⟨_, _, .useradd, rfl, by decide, .useradd⟩
  · exact ⟨_, _, .install, rfl, by decide,
      .installDir (by decide) (by rw [hdirs]; exact List.mem_cons_self)⟩
  · exact ⟨_, _, .install, rfl, by decide, .installDir (by decide)
      (by rw [hdirs]; exact List.mem_cons_of_mem _ List.mem_cons_self)⟩
  · refine ⟨_, _, .cp, rfl, by decide, ?_⟩
    rw [henv.openclawHome ht, ← henv.template, String.append_assoc,
      show "/.openclaw" ++ "/openclaw.json" = "/.openclaw/openclaw.json"
        by decide]
    exact .copyOpenclawJson (by rw [henv.template]; exact hset)
  · refine ⟨_, _, .chown, rfl, by decide, ?_⟩
    rw [henv.home ht]
    exact .chown
  · exact ⟨_, _, .install, rfl, by decide, .installTenantsDir (by decide)⟩
  · refine ⟨_, _, .cp, rfl, by decide, ?_⟩
    rw [← henv.gatewaySystemdTemplate]
    refine .copyUnit (Or.inr ?_)
    rw [henv.gatewaySystemdTemplate, henv.template]
    exact henv.template_ne_unit.symm
  · exact ⟨_, _, .cp, rfl, by decide, .copyEnv hsource (Or.inr hne) hunit⟩
  · exact ⟨_, _, .systemctl, rfl, by decide, .daemonReload⟩
  · exact ⟨_, _, .systemctl, rfl, by decide, .enable⟩

/-- **Every step that takes a tenant down stays within the tenant.** -/
theorem decommissionPlan_belongsTo (henv : SameEnvironment p d)
    (ht : t.WellFormed p) (options : DecommissionOptions) {step : ProvisionStep}
    (hstep : step ∈ buildDecommissionPlan t.plan options) :
    step.BelongsTo d t.linuxUser := by
  have hdirs := henv.tenantDirs ht
  unfold buildDecommissionPlan at hstep
  rw [List.mem_append, List.mem_append] at hstep
  rcases hstep with (hstep | hstep) | hstep
  · simp only [Tenant.plan, List.mem_cons, List.not_mem_nil, or_false] at hstep
    rcases hstep with rfl | rfl
    · exact ⟨_, _, .systemctl, rfl, by decide, .disable⟩
    · exact ⟨_, _, .rm, rfl, by decide, .removeEnv⟩
  · split at hstep
    · simp only [List.mem_cons, List.not_mem_nil, or_false] at hstep
      rcases hstep with rfl | rfl
      · exact ⟨_, _, .rm, rfl, by decide,
          .removeDir (by rw [hdirs]; exact List.mem_cons_self)⟩
      · exact ⟨_, _, .rm, rfl, by decide, .removeDir
          (by rw [hdirs]; exact List.mem_cons_of_mem _ List.mem_cons_self)⟩
    · exact absurd hstep List.not_mem_nil
  · split at hstep
    · rw [List.mem_singleton] at hstep
      subst hstep
      exact ⟨_, _, .userdel, rfl, by decide, .userdel⟩
    · exact absurd hstep List.not_mem_nil

end Plans

/-- **The planners and the daemon agree**: of the tenant and the job that a
request creates, every step of the stored plan and every step of every
decommission plan is accepted. -/
theorem plans_accepted {rt : Runtime} {p : Process} {d : Daemon}
    (henv : SameEnvironment p d) {s s' : State} {request : Json}
    {actor : String} {tenantId jobId : ℕ}
    (h : createTenantAndBootstrapJob rt p s request actor
      = .ok (s', tenantId, jobId)) :
    ∃ t job, s'.tenants.row tenantId = some t ∧ s'.jobs.row jobId = some job
      ∧ job.tenantId = tenantId
      ∧ job.planJson = (t.bootstrapPlan p).map ProvisionStep.toJson
      ∧ (∀ step ∈ t.bootstrapPlan p, step.Accepted d)
      ∧ ∀ options, ∀ step ∈ buildDecommissionPlan t.plan options,
        step.Accepted d := by
  unfold createTenantAndBootstrapJob at h
  obtain ⟨r, hread, h⟩ := bind_eq_ok.mp h
  split at h
  · exact absurd h (by simp)
  split at h
  · exact absurd h (by simp)
  obtain ⟨rfl, rfl, rfl⟩ : _ ∧ s.tenants.next = tenantId ∧ s.jobs.next = jobId := by
    simpa using h
  have ht := BootstrapRequest.wellFormed hread actor
  refine ⟨r.tenant p actor, r.job p s.tenants.next actor,
    Table.row_insert_next _ _, Table.row_insert_next _ _, rfl, rfl,
    fun step hstep => ?_, fun options step hstep => ?_⟩
  · exact (bootstrapPlan_belongsTo henv ht (readBootstrapRequest_ok hread).1
      hstep).accepted henv.wellConfigured ht.linuxUser
  · exact (decommissionPlan_belongsTo henv ht options hstep).accepted
      henv.wellConfigured ht.linuxUser

theorem sameEnvironment_sample : SameEnvironment sampleProcess sampleDaemon where
  homeRoot := rfl
  workspace := rfl
  dataDir := by decide
  repoRoot := by decide
  template := by decide
  wellConfigured := ⟨by decide, by decide⟩
  template_ne_unit := by decide
  template_not_artifact := by decide

/-- The tenant of the sample request. -/
theorem plans_accepted_sample :
    ∃ s' tenantId jobId t,
      createTenantAndBootstrapJob sampleRuntime sampleProcess .initial
          (sampleRequest false) "ann" = .ok (s', tenantId, jobId)
        ∧ s'.tenants.row tenantId = some t
        ∧ (∀ step ∈ t.bootstrapPlan sampleProcess, step.Accepted sampleDaemon)
        ∧ ∀ options, ∀ step ∈ buildDecommissionPlan t.plan options,
          step.Accepted sampleDaemon := by
  have hcreate : ∃ r, createTenantAndBootstrapJob sampleRuntime sampleProcess
      .initial (sampleRequest false) "ann" = .ok r := ⟨_, rfl⟩
  obtain ⟨⟨s', tenantId, jobId⟩, hcreate⟩ := hcreate
  obtain ⟨t, job, ht, -, -, -, hbootstrap, hdecommission⟩ :=
    plans_accepted sameEnvironment_sample hcreate
  exact ⟨s', tenantId, jobId, t, hcreate, ht, hbootstrap, hdecommission⟩

end MissionControl
