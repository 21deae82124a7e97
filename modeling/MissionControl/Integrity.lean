import MissionControl.PlannedJobs
import MissionControl.Separation

/-!
# What is started on behalf of a job

The plan of a job is interpreted step by step, and in daemon mode the stored
field `requires_root` alone decides whether the daemon sees a command: a
step without it is started by the web server itself. What is certain of
every job (`plan_integrity`) is that whatever the daemon starts has passed
its validator, and that the other commands come from steps without
`requires_root`. Of the jobs that a tenant creation or a decommission has
stored more is certain: every step of theirs goes to the daemon, and every
argument belongs to the job's own tenant (`Operand.BelongsTo`).
-/

namespace MissionControl

/-! ## What arguments name -/

/-- **What an argument of a command names.** -/
inductive Operand where
  | user (name : String)
  | service (unit : String)
  | path (path : String)
  | source (path : String)

/-- The operands of a command, tool by tool; an owner names a user and a
group. -/
def operands : Tool → List String → List Operand
  | .useradd, [_, _, _, user] => [.user user]
  | .userdel, [_, user] => [.user user]
  | .install, [_, _, _, _, user, _, group, path] =>
    [.user user, .user group, .path path]
  | .cp, [_, source, path] => [.source source, .path path]
  | .chown, [_, owner, path] =>
    (owner.toList.splitOn ':').map (fun name => .user (String.ofList name))
      ++ [.path path]
  | .rm, [_, path] => [.path path]
  | .systemctl, [_, _, unit] => [.service unit]
  | _, _ => []

/-- **An operand of a tenant**: its user, its service, its env file, its home
and the paths in it; and the shared service template. A copy is made from a
configured template or from the tenant's own artifact. -/
def Operand.BelongsTo (p : Process) (t : Tenant) : Operand → Prop
  | .user name => name = t.linuxUser
  | .service unit => unit = tenantService t.linuxUser
  | .path target => target ∈ [t.home p, t.openclawHome, t.workspaceRoot,
      t.openclawHome ++ "/openclaw.json", tenantEnv t.linuxUser, systemdUnit]
  | .source file => file ∈ [templateOpenclawJsonPath p,
      gatewaySystemdTemplatePath p,
      getProvisionArtifactDir p t.slug ++ "/openclaw-gateway.env"]

/-- The arguments that create the shared directory of the env files. -/
def tenantsDirArgs : List String :=
  ["-d", "-m", "0750", "-o", "root", "-g", "root", "/etc/openclaw-tenants"]

/-- **A command of a tenant**: its operands belong to the tenant, or it
creates the shared directory. -/
def CommandOf (p : Process) (t : Tenant) (program : String)
    (args : List String) : Prop :=
  ∃ tool : Tool, basename program = tool.name
    ∧ ((∀ operand ∈ operands tool args, operand.BelongsTo p t)
      ∨ tool = .install ∧ args = tenantsDirArgs)

theorem belongsTo_tenantEnv (p : Process) (t : Tenant) :
    Operand.BelongsTo p t (.path (tenantEnv t.linuxUser)) := by
  unfold Operand.BelongsTo
  simp only [List.mem_cons, true_or, or_true]

section Plans

variable {p : Process} {t : Tenant}

theorem CommandOf.one {program : String} {args : List String} (tool : Tool)
    (htool : basename program = tool.name) {operand : Operand}
    (hargs : operands tool args = [operand]) (h : operand.BelongsTo p t) :
    CommandOf p t program args := by
  refine ⟨tool, htool, Or.inl (fun o ho => ?_)⟩
  rw [hargs, List.mem_singleton] at ho
  exact ho ▸ h

/-- A copy from a source of the tenant to a path of the tenant. -/
theorem CommandOf.copy {flag source target : String}
    (hsource : Operand.BelongsTo p t (.source source))
    (htarget : Operand.BelongsTo p t (.path target)) :
    CommandOf p t "/usr/bin/cp" [flag, source, target] := by
  refine ⟨.cp, by decide, Or.inl (fun o ho => ?_)⟩
  rcases List.mem_cons.mp ho with rfl | ho
  · exact hsource
  · rw [List.mem_singleton.mp ho]
    exact htarget

theorem CommandOf.directory {mode target : String}
    (htarget : Operand.BelongsTo p t (.path target)) :
    CommandOf p t "/usr/bin/install"
      ["-d", "-m", mode, "-o", t.linuxUser, "-g", t.linuxUser, target] := by
  refine ⟨.install, by decide, Or.inl (fun o ho => ?_)⟩
  rcases List.mem_cons.mp ho with rfl | ho
  · rfl
  rcases List.mem_cons.mp ho with rfl | ho
  · rfl
  · rw [List.mem_singleton.mp ho]
    exact htarget

theorem CommandOf.owner (ht : t.WellFormed p) :
    CommandOf p t "/usr/bin/chown"
      ["-R", t.linuxUser ++ ":" ++ t.linuxUser, t.home p] := by
  have hcolon : ':' ∉ t.linuxUser.toList :=
    ((isSafeUser_iff _).mp ht.linuxUser).notMem (by decide)
  have hsplit : (t.linuxUser ++ ":" ++ t.linuxUser).toList.splitOn ':'
      = [t.linuxUser.toList, t.linuxUser.toList] := by
    rw [show (t.linuxUser ++ ":" ++ t.linuxUser).toList
        = t.linuxUser.toList ++ ':' :: t.linuxUser.toList by simp,
      List.splitOn_append_cons_self_of_not_mem hcolon,
      List.splitOn_eq_singleton hcolon]
  refine ⟨.chown, by decide, Or.inl (fun o ho => ?_)⟩
  simp only [operands, hsplit, List.map_cons, List.map_nil, String.ofList_toList,
    List.cons_append, List.nil_append, List.mem_cons, List.not_mem_nil,
    or_false] at ho
  rcases ho with rfl | rfl | rfl
  · rfl
  · rfl
  · exact List.mem_cons_self

/-- **Every step of a bootstrap is a command of its tenant, for the daemon.** -/
theorem bootstrapPlan_commandOf (ht : t.WellFormed p) {step : ProvisionStep}
    (hstep : step ∈ t.bootstrapPlan p) :
    step.requiresRoot = true ∧ ∃ program args, step.command = program :: args
      ∧ CommandOf p t program args := by
  unfold Tenant.bootstrapPlan buildBootstrapPlan bootstrapOptions at hstep
  simp only [Tenant.plan, List.mem_cons, List.not_mem_nil, or_false] at hstep
  rcases hstep with rfl | rfl | rfl | rfl | rfl | rfl | rfl | rfl | rfl | rfl
  · exact ⟨rfl, _, _, rfl, .one .useradd (by decide) rfl rfl⟩
  · exact ⟨rfl, _, _, rfl, .directory (by simp [Operand.BelongsTo])⟩
  · exact ⟨rfl, _, _, rfl, .directory (by simp [Operand.BelongsTo])⟩
  · exact ⟨rfl, _, _, rfl, .copy (by simp [Operand.BelongsTo])
      (by simp [Operand.BelongsTo])⟩
  · exact ⟨rfl, _, _, rfl, .owner ht⟩
  · exact ⟨rfl, _, _, rfl, .install, by decide, Or.inr ⟨rfl, rfl⟩⟩
  · exact ⟨rfl, _, _, rfl, .copy (by simp [Operand.BelongsTo])
      (by simp [Operand.BelongsTo, systemdUnit])⟩
  · exact ⟨rfl, _, _, rfl, .copy (by simp [Operand.BelongsTo])
      (belongsTo_tenantEnv p t)⟩
  · exact ⟨rfl, _, _, rfl, .systemctl, by decide,
      Or.inl (fun o ho => absurd ho List.not_mem_nil)⟩
  · exact ⟨rfl, _, _, rfl, .one .systemctl (by decide) rfl rfl⟩

/-- **Every step of a decommission is a command of its tenant, for the
daemon.** -/
theorem decommissionPlan_commandOf (options : DecommissionOptions)
    {step : ProvisionStep} (hstep : step ∈ buildDecommissionPlan t.plan options) :
    step.requiresRoot = true ∧ ∃ program args, step.command = program :: args
      ∧ CommandOf p t program args := by
  unfold buildDecommissionPlan at hstep
  rw [List.mem_append, List.mem_append] at hstep
  rcases hstep with (hstep | hstep) | hstep
  · simp only [Tenant.plan, List.mem_cons, List.not_mem_nil, or_false] at hstep
    rcases hstep with rfl | rfl
    · exact ⟨rfl, _, _, rfl, .one .systemctl (by decide) rfl rfl⟩
    · exact ⟨rfl, _, _, rfl, .one .rm (by decide) rfl (belongsTo_tenantEnv p t)⟩
  · split at hstep
    · simp only [Tenant.plan, List.mem_cons, List.not_mem_nil, or_false] at hstep
      rcases hstep with rfl | rfl
      · exact ⟨rfl, _, _, rfl, .one .rm (by decide) rfl
          (by simp [Operand.BelongsTo])⟩
      · exact ⟨rfl, _, _, rfl, .one .rm (by decide) rfl
          (by simp [Operand.BelongsTo])⟩
    · exact absurd hstep List.not_mem_nil
  · split at hstep
    · rw [List.mem_singleton] at hstep
      subst hstep
      exact ⟨rfl, _, _, rfl, .one .userdel (by decide) rfl rfl⟩
    · exact absurd hstep List.not_mem_nil

end Plans

/-! ## How a step is handed over -/

section HandOver

variable {rt : Runtime} {p : Process}

/-- **In daemon mode a command of the web server comes from a step without
`requires_root`.** -/
theorem requiresRoot_of_command (hmode : provisionMode rt p = "daemon")
    {step : Json} {dryRun : Bool} {program : Json} {args : List Json}
    {timeoutMs : Json}
    (h : runProvisionStep rt p step dryRun = .command program args timeoutMs) :
    Json.truthy (Json.get? (some step) "requires_root") = false := by
  unfold runProvisionStep at h
  split at h
  · next transport htransport =>
    subst h
    unfold provisionTransport at htransport
    obtain ⟨command, -, h⟩ := bind_eq_ok.mp htransport
    obtain ⟨parts, -, h⟩ := bind_eq_ok.mp h
    split at h
    · exact absurd h (invalidCommand_ne_ok _ _ _)
    · split at h
      · exact absurd h (invalidCommand_ne_ok _ _ _)
      · obtain ⟨root, hroot, h⟩ := bind_eq_ok.mp h
        obtain ⟨timeout, -, h⟩ := bind_eq_ok.mp h
        rw [Json.get?_of_get hroot]
        cases htruthy : Json.truthy root with
        | false => rfl
        | true =>
          -- a step that needs root goes to the daemon or nowhere
          rw [htruthy, hmode, if_pos (by decide)] at h
          split at h
          · exact absurd h (by simp)
          · obtain ⟨key, -, h⟩ := bind_eq_ok.mp h
            exact absurd (Except.ok.inj h) (by simp)
  · exact absurd h (by simp)

/-- **In daemon mode a planned step goes to the daemon as it is**, or it is
refused. -/
theorem runProvisionStep_planned (hmode : provisionMode rt p = "daemon")
    {step : ProvisionStep} (hroot : step.requiresRoot = true) {program : String}
    {args : List String} (hcommand : step.command = program :: args)
    (dryRun : Bool) :
    (∃ err, runProvisionStep rt p step.toJson dryRun = .rejected err)
      ∨ ∃ payload, runProvisionStep rt p step.toJson dryRun
          = .provisioner payload
        ∧ payload.command = .str program ∧ payload.args = args.map .str := by
  unfold runProvisionStep
  split
  · next transport htransport =>
    refine Or.inr ?_
    unfold provisionTransport at htransport
    obtain ⟨command, hget, h⟩ := bind_eq_ok.mp htransport
    obtain ⟨parts, hparts, h⟩ := bind_eq_ok.mp h
    rw [← Json.get?_of_get hget, step.get_command, hcommand] at hparts
    obtain rfl : Json.str program :: args.map .str = parts := Except.ok.inj hparts
    dsimp only at h
    split at h
    · exact absurd h (invalidCommand_ne_ok _ _ _)
    · obtain ⟨root, hget, h⟩ := bind_eq_ok.mp h
      obtain ⟨timeout, -, h⟩ := bind_eq_ok.mp h
      obtain rfl : some (.bool step.requiresRoot) = root := Json.get?_of_get hget
      rw [Json.truthy_bool, hroot, hmode, if_pos (by decide)] at h
      split at h
      · exact absurd h (by simp)
      · obtain ⟨key, -, h⟩ := bind_eq_ok.mp h
        obtain rfl := Except.ok.inj h
        exact ⟨_, rfl, rfl, rfl⟩
  · next err _ => exact Or.inl ⟨err, rfl⟩

theorem mapM_toStr_str (args : List String) :
    (args.map Json.str).mapM (Json.toStr rt) = .ok args := by
  induction args with
  | nil => rfl
  | cons arg args ih =>
    rw [List.map_cons, List.mapM_cons, ih]
    rfl

theorem readRequest_str {payload : ProvisionerPayload} {program : String}
    {args : List String} (hprogram : payload.command = .str program)
    (hargs : payload.args = args.map .str) :
    readRequest rt payload
      = .ok ⟨payload.token, program, args, payload.dryRun⟩ := by
  unfold readRequest
  rw [hprogram, hargs]
  refine bind_eq_ok.mpr ⟨program, ?_, bind_eq_ok.mpr
    ⟨args, mapM_toStr_str args, rfl⟩⟩
  show Json.toStr rt (if Json.truthy (some (.str program)) = true then _ else _)
    = _
  rw [Json.truthy_str]
  split
  · rfl
  · next hempty =>
    obtain rfl : program = "" := by simpa using hempty
    rfl

/-- **What the daemon starts for a planned step is its command.** -/
theorem daemonStarts_planned {d : Daemon} (hmode : provisionMode rt p = "daemon")
    {step : ProvisionStep} (hroot : step.requiresRoot = true) {program : String}
    {args : List String} (hcommand : step.command = program :: args)
    {dryRun : Bool} {program' : String} {args' : List String}
    (h : (runProvisionStep rt p step.toJson dryRun).daemonStarts rt d
      = some (program', args')) : program' = program ∧ args' = args := by
  rcases runProvisionStep_planned hmode hroot hcommand dryRun with
    ⟨err, htransport⟩ | ⟨payload, htransport, hprogram, hargs⟩
  · rw [htransport] at h
    exact absurd h (by simp [Transport.daemonStarts])
  · rw [htransport] at h
    unfold Transport.daemonStarts at h
    dsimp only at h
    rw [readRequest_str hprogram hargs] at h
    obtain ⟨-, -, rfl, rfl⟩ := spawned_eq_some h
    exact ⟨rfl, rfl⟩

end HandOver

theorem validateCommand_of_daemonStarts {rt : Runtime} {d : Daemon}
    {transport : Transport} {program : String} {args : List String}
    (h : transport.daemonStarts rt d = some (program, args)) :
    validateCommand d program args = none := by
  unfold Transport.daemonStarts at h
  split at h
  · split at h
    · obtain ⟨hvalid, -, rfl, rfl⟩ := spawned_eq_some h
      exact hvalid
    · exact absurd h (by simp)
  · exact absurd h (by simp)

/-- **What is started on behalf of a job, in daemon mode.** The daemon starts
only what it has accepted; the other commands come from steps without
`requires_root`; and a job that was not posted starts nothing but commands
of its own tenant, by the daemon. -/
theorem plan_integrity (site : Site)
    (hmode : provisionMode site.rt site.web = "daemon") (as : List Action)
    (a : Action) {e jobId : ℕ} {step : Json} {transport : Transport}
    {job : ProvisionJob}
    (h : .dispatched e jobId step transport
      ∈ (controlPlane site).emits ((controlPlane site).state .initial as) a)
    (hjob : ((controlPlane site).state .initial (as ++ [a])).jobs.row jobId
      = some job) :
    (∀ program args,
        transport.daemonStarts site.rt site.daemon = some (program, args) →
        validateCommand site.daemon program args = none)
      ∧ (∀ program args timeoutMs, transport = .command program args timeoutMs →
        Json.truthy (Json.get? (some step) "requires_root") = false)
      ∧ (.jobPosted jobId ∉ (controlPlane site).trace .initial (as ++ [a]) →
        (∀ program args timeoutMs, transport ≠ .command program args timeoutMs)
          ∧ ∃ t, ((controlPlane site).state .initial (as ++ [a])).tenants.row
              job.tenantId = some t ∧ t.WellFormed site.web
            ∧ ∀ program args,
              transport.daemonStarts site.rt site.daemon = some (program, args) →
              CommandOf site.web t program args) := by
  obtain ⟨hmem, htransport⟩ := dispatched_mem_plan site as a h hjob
  refine ⟨fun _ _ => validateCommand_of_daemonStarts,
    fun _ _ _ hcommand => ?_, fun hposted => ?_⟩
  · exact requiresRoot_of_command hmode (htransport.symm.trans hcommand)
  · obtain ⟨t, ht, hplan⟩ :=
      ((planned_run site (as ++ [a])).planned hjob).resolve_left hposted
    have hwell := (tenantRows_run site (as ++ [a])).wellFormed ht
    -- the step is one of the planners, for this tenant
    obtain ⟨step', rfl, hroot, program, args, hcommand, hof⟩ : ∃ step',
        ProvisionStep.toJson step' = step ∧ step'.requiresRoot = true
          ∧ ∃ program args, step'.command = program :: args
            ∧ CommandOf site.web t program args := by
      rcases hplan with ⟨-, hplan⟩ | ⟨-, options, hplan⟩
      · rw [hplan] at hmem
        obtain ⟨step', hstep', rfl⟩ := List.mem_map.mp hmem
        exact ⟨step', rfl, bootstrapPlan_commandOf hwell hstep'⟩
      · rw [hplan] at hmem
        obtain ⟨step', hstep', rfl⟩ := List.mem_map.mp hmem
        exact ⟨step', rfl, decommissionPlan_commandOf options hstep'⟩
    refine ⟨fun program' args' timeoutMs hcmd => ?_, t, ht, hwell,
      fun program' args' hstarts => ?_⟩
    · have hfalse := requiresRoot_of_command hmode (htransport.symm.trans hcmd)
      have hget : Json.get? (some step'.toJson) "requires_root"
          = some (.bool step'.requiresRoot) := rfl
      rw [hget, hroot] at hfalse
      exact absurd hfalse (by decide)
    · rw [htransport] at hstarts
      obtain ⟨rfl, rfl⟩ := daemonStarts_planned hmode hroot hcommand hstarts
      exact hof

/-- The bootstrap of the sample tenant starts nothing on the web server. -/
theorem plan_integrity_sample :
    ∃ step transport, .dispatched 0 1 step transport
        ∈ (controlPlane sampleSite).emits ((controlPlane sampleSite).state .initial
          [.createTenant (sampleRequest false) "ann",
            .transition 1 "bob" .approve]) (.execute 0 1 "cy" none)
      ∧ ∀ program args timeoutMs,
        transport ≠ .command program args timeoutMs := by
  have hposts : ((controlPlane sampleSite).trace .initial
      (sampleStart false)).filterMap Event.postedJob = [] := rfl
  have hjob : (((controlPlane sampleSite).state .initial
      (sampleStart false)).jobs.row 1).isSome = true := rfl
  obtain ⟨job, hjob⟩ := Option.isSome_iff_exists.mp hjob
  have hdispatched : ∃ step transport, .dispatched 0 1 step transport
      ∈ (controlPlane sampleSite).emits ((controlPlane sampleSite).state .initial
        [.createTenant (sampleRequest false) "ann",
          .transition 1 "bob" .approve]) (.execute 0 1 "cy" none) :=
    ⟨_, _, List.mem_of_getElem? (i := 2) rfl⟩
  obtain ⟨step, transport, hdispatched⟩ := hdispatched
  refine ⟨step, transport, hdispatched,
    ((plan_integrity sampleSite (by decide) _ _ hdispatched hjob).2.2
      (fun hmem => ?_)).1⟩
  have hsome := List.filterMap_eq_nil_iff.mp hposts _ hmem
  exact absurd hsome (by simp [Event.postedJob])

/-- A live job posted for tenant `alice` that removes the home of `bob`. -/
def sampleForeign : List Action :=
  [.createTenant (sampleRequest true) "ann",
    samplePost false ["/usr/bin/rm", "-rf", "/home/bob"] false,
    .transition 2 "bob" .approve]

/-- **A posted job gets past the daemon**: its step does not ask for root, so
the web server starts a command that the daemon refuses, on the home of
another user. -/
theorem posted_command_unchecked :
    provisionMode sampleSite.rt sampleSite.web = "daemon"
      ∧ (((controlPlane sampleSite).state .initial sampleForeign).jobs.row 2).map
          (fun job => (job.tenantId, job.dryRun)) = some (1, false)
      ∧ (((controlPlane sampleSite).state .initial sampleForeign).tenants.row
          1).map (·.linuxUser) = some "alice"
      ∧ (∃ step timeoutMs, .dispatched 0 2 step (.command (.str "/usr/bin/rm")
            [.str "-rf", .str "/home/bob"] timeoutMs)
          ∈ (controlPlane sampleSite).emits
            ((controlPlane sampleSite).state .initial sampleForeign)
            (.execute 0 2 "cy" none))
      ∧ validateCommand sampleSite.daemon "/usr/bin/rm" ["-rf", "/home/bob"]
        ≠ none :=
  ⟨by decide, rfl, rfl, ⟨_, _, List.mem_of_getElem? (i := 1) rfl⟩, by decide⟩

end MissionControl
