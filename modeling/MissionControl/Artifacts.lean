import MissionControl.Agreement

/-!
# The artifact of a bootstrap

The start of a bootstrap writes one file, the env file that a later step of
the plan installs as root. The function that writes it reads the slug and
the port from the stored request before it looks at the tenant, and a posted
request is free-form JSON: it can name another directory and put lines of
its own into the file. `artifact_iff` says exactly when the file is the one
of the job's own tenant.
-/

namespace MissionControl

/-- **The assignments of a tenant's env file**, one for each line. -/
def Tenant.gatewayAssignments (t : Tenant) : List String :=
  ["TENANT_SLUG=" ++ t.slug, "TENANT_USER=" ++ t.linuxUser,
    "OPENCLAW_HOME=" ++ t.openclawHome,
    "OPENCLAW_STATE_DIR=" ++ t.openclawHome,
    "OPENCLAW_CONFIG_PATH=" ++ t.openclawHome ++ "/openclaw.json",
    "OPENCLAW_GATEWAY_PORT=" ++ toString t.gatewayPort]

/-- **A file is the artifact of a tenant**: it lies in the tenant's artifact
directory, and its lines are the tenant's assignments, each ended by a line
break. -/
structure IsArtifactOf (p : Process) (t : Tenant) (path content : String) :
    Prop where
  path : path
    = pathJoin [getProvisionArtifactDir p t.slug, "openclaw-gateway.env"]
  lines : content.toList.splitOn '\n'
    = (t.gatewayAssignments ++ [""]).map String.toList

/-- **A stored request gives a tenant's own values**: its slug is missing or
is the tenant's, and its port is the tenant's. -/
structure RequestAgrees (rt : Runtime) (request : Json) (t : Tenant) :
    Prop where
  slug : Json.truthy (Json.get? (some request) "slug") = false
    ∨ ∃ value text, Json.get? (some request) "slug" = some value
      ∧ value.toStr rt = .ok text ∧ trim text = t.slug
  gatewayPort : ∃ value n, Json.get? (some request) "gateway_port" = some value
    ∧ Json.toNumber rt (some value) = .ok n ∧ n.integer = some t.gatewayPort

/-- A home that can stand on a line: no blank at its ends, no line break. -/
def OnOneLine (path : String) : Prop := trim path = path ∧ '\n' ∉ path.toList

/-! ## The text of the file -/

theorem toString_injective {a b : ℤ} (h : toString a = toString b) : a = b := by
  rw [Int.toString_eq_repr, Int.toString_eq_repr, Int.repr_eq_if,
    Int.repr_eq_if] at h
  have hsign : ∀ (m : ℕ) (s : String), m.repr ≠ "-" ++ s := by
    intro m s heq
    have hmem : '-' ∈ m.repr.toList := by
      rw [heq, String.toList_append]
      exact List.mem_append_left _ (by decide)
    exact notMem_repr (by decide) hmem
  split at h <;> split at h
  · have := repr_injective h
    omega
  · exact absurd h (hsign _ _)
  · exact absurd h.symm (hsign _ _)
  · have := repr_injective ((String.append_right_inj _).mp h)
    omega

theorem newline_notMem_toString (n : ℤ) : '\n' ∉ (toString n).toList := by
  rw [Int.toString_eq_repr, Int.repr_eq_if]
  split
  · exact notMem_repr (by decide)
  · rw [String.toList_append, List.mem_append, not_or]
    exact ⟨by decide, notMem_repr (by decide)⟩

/-- **When the lines of the file are a tenant's assignments**: the values are
the tenant's, and none of them has a line break. -/
theorem splitOn_gatewayEnv_iff {t : Tenant} {slug : String} {port : ℤ}
    (huser : '\n' ∉ t.linuxUser.toList) (hslug : '\n' ∉ t.slug.toList)
    (home : String) :
    (gatewayEnv slug t.linuxUser home port).toList.splitOn '\n'
        = (t.gatewayAssignments ++ [""]).map String.toList
      ↔ slug = t.slug ∧ home = t.openclawHome ∧ '\n' ∉ home.toList
        ∧ port = t.gatewayPort := by
  unfold gatewayEnv
  rw [toList_intercalate, show "\n".toList = ['\n'] from rfl,
    Lines.splitOn_intercalate_eq_iff '\n' (by simp) (by rfl)]
  unfold Tenant.gatewayAssignments
  refine ⟨fun ⟨hlines, hfree⟩ => ?_, fun ⟨hs, hh, hhome, hp⟩ => ⟨?_, ?_⟩⟩
  · simp only [List.map_cons, List.map_nil, List.cons_append, List.nil_append,
      List.cons.injEq, String.toList_inj, String.append_right_inj] at hlines
    obtain ⟨hs, -, hh, -, -, hp, -⟩ := hlines
    refine ⟨hs, hh, fun hmem => ?_, toString_injective hp⟩
    refine hfree ("OPENCLAW_HOME=" ++ home).toList (by simp) ?_
    rw [String.toList_append]
    exact List.mem_append_right _ hmem
  · rw [hs, hh, hp]
    rfl
  · have hboth : ∀ name value : String, '\n' ∉ name.toList →
        '\n' ∉ value.toList → '\n' ∉ (name ++ value).toList := by
      intro name value hname hvalue
      rw [String.toList_append, List.mem_append]
      exact not_or.mpr ⟨hname, hvalue⟩
    intro line hline
    simp only [List.map_cons, List.map_nil, List.mem_cons, List.not_mem_nil,
      or_false] at hline
    rcases hline with rfl | rfl | rfl | rfl | rfl | rfl | rfl
    · exact hboth _ _ (by decide) (hs ▸ hslug)
    · exact hboth _ _ (by decide) huser
    · exact hboth _ _ (by decide) hhome
    · exact hboth _ _ (by decide) hhome
    · exact hboth _ _ (hboth _ _ (by decide) hhome) (by decide)
    · exact hboth _ _ (by decide) (newline_notMem_toString _)
    · exact List.not_mem_nil

/-! ## Texts without blanks -/

theorem trim_eq_self {s : String} (h : ∀ c ∈ s.toList, isWhiteSpace c = false) :
    trim s = s := by
  unfold trim
  have hdrop : s.toList.dropWhile isWhiteSpace = s.toList :=
    List.dropWhile_eq_self_iff.mpr (fun hl => by simp [h _ (List.getElem_mem hl)])
  have hrdrop : s.toList.rdropWhile isWhiteSpace = s.toList :=
    List.rdropWhile_eq_self_iff.mpr (fun hl => by simp [h _ (List.getLast_mem hl)])
  rw [hdrop, hrdrop, String.ofList_toList]

theorem trim_slug {slug : String} (h : isValidSlug slug = true) :
    trim slug = slug := by
  refine trim_eq_self (fun c hc => ?_)
  exact isWhiteSpace_of_inClass (by decide) ((isSlugText_of_isValidSlug h).2.2 c hc)

theorem trim_linuxUser {u : String} (h : isSafeUser u = true) : trim u = u := by
  refine trim_eq_self (fun c hc => ?_)
  cases hclass : Pattern.inClass userTail c with
  | true => exact isWhiteSpace_of_inClass (by decide) hclass
  | false => exact absurd hc (((isSafeUser_iff u).mp h).notMem hclass)

/-! ## The values of the file -/

theorem slug_eq_iff {rt : Runtime} {request : Json} {t : Tenant} {text : String}
    (hslug : isValidSlug t.slug = true)
    (h : (Json.or (Json.get? (some request) "slug") (.str t.slug)).toStr rt
      = .ok text) :
    trim text = t.slug
      ↔ Json.truthy (Json.get? (some request) "slug") = false
        ∨ ∃ value text, Json.get? (some request) "slug" = some value
          ∧ value.toStr rt = .ok text ∧ trim text = t.slug := by
  unfold Json.or at h
  cases hvalue : Json.get? (some request) "slug" with
  | none =>
    rw [hvalue] at h
    obtain rfl : t.slug = text := Except.ok.inj h
    exact iff_of_true (trim_slug hslug) (Or.inl rfl)
  | some value =>
    rw [hvalue] at h
    dsimp only at h
    cases htruthy : Json.truthy (some value) with
    | false =>
      rw [htruthy, if_neg (by decide)] at h
      obtain rfl : t.slug = text := Except.ok.inj h
      exact iff_of_true (trim_slug hslug) (Or.inl rfl)
    | true =>
      rw [htruthy, if_pos rfl] at h
      refine ⟨fun htrim => Or.inr ⟨value, text, rfl, h, htrim⟩, fun hslug => ?_⟩
      obtain hfalse | ⟨value', text', heq, htext, htrim⟩ := hslug
      · exact absurd hfalse (by decide)
      · obtain rfl := Option.some.inj heq
        obtain rfl : text = text' := Except.ok.inj (h.symm.trans htext)
        exact htrim

/-- **What the function that writes the file has read**: a text for the
slug, and a port in range. -/
theorem ensureProvisionArtifacts_ok {rt : Runtime} {p : Process}
    {job : ProvisionJob} {t : Tenant} {path content : String}
    (h : ensureProvisionArtifacts rt p job t = .ok (path, content)) :
    ∃ text n port,
      (Json.or (Json.get? (some (parseJobRequest rt job.requestJson)) "slug")
        (.str t.slug)).toStr rt = .ok text
      ∧ Json.toNumber rt (some (nullish
          (Json.get? (some (parseJobRequest rt job.requestJson)) "gateway_port")
          (.num (.finite 0)))) = .ok n
      ∧ n.integer = some port ∧ 1024 ≤ port
      ∧ path = pathJoin [getProvisionArtifactDir p (trim text),
          "openclaw-gateway.env"]
      ∧ content = gatewayEnv (trim text) (trim t.linuxUser)
          (trim t.openclawHome) port := by
  unfold ensureProvisionArtifacts at h
  dsimp only at h
  obtain ⟨text, htext, h⟩ := bind_eq_ok.mp h
  obtain ⟨n, hn, h⟩ := bind_eq_ok.mp h
  have hinvalid : ensureProvisionArtifacts.invalidPort ≠ .ok (path, content) := by
    simp [ensureProvisionArtifacts.invalidPort]
  split at h
  · exact absurd h (by simp)
  split at h
  · exact absurd h (by simp)
  split at h
  · exact absurd h (by simp)
  split at h
  · exact absurd h hinvalid
  · next port hport =>
    split at h
    · exact absurd h hinvalid
    · next hrange =>
      obtain ⟨rfl, rfl⟩ := Prod.mk.inj (Except.ok.inj h)
      exact ⟨text, n, port, htext, hn, hport, by omega, rfl, rfl⟩

theorem port_eq_iff {rt : Runtime} {x : Option Json} {n : JsNumber}
    {port port' : ℤ} (h : Json.toNumber rt (some (nullish x (.num (.finite 0))))
      = .ok n) (hport : n.integer = some port) (hrange : 1024 ≤ port) :
    port = port' ↔ ∃ value n, x = some value
      ∧ Json.toNumber rt (some value) = .ok n ∧ n.integer = some port' := by
  -- a request without a port gives the port 0
  have hzero : n ≠ .finite 0 := by
    rintro rfl
    obtain rfl : (0 : ℤ) = port := Option.some.inj hport
    omega
  have hsome : ∀ value, x = some value → value ≠ .null →
      Json.toNumber rt (some value) = .ok n := by
    intro value hx hnull
    subst hx
    cases value with
    | null => exact absurd rfl hnull
    | _ => exact h
  refine ⟨fun heq => ?_, fun ⟨value, n', hx, hn', hport'⟩ => ?_⟩
  · cases x with
    | none => exact absurd (Except.ok.inj h).symm hzero
    | some value =>
      by_cases hnull : value = .null
      · subst hnull
        exact absurd (Except.ok.inj h).symm hzero
      · exact ⟨value, n, rfl, hsome value rfl hnull, heq ▸ hport⟩
  · by_cases hnull : value = .null
    · subst hnull
      subst hx
      exact absurd (Except.ok.inj h).symm hzero
    · obtain rfl : n = n' :=
        Except.ok.inj ((hsome value hx hnull).symm.trans hn')
      exact Option.some.inj (hport.symm.trans hport')

/-- **When the file that is written is the tenant's.** -/
theorem ensureProvisionArtifacts_iff {rt : Runtime} {p : Process}
    {job : ProvisionJob} {t : Tenant} (ht : t.WellFormed p)
    {path content : String}
    (h : ensureProvisionArtifacts rt p job t = .ok (path, content)) :
    IsArtifactOf p t path content
      ↔ RequestAgrees rt (parseJobRequest rt job.requestJson) t
        ∧ OnOneLine t.openclawHome := by
  obtain ⟨text, n, port, htext, hn, hport, hrange, rfl, rfl⟩ :=
    ensureProvisionArtifacts_ok h
  have huser : '\n' ∉ t.linuxUser.toList :=
    ((isSafeUser_iff _).mp ht.linuxUser).notMem (by decide)
  have hslug : '\n' ∉ t.slug.toList := by
    intro hmem
    exact absurd ((isSlugText_of_isValidSlug ht.slug).2.2 _ hmem) (by decide)
  rw [trim_linuxUser ht.linuxUser]
  have hlines := @splitOn_gatewayEnv_iff t (trim text) port huser hslug
    (trim t.openclawHome)
  rw [slug_eq_iff ht.slug htext, port_eq_iff hn hport hrange] at hlines
  refine ⟨fun hfile => ?_, fun hagrees => ?_⟩
  · obtain ⟨hs, hh, hfree, hp⟩ := hlines.mp hfile.lines
    exact ⟨⟨hs, hp⟩, hh, hh ▸ hfree⟩
  · obtain ⟨⟨hs, hp⟩, hh, hfree⟩ := hagrees
    refine ⟨?_, hlines.mpr ⟨hs, hh, hh.symm ▸ hfree, hp⟩⟩
    rw [(slug_eq_iff ht.slug htext).mpr hs]

/-! ## What a run writes -/

theorem startArtifacts_mem {rt : Runtime} {p : Process} {job : ProvisionJob}
    {t : Tenant} {jobId : ℕ} {fsError : Option Exception}
    {artifacts : List Event}
    (h : startArtifacts rt p job t jobId fsError = .ok artifacts)
    {jobId' : ℕ} {path content : String}
    (hmem : .wroteArtifact jobId' path content ∈ artifacts) :
    jobId' = jobId ∧ job.jobType = .bootstrap
      ∧ ensureProvisionArtifacts rt p job t = .ok (path, content) := by
  unfold startArtifacts at h
  split at h
  · next htype =>
    obtain ⟨⟨path₀, content₀⟩, hfile, h⟩ := bind_eq_ok.mp h
    dsimp only at h
    split at h
    · exact absurd h (by simp)
    · obtain rfl := Except.ok.inj h
      obtain ⟨rfl, rfl, rfl⟩ := Event.wroteArtifact.inj (List.mem_singleton.mp hmem)
      exact ⟨rfl, htype, hfile⟩
  · obtain rfl := Except.ok.inj h
    exact absurd hmem List.not_mem_nil

theorem Advance.wroteArtifact_notMem {site : Site} {s s' : State} {e : ℕ}
    {ex : Execution} {es : List Event} (h : Advance site s e ex s' es)
    {jobId : ℕ} {path content : String} :
    .wroteArtifact jobId path content ∉ es := by
  cases h <;> simp

/-- **Only the start of a bootstrap writes an artifact.** -/
theorem Step.wroteArtifact {site : Site} {s s' : State} {a : Action}
    {es : List Event} (h : Step site s a s' es) {jobId : ℕ}
    {path content : String} (hmem : .wroteArtifact jobId path content ∈ es) :
    ∃ job t, s.jobs.row jobId = some job
      ∧ s.tenants.row job.tenantId = some t ∧ job.jobType = .bootstrap
      ∧ ensureProvisionArtifacts site.rt site.web job t
        = .ok (path, content) := by
  cases h with
  | execute _ hstart hadvance =>
    obtain ⟨job, t, hs, hartifacts, rfl⟩ := startExecution_eq_ok.mp hstart
    rcases List.mem_append.mp hmem with hmem | hmem
    · obtain ⟨rfl, htype, hfile⟩ := startArtifacts_mem hartifacts hmem
      exact ⟨job, t, hs.jobRow, hs.tenantRow, htype, hfile⟩
    · rcases List.mem_cons.mp hmem with heq | hmem
      · exact absurd heq (by simp)
      · exact absurd hmem hadvance.wroteArtifact_notMem
  | resumeOk _ _ _ hadvance =>
    rcases List.mem_cons.mp hmem with heq | hmem
    · exact absurd heq (by simp)
    · exact absurd hmem hadvance.wroteArtifact_notMem
  | _ => exact absurd hmem (by simp)

/-- **A file that a run writes is the artifact of the job's own tenant exactly
if the stored request agrees with the tenant's row**, and the tenant's home
stands on one line. -/
theorem artifact_iff (site : Site) (as : List Action) (a : Action) {jobId : ℕ}
    {path content : String}
    (h : .wroteArtifact jobId path content
      ∈ (controlPlane site).emits ((controlPlane site).state .initial as) a) :
    ∃ job t, ((controlPlane site).state .initial as).jobs.row jobId = some job
      ∧ ((controlPlane site).state .initial as).tenants.row job.tenantId = some t
      ∧ job.jobType = .bootstrap
      ∧ (IsArtifactOf site.web t path content
        ↔ RequestAgrees site.rt (parseJobRequest site.rt job.requestJson) t
          ∧ OnOneLine t.openclawHome) := by
  have hstep := controlPlane_step site ((controlPlane site).state .initial as) a
  obtain ⟨job, t, hjob, ht, htype, hfile⟩ := hstep.wroteArtifact h
  have hwell := (tenantRows_run site as).wellFormed ht
  exact ⟨job, t, hjob, ht, htype, ensureProvisionArtifacts_iff hwell hfile⟩

/-- The bootstrap of the sample tenant writes an artifact. -/
theorem artifact_iff_sample :
    ∃ job t path content,
      ((controlPlane sampleSite).state .initial
        [.createTenant (sampleRequest false) "ann",
          .transition 1 "bob" .approve]).jobs.row 1 = some job
      ∧ ((controlPlane sampleSite).state .initial
        [.createTenant (sampleRequest false) "ann",
          .transition 1 "bob" .approve]).tenants.row job.tenantId = some t
      ∧ (IsArtifactOf sampleSite.web t path content
        ↔ RequestAgrees sampleSite.rt
            (parseJobRequest sampleSite.rt job.requestJson) t
          ∧ OnOneLine t.openclawHome) := by
  have hwrote : ∃ path content, .wroteArtifact 1 path content
      ∈ (controlPlane sampleSite).emits ((controlPlane sampleSite).state .initial
        [.createTenant (sampleRequest false) "ann",
          .transition 1 "bob" .approve]) (.execute 0 1 "cy" none) :=
    ⟨_, _, List.mem_of_getElem? (i := 0) rfl⟩
  obtain ⟨path, content, hwrote⟩ := hwrote
  obtain ⟨job, t, hjob, ht, -, hiff⟩ := artifact_iff sampleSite _ _ hwrote
  exact ⟨job, t, path, content, hjob, ht, hiff⟩

/-- A bootstrap posted for tenant `alice` whose request names a slug of its
own. -/
def sampleForeignSlug : List Action :=
  [.createTenant (sampleRequest true) "ann",
    .postJob (.obj [("tenant_id", .num (.finite 1)),
      ("job_type", .str "bootstrap"), ("dry_run", .bool true),
      ("request_json", .obj [("slug", .str "../../../../srv"),
        ("gateway_port", .num (.finite 20001)), ("dry_run", .bool true)]),
      ("plan_json", .arr [.obj [("key", .str "step"), ("title", .str "Step"),
        ("command", .arr [.str "/usr/bin/true"])]])]) "dee",
    .transition 2 "bob" .approve]

/-- **The artifact of a posted bootstrap leaves the data directory.** -/
theorem artifact_foreign :
    (∃ content, .wroteArtifact 2 "/srv/openclaw-gateway.env" content
        ∈ (controlPlane sampleSite).emits
          ((controlPlane sampleSite).state .initial sampleForeignSlug)
          (.execute 0 2 "cy" none))
      ∧ (((controlPlane sampleSite).state .initial sampleForeignSlug).tenants.row
          1).map (·.slug) = some "alice"
      ∧ ∀ t content, t.slug = "alice" →
        ¬ IsArtifactOf sampleSite.web t "/srv/openclaw-gateway.env" content := by
  refine ⟨⟨_, List.mem_of_getElem? (i := 0) rfl⟩, rfl, fun t content hslug h => ?_⟩
  have hpath := h.path
  rw [hslug] at hpath
  exact absurd hpath (by decide)

end MissionControl
