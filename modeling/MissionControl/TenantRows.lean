import MissionControl.TenantStatus

/-!
# The rows of `tenants`

What a row of `tenants` says about its Linux account. A request is only
accepted with a slug and a user name of their grammars, and the paths in the
row are the ones built from the user name (`Tenant.WellFormed`). The columns
`slug` and `linux_user` are `UNIQUE`, and nothing but the status of a row is
ever rewritten – so two tenants never share a user name, all along a run
(`tenantRows_run`).
-/

namespace MissionControl

/-- **A row with the paths of its user.** -/
structure Tenant.WellFormed (p : Process) (t : Tenant) : Prop where
  slug : isValidSlug t.slug = true
  linuxUser : isSafeUser t.linuxUser = true
  openclawHome :
    t.openclawHome = joinPosix [getTenantHomeRoot p, t.linuxUser, ".openclaw"]
  workspaceRoot : t.workspaceRoot
    = joinPosix [getTenantHomeRoot p, t.linuxUser, getTenantWorkspaceDirname p]

/-- **What an accepted request has passed.** The expression for the user name
is the one of the daemon. -/
theorem readBootstrapRequest_ok {rt : Runtime} {p : Process} {request : Json}
    {r : BootstrapRequest} (h : readBootstrapRequest rt p request = .ok r) :
    templateOpenclawJsonPath p ≠ "" ∧ isValidSlug r.slug = true
      ∧ isSafeUser r.linuxUser = true := by
  unfold readBootstrapRequest at h
  split at h
  · exact absurd h (by simp)
  · next htemplate =>
    obtain ⟨_, -, h⟩ := bind_eq_ok.mp h
    obtain ⟨slug, -, h⟩ := bind_eq_ok.mp h
    split at h
    · exact absurd h (by simp)
    · next hslug =>
      obtain ⟨_, -, h⟩ := bind_eq_ok.mp h
      obtain ⟨displayName, -, h⟩ := bind_eq_ok.mp h
      dsimp only at h
      split at h
      · exact absurd h (by simp)
      · obtain ⟨_, -, h⟩ := bind_eq_ok.mp h
        obtain ⟨linuxUser, -, h⟩ := bind_eq_ok.mp h
        split at h
        · exact absurd h (by simp)
        · next huser =>
          -- the further fields do not touch the names
          obtain ⟨_, -, h⟩ := bind_eq_ok.mp h
          obtain ⟨_, -, h⟩ := bind_eq_ok.mp h
          obtain ⟨_, -, h⟩ := bind_eq_ok.mp h
          obtain ⟨_, -, h⟩ := bind_eq_ok.mp h
          obtain ⟨_, -, h⟩ := bind_eq_ok.mp h
          obtain ⟨_, -, h⟩ := bind_eq_ok.mp h
          obtain ⟨_, -, h⟩ := bind_eq_ok.mp h
          obtain ⟨_, -, h⟩ := bind_eq_ok.mp h
          obtain ⟨_, -, h⟩ := bind_eq_ok.mp h
          obtain ⟨_, -, h⟩ := bind_eq_ok.mp h
          split at h
          · exact absurd h (by simp)
          · obtain rfl := Except.ok.inj h
            refine ⟨htemplate, by simpa using hslug, ?_⟩
            show regExpTest linuxUserRe _ = true
            simpa using huser

theorem BootstrapRequest.wellFormed {rt : Runtime} {p : Process}
    {request : Json} {r : BootstrapRequest}
    (h : readBootstrapRequest rt p request = .ok r) (actor : String) :
    (r.tenant p actor).WellFormed p := by
  obtain ⟨-, hslug, huser⟩ := readBootstrapRequest_ok h
  exact ⟨hslug, huser, rfl, rfl⟩

theorem exists_row_of_setTenantStatus {s : State} {id : ℕ}
    {status : TenantStatus} {id' : ℕ} {t : Tenant}
    (h : (s.setTenantStatus id status).tenants.row id' = some t) :
    ∃ t₀ status', s.tenants.row id' = some t₀ ∧ t = { t₀ with status := status' } := by
  replace h : (s.tenants.update id _).row id' = some t := h
  rw [Table.row_update] at h
  split at h
  · next hid =>
    obtain ⟨t₀, ht₀, rfl⟩ := Option.map_eq_some_iff.mp h
    exact ⟨t₀, status, hid ▸ ht₀, rfl⟩
  · exact ⟨t, t.status, h, rfl⟩

theorem Advance.tenant_origin {site : Site} {s s' : State} {e : ℕ}
    {ex : Execution} {es : List Event} (h : Advance site s e ex s' es) {id : ℕ}
    {t : Tenant} (ht : s'.tenants.row id = some t) :
    ∃ t₀ status, s.tenants.row id = some t₀ ∧ t = { t₀ with status } := by
  cases h with
  | completes _ => exact exists_row_of_setTenantStatus ht
  | throws _ _ => exact exists_row_of_setTenantStatus ht
  | dispatches _ _ => exact ⟨t, t.status, ht, rfl⟩

/-- **A new tenant**: its row, and its first job. -/
structure NewTenant (site : Site) (s s' : State) (t : Tenant) : Prop where
  wellFormed : t.WellFormed site.web
  fresh : ∀ {id t'}, s.tenants.row id = some t' → t'.linuxUser ≠ t.linuxUser
  /-- A bootstrap job of it has been inserted. -/
  job : ∃ id job, s'.jobs.row id = some job ∧ job.tenantId = s.tenants.next
    ∧ job.jobType = .bootstrap
    ∧ job.planJson = (t.bootstrapPlan site.web).map ProvisionStep.toJson

/-- **A tenant after a step** was there before, up to its status, or it is a
new one under the next id. -/
theorem Step.tenant_origin {site : Site} {s s' : State} {a : Action}
    {es : List Event} (hstep : Step site s a s' es) {id : ℕ} {t : Tenant}
    (ht : s'.tenants.row id = some t) :
    (∃ t₀ status, s.tenants.row id = some t₀ ∧ t = { t₀ with status })
      ∨ id = s.tenants.next ∧ NewTenant site s s' t := by
  cases hstep with
  | refused _ => exact Or.inl ⟨t, t.status, ht, rfl⟩
  | @createTenant request actor r hread _ huser =>
    rcases (Table.row_insert_eq_some _ _).mp ht with ⟨hid, rfl⟩ | hold
    · refine Or.inr ⟨hid, BootstrapRequest.wellFormed hread actor,
        fun {id t'} ht' => ?_, ?_⟩
      · show t'.linuxUser ≠ r.linuxUser
        simpa using (Table.any_eq_false_iff _ _).mp huser id t' ht'
      · exact ⟨_, _, Table.row_insert_next _ _, rfl, rfl, rfl⟩
    · exact Or.inl ⟨t, t.status, hold, rfl⟩
  | decommission _ _ _ => exact Or.inl ⟨t, t.status, ht, rfl⟩
  | postJob _ _ => exact Or.inl ⟨t, t.status, ht, rfl⟩
  | transition _ _ _ => exact Or.inl ⟨t, t.status, ht, rfl⟩
  | execute _ _ hadvance =>
    obtain ⟨t₁, status, ht₁, rfl⟩ := hadvance.tenant_origin ht
    obtain ⟨t₀, _, ht₀, rfl⟩ := exists_row_of_setTenantStatus ht₁
    exact Or.inl ⟨t₀, status, ht₀, rfl⟩
  | resumeError _ _ _ => exact Or.inl (exists_row_of_setTenantStatus ht)
  | resumeOk _ _ _ hadvance => exact Or.inl (hadvance.tenant_origin ht)

/-- **The invariant of the table**: the rows are well formed, and no two of
them are for the same user. -/
structure TenantRows (p : Process) (s : State) : Prop where
  wellFormed : ∀ {id t}, s.tenants.row id = some t → t.WellFormed p
  unique : ∀ {id id' t t'}, s.tenants.row id = some t →
    s.tenants.row id' = some t' → t.linuxUser = t'.linuxUser → id = id'

theorem TenantRows.initial (p : Process) : TenantRows p .initial where
  wellFormed h := nomatch h
  unique h := nomatch h

/-- **Every step keeps the invariant of the table.** -/
theorem TenantRows.step {site : Site} {s s' : State} {a : Action}
    {es : List Event} (h : TenantRows site.web s) (hstep : Step site s a s' es) :
    TenantRows site.web s' := by
  refine ⟨fun {id t} ht => ?_, fun {id id' t t'} ht ht' huser => ?_⟩
  · rcases hstep.tenant_origin ht with ⟨t₀, status, ht₀, rfl⟩ | ⟨-, hnew⟩
    · obtain ⟨hslug, hlinux, hhome, hworkspace⟩ := h.wellFormed ht₀
      exact ⟨hslug, hlinux, hhome, hworkspace⟩
    · exact hnew.wellFormed
  · rcases hstep.tenant_origin ht with ⟨t₀, _, ht₀, rfl⟩ | ⟨rfl, hnew⟩
    · rcases hstep.tenant_origin ht' with ⟨t₀', _, ht₀', rfl⟩ | ⟨-, hnew'⟩
      · exact h.unique ht₀ ht₀' huser
      · have hfresh := hnew'.fresh ht₀
        exact absurd huser hfresh
    · rcases hstep.tenant_origin ht' with ⟨t₀', _, ht₀', rfl⟩ | ⟨hid, -⟩
      · have hfresh := hnew.fresh ht₀'
        exact absurd huser.symm hfresh
      · exact hid.symm

/-- **The invariant of the table holds all along every run.** -/
theorem tenantRows_run (site : Site) (as : List Action) :
    TenantRows site.web ((controlPlane site).state .initial as) :=
  (controlPlane site).state_invariant (TenantRows.initial site.web)
    (fun s a h => h.step (controlPlane_step site s a)) as

end MissionControl
