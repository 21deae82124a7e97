import MissionControl.AuthWrites

/-!
# The last administrator

An administrator may not take the role from themselves, nor delete themselves:
the two checks compare the id of the request with the own one, the update before
any conversion, so that the id `"1"` passes where `1` does not. Nothing keeps two
administrators from demoting each other, an administrator from taking away their
own approval, or an access request of their address from being approved for
another role.

So there remains an administrator exactly as long as no write takes the role or
the approval from the only one (`authMachine_hasAdmin_iff`).
-/

namespace MissionControl

def UserRow.Administers (u : UserRow) : Prop :=
  u.role = "admin" ∧ u.isApproved = .number (.finite 1)

instance : DecidablePred UserRow.Administers :=
  fun _ => inferInstanceAs (Decidable (_ ∧ _))

/-- **There is an administrator.** -/
def HasAdmin (users : Table UserRow) : Prop :=
  ∃ id u, users.row id = some u ∧ u.Administers

def OnlyAdmin (users : Table UserRow) (id : ℕ) : Prop :=
  ∀ id' u, users.row id' = some u → u.Administers → id' = id

/-- **A write that leaves an administrator**: it leaves the only one that. -/
def KeepsAdmin (users : Table UserRow) : AuthWrite → Prop
  | .updateUser id update =>
    OnlyAdmin users id → (∀ r, update.role = some r → r = "admin")
      ∧ ∀ v, update.isApproved = some v → v = .number (.finite 1)
  | .deleteUser id => ¬ OnlyAdmin users id
  | .approveUser id _ _ _ role => OnlyAdmin users id → role = .admin
  | _ => True

theorem exists_of_not_onlyAdmin {users : Table UserRow} {id : ℕ}
    (h : ¬ OnlyAdmin users id) :
    ∃ id' u, users.row id' = some u ∧ u.Administers ∧ id' ≠ id := by
  unfold OnlyAdmin at h
  push Not at h
  exact h

theorem HasAdmin.row_of_only {users : Table UserRow} (h : HasAdmin users) {id : ℕ}
    (honly : OnlyAdmin users id) : ∃ u, users.row id = some u ∧ u.Administers := by
  obtain ⟨id', u, hu, hadmin⟩ := h
  obtain rfl := honly id' u hu hadmin
  exact ⟨u, hu, hadmin⟩

/-- **An update leaves an administrator exactly if the only one stays one.** -/
theorem hasAdmin_update_iff {users : Table UserRow} (h : HasAdmin users) (id : ℕ)
    (f : UserRow → UserRow) :
    HasAdmin (users.update id f)
      ↔ (OnlyAdmin users id → ∀ u, users.row id = some u → u.Administers →
        (f u).Administers) := by
  constructor
  · rintro ⟨id', u', hu', hadmin'⟩ honly u hu hadmin
    rw [Table.row_update] at hu'
    split at hu'
    · rw [hu] at hu'
      obtain rfl := Option.some.inj hu'
      exact hadmin'
    · next hne => exact absurd (honly id' u' hu' hadmin') hne
  · intro hkeeps
    by_cases honly : OnlyAdmin users id
    · obtain ⟨u, hu, hadmin⟩ := h.row_of_only honly
      refine ⟨id, f u, ?_, hkeeps honly u hu hadmin⟩
      rw [Table.row_update_self, hu]
      rfl
    · obtain ⟨id', u, hu, hadmin, hne⟩ := exists_of_not_onlyAdmin honly
      exact ⟨id', u, by rw [Table.row_update_of_ne _ _ hne, hu], hadmin⟩

/-- An administrator stays one under an update exactly if the role and the
approval, where they are written, are those of one. -/
theorem administers_apply_iff (update : UserUpdate) {u : UserRow} (h : u.Administers) :
    (update.apply u).Administers
      ↔ (∀ r, update.role = some r → r = "admin")
        ∧ ∀ v, update.isApproved = some v → v = .number (.finite 1) := by
  unfold UserRow.Administers UserUpdate.apply
  refine and_congr ?_ ?_
  · cases update.role with
    | none => exact iff_of_true h.1 (fun _ hr => nomatch hr)
    | some r => simp
  · cases update.isApproved with
    | none => exact iff_of_true h.2 (fun _ hv => nomatch hv)
    | some v => simp

/-- **A write leaves an administrator exactly under the condition.** -/
theorem hasAdmin_write_iff {s : UserStore} (h : HasAdmin s.users) (w : AuthWrite) :
    HasAdmin (s.write w).users ↔ KeepsAdmin s.users w := by
  cases w with
  | nothing => exact iff_of_true h trivial
  | wait seconds => exact iff_of_true h trivial
  | createUser row =>
    obtain ⟨id, u, hu, hadmin⟩ := h
    exact iff_of_true ⟨id, u, s.users.row_insert_of_some row hu, hadmin⟩ trivial
  | updateUser id update =>
    refine (hasAdmin_update_iff h id update.apply).trans (imp_congr_right fun honly => ?_)
    obtain ⟨u, hu, hadmin⟩ := h.row_of_only honly
    constructor
    · exact fun hkeeps => (administers_apply_iff update hadmin).mp (hkeeps u hu hadmin)
    · exact fun hkeeps u' _ hadmin' => (administers_apply_iff update hadmin').mpr hkeeps
  | deleteUser id =>
    constructor
    · rintro ⟨id', u', hu', hadmin'⟩ honly
      obtain ⟨hu, hother⟩ := (s.users.row_deleteWhere_eq_some _).mp hu'
      exact of_decide_eq_false hother (honly id' u' hu hadmin')
    · intro hother
      obtain ⟨id', u, hu, hadmin, hne⟩ := exists_of_not_onlyAdmin hother
      exact ⟨id', u, (s.users.row_deleteWhere_eq_some _).mpr ⟨hu, decide_eq_false hne⟩,
        hadmin⟩
  | approveUser id sub email avatarUrl role =>
    refine (hasAdmin_update_iff h id _).trans (imp_congr_right fun honly => ?_)
    obtain ⟨u, hu, hadmin⟩ := h.row_of_only honly
    have hrole : (u.approve sub email avatarUrl role).Administers ↔ role = .admin := by
      cases role <;> simp [UserRow.approve, UserRow.Administers, UserRole.text]
    constructor
    · exact fun hkeeps => hrole.mp (hkeeps u hu hadmin)
    · rintro rfl u' _ _
      exact ⟨rfl, rfl⟩
  | createSession userId token =>
    refine iff_of_true ?_ trivial
    rw [UserStore.write, users_openSession]
    exact h
  | bindGoogle userId p token =>
    refine iff_of_true ?_ trivial
    rw [UserStore.write, users_openSession]
    exact (hasAdmin_update_iff h userId _).mpr fun _ _ _ hadmin => hadmin
  | destroySession token => exact iff_of_true h trivial

/-- **There is always an administrator exactly as long as every update, every
deletion and every approval leaves the only one in place.** -/
theorem authMachine_hasAdmin_iff (site : AuthSite) {s₀ : AuthState}
    (h₀ : HasAdmin s₀.users) (as : List AuthAction) :
    (authMachine site).Always (fun s => HasAdmin s.users) s₀ as
      ↔ (authMachine site).EachStep
        (fun s a => KeepsAdmin s.users (authWrite site s a)) s₀ as := by
  refine (authMachine site).always_iff_eachStep (J := fun _ => True) trivial
    (fun _ _ _ => trivial) h₀ ?_ as
  intro s a _ h
  have hnext := congrArg UserStore.users (toUserStore_next site s a)
  rw [hnext]
  exact hasAdmin_write_iff h (authWrite site s a)

theorem hasAdmin_initial (site : AuthSite) (salt : String) (now : ℕ) :
    HasAdmin (AuthState.initial site salt now).users :=
  ⟨1, seedAdminUser site salt, Table.row_insert_next _ _, rfl, rfl⟩

/-- The only administrator names themselves by a text, and becomes a viewer. -/
def sampleDemotion : List AuthAction :=
  [.login (some (.obj [("username", .str "admin"), ("password", .str "admin")]))
      sampleToken,
    .begin .update ⟨some sampleToken.text, none⟩,
    .receive 1 (some (.obj [("id", .str "1"), ("role", .str "viewer")])) ⟨"", ""⟩]

/-- The run of that database. -/
theorem authMachine_hasAdmin_iff_sample :
    (authMachine sampleAuthSite).Always (fun s => HasAdmin s.users)
        (AuthState.initial sampleAuthSite "salt" 0) sampleDemotion
      ↔ (authMachine sampleAuthSite).EachStep
        (fun s a => KeepsAdmin s.users (authWrite sampleAuthSite s a))
        (AuthState.initial sampleAuthSite "salt" 0) sampleDemotion :=
  authMachine_hasAdmin_iff sampleAuthSite (hasAdmin_initial sampleAuthSite "salt" 0)
    sampleDemotion

/-- **Nobody is left to administer**: the id `"1"` is not recognized as the own
one. -/
theorem not_hasAdmin_sampleDemotion :
    HasAdmin (AuthState.initial sampleAuthSite "salt" 0).users
      ∧ ¬ (authMachine sampleAuthSite).Always (fun s => HasAdmin s.users)
        (AuthState.initial sampleAuthSite "salt" 0) sampleDemotion := by
  refine ⟨hasAdmin_initial sampleAuthSite "salt" 0, fun h => ?_⟩
  obtain ⟨id, u, hu, hadmin⟩ := h sampleDemotion (List.prefix_refl _)
  have hnone : ((authMachine sampleAuthSite).state
      (AuthState.initial sampleAuthSite "salt" 0) sampleDemotion).users.any
        (fun u => decide u.Administers) = false := by decide +kernel
  have hnot := (Table.any_eq_false_iff _ _).mp hnone id u hu
  exact of_decide_eq_false hnot hadmin

end MissionControl
