import MissionControl.Confinement
import MissionControl.TenantRows

/-!
# Tenants do not touch each other

Two tenants of the table have different user names, so their homes branch
off at different segments below the home root, whatever one name has to do
with the other as a text. Paths are compared by their segments
(`segmentsOf`), and one contains another if its segments are the first ones
of the other: `/home/alice` contains nothing of `/home/alice-b`.

What a decommission plan names is the user, the service, the env file or a
path in the home of its own tenant (`decommissionPlan_operand`), and none
of these is at, above or below the home of another. What it removes is
more than the paths it names. `userdel -r` removes the home of the account,
and that home is the one `useradd -m` made: `/home/<user>`, since no step
passes `-d`. The plans keep the tenant somewhere else, in
`joinPosix(getTenantHomeRoot(), linux_user)`, and set the owner of that
directory; the two are the same only where the root is `/home`.

So the accounts have homes of their own beside the homes of the tenants,
and they do harm in one case, where the home root itself lies in the home
of an account that is a tenant's (`contains_useraddHome_iff`). Then
removing this account removes the homes of all tenants.
`decommission_separate_iff` says that nothing else goes wrong, for every
table that the control plane can reach and every combination of options.
-/

namespace MissionControl

def segmentsOf (path : String) : List (List Char) :=
  Posix.segments path.toList

/-- **The home root is apart from `/etc`**, and paths can be built from it. -/
structure HomesApart (p : Process) : Prop where
  homeRoot : Posix.IsNormalAbsolute (getTenantHomeRoot p).toList
  workspace : Posix.Ordinary (getTenantWorkspaceDirname p).toList
  not_etc : ¬ Posix.Contains "/etc".toList (getTenantHomeRoot p).toList

def Tenant.home (p : Process) (t : Tenant) : String :=
  joinPosix [getTenantHomeRoot p, t.linuxUser]

/-- **What a step does not name of another tenant**: its user, its service,
its env file, and no path at, above or below its home. -/
structure ForeignTo (p : Process) (u : Tenant) (operand : String) : Prop where
  user : operand ≠ u.linuxUser
  service : operand ≠ tenantService u.linuxUser
  env : operand ≠ tenantEnv u.linuxUser
  path : operand.toList.head? = some '/' →
    ¬ Posix.Contains operand.toList (u.home p).toList
      ∧ ¬ Posix.Contains (u.home p).toList operand.toList

/-- The fixed words of the commands of a decommission; each has one operand
after them. -/
def decommissionForms : List (List String) :=
  [["/usr/bin/systemctl", "disable", "--now"], ["/usr/bin/rm", "-f"],
    ["/usr/bin/rm", "-rf"], ["/usr/sbin/userdel", "-r"]]

/-- **The home that `useradd -m` makes** for an account: the default base directory of
`useradd` is `/home`, and no step passes it another one (`-d` or `-b`). The plans take
`joinPosix(getTenantHomeRoot(), linux_user)` for the home instead, also where they set the
owner of it. -/
def useraddHome (user : String) : String := "/home/" ++ user

/-- The paths a step removes, with all that is in them. `userdel -r` removes the home of
the account. -/
def removed (step : ProvisionStep) : List String :=
  match step.command with
  | ["/usr/bin/rm", _, path] => [path]
  | ["/usr/sbin/userdel", "-r", user] => [useraddHome user]
  | _ => []

/-- The paths a step creates. `useradd -m` creates the home of the account. -/
def created (step : ProvisionStep) : List String :=
  match step.command with
  | ["/usr/sbin/useradd", "-m", _, _, user] => [useraddHome user]
  | ["/usr/bin/install", "-d", _, _, _, _, _, _, path] => [path]
  | ["/usr/bin/cp", _, _, path] => [path]
  | _ => []

/-- **The tenants of a table do not touch each other**: of two tenants, the decommission of
the one names nothing of the other, and removes nothing that the bootstrap of the other
creates, nor the shared paths. -/
def Separate (p : Process) (s : State) : Prop :=
  ∀ {i j : ℕ} {t u : Tenant}, s.tenants.row i = some t → s.tenants.row j = some u → i ≠ j →
    ∀ (options : DecommissionOptions), ∀ step ∈ buildDecommissionPlan t.plan options,
      (∃ form ∈ decommissionForms, ∃ operand, step.command = form ++ [operand]
          ∧ ForeignTo p u operand)
        ∧ ∀ path ∈ removed step,
          (∀ step' ∈ u.bootstrapPlan p, ∀ path' ∈ created step',
              ¬ Posix.Contains path.toList path'.toList)
            ∧ ¬ Posix.Contains path.toList "/etc/openclaw-tenants".toList
            ∧ ¬ Posix.Contains path.toList systemdUnit.toList

/-- **No account has the home root in its home**, if there is another tenant. -/
def RootOutsideHomes (p : Process) (s : State) : Prop :=
  ∀ {i j : ℕ} {t u : Tenant}, s.tenants.row i = some t → s.tenants.row j = some u → i ≠ j →
    ¬ Posix.Contains (useraddHome t.linuxUser).toList (getTenantHomeRoot p).toList

/-! ## Segments -/

theorem segments_stripSlashes (path : List Char) :
    Posix.segments (Posix.stripSlashes path) = Posix.segments path := by
  induction path using List.reverseRecOn with
  | nil => rfl
  | append_singleton path c ih =>
    unfold Posix.stripSlashes at ih ⊢
    by_cases hc : c = '/'
    · subst hc
      rw [List.rdropWhile_concat_pos _ _ _ (by simp), ih]
      unfold Posix.segments
      rw [List.splitOn_append_cons_self, List.splitOn_nil, List.filter_append]
      simp
    · rw [List.rdropWhile_concat_neg _ _ _ (by simpa using hc)]

theorem homeSegments_eq_segmentsOf (root : String) :
    homeSegments root = segmentsOf root :=
  segments_stripSlashes root.toList

theorem segmentsOf_absolutePath {segs : List (List Char)} (hne : segs ≠ [])
    (hsegs : ∀ seg ∈ segs, Posix.Ordinary seg) :
    segmentsOf (absolutePath segs) = segs := by
  unfold segmentsOf absolutePath
  rw [String.toList_ofList]
  exact Posix.segments_absolute hne hsegs

theorem not_prefix_of_branch {α : Type} {root l m : List α} {a b : α}
    (h : a ≠ b) : ¬ root ++ a :: l <+: root ++ b :: m := by
  rw [List.prefix_append_right_inj, List.cons_prefix_cons]
  exact fun hp => h hp.1

theorem segmentsOf_tenantEnv {u : String} (hu : isSafeUser u = true) :
    segmentsOf (tenantEnv u)
      = ["etc".toList, "openclaw-tenants".toList, (u ++ ".env").toList] := by
  obtain ⟨hpath, hsegs⟩ := tenantEnv_eq hu
  rw [hpath]
  exact segmentsOf_absolutePath (List.cons_ne_nil _ _) hsegs

/-- **A path in the home of a user.** -/
def InHome (p : Process) (u path : String) : Prop :=
  ∃ more, segmentsOf path = homeSegments (getTenantHomeRoot p) ++ u.toList :: more

section Apart

variable {p : Process} (hp : HomesApart p)

include hp

theorem HomesApart.not_etc_prefix :
    ¬ ["etc".toList] <+: homeSegments (getTenantHomeRoot p) := by
  rw [homeSegments_eq_segmentsOf]
  exact hp.not_etc

/-- A path under `/etc` and one in a home do not contain each other. -/
theorem HomesApart.not_contains_etc {u path path' : String}
    {more : List (List Char)} (hetc : segmentsOf path = "etc".toList :: more)
    (hhome : InHome p u path') :
    ¬ Posix.Contains path.toList path'.toList
      ∧ ¬ Posix.Contains path'.toList path.toList := by
  obtain ⟨rest, hhome⟩ := hhome
  have hnot := hp.not_etc_prefix
  cases hroot : homeSegments (getTenantHomeRoot p) with
  | nil => exact absurd hroot (homeSegments_ne_nil hp.homeRoot)
  | cons seg segs =>
    rw [hroot] at hnot hhome
    have hne : "etc".toList ≠ seg := by
      rintro rfl
      exact hnot ⟨segs, rfl⟩
    refine ⟨fun h => ?_, fun h => ?_⟩
    · replace h : segmentsOf path <+: segmentsOf path' := h
      rw [hetc, hhome, List.cons_append, List.cons_prefix_cons] at h
      exact hne h.1
    · replace h : segmentsOf path' <+: segmentsOf path := h
      rw [hetc, hhome, List.cons_append, List.cons_prefix_cons] at h
      exact hne h.1.symm

/-- What `joinPosix` builds from the names below the home root is in the home
of the user. -/
theorem HomesApart.inHome_joinPosix {u : String} (hu : isSafeUser u = true)
    (more : List String) (hmore : ∀ m ∈ more, Posix.Ordinary m.toList) :
    segmentsOf (joinPosix (getTenantHomeRoot p :: u :: more))
      = homeSegments (getTenantHomeRoot p)
        ++ u.toList :: more.map String.toList := by
  have hord := ((isSafeUser_iff u).mp hu).ordinary
  have hall : ∀ m ∈ u :: more, Posix.Ordinary m.toList := by
    intro m hm
    rcases List.mem_cons.mp hm with rfl | hm
    · exact hord
    · exact hmore m hm
  rw [joinPosix_eq hp.homeRoot (u :: more) hall, List.map_cons]
  refine segmentsOf_absolutePath
    (List.append_ne_nil_of_left_ne_nil (homeSegments_ne_nil hp.homeRoot) _)
    (ordinary_under_home hp.homeRoot ?_)
  intro seg hseg
  rw [← List.map_cons (f := String.toList)] at hseg
  obtain ⟨m, hm, rfl⟩ := List.mem_map.mp hseg
  exact hall m hm

end Apart

theorem segmentsOf_append (path more : String) :
    segmentsOf (path ++ "/" ++ more) = segmentsOf path ++ segmentsOf more := by
  unfold segmentsOf Posix.segments
  rw [String.toList_append, String.toList_append, List.append_assoc,
    show "/".toList ++ more.toList = '/' :: more.toList from rfl,
    List.splitOn_append_cons_self, List.filter_append]

theorem InHome.append {p : Process} {u path : String} (h : InHome p u path)
    (more : String) : InHome p u (path ++ "/" ++ more) := by
  obtain ⟨rest, h⟩ := h
  refine ⟨rest ++ segmentsOf more, ?_⟩
  rw [segmentsOf_append, h, List.append_assoc, List.cons_append]

/-! ## What is foreign to another tenant -/

theorem toList_tenantEnv (u : String) : (tenantEnv u).toList
    = "/etc/openclaw-tenants/".toList ++ u.toList ++ ".env".toList := by
  unfold tenantEnv
  simp only [String.toList_append]

theorem toList_tenantService (u : String) : (tenantService u).toList
    = "openclaw-gateway@".toList ++ u.toList ++ ".service".toList := by
  unfold tenantService
  simp only [String.toList_append]

theorem slash_mem_tenantEnv (u : String) : '/' ∈ (tenantEnv u).toList := by
  simp only [toList_tenantEnv, List.mem_append]
  exact Or.inl (Or.inl (by decide))

theorem at_mem_tenantService (u : String) : '@' ∈ (tenantService u).toList := by
  simp only [toList_tenantService, List.mem_append]
  exact Or.inl (Or.inl (by decide))

theorem slash_notMem_tenantService {u : String} (hu : isSafeUser u = true) :
    '/' ∉ (tenantService u).toList := by
  have hslash : '/' ∉ u.toList := ((isSafeUser_iff u).mp hu).notMem (by decide)
  simp only [toList_tenantService, List.mem_append, not_or]
  exact ⟨⟨by decide, hslash⟩, by decide⟩

theorem tenantEnv_injective {a b : String} (h : tenantEnv a = tenantEnv b) :
    a = b := by
  have htext := congrArg String.toList h
  simp only [toList_tenantEnv, List.append_assoc, List.append_cancel_left_eq,
    List.append_cancel_right_eq] at htext
  exact String.toList_inj.mp htext

theorem tenantService_injective {a b : String}
    (h : tenantService a = tenantService b) : a = b := by
  have htext := congrArg String.toList h
  simp only [toList_tenantService, List.append_assoc,
    List.append_cancel_left_eq, List.append_cancel_right_eq] at htext
  exact String.toList_inj.mp htext

section Foreign

variable {p : Process} {t u : Tenant}

/-- A text without a slash is foreign if it is not the user or the service. -/
theorem foreignTo_of_notMem {operand : String} (hslash : '/' ∉ operand.toList)
    (huser : operand ≠ u.linuxUser)
    (hservice : operand ≠ tenantService u.linuxUser) :
    ForeignTo p u operand := by
  refine ⟨huser, hservice, fun heq => hslash (heq ▸ slash_mem_tenantEnv _),
    fun hhead => absurd ?_ hslash⟩
  exact List.mem_of_mem_head? hhead

theorem foreignTo_user (ht : t.WellFormed p) (hne : t.linuxUser ≠ u.linuxUser) :
    ForeignTo p u t.linuxUser := by
  have huser := (isSafeUser_iff _).mp ht.linuxUser
  have hslash : '/' ∉ t.linuxUser.toList := huser.notMem (by decide)
  have hat : '@' ∉ t.linuxUser.toList := huser.notMem (by decide)
  exact foreignTo_of_notMem hslash hne
    (fun heq => hat (heq ▸ at_mem_tenantService _))

theorem foreignTo_service (ht : t.WellFormed p) (hu : u.WellFormed p)
    (hne : t.linuxUser ≠ u.linuxUser) :
    ForeignTo p u (tenantService t.linuxUser) := by
  have hat : '@' ∉ u.linuxUser.toList :=
    ((isSafeUser_iff _).mp hu.linuxUser).notMem (by decide)
  exact foreignTo_of_notMem (slash_notMem_tenantService ht.linuxUser)
    (fun heq => hat (heq ▸ at_mem_tenantService _))
    (fun heq => hne (tenantService_injective heq))

theorem HomesApart.segmentsOf_home (hp : HomesApart p) (hu : u.WellFormed p) :
    segmentsOf (u.home p)
      = homeSegments (getTenantHomeRoot p) ++ [u.linuxUser.toList] :=
  hp.inHome_joinPosix hu.linuxUser [] (by simp)

theorem HomesApart.inHome_home (hp : HomesApart p) (hu : u.WellFormed p) :
    InHome p u.linuxUser (u.home p) :=
  ⟨[], hp.segmentsOf_home hu⟩

/-- **Paths in the homes of two users** do not contain each other. -/
theorem InHome.not_contains {a b path path' : String} (h : InHome p a path)
    (h' : InHome p b path') (hne : a ≠ b) :
    ¬ Posix.Contains path.toList path'.toList := by
  obtain ⟨more, h⟩ := h
  obtain ⟨more', h'⟩ := h'
  intro hcontains
  replace hcontains : segmentsOf path <+: segmentsOf path' := hcontains
  rw [h, h'] at hcontains
  exact not_prefix_of_branch (fun heq => hne (String.toList_inj.mp heq)) hcontains

theorem InHome.mem_slash (hp : HomesApart p) {a path : String}
    (h : InHome p a path) : '/' ∈ path.toList := by
  obtain ⟨more, h⟩ := h
  by_contra hslash
  have hsplit : segmentsOf path = [path.toList].filter (· ≠ []) := by
    unfold segmentsOf Posix.segments
    rw [List.splitOn_eq_singleton hslash]
  have hlength : (segmentsOf path).length ≤ 1 := by
    rw [hsplit]
    exact (List.length_filter_le _ _)
  have hroot := List.length_pos_of_ne_nil (homeSegments_ne_nil hp.homeRoot)
  rw [h, List.length_append, List.length_cons] at hlength
  omega

/-- **A path in the home of another tenant is foreign.** -/
theorem foreignTo_of_inHome (hp : HomesApart p) (hu : u.WellFormed p)
    (hne : t.linuxUser ≠ u.linuxUser) {path : String}
    (h : InHome p t.linuxUser path) : ForeignTo p u path := by
  have hslash := h.mem_slash hp
  have hhome := hp.inHome_home hu
  have huser : '/' ∉ u.linuxUser.toList :=
    ((isSafeUser_iff _).mp hu.linuxUser).notMem (by decide)
  refine ⟨fun heq => huser (heq ▸ hslash), fun heq => ?_, fun heq => ?_,
    fun _ => ⟨h.not_contains hhome hne, hhome.not_contains h hne.symm⟩⟩
  · exact slash_notMem_tenantService hu.linuxUser (heq ▸ hslash)
  · have hnot := (hp.not_contains_etc (segmentsOf_tenantEnv hu.linuxUser) h).1
    exact hnot (heq ▸ List.prefix_refl _)

/-- **The env file of another tenant is foreign.** -/
theorem foreignTo_env (hp : HomesApart p) (ht : t.WellFormed p)
    (hu : u.WellFormed p) (hne : t.linuxUser ≠ u.linuxUser) :
    ForeignTo p u (tenantEnv t.linuxUser) := by
  have huser : '/' ∉ u.linuxUser.toList :=
    ((isSafeUser_iff _).mp hu.linuxUser).notMem (by decide)
  refine ⟨fun heq => huser (heq ▸ slash_mem_tenantEnv _),
    fun heq => slash_notMem_tenantService hu.linuxUser
      (heq ▸ slash_mem_tenantEnv _),
    fun heq => hne (tenantEnv_injective heq), fun _ => ?_⟩
  exact hp.not_contains_etc (segmentsOf_tenantEnv ht.linuxUser)
    (hp.inHome_home hu)

end Foreign

/-! ## What the plans name, remove and create -/

section Plans

variable {p : Process} (hp : HomesApart p) {t : Tenant} (ht : t.WellFormed p)

include hp ht

theorem inHome_openclawHome : InHome p t.linuxUser t.openclawHome := by
  rw [ht.openclawHome]
  exact ⟨_, hp.inHome_joinPosix ht.linuxUser [".openclaw"]
    (by simpa using ordinary_openclaw)⟩

theorem inHome_workspaceRoot : InHome p t.linuxUser t.workspaceRoot := by
  rw [ht.workspaceRoot]
  exact ⟨_, hp.inHome_joinPosix ht.linuxUser [getTenantWorkspaceDirname p]
    (by simpa using hp.workspace)⟩

/-- **A step of a decommission plan** is fixed words and one operand: the
user, the service, the env file or a path in the home of its tenant. -/
theorem decommissionPlan_operand (options : DecommissionOptions)
    {step : ProvisionStep} (hstep : step ∈ buildDecommissionPlan t.plan options) :
    ∃ form ∈ decommissionForms, ∃ operand, step.command = form ++ [operand]
      ∧ (operand = t.linuxUser ∨ operand = tenantService t.linuxUser
        ∨ operand = tenantEnv t.linuxUser ∨ InHome p t.linuxUser operand) := by
  unfold buildDecommissionPlan at hstep
  rw [List.mem_append, List.mem_append] at hstep
  rcases hstep with (hstep | hstep) | hstep
  · simp only [Tenant.plan, List.mem_cons, List.not_mem_nil, or_false] at hstep
    rcases hstep with rfl | rfl
    · exact ⟨["/usr/bin/systemctl", "disable", "--now"], by decide, _, rfl,
        Or.inr (Or.inl rfl)⟩
    · exact ⟨["/usr/bin/rm", "-f"], by decide, _, rfl,
        Or.inr (Or.inr (Or.inl rfl))⟩
  · split at hstep
    · simp only [Tenant.plan, List.mem_cons, List.not_mem_nil, or_false] at hstep
      rcases hstep with rfl | rfl
      · exact ⟨["/usr/bin/rm", "-rf"], by decide, _, rfl,
          Or.inr (Or.inr (Or.inr (inHome_openclawHome hp ht)))⟩
      · exact ⟨["/usr/bin/rm", "-rf"], by decide, _, rfl,
          Or.inr (Or.inr (Or.inr (inHome_workspaceRoot hp ht)))⟩
    · exact absurd hstep List.not_mem_nil
  · split at hstep
    · rw [List.mem_singleton] at hstep
      subst hstep
      exact ⟨["/usr/sbin/userdel", "-r"], by decide, _, rfl, Or.inl rfl⟩
    · exact absurd hstep List.not_mem_nil

/-- What a decommission removes is in the home of its tenant, or its env file, or the home
of its account. -/
theorem removed_decommissionPlan (options : DecommissionOptions)
    {step : ProvisionStep} (hstep : step ∈ buildDecommissionPlan t.plan options)
    {path : String} (hpath : path ∈ removed step) :
    (∃ more, segmentsOf path
        = homeSegments (getTenantHomeRoot p) ++ t.linuxUser.toList :: more ∧ more ≠ [])
      ∨ path = tenantEnv t.linuxUser ∨ path = useraddHome t.linuxUser := by
  have hstate : segmentsOf t.openclawHome
      = homeSegments (getTenantHomeRoot p) ++ t.linuxUser.toList :: [".openclaw".toList] := by
    rw [ht.openclawHome]
    exact hp.inHome_joinPosix ht.linuxUser [".openclaw"] (by simpa using ordinary_openclaw)
  have hworkspace : segmentsOf t.workspaceRoot = homeSegments (getTenantHomeRoot p)
      ++ t.linuxUser.toList :: [(getTenantWorkspaceDirname p).toList] := by
    rw [ht.workspaceRoot]
    exact hp.inHome_joinPosix ht.linuxUser [getTenantWorkspaceDirname p]
      (by simpa using hp.workspace)
  unfold buildDecommissionPlan at hstep
  rw [List.mem_append, List.mem_append] at hstep
  rcases hstep with (hstep | hstep) | hstep
  · simp only [Tenant.plan, List.mem_cons, List.not_mem_nil, or_false] at hstep
    rcases hstep with rfl | rfl
    · exact absurd hpath List.not_mem_nil
    · exact .inr (.inl (List.mem_singleton.mp hpath))
  · split at hstep
    · simp only [Tenant.plan, List.mem_cons, List.not_mem_nil, or_false] at hstep
      rcases hstep with rfl | rfl
      · rw [List.mem_singleton.mp hpath]
        exact .inl ⟨_, hstate, List.cons_ne_nil _ _⟩
      · rw [List.mem_singleton.mp hpath]
        exact .inl ⟨_, hworkspace, List.cons_ne_nil _ _⟩
    · exact absurd hstep List.not_mem_nil
  · split at hstep
    · rw [List.mem_singleton] at hstep
      subst hstep
      exact .inr (.inr (List.mem_singleton.mp hpath))
    · exact absurd hstep List.not_mem_nil

/-- What a bootstrap creates is in the home of its tenant, or it is its env file, one of the
two shared paths under `/etc`, or the home of its account. -/
theorem created_bootstrapPlan {step : ProvisionStep}
    (hstep : step ∈ t.bootstrapPlan p) {path : String} (hpath : path ∈ created step) :
    (InHome p t.linuxUser path ∨ path = tenantEnv t.linuxUser
      ∨ path ∈ ["/etc/openclaw-tenants", systemdUnit]) ∨ path = useraddHome t.linuxUser := by
  unfold Tenant.bootstrapPlan buildBootstrapPlan at hstep
  simp only [Tenant.plan, List.mem_cons, List.not_mem_nil, or_false] at hstep
  rcases hstep with rfl | rfl | rfl | rfl | rfl | rfl | rfl | rfl | rfl | rfl
  · exact .inr (List.mem_singleton.mp hpath)
  · rw [List.mem_singleton.mp hpath]
    exact .inl (.inl (inHome_openclawHome hp ht))
  · rw [List.mem_singleton.mp hpath]
    exact .inl (.inl (inHome_workspaceRoot hp ht))
  · rw [List.mem_singleton.mp hpath,
      show "/openclaw.json" = "/" ++ "openclaw.json" by decide,
      ← String.append_assoc]
    exact .inl (.inl ((inHome_openclawHome hp ht).append _))
  · exact absurd hpath List.not_mem_nil
  · rw [List.mem_singleton.mp hpath]
    exact .inl (.inr (.inr List.mem_cons_self))
  · rw [List.mem_singleton.mp hpath]
    exact .inl (.inr (.inr (List.mem_cons_of_mem _ List.mem_cons_self)))
  · exact .inl (.inr (.inl (List.mem_singleton.mp hpath)))
  · exact absurd hpath List.not_mem_nil
  · exact absurd hpath List.not_mem_nil

end Plans

/-! ## The homes of the accounts -/

theorem segmentsOf_useraddHome {u : String} (hu : isSafeUser u = true) :
    segmentsOf (useraddHome u) = ["home".toList, u.toList] := by
  have hpath : useraddHome u = absolutePath ["home".toList, u.toList] := by
    unfold useraddHome absolutePath Posix.absolute
    rw [← String.toList_inj, String.toList_ofList,
      List.intercalate_cons_of_ne_nil (List.cons_ne_nil _ _), List.intercalate_singleton,
      String.toList_append]
    rfl
  rw [hpath]
  refine segmentsOf_absolutePath (List.cons_ne_nil _ _) fun seg hseg => ?_
  rcases List.mem_cons.mp hseg with rfl | hseg
  · decide
  · rw [List.mem_singleton.mp hseg]
    exact ((isSafeUser_iff u).mp hu).ordinary

theorem segmentsOf_shared {path : String}
    (h : path ∈ ["/etc/openclaw-tenants", systemdUnit]) :
    ∃ more, segmentsOf path = "etc".toList :: more ∧
      (more = ["openclaw-tenants".toList] ∨ more = ["systemd".toList,
        "system".toList, "openclaw-gateway@.service".toList]) := by
  rcases List.mem_cons.mp h with rfl | h
  · exact ⟨_, by decide, Or.inl rfl⟩
  · rw [List.mem_singleton.mp h]
    exact ⟨_, by decide, Or.inr rfl⟩

/-- **What is removed contains nothing that is created for another tenant**,
and neither of the shared paths. -/
theorem not_contains_created {p : Process} (hp : HomesApart p) {a b : String}
    (ha : isSafeUser a = true) (hb : isSafeUser b = true) (hne : a ≠ b)
    {path path' : String} (hpath : InHome p a path ∨ path = tenantEnv a)
    (hpath' : InHome p b path' ∨ path' = tenantEnv b
      ∨ path' ∈ ["/etc/openclaw-tenants", systemdUnit]) :
    ¬ Posix.Contains path.toList path'.toList := by
  have henv := segmentsOf_tenantEnv ha
  rcases hpath with hin | rfl
  · rcases hpath' with hin' | rfl | hshared
    · exact hin.not_contains hin' hne
    · exact (hp.not_contains_etc (segmentsOf_tenantEnv hb) hin).2
    · obtain ⟨more, hmore, -⟩ := segmentsOf_shared hshared
      exact (hp.not_contains_etc hmore hin).2
  · rcases hpath' with hin' | rfl | hshared
    · exact (hp.not_contains_etc henv hin').1
    · intro h
      replace h : segmentsOf (tenantEnv a) <+: segmentsOf (tenantEnv b) := h
      rw [henv, segmentsOf_tenantEnv hb] at h
      have hfile := List.cons.inj (List.cons.inj (List.cons.inj
        (h.eq_of_length rfl)).2).2
      rw [String.toList_append, String.toList_append,
        List.append_cancel_right_eq] at hfile
      exact hne (String.toList_inj.mp hfile.1)
    · obtain ⟨more, hmore, hcases⟩ := segmentsOf_shared hshared
      intro h
      replace h : segmentsOf (tenantEnv a) <+: segmentsOf path' := h
      rw [henv, hmore, List.cons_prefix_cons] at h
      rcases hcases with rfl | rfl
      · have hlength := h.2.length_le
        simp at hlength
      · have hfirst := (List.cons_prefix_cons.mp h.2).1
        exact absurd hfirst (by decide)

section AccountHomes

variable {p : Process} (hp : HomesApart p) {a b : String}

/-- The home of an account and what lies under `/etc` do not contain each other. -/
theorem not_contains_useraddHome_etc (ha : isSafeUser a = true) {path : String}
    {more : List (List Char)} (hpath : segmentsOf path = "etc".toList :: more) :
    ¬ Posix.Contains (useraddHome a).toList path.toList
      ∧ ¬ Posix.Contains path.toList (useraddHome a).toList := by
  have hhome := segmentsOf_useraddHome ha
  refine ⟨fun h => ?_, fun h => ?_⟩
  · replace h : segmentsOf (useraddHome a) <+: segmentsOf path := h
    rw [hhome, hpath, List.cons_prefix_cons] at h
    exact absurd h.1 (by decide)
  · replace h : segmentsOf path <+: segmentsOf (useraddHome a) := h
    rw [hhome, hpath, List.cons_prefix_cons] at h
    exact absurd h.1 (by decide)

theorem not_contains_useraddHome (ha : isSafeUser a = true) (hb : isSafeUser b = true)
    (hne : a ≠ b) : ¬ Posix.Contains (useraddHome a).toList (useraddHome b).toList := by
  intro h
  replace h : segmentsOf (useraddHome a) <+: segmentsOf (useraddHome b) := h
  rw [segmentsOf_useraddHome ha, segmentsOf_useraddHome hb] at h
  exact hne (String.toList_inj.mp (List.cons_prefix_cons.mp
    (List.cons_prefix_cons.mp h).2).1)

include hp

/-- **The home of an account contains what is in the home of another tenant** exactly if the
home root is in the home of that account. Where the root is `/home` itself, the two paths
branch off at the user names. -/
theorem contains_useraddHome_iff (ha : isSafeUser a = true) (hne : a ≠ b) {path : String}
    (hpath : InHome p b path) :
    Posix.Contains (useraddHome a).toList path.toList
      ↔ Posix.Contains (useraddHome a).toList (getTenantHomeRoot p).toList := by
  obtain ⟨more, hpath⟩ := hpath
  change segmentsOf (useraddHome a) <+: segmentsOf path
    ↔ segmentsOf (useraddHome a) <+: segmentsOf (getTenantHomeRoot p)
  rw [segmentsOf_useraddHome ha, hpath, homeSegments_eq_segmentsOf]
  have hroot := homeSegments_ne_nil hp.homeRoot
  rw [homeSegments_eq_segmentsOf] at hroot
  match segmentsOf (getTenantHomeRoot p), hroot with
  | [seg], _ =>
    refine iff_of_false (fun h => ?_) (fun h => ?_)
    · rw [List.singleton_append, List.cons_prefix_cons, List.cons_prefix_cons] at h
      exact hne (String.toList_inj.mp h.2.1)
    · exact absurd h.length_le (by simp)
  | seg :: seg' :: rest, _ => simp [List.cons_prefix_cons]

/-- What a decommission removes of the tenant's home lies below `/home/<user>` at the
earliest, and so does not contain the home of another account. -/
theorem not_contains_accountHome (hb : isSafeUser b = true) {path : String}
    {more : List (List Char)} (hmore : more ≠ [])
    (hpath : segmentsOf path = homeSegments (getTenantHomeRoot p) ++ a.toList :: more) :
    ¬ Posix.Contains path.toList (useraddHome b).toList := by
  intro h
  replace h : segmentsOf path <+: segmentsOf (useraddHome b) := h
  rw [segmentsOf_useraddHome hb, hpath] at h
  have hlength := h.length_le
  have hroot := List.length_pos_of_ne_nil (homeSegments_ne_nil hp.homeRoot)
  have hrest := List.length_pos_of_ne_nil hmore
  rw [List.length_append, List.length_cons, List.length_cons, List.length_singleton] at hlength
  omega

end AccountHomes

/-- **Tenants do not touch each other exactly if no account has the home root in its home**,
in every reachable table. What the plans name keeps apart in any case; the paths that are
removed by `rm` lie in the home below the root, and the one that `userdel -r` removes is the
home that `useradd -m` made, which is another directory where the root is not `/home`. -/
theorem decommission_separate_iff {site : Site} (hp : HomesApart site.web)
    (as : List Action) :
    Separate site.web ((controlPlane site).state .initial as)
      ↔ RootOutsideHomes site.web ((controlPlane site).state .initial as) := by
  have hrows := tenantRows_run site as
  constructor
  · intro hseparate i j t u ht hu hij hcontains
    have htw := hrows.wellFormed ht
    have huw := hrows.wellFormed hu
    have hne : t.linuxUser ≠ u.linuxUser := fun heq => hij (hrows.unique ht hu heq)
    -- the account is removed, and the state directory of the other tenant is in its home
    have huserdel := (hseparate ht hu hij ⟨true, false⟩
      _ (List.mem_append_right _ List.mem_cons_self)).2 _ List.mem_cons_self
    refine huserdel.1 _ (List.mem_cons_of_mem _ List.mem_cons_self) u.openclawHome
      List.mem_cons_self ?_
    exact (contains_useraddHome_iff hp htw.linuxUser hne (inHome_openclawHome hp huw)).mpr
      hcontains
  · intro houtside i j t u ht hu hij options step hstep
    have htw := hrows.wellFormed ht
    have huw := hrows.wellFormed hu
    have hne : t.linuxUser ≠ u.linuxUser := fun heq => hij (hrows.unique ht hu heq)
    have hroot := houtside ht hu hij
    refine ⟨?_, fun path hpath => ?_⟩
    · obtain ⟨form, hform, operand, hcommand, hoperand⟩ :=
        decommissionPlan_operand hp htw options hstep
      refine ⟨form, hform, operand, hcommand, ?_⟩
      rcases hoperand with rfl | rfl | rfl | hin
      · exact foreignTo_user htw hne
      · exact foreignTo_service htw huw hne
      · exact foreignTo_env hp htw huw hne
      · exact foreignTo_of_inHome hp huw hne hin
    have hshared : ∀ path' ∈ ["/etc/openclaw-tenants", systemdUnit],
        ¬ Posix.Contains path.toList path'.toList := by
      intro path' hpath'
      rcases removed_decommissionPlan hp htw options hstep hpath with ⟨more, hmore, -⟩ | rfl | rfl
      · exact not_contains_created hp htw.linuxUser huw.linuxUser hne (.inl ⟨more, hmore⟩)
          (.inr (.inr hpath'))
      · exact not_contains_created hp htw.linuxUser huw.linuxUser hne (.inr rfl)
          (.inr (.inr hpath'))
      · obtain ⟨more, hmore, -⟩ := segmentsOf_shared hpath'
        exact (not_contains_useraddHome_etc htw.linuxUser hmore).1
    refine ⟨fun step' hstep' path' hpath' => ?_, hshared _ List.mem_cons_self,
      hshared _ (List.mem_cons_of_mem _ List.mem_cons_self)⟩
    rcases removed_decommissionPlan hp htw options hstep hpath
      with ⟨more, hmore, hlong⟩ | rfl | rfl
    all_goals rcases created_bootstrapPlan hp huw hstep' hpath' with hcreated | rfl
    · exact not_contains_created hp htw.linuxUser huw.linuxUser hne (.inl ⟨more, hmore⟩) hcreated
    · exact not_contains_accountHome hp huw.linuxUser hlong hmore
    · exact not_contains_created hp htw.linuxUser huw.linuxUser hne (.inr rfl) hcreated
    · exact (not_contains_useraddHome_etc huw.linuxUser (segmentsOf_tenantEnv htw.linuxUser)).2
    · rcases hcreated with hin | rfl | hpath'
      · exact fun h => hroot ((contains_useraddHome_iff hp htw.linuxUser hne hin).mp h)
      · exact (not_contains_useraddHome_etc htw.linuxUser
          (segmentsOf_tenantEnv huw.linuxUser)).1
      · exact hshared _ hpath'
    · exact not_contains_useraddHome htw.linuxUser huw.linuxUser hne

/-- Two tenants, the user name of one beginning with that of the other. -/
def sampleNeighbours : List Action :=
  [.createTenant (sampleRequest true) "ann",
    .createTenant (.obj [("slug", .str "alice-b"), ("display_name", .str "Alice B"),
      ("linux_user", .str "alice-b"), ("gateway_port", .num (.finite 20002))])
      "ann"]

theorem homesApart_sample : HomesApart sampleSite.web :=
  ⟨by decide, by decide, by decide⟩

/-- Homes below `/home` are apart: `alice` and `alice-b` do not touch each other. -/
theorem decommission_separate_neighbours :
    Separate sampleSite.web ((controlPlane sampleSite).state .initial sampleNeighbours) := by
  refine (decommission_separate_iff homesApart_sample sampleNeighbours).mpr ?_
  intro i j t u ht _ _
  have huser := ((tenantRows_run sampleSite sampleNeighbours).wellFormed ht).linuxUser
  intro h
  replace h : segmentsOf (useraddHome t.linuxUser)
    <+: segmentsOf (getTenantHomeRoot sampleSite.web) := h
  rw [segmentsOf_useraddHome huser,
    show segmentsOf (getTenantHomeRoot sampleSite.web) = ["home".toList] by decide] at h
  exact absurd h.length_le (by simp)

/-- A site that keeps the homes of the tenants in the home of the user `openclaw`. -/
def sampleNestedSite : Site :=
  { sampleSite with
    web := { sampleSite.web with
      env := fun key =>
        if key = "MC_TENANT_HOME_ROOT" then some "/home/openclaw/tenants"
        else sampleSite.web.env key } }

/-- A tenant whose user is `openclaw`, and another one. -/
def sampleNested : List Action :=
  [.createTenant (.obj [("slug", .str "openclaw"), ("display_name", .str "OpenClaw"),
      ("linux_user", .str "openclaw"), ("gateway_port", .num (.finite 20001))]) "ann",
    .createTenant (.obj [("slug", .str "bob"), ("display_name", .str "Bob"),
      ("linux_user", .str "bob"), ("gateway_port", .num (.finite 20002))]) "ann"]

/-- **Removing the account of `openclaw` removes the state of `bob`**: the home that
`useradd -m` made has the homes of all tenants in it. -/
theorem not_decommission_separate_sampleNested :
    HomesApart sampleNestedSite.web
      ∧ ¬ Separate sampleNestedSite.web
        ((controlPlane sampleNestedSite).state .initial sampleNested) := by
  refine ⟨⟨by decide, by decide, by decide⟩, fun hseparate => ?_⟩
  have hone : (((controlPlane sampleNestedSite).state .initial
      sampleNested).tenants.row 1).map (·.linuxUser) = some "openclaw" := rfl
  have htwo : (((controlPlane sampleNestedSite).state .initial
      sampleNested).tenants.row 2).map (·.openclawHome)
        = some "/home/openclaw/tenants/bob/.openclaw" := rfl
  obtain ⟨t, ht, htuser⟩ := Option.map_eq_some_iff.mp hone
  obtain ⟨u, hu, huhome⟩ := Option.map_eq_some_iff.mp htwo
  have huserdel := (hseparate ht hu (by decide) ⟨true, false⟩
    _ (List.mem_append_right _ List.mem_cons_self)).2 _ List.mem_cons_self
  refine huserdel.1 _ (List.mem_cons_of_mem _ List.mem_cons_self) u.openclawHome
    List.mem_cons_self ?_
  rw [huhome, show t.plan.linuxUser = "openclaw" from htuser]
  decide

end MissionControl
