import MissionControl.TenantPaths

/-!
# What the daemon runs as root

`Confined` is the daemon's purpose as a relation: the eight tools, and for
each the argument lists that touch one tenant and nothing else – a user name
of the grammar, the directories of that user under the home root, the
tenant's env file and service, and the two shared paths under `/etc`.

`validateCommand_eq_none_iff` compares the validator with it, branch by
branch. They agree but for `chown`, whose branch splits the owner at its
colons and reads only the first two pieces: an owner with more colons is
accepted too (`LooseChown`), and it is not confined.
-/

namespace MissionControl

/-- The tools the daemon knows, by the last segment of the command. -/
inductive Tool where
  | useradd | install | cp | chown | rm | userdel | true | systemctl
  deriving DecidableEq

def Tool.name : Tool → String
  | useradd => "useradd"
  | install => "install"
  | cp => "cp"
  | chown => "chown"
  | rm => "rm"
  | userdel => "userdel"
  | true => "true"
  | systemctl => "systemctl"

namespace Daemon

/-- The configuration the results assume: an absolute normal home root other
than `/`, and a workspace directory that is one ordinary path segment. -/
structure WellConfigured (d : Daemon) : Prop where
  homeRoot : Posix.IsNormalAbsolute d.tenantHomeRoot.toList
  workspace : Posix.Ordinary d.tenantWorkspaceDirname.toList

/-- The home of a user under the home root. -/
def home (d : Daemon) (u : String) : String :=
  joinPosix [d.tenantHomeRoot] ++ "/" ++ u

/-- The directories of a user that the daemon handles. -/
def tenantDirs (d : Daemon) (u : String) : List String :=
  [d.home u ++ "/.openclaw", d.home u ++ "/" ++ d.tenantWorkspaceDirname]

end Daemon

def tenantEnv (u : String) : String := "/etc/openclaw-tenants/" ++ u ++ ".env"

def tenantService (u : String) : String := "openclaw-gateway@" ++ u ++ ".service"

def systemdUnit : String := "/etc/systemd/system/openclaw-gateway@.service"

/-- **The argument lists that stay within the tenant of a user**, tool by
tool. -/
inductive ConfinedTo (d : Daemon) (u : String) : Tool → List String → Prop
  | useradd : ConfinedTo d u .useradd ["-m", "-s", "/bin/bash", u]
  | userdel : ConfinedTo d u .userdel ["-r", u]
  | installTenantsDir {mode} (hmode : mode ∈ ["0750", "0700"]) :
    ConfinedTo d u .install
      ["-d", "-m", mode, "-o", "root", "-g", "root", "/etc/openclaw-tenants"]
  | installDir {mode target} (hmode : mode ∈ ["0750", "0700"])
      (htarget : target ∈ d.tenantDirs u) :
    ConfinedTo d u .install ["-d", "-m", mode, "-o", u, "-g", u, target]
  | copyOpenclawJson (hset : d.templateOpenclawJson ≠ "") :
    ConfinedTo d u .cp
      ["-n", d.templateOpenclawJson, d.home u ++ "/.openclaw/openclaw.json"]
  | copyUnit
      (hne : d.templateOpenclawJson = ""
        ∨ d.gatewaySystemdTemplate ≠ d.templateOpenclawJson) :
    ConfinedTo d u .cp ["-n", d.gatewaySystemdTemplate, systemdUnit]
  | copyEnv {source} (hsource : regExpTest d.provisionerEnvRe source = true)
      (hne : d.templateOpenclawJson = "" ∨ source ≠ d.templateOpenclawJson)
      (hunit : source ≠ d.gatewaySystemdTemplate) :
    ConfinedTo d u .cp ["-f", source, tenantEnv u]
  | chown : ConfinedTo d u .chown ["-R", u ++ ":" ++ u, d.home u]
  | removeEnv : ConfinedTo d u .rm ["-f", tenantEnv u]
  | removeDir {target} (htarget : target ∈ d.tenantDirs u) :
    ConfinedTo d u .rm ["-rf", target]
  | true : ConfinedTo d u .true []
  | daemonReload : ConfinedTo d u .systemctl ["daemon-reload"]
  | enable : ConfinedTo d u .systemctl ["enable", "--now", tenantService u]
  | disable : ConfinedTo d u .systemctl ["disable", "--now", tenantService u]

/-- **The argument lists that stay within one tenant**: the one of some user
name of the grammar. -/
def Confined (d : Daemon) (tool : Tool) (args : List String) : Prop :=
  ∃ u, isSafeUser u = true ∧ ConfinedTo d u tool args

theorem Confined.shared {d : Daemon} {tool : Tool} {args : List String}
    (h : ConfinedTo d "root" tool args) : Confined d tool args :=
  ⟨"root", by decide, h⟩

/-- The further argument lists of `chown`: an owner with more pieces after
the two that are read. -/
def LooseChown (d : Daemon) (tool : Tool) (args : List String) : Prop :=
  tool = .chown ∧ ∃ u rest, isSafeUser u = true
    ∧ args = ["-R", u ++ ":" ++ u ++ ":" ++ rest, d.home u]

/-! ## The branches of `validateCommand` -/

def Tool.validate (d : Daemon) : Tool → List String → Option String
  | useradd => validateUseradd
  | install => validateInstall d
  | cp => validateCp d
  | chown => validateChown d
  | rm => validateRm d
  | userdel => validateUserdel
  | true => validateTrue
  | systemctl => validateSystemctl

theorem validateCommand_eq_validate {d : Daemon} {tool : Tool} {command : String}
    {args : List String} (hb : basename command = tool.name) :
    validateCommand d command args = tool.validate d args := by
  have hne : command ≠ "" := by
    rintro rfl
    cases tool <;> exact absurd hb (by decide)
  unfold validateCommand
  dsimp only
  rw [if_neg hne, hb]
  cases tool <;> rfl

theorem exists_tool_of_accepted {d : Daemon} {command : String}
    {args : List String} (h : validateCommand d command args = none) :
    ∃ tool : Tool, basename command = tool.name := by
  by_contra hno
  have hne : ∀ tool : Tool, ¬ basename command = tool.name := not_exists.mp hno
  unfold validateCommand at h
  dsimp only at h
  by_cases hempty : command = ""
  · rw [if_pos hempty] at h
    cases h
  · -- every test of the chain fails
    rw [if_neg hempty, if_neg (c := basename command = "useradd") (hne .useradd),
      if_neg (c := basename command = "install") (hne .install),
      if_neg (c := basename command = "cp") (hne .cp),
      if_neg (c := basename command = "chown") (hne .chown),
      if_neg (c := basename command = "rm") (hne .rm),
      if_neg (c := basename command = "userdel") (hne .userdel),
      if_neg (c := basename command = "true") (hne .true),
      if_neg (c := basename command = "systemctl") (hne .systemctl)] at h
    cases h

theorem validateUseradd_iff (d : Daemon) (args : List String) :
    validateUseradd args = none ↔ Confined d .useradd args := by
  refine ⟨fun h => ?_, fun h => ?_⟩
  · unfold validateUseradd at h
    split at h
    · next a b shell user =>
      split at h
      · exact absurd h (by simp)
      · next hfixed =>
        split at h
        · exact absurd h (by simp)
        · next hu =>
          simp only [not_or, not_not] at hfixed
          obtain ⟨rfl, rfl, rfl⟩ := hfixed
          exact ⟨user, by simpa using hu, .useradd⟩
    · exact absurd h (by simp)
  · obtain ⟨u, hu, h⟩ := h
    cases h with
    | useradd => simp [validateUseradd, hu]

theorem validateUserdel_iff (d : Daemon) (args : List String) :
    validateUserdel args = none ↔ Confined d .userdel args := by
  refine ⟨fun h => ?_, fun h => ?_⟩
  · unfold validateUserdel at h
    split at h
    · next flag user =>
      split at h
      · exact absurd h (by simp)
      · next hflag =>
        split at h
        · exact absurd h (by simp)
        · next hu =>
          obtain rfl : flag = "-r" := not_not.mp hflag
          exact ⟨user, by simpa using hu, .userdel⟩
    · exact absurd h (by simp)
  · obtain ⟨u, hu, h⟩ := h
    cases h with
    | userdel => simp [validateUserdel, hu]

theorem validateTrue_iff (d : Daemon) (args : List String) :
    validateTrue args = none ↔ Confined d .true args := by
  refine ⟨fun h => ?_, fun h => ?_⟩
  · unfold validateTrue at h
    split at h
    · exact .shared .true
    · exact absurd h (by simp)
  · obtain ⟨u, -, h⟩ := h
    cases h with
    | true => rfl

theorem validateSystemctl_iff (d : Daemon) (args : List String) :
    validateSystemctl args = none ↔ Confined d .systemctl args := by
  have hservice : ∀ u, isSafeUser u = true →
      regExpTest serviceRe (tenantService u) = true :=
    fun u hu => (serviceRe_iff _).mpr ⟨u, hu, rfl⟩
  refine ⟨fun h => ?_, fun h => ?_⟩
  · unfold validateSystemctl at h
    split at h
    · exact .shared .daemonReload
    · split at h
      · next hunit =>
        obtain ⟨u, hu, rfl⟩ := (serviceRe_iff _).mp hunit
        exact ⟨u, hu, .enable⟩
      · exact absurd h (by simp)
    · split at h
      · next hunit =>
        obtain ⟨u, hu, rfl⟩ := (serviceRe_iff _).mp hunit
        exact ⟨u, hu, .disable⟩
      · exact absurd h (by simp)
    · exact absurd h (by simp)
  · obtain ⟨u, hu, h⟩ := h
    cases h with
    | daemonReload => rfl
    | enable => simp [validateSystemctl, hservice u hu]
    | disable => simp [validateSystemctl, hservice u hu]

theorem validateRm_iff (d : Daemon) (args : List String) :
    validateRm d args = none ↔ Confined d .rm args := by
  refine ⟨fun h => ?_, fun h => ?_⟩
  · unfold validateRm at h
    split at h
    · next flag target =>
      split at h
      · next hflag =>
        subst hflag
        split at h
        · exact absurd h (by simp)
        · next htest =>
          obtain ⟨u, hu, rfl⟩ := (tenantEnvRe_iff _).mp (by simpa using htest)
          exact ⟨u, hu, .removeEnv⟩
      · split at h
        · next hflag =>
          subst hflag
          split at h
          · exact absurd h (by simp)
          · next htest =>
            obtain ⟨u, hu, htarget⟩ :=
              (removableRe_iff d _).mp (by simpa using htest)
            refine ⟨u, hu, .removeDir ?_⟩
            simpa [Daemon.tenantDirs, Daemon.home] using htarget
        · exact absurd h (by simp)
    · exact absurd h (by simp)
  · obtain ⟨u, hu, h⟩ := h
    cases h with
    | removeEnv =>
      have htest : regExpTest tenantEnvRe (tenantEnv u) = true :=
        (tenantEnvRe_iff _).mpr ⟨u, hu, rfl⟩
      simp [validateRm, htest]
    | @removeDir target htarget =>
      have htest : regExpTest d.removableRe target = true :=
        (removableRe_iff d _).mpr ⟨u, hu, by
          simpa [Daemon.tenantDirs, Daemon.home] using htarget⟩
      simp [validateRm, htest]

theorem validateCp_iff (d : Daemon) (args : List String) :
    validateCp d args = none ↔ Confined d .cp args := by
  refine ⟨fun h => ?_, fun h => ?_⟩
  · unfold validateCp at h
    split at h
    · next flag source target =>
      split at h
      · exact absurd h (by simp)
      · split at h
        · next hjson =>
          obtain ⟨hset, rfl⟩ := hjson
          split at h
          · exact absurd h (by simp)
          · next hflag =>
            obtain rfl : flag = "-n" := not_not.mp hflag
            split at h
            · exact absurd h (by simp)
            · next htest =>
              obtain ⟨u, hu, rfl⟩ :=
                (openclawJsonRe_iff d _).mp (by simpa using htest)
              exact ⟨u, hu, .copyOpenclawJson hset⟩
        · next hjson =>
          rw [not_and_or, not_not] at hjson
          split at h
          · next hunit =>
            subst hunit
            split at h
            · exact absurd h (by simp)
            · next hflag =>
              obtain rfl : flag = "-n" := not_not.mp hflag
              split at h
              · exact absurd h (by simp)
              · next htarget =>
                obtain rfl := not_not.mp htarget
                exact .shared (.copyUnit hjson)
          · next hunit =>
            split at h
            · next hsource =>
              split at h
              · exact absurd h (by simp)
              · next hflag =>
                obtain rfl : flag = "-f" := not_not.mp hflag
                split at h
                · exact absurd h (by simp)
                · next htest =>
                  obtain ⟨u, hu, rfl⟩ :=
                    (tenantEnvRe_iff _).mp (by simpa using htest)
                  exact ⟨u, hu, .copyEnv hsource hjson hunit⟩
            · exact absurd h (by simp)
    · exact absurd h (by simp)
  · obtain ⟨u, hu, h⟩ := h
    cases h with
    | copyOpenclawJson hset =>
      have htest : regExpTest d.openclawJsonRe
          (d.home u ++ "/.openclaw/openclaw.json") = true :=
        (openclawJsonRe_iff d _).mpr ⟨u, hu, rfl⟩
      simp [validateCp, hset, htest]
    | copyUnit hne =>
      have hjson : ¬ (d.templateOpenclawJson ≠ ""
          ∧ d.gatewaySystemdTemplate = d.templateOpenclawJson) := by
        rw [not_and_or, not_not]
        exact hne
      simp [validateCp, hjson, systemdUnit]
    | @copyEnv source hsource hne hunit =>
      have hjson : ¬ (d.templateOpenclawJson ≠ ""
          ∧ source = d.templateOpenclawJson) := by
        rw [not_and_or, not_not]
        exact hne
      have htest : regExpTest tenantEnvRe (tenantEnv u) = true :=
        (tenantEnvRe_iff _).mpr ⟨u, hu, rfl⟩
      simp [validateCp, hjson, hunit, hsource, htest]

/-! ## Branches that join paths -/

section Configured

variable {d : Daemon} (hd : d.WellConfigured)

include hd

theorem joinPosix_tenantDirs {u : String} (hu : isSafeUser u = true) :
    [joinPosix [d.tenantHomeRoot, u, ".openclaw"],
      joinPosix [d.tenantHomeRoot, u, d.tenantWorkspaceDirname]]
      = d.tenantDirs u := by
  have hord := ((isSafeUser_iff u).mp hu).ordinary
  rw [joinPosix_home_dir hd.homeRoot hord ordinary_openclaw,
    joinPosix_home_dir hd.homeRoot hord hd.workspace, String.append_assoc]
  rfl

theorem joinPosix_home_eq {u : String} (hu : isSafeUser u = true) :
    joinPosix [d.tenantHomeRoot, u] = d.home u :=
  joinPosix_home hd.homeRoot ((isSafeUser_iff u).mp hu).ordinary

theorem validateInstall_iff (args : List String) :
    validateInstall d args = none ↔ Confined d .install args := by
  refine ⟨fun h => ?_, fun h => ?_⟩
  · unfold validateInstall at h
    split at h
    · next dFlag mFlag mode oFlag userA gFlag userB target =>
      split at h
      · exact absurd h (by simp)
      · next hflags =>
        simp only [not_or, not_not] at hflags
        obtain ⟨rfl, rfl, rfl, rfl⟩ := hflags
        split at h
        · exact absurd h (by simp)
        · next hmode =>
          rw [not_not] at hmode
          dsimp only at h
          split at h
          · exact absurd h (by simp)
          · next howner =>
            split at h
            · next htarget =>
              obtain ⟨⟨rfl, rfl⟩, rfl⟩ := htarget
              exact .shared (.installTenantsDir hmode)
            · split at h
              · exact absurd h (by simp)
              · next htarget =>
                -- `root` is a user name of the grammar too
                have huser : isSafeUser userA = true ∧ userA = userB := by
                  rw [not_and_or, not_not, not_not] at howner
                  rcases howner with ⟨rfl, rfl⟩ | ⟨hu, -, heq⟩
                  · exact ⟨by decide, rfl⟩
                  · exact ⟨hu, heq⟩
                obtain ⟨hu, rfl⟩ := huser
                rw [not_not, joinPosix_tenantDirs hd hu] at htarget
                exact ⟨userA, hu, .installDir hmode htarget⟩
    · exact absurd h (by simp)
  · obtain ⟨u, hu, h⟩ := h
    cases h with
    | installTenantsDir hmode => simp [validateInstall, hmode]
    | @installDir mode target hmode htarget =>
      rw [← joinPosix_tenantDirs hd hu] at htarget
      simp only [validateInstall, hmode, hu, htarget, ne_eq, not_true_eq_false,
        or_self, if_false, and_self, and_false, ite_self]

/-- The branch of `chown` accepts what is confined, and the owners with
further pieces. -/
theorem validateChown_iff (args : List String) :
    validateChown d args = none
      ↔ Confined d .chown args ∨ LooseChown d .chown args := by
  refine ⟨fun h => ?_, fun h => ?_⟩
  · unfold validateChown at h
    split at h
    · next rFlag owner target =>
      split at h
      · exact absurd h (by simp)
      · next hflag =>
        obtain rfl : rFlag = "-R" := not_not.mp hflag
        split at h
        · next a b more hsplit =>
          dsimp only at h
          split at h
          · exact absurd h (by simp)
          · next howner =>
            split at h
            · exact absurd h (by simp)
            · next htarget =>
              simp only [not_or, not_not, Bool.not_eq_true,
                Bool.not_eq_false'] at howner
              obtain ⟨hu, heq⟩ := howner
              obtain rfl : a = b := by
                simpa using congrArg String.toList heq
              rw [not_not, joinPosix_home_eq hd hu] at htarget
              subst htarget
              -- the owner is put together again from its pieces
              have hcat : owner.toList = [':'].intercalate (a :: a :: more) := by
                rw [← hsplit, List.intercalate_splitOn]
              rw [List.intercalate_cons_of_ne_nil (List.cons_ne_nil _ _)] at hcat
              by_cases hmore : more = []
              · subst hmore
                rw [List.intercalate_singleton] at hcat
                have howner : owner
                    = String.ofList a ++ ":" ++ String.ofList a := by
                  rw [← String.toList_inj, hcat]
                  simp
                exact Or.inl ⟨String.ofList a, hu, howner ▸ .chown⟩
              · rw [List.intercalate_cons_of_ne_nil hmore] at hcat
                refine Or.inr ⟨rfl, String.ofList a,
                  String.ofList ([':'].intercalate more), hu, ?_⟩
                have howner : owner = String.ofList a ++ ":" ++ String.ofList a
                    ++ ":" ++ String.ofList ([':'].intercalate more) := by
                  rw [← String.toList_inj, hcat]
                  simp
                rw [howner]
        · exact absurd h (by simp)
    · exact absurd h (by simp)
  · -- the first two pieces of an accepted owner are the user name
    have haccept : ∀ u (owner : String) more, isSafeUser u = true →
        owner.toList.splitOn ':' = u.toList :: u.toList :: more →
        validateChown d ["-R", owner, d.home u] = none := by
      intro u owner more hu hsplit
      simp [validateChown, hsplit, hu, joinPosix_home_eq hd hu]
    have hcolon : ∀ u, isSafeUser u = true → ':' ∉ u.toList :=
      fun u hu => ((isSafeUser_iff u).mp hu).notMem (by decide)
    rcases h with ⟨u, hu, h⟩ | ⟨-, u, rest, hu, rfl⟩
    · cases h with
      | chown =>
        refine haccept u _ [] hu ?_
        rw [show (u ++ ":" ++ u).toList = u.toList ++ ':' :: u.toList by simp,
          List.splitOn_append_cons_self_of_not_mem (hcolon u hu),
          List.splitOn_eq_singleton (hcolon u hu)]
    · refine haccept u _ (rest.toList.splitOn ':') hu ?_
      rw [show (u ++ ":" ++ u ++ ":" ++ rest).toList
            = u.toList ++ ':' :: (u.toList ++ ':' :: rest.toList) by simp,
        List.splitOn_append_cons_self_of_not_mem (hcolon u hu),
        List.splitOn_append_cons_self_of_not_mem (hcolon u hu)]

/-- **The branch of a tool against its purpose.** -/
theorem validate_iff (tool : Tool) (args : List String) :
    tool.validate d args = none
      ↔ Confined d tool args ∨ LooseChown d tool args := by
  have hloose : tool ≠ .chown →
      (Confined d tool args ↔ Confined d tool args ∨ LooseChown d tool args) :=
    fun hne => (or_iff_left fun h => hne h.1).symm
  cases tool with
  | useradd => exact (validateUseradd_iff d args).trans (hloose (by decide))
  | install => exact (validateInstall_iff hd args).trans (hloose (by decide))
  | cp => exact (validateCp_iff d args).trans (hloose (by decide))
  | chown => exact validateChown_iff hd args
  | rm => exact (validateRm_iff d args).trans (hloose (by decide))
  | userdel => exact (validateUserdel_iff d args).trans (hloose (by decide))
  | true => exact (validateTrue_iff d args).trans (hloose (by decide))
  | systemctl =>
    exact (validateSystemctl_iff d args).trans (hloose (by decide))

/-- **The validator against its purpose**: a command is accepted exactly
when its last segment names a tool and its arguments are confined, or are
those of a `chown` with further pieces in its owner. -/
theorem validateCommand_eq_none_iff (command : String) (args : List String) :
    validateCommand d command args = none
      ↔ ∃ tool : Tool, basename command = tool.name
        ∧ (Confined d tool args ∨ LooseChown d tool args) := by
  refine ⟨fun h => ?_, fun ⟨tool, hb, hargs⟩ => ?_⟩
  · obtain ⟨tool, hb⟩ := exists_tool_of_accepted h
    rw [validateCommand_eq_validate hb] at h
    exact ⟨tool, hb, (validate_iff hd tool args).mp h⟩
  · rw [validateCommand_eq_validate hb]
    exact (validate_iff hd tool args).mpr hargs

end Configured

end MissionControl
