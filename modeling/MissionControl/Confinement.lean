import MissionControl.Allowlist

/-!
# What the daemon confines, and what it does not

Two questions about every request the daemon accepts. Its arguments: they
are confined to one tenant, and the paths in them are clean, exactly unless
the request is a `chown` whose owner has more than one colon – or the
configuration itself puts a line break into the path
(`validateCommand_confined_iff`). Its program: the validator looks at the
last segment of the command and the whole command is spawned, so the program
is one of the binaries of the planner exactly if the text before the last
segment is the directory the planner has for it (`spawned_program_iff`).
-/

namespace MissionControl

theorem Tool.name_injective : Function.Injective Tool.name := by
  intro a b h
  cases a <;> cases b <;> first | rfl | exact absurd h (by decide)

/-! ## Arguments -/

/-- The paths the tool of a command writes, creates or removes. -/
def targets : Tool → List String → List String
  | .install, [_, _, _, _, _, _, _, target] => [target]
  | .cp, [_, _, target] => [target]
  | .chown, [_, _, target] => [target]
  | .rm, [_, target] => [target]
  | _, _ => []

/-- **An absolute path of ordinary segments**: none of them is empty or
`..`. -/
def IsSegmented (target : String) : Prop :=
  ∃ segs, segs ≠ [] ∧ (∀ seg ∈ segs, Posix.Ordinary seg)
    ∧ target = absolutePath segs

/-- **A clean target**: an absolute path of ordinary segments on one line. -/
structure CleanTarget (target : String) : Prop where
  segmented : IsSegmented target
  newline : '\n' ∉ target.toList

/-- A line break that the configuration puts into a path: the path lies
under a home root that has one, or ends with a workspace directory that has
one. -/
def Daemon.BreaksLine (d : Daemon) (target : String) : Prop :=
  ((joinPosix [d.tenantHomeRoot] ++ "/").toList <+: target.toList
      ∧ '\n' ∈ d.tenantHomeRoot.toList)
    ∨ (("/" ++ d.tenantWorkspaceDirname).toList <:+ target.toList
      ∧ '\n' ∈ d.tenantWorkspaceDirname.toList)

/-- What there is to prove about a target: its segments, and where a line
break in it comes from. -/
def Daemon.Accounted (d : Daemon) (target : String) : Prop :=
  IsSegmented target ∧ ('\n' ∈ target.toList → d.BreaksLine target)

section Clean

variable {d : Daemon} (hd : d.WellConfigured)

include hd

theorem toList_homeRoot : (joinPosix [d.tenantHomeRoot]).toList
    = Posix.stripSlashes d.tenantHomeRoot.toList := by
  rw [joinPosix_eq hd.homeRoot [] (by simp), absolutePath,
    String.toList_ofList, (stripSlashes_homeRoot hd.homeRoot).1, List.map_nil,
    List.append_nil]

theorem newline_of_breaksLine {target : String} (h : d.BreaksLine target) :
    '\n' ∈ target.toList := by
  rcases h with ⟨hpre, hroot⟩ | ⟨hsuf, hdir⟩
  · refine hpre.subset ?_
    have hsplit := List.rdropWhile_append_rtakeWhile (p := (decide <| · = '/'))
      (l := d.tenantHomeRoot.toList)
    rw [String.toList_append, toList_homeRoot hd]
    rw [← hsplit] at hroot
    rcases List.mem_append.mp hroot with h | h
    · exact List.mem_append_left _ h
    · have := List.mem_rtakeWhile_imp h
      exact absurd this (by decide)
  · refine hsuf.subset ?_
    rw [String.toList_append]
    exact List.mem_append_right _ hdir

/-- **A path under the home of a user**, by the names below the home. -/
theorem accounted_home {u : String} (hu : isSafeUser u = true)
    (more : List (List Char)) (hmore : ∀ seg ∈ more, Posix.Ordinary seg)
    {target : String}
    (htarget : target = absolutePath
      (homeSegments d.tenantHomeRoot ++ [u.toList] ++ more))
    (hlast : ∀ seg ∈ more, '\n' ∈ seg → d.BreaksLine target) :
    d.Accounted target := by
  have hord := ((isSafeUser_iff u).mp hu).ordinary
  have hne := homeSegments_ne_nil hd.homeRoot
  have hall : ∀ seg ∈ homeSegments d.tenantHomeRoot ++ ([u.toList] ++ more),
      Posix.Ordinary seg := by
    refine ordinary_under_home hd.homeRoot (fun seg hseg => ?_)
    rcases List.mem_append.mp hseg with hseg | hseg
    · rw [List.mem_singleton.mp hseg]
      exact hord
    · exact hmore seg hseg
  rw [List.append_assoc] at htarget
  refine ⟨⟨_, List.append_ne_nil_of_left_ne_nil hne _, hall, htarget⟩, ?_⟩
  intro hmem
  -- the path is the stripped home root, the user name and the names below
  have htext : target.toList = Posix.stripSlashes d.tenantHomeRoot.toList
      ++ '/' :: ['/'].intercalate ([u.toList] ++ more) := by
    rw [htarget, absolutePath, String.toList_ofList, Posix.absolute,
      Posix.intercalate_append hne (List.append_ne_nil_of_left_ne_nil
        (List.cons_ne_nil _ _) more), (stripSlashes_homeRoot hd.homeRoot).1,
      Posix.absolute, List.cons_append, List.cons_append]
  have hunder : (joinPosix [d.tenantHomeRoot] ++ "/").toList
      <+: target.toList := by
    refine ⟨['/'].intercalate ([u.toList] ++ more), ?_⟩
    rw [htext, String.toList_append, toList_homeRoot hd]
    simp
  rw [htext] at hmem
  rcases List.mem_append.mp hmem with hmem | hmem
  · exact Or.inl ⟨hunder, (List.rdropWhile_prefix _ _).subset hmem⟩
  · rcases List.mem_cons.mp hmem with heq | hmem
    · exact absurd heq (by decide)
    rcases Posix.mem_intercalate hmem with heq | ⟨seg, hseg, hc⟩
    · exact absurd heq (by decide)
    rcases List.mem_append.mp hseg with hseg | hseg
    · rw [List.mem_singleton.mp hseg] at hc
      exact absurd hc (((isSafeUser_iff u).mp hu).notMem (by decide))
    · exact hlast seg hseg hc

theorem home_eq {u : String} (hu : isSafeUser u = true) :
    d.home u = absolutePath (homeSegments d.tenantHomeRoot ++ [u.toList]) := by
  have hord := ((isSafeUser_iff u).mp hu).ordinary
  rw [Daemon.home, ← joinPosix_home hd.homeRoot hord,
    joinPosix_eq hd.homeRoot [u] (by simpa using hord), List.map_cons,
    List.map_nil]

theorem home_append_eq {u : String} (hu : isSafeUser u = true) (m : String) :
    d.home u ++ "/" ++ m = absolutePath
      (homeSegments d.tenantHomeRoot ++ [u.toList] ++ [m.toList]) := by
  rw [home_eq hd hu, absolutePath_concat hd.homeRoot [u.toList] m]

theorem accounted_tenantDirs {u target : String} (hu : isSafeUser u = true)
    (htarget : target ∈ d.tenantDirs u) : d.Accounted target := by
  simp only [Daemon.tenantDirs, List.mem_cons, List.not_mem_nil,
    or_false] at htarget
  rcases htarget with rfl | rfl
  · refine accounted_home hd hu [".openclaw".toList]
      (by simpa using ordinary_openclaw) ?_ ?_
    · rw [← home_append_eq hd hu, String.append_assoc,
        show "/" ++ ".openclaw" = "/.openclaw" by decide]
    · intro seg hseg hc
      rw [List.mem_singleton.mp hseg] at hc
      exact absurd hc (by decide)
  · refine accounted_home hd hu [d.tenantWorkspaceDirname.toList]
      (by simpa using hd.workspace) (home_append_eq hd hu _) ?_
    intro seg hseg hc
    rw [List.mem_singleton.mp hseg] at hc
    refine Or.inr ⟨⟨(d.home u).toList, ?_⟩, hc⟩
    rw [String.append_assoc, ← String.toList_append]

theorem accounted_openclawJson {u : String} (hu : isSafeUser u = true) :
    d.Accounted (d.home u ++ "/.openclaw/openclaw.json") := by
  have htext : d.home u ++ "/.openclaw/openclaw.json"
      = d.home u ++ "/" ++ ".openclaw" ++ "/" ++ "openclaw.json" := by
    simp only [String.append_assoc]
    rw [show "/" ++ (".openclaw" ++ ("/" ++ "openclaw.json"))
      = "/.openclaw/openclaw.json" by decide]
  refine accounted_home hd hu [".openclaw".toList, "openclaw.json".toList]
    (by decide) ?_ ?_
  · rw [htext, home_append_eq hd hu, List.append_assoc,
      ← absolutePath_concat hd.homeRoot, List.append_assoc, List.append_assoc,
      List.append_assoc]
    rfl
  · intro seg hseg hc
    simp only [List.mem_cons, List.not_mem_nil, or_false] at hseg
    rcases hseg with rfl | rfl
    · exact absurd hc (by decide)
    · exact absurd hc (by decide)

end Clean

theorem CleanTarget.accounted {target : String} (h : CleanTarget target)
    (d : Daemon) : d.Accounted target :=
  ⟨h.segmented, fun hmem => absurd hmem h.newline⟩

theorem tenantEnv_eq {u : String} (hu : isSafeUser u = true) :
    tenantEnv u = absolutePath
        ["etc".toList, "openclaw-tenants".toList, (u ++ ".env").toList]
      ∧ ∀ seg ∈ ["etc".toList, "openclaw-tenants".toList,
          (u ++ ".env").toList], Posix.Ordinary seg := by
  have hslash : '/' ∉ u.toList :=
    ((isSafeUser_iff u).mp hu).notMem (by decide)
  have hlength : (u ++ ".env").toList.length = u.toList.length + 4 := by
    rw [String.toList_append, List.length_append,
      show ".env".toList.length = 4 by decide]
  have hfile : Posix.Ordinary (u ++ ".env").toList := by
    refine ⟨fun h => ?_, ?_, fun h => ?_, fun h => ?_⟩
    · simp [h] at hlength
    · simpa using hslash
    · simp [h] at hlength
    · simp [h] at hlength
  refine ⟨?_, ?_⟩
  · unfold tenantEnv absolutePath Posix.absolute
    rw [← String.toList_inj, String.toList_ofList,
      List.intercalate_cons_of_ne_nil (List.cons_ne_nil _ _),
      List.intercalate_cons_of_ne_nil (List.cons_ne_nil _ _),
      List.intercalate_singleton]
    simp only [String.toList_append, List.append_assoc]
    rw [show "/etc/openclaw-tenants/".toList
      = '/' :: ("etc".toList ++ (['/'] ++ ("openclaw-tenants".toList ++ ['/'])))
      by decide]
    simp only [List.append_assoc, List.cons_append]
  · rw [List.forall_mem_cons, List.forall_mem_cons, List.forall_mem_singleton]
    exact ⟨by decide, by decide, hfile⟩

theorem cleanTarget_tenantEnv {u : String} (hu : isSafeUser u = true) :
    CleanTarget (tenantEnv u) := by
  obtain ⟨hpath, hsegs⟩ := tenantEnv_eq hu
  refine ⟨⟨_, List.cons_ne_nil _ _, hsegs, hpath⟩, ?_⟩
  have hline : '\n' ∉ u.toList :=
    ((isSafeUser_iff u).mp hu).notMem (by decide)
  unfold tenantEnv
  simp only [String.toList_append, List.mem_append, not_or]
  exact ⟨⟨by decide, hline⟩, by decide⟩

theorem cleanTarget_tenantsDir : CleanTarget "/etc/openclaw-tenants" :=
  ⟨⟨["etc".toList, "openclaw-tenants".toList], by decide, by decide,
    by decide⟩, by decide⟩

theorem cleanTarget_systemdUnit : CleanTarget systemdUnit :=
  ⟨⟨["etc".toList, "systemd".toList, "system".toList,
    "openclaw-gateway@.service".toList], by decide, by decide, by decide⟩,
    by decide⟩

/-- **The targets of confined arguments**, accounted for. -/
theorem Confined.accounted {d : Daemon} (hd : d.WellConfigured) {tool : Tool}
    {args : List String} (h : Confined d tool args) :
    ∀ target ∈ targets tool args, d.Accounted target := by
  intro target htarget
  obtain ⟨u, hu, h⟩ := h
  cases h with
  | useradd => exact absurd htarget List.not_mem_nil
  | userdel => exact absurd htarget List.not_mem_nil
  | true => exact absurd htarget List.not_mem_nil
  | daemonReload => exact absurd htarget List.not_mem_nil
  | enable => exact absurd htarget List.not_mem_nil
  | disable => exact absurd htarget List.not_mem_nil
  | installTenantsDir =>
    obtain rfl := List.mem_singleton.mp htarget
    exact cleanTarget_tenantsDir.accounted d
  | installDir hmode hdir =>
    obtain rfl := List.mem_singleton.mp htarget
    exact accounted_tenantDirs hd hu hdir
  | copyOpenclawJson =>
    obtain rfl := List.mem_singleton.mp htarget
    exact accounted_openclawJson hd hu
  | copyUnit =>
    obtain rfl := List.mem_singleton.mp htarget
    exact cleanTarget_systemdUnit.accounted d
  | copyEnv =>
    obtain rfl := List.mem_singleton.mp htarget
    exact (cleanTarget_tenantEnv hu).accounted d
  | chown =>
    obtain rfl := List.mem_singleton.mp htarget
    refine accounted_home hd hu [] (by simp) ?_ (by simp)
    rw [List.append_nil, home_eq hd hu]
  | removeEnv =>
    obtain rfl := List.mem_singleton.mp htarget
    exact (cleanTarget_tenantEnv hu).accounted d
  | removeDir hdir =>
    obtain rfl := List.mem_singleton.mp htarget
    exact accounted_tenantDirs hd hu hdir

theorem count_colon_owner {u : String} (hu : isSafeUser u = true) :
    (u ++ ":" ++ u).toList.count ':' = 1 := by
  have hcolon : ':' ∉ u.toList :=
    ((isSafeUser_iff u).mp hu).notMem (by decide)
  simp [List.count_eq_zero_of_not_mem hcolon]

theorem Confined.count_colon {d : Daemon} {args : List String}
    (h : Confined d .chown args) {owner : String}
    (howner : args[1]? = some owner) : owner.toList.count ':' = 1 := by
  obtain ⟨u, hu, h⟩ := h
  cases h with
  | chown =>
    obtain rfl := Option.some.inj howner
    exact count_colon_owner hu

/-- **Accepted arguments are confined and their paths clean exactly unless a
`chown` has an owner with more than one colon, or the configuration puts a
line break into a path.** -/
theorem validateCommand_confined_iff {d : Daemon} (hd : d.WellConfigured)
    {command : String} {args : List String}
    (h : validateCommand d command args = none) :
    (∃ tool : Tool, basename command = tool.name ∧ Confined d tool args
        ∧ ∀ target ∈ targets tool args, CleanTarget target)
      ↔ (basename command = "chown" →
          ∀ owner, args[1]? = some owner → owner.toList.count ':' = 1)
        ∧ ∀ tool : Tool, basename command = tool.name →
          ∀ target ∈ targets tool args, ¬ d.BreaksLine target := by
  refine ⟨fun hc => ?_, fun ⟨hc, hline⟩ => ?_⟩
  · obtain ⟨tool, htool, hconf, hclean⟩ := hc
    refine ⟨fun hb owner howner => ?_, fun t ht target htarget hbreak => ?_⟩
    · obtain rfl : tool = .chown := Tool.name_injective (htool.symm.trans hb)
      exact hconf.count_colon howner
    · obtain rfl : t = tool := Tool.name_injective (ht.symm.trans htool)
      exact (hclean target htarget).newline (newline_of_breaksLine hd hbreak)
  · obtain ⟨tool, htool, hconf | ⟨rfl, u, rest, hu, rfl⟩⟩ :=
      (validateCommand_eq_none_iff hd command args).mp h
    · refine ⟨tool, htool, hconf, fun target htarget => ?_⟩
      obtain ⟨hsegs, hacc⟩ := hconf.accounted hd target htarget
      exact ⟨hsegs, fun hmem => hline tool htool target htarget (hacc hmem)⟩
    · -- an owner with further pieces has a second colon
      have hcount := hc htool _ rfl
      rw [String.append_assoc, String.toList_append, List.count_append,
        count_colon_owner hu, String.toList_append, List.count_append,
        show ":".toList.count ':' = 1 by decide] at hcount
      omega

theorem sampleDaemon_wellConfigured : sampleDaemon.WellConfigured :=
  ⟨by decide, by decide⟩

theorem validateCommand_confined_rm :
    ∃ tool : Tool, basename "/usr/bin/rm" = tool.name
      ∧ Confined sampleDaemon tool ["-rf", "/home/alice/.openclaw"]
      ∧ ∀ target ∈ targets tool ["-rf", "/home/alice/.openclaw"],
        CleanTarget target := by
  refine (validateCommand_confined_iff sampleDaemon_wellConfigured
    (by decide)).mpr ⟨by decide, fun tool _ target _ h => ?_⟩
  rcases h with ⟨-, h⟩ | ⟨-, h⟩
  · exact absurd h (by decide)
  · exact absurd h (by decide)

/-- An owner with a third piece is accepted, and is not confined. -/
theorem validateCommand_loose_owner :
    sampleDaemon.WellConfigured
      ∧ validateCommand sampleDaemon "/usr/bin/chown"
          ["-R", "alice:alice:root", "/home/alice"] = none
      ∧ ¬ ∃ tool : Tool, basename "/usr/bin/chown" = tool.name
          ∧ Confined sampleDaemon tool
              ["-R", "alice:alice:root", "/home/alice"] := by
  refine ⟨sampleDaemon_wellConfigured, by decide, ?_⟩
  rintro ⟨tool, htool, hconf⟩
  obtain rfl : tool = .chown :=
    Tool.name_injective (htool.symm.trans (by decide))
  exact absurd (hconf.count_colon rfl) (by decide)

/-! ## Programs -/

/-- The binaries the plans of `buildBootstrapPlan` and `buildDecommissionPlan`
run. -/
def plannerPrograms : List String :=
  ["/usr/sbin/useradd", "/usr/sbin/userdel", "/usr/bin/install",
    "/usr/bin/cp", "/usr/bin/chown", "/usr/bin/rm", "/usr/bin/systemctl"]

/-- The system's own `true`, by name or by path. -/
def systemTrue : List String := ["true", "/bin/true", "/usr/bin/true"]

/-- The directories, with their slash, a tool is run from. -/
def standardDirectories : Tool → List String
  | .useradd => ["/usr/sbin/"]
  | .userdel => ["/usr/sbin/"]
  | .true => ["", "/bin/", "/usr/bin/"]
  | _ => ["/usr/bin/"]

/-- A request whose program is spawned was accepted, and the program is the
whole command. -/
theorem spawned_eq_some {d : Daemon} {req : ProvisionerRequest}
    {program : String} {args : List String}
    (h : spawned d req = some (program, args)) :
    validateCommand d req.command req.args = none ∧ req.dryRun = false
      ∧ program = req.command ∧ args = req.args := by
  unfold spawned at h
  split at h
  · next hreq =>
    simp only [Option.some.injEq, Prod.mk.injEq] at h
    exact ⟨hreq.2.1, hreq.2.2, h.1.symm, h.2.symm⟩
  · exact absurd h (by simp)

/-- **The program is one of the planner's binaries, or the system's `true`,
exactly if the text before the last segment of the command is the directory
of that tool.** -/
theorem spawned_program_iff {d : Daemon} {req : ProvisionerRequest}
    {program : String} {args : List String}
    (h : spawned d req = some (program, args)) :
    program ∈ plannerPrograms ∨ program ∈ systemTrue
      ↔ ∀ tool : Tool, basename req.command = tool.name →
        ∃ dir ∈ standardDirectories tool, req.command = dir ++ tool.name := by
  obtain ⟨hvalid, -, rfl, -⟩ := spawned_eq_some h
  obtain ⟨tool, htool⟩ := exists_tool_of_accepted hvalid
  refine ⟨fun hp t ht => ?_, fun hdir => ?_⟩
  · obtain rfl : t = tool := Tool.name_injective (ht.symm.trans htool)
    clear ht hvalid h
    generalize req.command = command at hp htool
    simp only [plannerPrograms, systemTrue, List.mem_cons, List.not_mem_nil,
      or_false] at hp
    rcases hp with (rfl | rfl | rfl | rfl | rfl | rfl | rfl)
      | (rfl | rfl | rfl)
    all_goals
      revert htool
      cases t <;> decide
  · obtain ⟨dir, hmem, hcommand⟩ := hdir tool htool
    have hall : ∀ dir ∈ standardDirectories tool,
        dir ++ tool.name ∈ plannerPrograms ∨ dir ++ tool.name ∈ systemTrue := by
      cases tool <;> decide
    exact hcommand ▸ hall dir hmem

theorem spawned_program_useradd :
    "/usr/sbin/useradd" ∈ plannerPrograms
      ∨ "/usr/sbin/useradd" ∈ systemTrue := by
  have hspawned : spawned sampleDaemon ⟨"token", "/usr/sbin/useradd",
      ["-m", "-s", "/bin/bash", "alice"], false⟩
      = some ("/usr/sbin/useradd", ["-m", "-s", "/bin/bash", "alice"]) := by
    decide
  refine (spawned_program_iff hspawned).mpr (fun tool => ?_)
  cases tool <;> decide

/-- A program of another directory is spawned under the name of a tool. -/
theorem spawned_foreign_program :
    spawned sampleDaemon
        ⟨"token", "/tmp/useradd", ["-m", "-s", "/bin/bash", "alice"], false⟩
      = some ("/tmp/useradd", ["-m", "-s", "/bin/bash", "alice"])
      ∧ ¬ ("/tmp/useradd" ∈ plannerPrograms ∨ "/tmp/useradd" ∈ systemTrue) := by
  decide

end MissionControl
