import Mathlib.Data.String.Basic
import MissionControl.Memory

/-!
# What the memory browser confines

A path that a request names is resolved before it is used: its directory lies
within the real path of the base, and it is no link. So what is read, written,
created or deleted lies there.

The tree and the search are not checked that way. They list the base where the
system finds it, but the path of an entry is the **text** of the base with the
name, normalized: behind a link `..` then leads to another directory. So the
memory browser is confined exactly if every entry of the base that the request
visits is, under that path, within the real path of the base
(`memory_confined_iff`).
-/

namespace MissionControl

variable {site : MemorySite}

/-- **Within the real path of the base.** -/
def MemorySite.Inside (site : MemorySite) (p : List FileName) : Prop :=
  ∃ base, site.fs.realpath site.cwd site.base = .ok base ∧ base <+: p

theorem MemorySite.Inside.mono {p q : List FileName} (h : site.Inside p) (hpq : p <+: q) :
    site.Inside q := by
  obtain ⟨base, hbase, hp⟩ := h
  exact ⟨base, hbase, hp.trans hpq⟩

/-! ## Paths that are safely resolved -/

theorem realpath_eq_ok {path text : List Char} :
    site.realpath path = .ok text
      ↔ ∃ p, site.locate true path = .found p ∧ text = Posix.absolute p := by
  unfold MemorySite.realpath MemorySite.locate
  cases h : site.fs.realpath site.cwd path with
  | error e =>
    refine iff_of_false (fun he => nomatch he) ?_
    rintro ⟨p, hp, -⟩
    rw [FileSystem.realpath_eq_ok.mpr hp] at h
    exact nomatch h
  | ok p =>
    have hp := FileSystem.realpath_eq_ok.mp h
    constructor
    · intro heq
      exact ⟨p, hp, (Except.ok.inj heq).symm⟩
    · rintro ⟨q, hq, rfl⟩
      obtain rfl := Located.found.inj (hp.symm.trans hq)
      rfl

/-- **The comparison of texts is one of physical paths.** -/
theorem prefix_of_isWithinBase {path path' : List Char} {follow : Bool}
    {p q : List FileName} (hp : site.locate follow path = .found p)
    (hq : site.locate true path' = .found q)
    (h : isWithinBase (Posix.absolute p) (Posix.absolute q) = true) : p <+: q :=
  Posix.prefix_of_absolute_prefix
    (FileSystem.ordinary_of_node (FileSystem.isSome_of_locate hp))
    (FileSystem.ordinary_of_node (FileSystem.isSome_of_locate hq))
    (of_decide_eq_true h)

theorem checkTarget_ok {baseReal fullPath path : List Char}
    (h : checkTarget site baseReal fullPath = .ok path) :
    path = fullPath ∧ ∀ p target, site.locate false fullPath = .found p →
      site.fs.node p ≠ some (.link target) := by
  unfold checkTarget at h
  split at h
  · next hl =>
    refine ⟨(Except.ok.inj h).symm, fun p target hp => ?_⟩
    rw [hl] at hp
    exact nomatch hp
  · next hl =>
    refine ⟨(Except.ok.inj h).symm, fun p target hp => ?_⟩
    rw [hl] at hp
    exact nomatch hp
  · exact nomatch h
  · next p hl =>
    split at h
    · exact nomatch h
    · next hnode =>
      have hpath : path = fullPath := by
        split at h
        · exact (Except.ok.inj h).symm
        · exact nomatch h
        · split at h
          · exact (Except.ok.inj h).symm
          · exact nomatch h
      refine ⟨hpath, fun p' target hp' hlink => ?_⟩
      rw [hl] at hp'
      obtain rfl := Located.found.inj hp'
      exact hnode target hlink

/-- **What has been safely resolved**: the absolute path that the base and the
given path make, the directory of which lies inside, and which is no link. -/
theorem resolveSafeMemoryPath_ok {relativePath fullPath : List Char}
    (h : resolveSafeMemoryPath site site.base relativePath = .ok fullPath) :
    fullPath = Posix.resolveFrom site.cwdText
        [Posix.resolveFrom site.cwdText [site.base], relativePath]
      ∧ (∃ p, site.locate true (Posix.dirname fullPath) = .found p ∧ site.Inside p)
      ∧ ∀ p target, site.locate false fullPath = .found p →
        site.fs.node p ≠ some (.link target) := by
  unfold resolveSafeMemoryPath at h
  split at h
  · exact nomatch h
  · next baseReal hbase =>
    split at h
    · exact nomatch h
    · next path hresolve =>
      split at h
      · exact nomatch h
      · exact nomatch h
      · next parentReal hparent =>
        split at h
        · next hwithin =>
          obtain ⟨rfl, hlink⟩ := checkTarget_ok h
          obtain ⟨base, hbase', rfl⟩ := realpath_eq_ok.mp hbase
          obtain ⟨p, hp, rfl⟩ := realpath_eq_ok.mp hparent
          refine ⟨?_, ⟨p, hp, base, FileSystem.realpath_eq_ok.mpr hbase',
            prefix_of_isWithinBase hbase' hp hwithin⟩, hlink⟩
          unfold resolveWithin at hresolve
          dsimp only at hresolve
          split at hresolve
          · exact nomatch hresolve
          · exact (Except.ok.inj hresolve).symm
        · exact nomatch h

/-- A path leads to what is stored, or to a free name in its directory. -/
def MemorySite.LeadsTo (site : MemorySite) (follow : Bool) (path : List Char)
    (p : List FileName) : Prop :=
  site.locate follow path = .found p ∨ site.locate follow path = .missing p

/-- **A path that has been safely resolved leads inside**, whether a link at its
end is followed or not. -/
theorem inside_of_leadsTo {relativePath fullPath : List Char}
    (h : resolveSafeMemoryPath site site.base relativePath = .ok fullPath)
    {follow : Bool} {p : List FileName} (hp : site.LeadsTo follow fullPath p) :
    site.Inside p := by
  obtain ⟨hfull, ⟨dir, hdir, hinside⟩, hlink⟩ := resolveSafeMemoryPath_ok h
  obtain ⟨segs, hsegs, hsegs'⟩ := Posix.exists_resolveFrom site.cwdText
    [Posix.resolveFrom site.cwdText [site.base], relativePath]
  rw [hsegs'] at hfull
  subst hfull
  rcases List.eq_nil_or_concat segs with rfl | ⟨init, seg, rfl⟩
  · -- the root: it is its own directory
    have hroot : site.locate true ['/'] = .found [] := FileSystem.locate_root site.cwd
    have hdir' : site.locate true ['/'] = .found dir := hdir
    obtain rfl := Located.found.inj (hroot.symm.trans hdir')
    exact hinside.mono (List.nil_prefix)
  · rw [List.concat_eq_append] at hsegs hdir hlink hp
    have hseg : Posix.Ordinary seg := hsegs seg (by simp)
    rw [Posix.dirname_absolute hsegs] at hdir
    rcases FileSystem.locate_absolute hdir hseg with hinvalid | hname
    · have hfailed : site.locate follow (Posix.absolute (init ++ [seg])) = .failed .invalid :=
        hinvalid follow
      unfold MemorySite.LeadsTo at hp
      rw [hfailed] at hp
      simp at hp
    · have hnolink : ∀ target, site.fs.node (dir ++ [seg]) ≠ some (.link target) := by
        intro target hnode
        obtain ⟨links, hwalk⟩ := hname false
        rw [FileSystem.walk_name_found false links hseg hnode (.inl rfl)] at hwalk
        exact hlink _ target hwalk hnode
      obtain ⟨links, hwalk⟩ := hname follow
      unfold MemorySite.LeadsTo MemorySite.locate at hp
      rw [hwalk] at hp
      have hplace : p = dir ++ [seg] := FileSystem.eq_of_walk_name hseg hnolink hp
      rw [hplace]
      exact hinside.mono (List.prefix_append _ _)


/-! ## What a request does to the path it names -/

theorem locate_of_stat {path : List Char} {p : List FileName}
    (h : site.stat path = some p) : site.locate true path = .found p := by
  unfold MemorySite.stat at h
  split at h
  · next hl =>
    obtain rfl := Option.some.inj h
    exact hl
  · exact nomatch h

theorem leadsTo_of_stat {path : List Char} {p : List FileName}
    (h : site.stat path = some p) : site.LeadsTo true path p := .inl (locate_of_stat h)

theorem leadsTo_of_readFile {path : List Char} {a : FileAccess}
    (h : a ∈ (site.readFile path).1) : site.stat path = some a.path := by
  unfold MemorySite.readFile at h
  split at h
  · exact absurd h List.not_mem_nil
  · next p hstat =>
    split at h
    · obtain rfl := List.mem_singleton.mp h
      exact hstat
    · obtain rfl := List.mem_singleton.mp h
      exact hstat
    · exact absurd h List.not_mem_nil

theorem leadsTo_of_writeFile {path : List Char} {content : Json} {a : FileAccess}
    (h : a ∈ (site.writeFile path content).1) : site.LeadsTo true path a.path := by
  unfold MemorySite.writeFile at h
  dsimp only at h
  split at h
  · exact absurd h List.not_mem_nil
  · split at h
    · exact absurd h List.not_mem_nil
    · next hl =>
      obtain rfl := List.mem_singleton.mp h
      exact .inr hl
    · next hl =>
      split at h
      · exact absurd h List.not_mem_nil
      · obtain rfl := List.mem_singleton.mp h
        exact .inl hl

theorem writeFile_of_not_leadsTo {path : List Char} (content : Json)
    (h : ∀ p, ¬ site.LeadsTo true path p) : site.writeFile path content = ([], false) := by
  unfold MemorySite.writeFile
  dsimp only
  split
  · rfl
  · split
    · rfl
    · next hl => exact absurd (.inr hl) (h _)
    · next hl => exact absurd (.inl hl) (h _)

theorem leadsTo_of_unlink {path : List Char} {a : FileAccess}
    (h : a ∈ (site.unlink path).1) : site.LeadsTo false path a.path := by
  unfold MemorySite.unlink at h
  split at h
  · next hl =>
    split at h
    · exact absurd h List.not_mem_nil
    · obtain rfl := List.mem_singleton.mp h
      exact .inl hl
  · exact absurd h List.not_mem_nil

/-- The directory of a path that has been safely resolved is there: none is
made. -/
theorem mkdir_dirname {relativePath fullPath : List Char}
    (h : resolveSafeMemoryPath site site.base relativePath = .ok fullPath) :
    site.mkdir (Posix.dirname fullPath) = [] := by
  obtain ⟨-, ⟨p, hp, -⟩, -⟩ := resolveSafeMemoryPath_ok h
  unfold MemorySite.mkdir
  rw [hp]

/-- **What is done with a path**: every access is to what it leads to, and where
it leads nowhere the request fails without any. -/
structure Handled (site : MemorySite) (fullPath : List Char) (reply : MemoryReply) :
    Prop where
  /-- Every access is to what the path leads to. -/
  leads : ∀ a ∈ reply.accesses, ∃ follow, site.LeadsTo follow fullPath a.path
  fails : (∀ p, ¬ site.LeadsTo true fullPath p) →
    reply.accesses = [] ∧ 400 ≤ reply.response.status

theorem handled_refuse {fullPath : List Char} {status : ℕ} (message : String)
    (h : 400 ≤ status) : Handled site fullPath (.refuse status message) where
  leads := fun _ ha => absurd ha List.not_mem_nil
  fails := fun _ => ⟨rfl, h⟩

theorem handled_writeReply {fullPath : List Char} {before : List FileAccess}
    {written : List FileAccess × Bool} (message : String)
    (hbefore : ∀ a ∈ before, site.LeadsTo true fullPath a.path)
    (hleads : ∀ a ∈ written.1, ∃ follow, site.LeadsTo follow fullPath a.path)
    (hfails : (∀ p, ¬ site.LeadsTo true fullPath p) → written = ([], false)) :
    Handled site fullPath (writeReply before written message) where
  leads := by
    intro a ha
    rcases List.mem_append.mp ha with ha | ha
    · exact ⟨true, hbefore a ha⟩
    · exact hleads a ha
  fails := by
    intro hnowhere
    have hnone : before = [] :=
      List.eq_nil_iff_forall_not_mem.mpr fun a ha => hnowhere _ (hbefore a ha)
    rw [hfails hnowhere, hnone]
    exact ⟨rfl, by simp [writeReply]⟩

/-- **What a request does that names a path**: it fails without any access, or
works on the path that has been safely resolved. -/
def WorksOn (site : MemorySite) (text : Option String) (reply : MemoryReply) : Prop :=
  (reply.accesses = [] ∧ 400 ≤ reply.response.status)
    ∨ ∃ path fullPath, text = some path
      ∧ resolveSafeMemoryPath site site.base path.toList = .ok fullPath
      ∧ Handled site fullPath reply

theorem worksOn_fileContent (path : String) :
    WorksOn site (some path) (fileContent site path) := by
  unfold fileContent
  split
  · exact .inl ⟨rfl, by decide⟩
  · next fullPath hresolve =>
    refine .inr ⟨path, fullPath, rfl, hresolve, ?_⟩
    have hread : ∀ a ∈ (site.readFile fullPath).1, site.stat fullPath = some a.path :=
      fun a ha => leadsTo_of_readFile ha
    have hnowhere : (∀ p, ¬ site.LeadsTo true fullPath p) →
        (site.readFile fullPath).1 = [] := fun h =>
      List.eq_nil_iff_forall_not_mem.mpr fun a ha =>
        h _ (leadsTo_of_stat (leadsTo_of_readFile ha))
    split
    · next accesses hfile =>
      rw [hfile] at hread hnowhere
      exact ⟨fun a ha => ⟨true, leadsTo_of_stat (hread a ha)⟩,
        fun h => ⟨hnowhere h, by simp⟩⟩
    · next accesses content hfile =>
      rw [hfile] at hread hnowhere
      split
      · exact ⟨fun a ha => ⟨true, leadsTo_of_stat (hread a ha)⟩,
          fun h => ⟨hnowhere h, by simp⟩⟩
      · next p hstat =>
        refine ⟨fun a ha => ⟨true, ?_⟩, fun h => absurd (leadsTo_of_stat hstat) (h p)⟩
        rcases List.mem_append.mp ha with ha | ha
        · exact leadsTo_of_stat (hread a ha)
        · obtain rfl := List.mem_singleton.mp ha
          exact leadsTo_of_stat hstat

def bodyPath (body : Option Json) : Option String :=
  match Json.get? body "path" with
  | some (.str text) => some text
  | _ => none

/-- **The path of a body** is safely resolved, or the request fails without any
access. -/
theorem readMemoryPath_cases (body : Option Json) :
    (∃ reply, readMemoryPath site body = .error reply ∧ reply.accesses = []
        ∧ 400 ≤ reply.response.status)
      ∨ ∃ path fullPath, readMemoryPath site body = .ok fullPath
        ∧ bodyPath body = some path
        ∧ resolveSafeMemoryPath site site.base path.toList = .ok fullPath := by
  unfold readMemoryPath
  split
  · exact .inl ⟨_, rfl, rfl, by decide⟩
  · next path hpath =>
    split
    · exact .inl ⟨_, rfl, rfl, by decide⟩
    · split
      · exact .inl ⟨_, rfl, rfl, by decide⟩
      · split
        · next text _ =>
          split
          · exact .inl ⟨_, rfl, rfl, by decide⟩
          · next fullPath hresolve =>
            refine .inr ⟨text, fullPath, rfl, ?_, hresolve⟩
            unfold bodyPath
            rw [Json.get?_of_get hpath]
        · exact .inl ⟨_, rfl, rfl, by decide⟩

theorem handled_createFile {relativePath fullPath : List Char}
    (h : resolveSafeMemoryPath site site.base relativePath = .ok fullPath)
    (content : Option Json) : Handled site fullPath (createFile site fullPath content) := by
  unfold createFile
  dsimp only
  rw [mkdir_dirname h]
  split
  · next p hstat =>
    refine ⟨fun a ha => ⟨true, ?_⟩, fun hnowhere => absurd (leadsTo_of_stat hstat) (hnowhere p)⟩
    obtain rfl := List.mem_singleton.mp ha
    exact leadsTo_of_stat hstat
  · exact handled_writeReply _ (fun a ha => absurd ha List.not_mem_nil)
      (fun a ha => ⟨true, leadsTo_of_writeFile ha⟩) (writeFile_of_not_leadsTo _)

theorem worksOn_postMemory (body : Option Json) :
    WorksOn site (bodyPath body) (postMemory site body) := by
  unfold postMemory
  rcases @readMemoryPath_cases site body with
    ⟨reply, hread, hrefused⟩ | ⟨path, fullPath, hread, hpath, hresolve⟩
  · rw [hread]
    exact .inl hrefused
  · rw [hread]
    refine .inr ⟨path, fullPath, hpath, hresolve, ?_⟩
    dsimp only
    split
    · split
      · exact handled_refuse _ (by decide)
      · exact handled_writeReply _ (fun a ha => absurd ha List.not_mem_nil)
          (fun a ha => ⟨true, leadsTo_of_writeFile ha⟩) (writeFile_of_not_leadsTo _)
    · split
      · exact handled_createFile hresolve _
      · exact handled_refuse _ (by decide)

theorem worksOn_deleteMemory (body : Option Json) :
    WorksOn site (bodyPath body) (deleteMemory site body) := by
  unfold deleteMemory
  rcases @readMemoryPath_cases site body with
    ⟨reply, hread, hrefused⟩ | ⟨path, fullPath, hread, hpath, hresolve⟩
  · rw [hread]
    exact .inl hrefused
  · rw [hread]
    refine .inr ⟨path, fullPath, hpath, hresolve, ?_⟩
    dsimp only
    split
    · split
      · exact handled_refuse _ (by decide)
      · next p hstat =>
        have hp := leadsTo_of_stat hstat
        refine handled_writeReply _ (fun a ha => ?_) (fun a ha => ⟨false, leadsTo_of_unlink ha⟩)
          (fun hnowhere => absurd hp (hnowhere p))
        obtain rfl := List.mem_singleton.mp ha
        exact hp
    · exact handled_refuse _ (by decide)


/-! ## Walks -/

section Walk

variable {β : Type} {visit : FileNode FileContent → DirectoryItem → ItemVisit β}
  {finish : List β → List β}

/-- The accesses at an entry: those of its visit, and those below it if it is
entered. -/
theorem mem_walkEntry {below : DirectoryItem → List FileAccess × List β}
    {node : Option (FileNode FileContent)} {item : DirectoryItem} {a : FileAccess} :
    a ∈ (walkEntry visit below node item).1
      ↔ ∃ k, node = some k ∧ ¬ k.IsLink
        ∧ (a ∈ (visit k item).accesses
          ∨ (visit k item).enter = true ∧ a ∈ (below item).1) := by
  have hinner : ∀ k, a ∈ (visit k item).accesses
        ++ (if (visit k item).enter = true then below item else ([], [])).1
      ↔ a ∈ (visit k item).accesses
        ∨ (visit k item).enter = true ∧ a ∈ (below item).1 := by
    intro k
    rw [List.mem_append]
    by_cases henter : (visit k item).enter = true <;> simp [henter]
  cases node with
  | none => simp [walkEntry]
  | some k =>
    simp only [Option.some.injEq, exists_eq_left']
    cases k with
    | link target => simp [walkEntry, FileNode.IsLink]
    | directory =>
      rw [and_iff_right (show ¬ FileNode.IsLink .directory from not_false)]
      exact hinner .directory
    | file content =>
      rw [and_iff_right (show ¬ FileNode.IsLink (.file content) from not_false)]
      exact hinner (.file content)
    | special =>
      rw [and_iff_right (show ¬ FileNode.IsLink .special from not_false)]
      exact hinner .special

/-- **The accesses of a walk**: the directory is listed, its entries are visited,
and the walk goes on below those that are entered. -/
theorem mem_walkDirectory {fuel : ℕ} {dirPath relativePath : List Char} {a : FileAccess} :
    a ∈ (walkDirectory site visit finish (fuel + 1) dirPath relativePath).1
      ↔ ∃ dir, site.readdir dirPath = some dir
        ∧ (a = .list dir ∨ ∃ n k, site.fs.node (dir ++ [n]) = some k ∧ ¬ k.IsLink
          ∧ (a ∈ (visit k (.entry dirPath relativePath n)).accesses
            ∨ (visit k (.entry dirPath relativePath n)).enter = true
              ∧ a ∈ (walkDirectory site visit finish fuel (Posix.join [dirPath, n])
                (Posix.join [relativePath, n])).1)) := by
  rw [walkDirectory]
  cases hdir : site.readdir dirPath with
  | none => simp
  | some dir =>
    simp only [List.mem_cons, List.mem_flatMap, List.mem_map, Option.some.injEq,
      exists_eq_left', exists_exists_and_eq_and, mem_walkEntry]
    refine or_congr_right (exists_congr fun n => ?_)
    constructor
    · rintro ⟨-, k, hk⟩
      exact ⟨k, hk⟩
    · rintro ⟨k, hnode, hk⟩
      exact ⟨site.fs.mem_names.mpr (by rw [hnode]; rfl), k, hnode, hk⟩

/-- **The path of an entry leads to the entry**, if the path of its directory is
normal. -/
theorem stat_entry {dirPath : List Char} {dir : List FileName} {n : FileName}
    {k : FileNode FileContent} (hnormal : Posix.EndsNormal dirPath)
    (hdir : site.stat dirPath = some dir) (hnode : site.fs.node (dir ++ [n]) = some k)
    (hlink : ¬ k.IsLink) {p : List FileName}
    (hp : site.stat (Posix.join [dirPath, n]) = some p) : p = dir ++ [n] := by
  have hn : Posix.Ordinary n := site.fs.ordinary (by rw [hnode]; rfl)
  have hnolink : ∀ target, site.fs.node (dir ++ [n]) ≠ some (.link target) := by
    intro target ht
    obtain rfl := Option.some.inj (hnode.symm.trans ht)
    exact hlink trivial
  rw [hnormal.join_eq hn] at hp
  have hleads := leadsTo_of_stat hp
  unfold MemorySite.LeadsTo MemorySite.locate at hleads
  rcases FileSystem.locate_append (locate_of_stat hdir) hn.2.1 with hinvalid | hname
  · rw [hinvalid true] at hleads
    simp at hleads
  · obtain ⟨links, hwalk⟩ := hname true
    rw [hwalk] at hleads
    exact FileSystem.eq_of_walk_name hn hnolink hleads

theorem stat_of_readdir {path : List Char} {p : List FileName}
    (h : site.readdir path = some p) : site.stat path = some p :=
  (Option.filter_eq_some_iff.mp h).1

theorem readdir_of_mem_walkDirectory {fuel : ℕ} {dirPath relativePath : List Char}
    {a : FileAccess}
    (ha : a ∈ (walkDirectory site visit finish fuel dirPath relativePath).1) :
    ∃ p, site.readdir dirPath = some p := by
  cases fuel with
  | zero => exact absurd ha List.not_mem_nil
  | succ fuel =>
    obtain ⟨p, hp, -⟩ := mem_walkDirectory.mp ha
    exact ⟨p, hp⟩

theorem inside_readdir {p : List FileName} (h : site.readdir site.base = some p) :
    site.Inside p :=
  ⟨p, FileSystem.realpath_eq_ok.mpr (locate_of_stat (stat_of_readdir h)), List.prefix_rfl⟩

theorem endsNormal_entry {dir : List FileName} {n : FileName} {k : FileNode FileContent}
    (hread : site.readdir site.base = some dir) (hnode : site.fs.node (dir ++ [n]) = some k) :
    Posix.EndsNormal (Posix.join [site.base, n]) := by
  refine Posix.endsNormal_join (fun hbase => ?_) (site.fs.ordinary (by rw [hnode]; rfl))
  have hlocate := locate_of_stat (stat_of_readdir hread)
  rw [hbase, MemorySite.locate, FileSystem.locate_nil] at hlocate
  exact nomatch hlocate

/-- What a visit accesses is what the path of the entry leads to. -/
def VisitsItem (site : MemorySite)
    (visit : FileNode FileContent → DirectoryItem → ItemVisit β) : Prop :=
  ∀ k item a, a ∈ (visit k item).accesses → site.stat item.path = some a.path

/-- **From a normal path a walk stays below its directory.** -/
theorem prefix_of_mem_walkDirectory (hvisit : VisitsItem site visit) {fuel : ℕ}
    {dirPath relativePath : List Char} {dir : List FileName}
    (hnormal : Posix.EndsNormal dirPath) (hdir : site.stat dirPath = some dir)
    {a : FileAccess}
    (ha : a ∈ (walkDirectory site visit finish fuel dirPath relativePath).1) :
    dir <+: a.path := by
  induction fuel generalizing dirPath relativePath dir with
  | zero => exact absurd ha List.not_mem_nil
  | succ fuel ih =>
    obtain ⟨dir', hread, hcases⟩ := mem_walkDirectory.mp ha
    obtain rfl : dir = dir' := Option.some.inj (hdir.symm.trans (stat_of_readdir hread))
    rcases hcases with rfl | ⟨n, k, hnode, hlink, hentry⟩
    · exact List.prefix_rfl
    · have hn : Posix.Ordinary n := site.fs.ordinary (by rw [hnode]; rfl)
      rcases hentry with hentry | ⟨-, hentry⟩
      · have hp := stat_entry hnormal hdir hnode hlink (hvisit k _ a hentry)
        rw [hp]
        exact List.prefix_append _ _
      · obtain ⟨p, hread'⟩ := readdir_of_mem_walkDirectory hentry
        have hp := stat_of_readdir hread'
        obtain rfl := stat_entry hnormal hdir hnode hlink hp
        exact (List.prefix_append _ _).trans (ih (hnormal.join hn) hp hentry)

/-- What is done with an entry depends on what is done below it only where it is
no link. -/
theorem walkEntry_congr {below below' : DirectoryItem → List FileAccess × List β}
    {node : Option (FileNode FileContent)} {item : DirectoryItem}
    (h : ∀ k, node = some k → ¬ k.IsLink → below item = below' item) :
    walkEntry visit below node item = walkEntry visit below' node item := by
  cases node with
  | none => rfl
  | some k =>
    cases k with
    | link target => rfl
    | directory => simp only [walkEntry, h _ rfl not_false]
    | file content => simp only [walkEntry, h _ rfl not_false]
    | special => simp only [walkEntry, h _ rfl not_false]

theorem walkDirectory_of_readdir {dirPath : List Char} (h : site.readdir dirPath = none)
    (fuel : ℕ) (relativePath : List Char) :
    walkDirectory site visit finish fuel dirPath relativePath = ([], []) := by
  cases fuel with
  | zero => rfl
  | succ fuel => rw [walkDirectory, h]

theorem walkDirectory_succ_congr {fuel more : ℕ} {dirPath relativePath : List Char}
    (h : ∀ dir n k, site.readdir dirPath = some dir → site.fs.node (dir ++ [n]) = some k →
      ¬ k.IsLink → walkDirectory site visit finish fuel (Posix.join [dirPath, n])
          (Posix.join [relativePath, n])
        = walkDirectory site visit finish more (Posix.join [dirPath, n])
          (Posix.join [relativePath, n])) :
    walkDirectory site visit finish (fuel + 1) dirPath relativePath
      = walkDirectory site visit finish (more + 1) dirPath relativePath := by
  rw [walkDirectory, walkDirectory]
  cases hread : site.readdir dirPath with
  | none => rfl
  | some dir =>
    dsimp only
    refine congrArg (fun visited : List (List FileAccess × List β) =>
      (FileAccess.list dir :: visited.flatMap Prod.fst, finish (visited.flatMap Prod.snd))) ?_
    refine List.map_congr_left fun n _ => ?_
    exact walkEntry_congr fun k hnode hlink => h dir n k hread hnode hlink

/-- **From a normal path a walk that may go deeper than anything is stored is a
whole one.** -/
theorem walkDirectory_congr {fuel more : ℕ} {dirPath relativePath : List Char}
    {dir : List FileName} (hnormal : Posix.EndsNormal dirPath)
    (hdir : site.stat dirPath = some dir) (hfuel : site.fs.depth < fuel + dir.length)
    (hmore : site.fs.depth < more + dir.length) :
    walkDirectory site visit finish fuel dirPath relativePath
      = walkDirectory site visit finish more dirPath relativePath := by
  have hlength : dir.length ≤ site.fs.depth :=
    site.fs.length_le (FileSystem.isSome_of_locate (locate_of_stat hdir))
  induction fuel generalizing more dirPath relativePath dir with
  | zero => omega
  | succ fuel ih =>
    obtain ⟨more, rfl⟩ : ∃ n, more = n + 1 := ⟨more - 1, by omega⟩
    refine walkDirectory_succ_congr fun dir' n k hread hnode hlink => ?_
    obtain rfl : dir = dir' := Option.some.inj (hdir.symm.trans (stat_of_readdir hread))
    cases hread' : site.readdir (Posix.join [dirPath, n]) with
    | none => rw [walkDirectory_of_readdir hread', walkDirectory_of_readdir hread']
    | some p =>
      have hp := stat_of_readdir hread'
      obtain rfl := stat_entry hnormal hdir hnode hlink hp
      have hn : Posix.Ordinary n := site.fs.ordinary (by rw [hnode]; rfl)
      have hlength' := site.fs.length_le (p := dir ++ [n]) (by rw [hnode]; rfl)
      have hsucc : (dir ++ [n]).length = dir.length + 1 := List.length_append
      exact ih (hnormal.join hn) hp (by omega) (by omega) hlength'

/-- **The walk from the base is a whole one**: with more fuel it is the same. -/
theorem walkDirectory_base {more : ℕ} (h : site.fuel ≤ more) (relativePath : List Char) :
    walkDirectory site visit finish more site.base relativePath
      = walkDirectory site visit finish site.fuel site.base relativePath := by
  obtain ⟨more, rfl⟩ : ∃ n, more = n + 1 := ⟨more - 1, by unfold MemorySite.fuel at h; omega⟩
  refine walkDirectory_succ_congr fun dir n k hread hnode hlink => ?_
  cases hread' : site.readdir (Posix.join [site.base, n]) with
  | none => rw [walkDirectory_of_readdir hread', walkDirectory_of_readdir hread']
  | some p =>
    unfold MemorySite.fuel at h
    exact walkDirectory_congr (endsNormal_entry hread hnode) (stat_of_readdir hread')
      (by omega) (by omega)

/-- **When a walk from the base stays inside**: exactly if the visits of its entries
do, and the directories that the paths of the entered ones lead to are inside. -/
theorem inside_walkDirectory_iff (hvisit : VisitsItem site visit)
    {relativePath : List Char} :
    (∀ a ∈ (walkDirectory site visit finish site.fuel site.base relativePath).1,
        site.Inside a.path)
      ↔ ∀ dir n k, site.readdir site.base = some dir → site.fs.node (dir ++ [n]) = some k →
        ¬ k.IsLink →
        (∀ a ∈ (visit k (.entry site.base relativePath n)).accesses, site.Inside a.path)
          ∧ ((visit k (.entry site.base relativePath n)).enter = true →
            ∀ p, site.readdir (Posix.join [site.base, n]) = some p → site.Inside p) := by
  constructor
  · intro h dir n k hread hnode hlink
    constructor
    · intro a ha
      exact h a (mem_walkDirectory.mpr ⟨dir, hread, .inr ⟨n, k, hnode, hlink, .inl ha⟩⟩)
    · intro henter p hp
      have hlist : FileAccess.list p ∈ (walkDirectory site visit finish (site.fs.depth + 1)
          (Posix.join [site.base, n]) (Posix.join [relativePath, n])).1 :=
        mem_walkDirectory.mpr ⟨p, hp, .inl rfl⟩
      exact h _ (mem_walkDirectory.mpr
        ⟨dir, hread, .inr ⟨n, k, hnode, hlink, .inr ⟨henter, hlist⟩⟩⟩)
  · intro h a ha
    obtain ⟨dir, hread, rfl | ⟨n, k, hnode, hlink, hentry⟩⟩ := mem_walkDirectory.mp ha
    · exact inside_readdir hread
    · obtain ⟨hin, hbelow⟩ := h dir n k hread hnode hlink
      rcases hentry with hentry | ⟨henter, hentry⟩
      · exact hin a hentry
      · obtain ⟨p, hp⟩ := readdir_of_mem_walkDirectory hentry
        exact (hbelow henter p hp).mono (prefix_of_mem_walkDirectory hvisit
          (endsNormal_entry hread hnode) (stat_of_readdir hp) hentry)

end Walk

/-! ## The tree and the search -/

theorem visitsItem_treeVisit : VisitsItem site (treeVisit site) := by
  intro k item a ha
  unfold treeVisit at ha
  split at ha
  · exact absurd ha List.not_mem_nil
  · next p hp =>
    have hstat : a = .stat p := by
      split at ha <;> exact List.mem_singleton.mp ha
    rw [hstat]
    exact hp

theorem visitsItem_searchVisit (query : String) :
    VisitsItem site (searchVisit site query) := by
  intro k item a ha
  unfold searchVisit at ha
  split at ha
  · exact absurd ha List.not_mem_nil
  · split at ha
    · dsimp only at ha
      unfold searchInFile at ha
      split at ha
      · exact absurd ha List.not_mem_nil
      · next p hp =>
        split at ha
        · obtain rfl := List.mem_singleton.mp ha
          exact hp
        · rcases List.mem_cons.mp ha with rfl | ha
          · exact hp
          · exact leadsTo_of_readFile ha
    · exact absurd ha List.not_mem_nil
  · exact absurd ha List.not_mem_nil

def MemoryRequest.IsTree : MemoryRequest → Prop
  | .get _ action _ => action = some "tree"
  | _ => False

def MemoryRequest.IsSearch : MemoryRequest → Prop
  | .get _ action query => action = some "search" ∧ query.getD "" ≠ ""
  | _ => False

def MemoryRequest.pathText : MemoryRequest → Option String
  | .get path _ _ => path
  | .post body => bodyPath body
  | .delete body => bodyPath body

/-- **What a request visits** among the entries of the base directory, by what
their paths lead to: the tree everything but links, the search directories, and
files of some names. -/
def MemoryRequest.Visits (request : MemoryRequest) (site : MemorySite) (n : FileName)
    (k : FileNode FileContent) (p : List FileName) : Prop :=
  request.IsTree ∧ ¬ k.IsLink
    ∨ request.IsSearch ∧
      match k with
      | .directory => site.fs.IsDirectory p
      | .file _ => isSearched n = true
      | _ => False

/-- **What a request visits in the base directory is inside.** -/
def EntriesInside (site : MemorySite) (request : MemoryRequest) : Prop :=
  ∀ dir n k p, site.readdir site.base = some dir → site.fs.node (dir ++ [n]) = some k →
    site.stat (Posix.join [site.base, n]) = some p → request.Visits site n k p →
    site.Inside p

/-- The path that a request names resolves within the real path of the base. -/
def Resolvable (site : MemorySite) (request : MemoryRequest) : Prop :=
  ∃ path p, request.pathText = some path
    ∧ site.LeadsTo true (Posix.resolveFrom site.cwdText
      [Posix.resolveFrom site.cwdText [site.base], path.toList]) p
    ∧ site.Inside p

/-- **A request stays inside the base** if all that it accesses is within the real path of
the base, and if it fails without any access where it names a path that does not
resolve there. -/
structure StaysInside (site : MemorySite) (request : MemoryRequest) : Prop where
  /-- Every access is within the real path of the base. -/
  inside : ∀ a ∈ (memoryReply site request).accesses, site.Inside a.path
  /-- A request that is no walk fails if its path does not resolve there. -/
  fails : request.IsTree ∨ request.IsSearch ∨ Resolvable site request
    ∨ (memoryReply site request).accesses = []
      ∧ 400 ≤ (memoryReply site request).response.status

/-- **A request that works on a path stays inside the base.** -/
theorem staysInside_of_worksOn {request : MemoryRequest}
    (h : WorksOn site request.pathText (memoryReply site request)) :
    StaysInside site request := by
  rcases h with hrefused | ⟨path, fullPath, hpath, hresolve, hhandled⟩
  · refine ⟨fun a ha => ?_, .inr (.inr (.inr hrefused))⟩
    rw [hrefused.1] at ha
    exact absurd ha List.not_mem_nil
  · refine ⟨fun a ha => ?_, ?_⟩
    · obtain ⟨follow, hleads⟩ := hhandled.leads a ha
      exact inside_of_leadsTo hresolve hleads
    · by_cases hleads : ∃ p, site.LeadsTo true fullPath p
      · obtain ⟨p, hp⟩ := hleads
        refine .inr (.inr (.inl ⟨path, p, hpath, ?_, inside_of_leadsTo hresolve hp⟩))
        rw [← (resolveSafeMemoryPath_ok hresolve).1]
        exact hp
      · exact .inr (.inr (.inr (hhandled.fails (not_exists.mp hleads))))

theorem worksOn_memoryReply {request : MemoryRequest} (htree : ¬ request.IsTree)
    (hsearch : ¬ request.IsSearch) :
    WorksOn site request.pathText (memoryReply site request) := by
  cases request with
  | post body => exact worksOn_postMemory body
  | delete body => exact worksOn_deleteMemory body
  | get path action query =>
    show WorksOn site path (getMemory site path action query)
    have haction : action ≠ some "tree" := htree
    unfold getMemory
    rw [if_neg haction]
    split
    · next hcontent =>
      split
      · exact .inl ⟨rfl, by decide⟩
      · cases path with
        | none => exact absurd rfl hcontent.2
        | some path => exact worksOn_fileContent path
    · split
      · next haction =>
        dsimp only
        have hquery : query.getD "" = "" := by
          by_contra hquery
          exact hsearch ⟨haction, hquery⟩
        rw [if_pos hquery]
        exact .inl ⟨rfl, by decide⟩
      · exact .inl ⟨rfl, by decide⟩

theorem readdir_nil : site.readdir [] = none := by
  unfold MemorySite.readdir MemorySite.stat MemorySite.locate
  rw [FileSystem.locate_nil]
  rfl

theorem accesses_of_isTree {request : MemoryRequest} (h : request.IsTree) :
    (memoryReply site request).accesses
      = (walkDirectory site (treeVisit site)
          (fun files => files.mergeSort (MemoryFile.le site.localeLe)) site.fuel site.base
          []).1 := by
  cases request with
  | post body => exact h.elim
  | delete body => exact h.elim
  | get path action query =>
    show (getMemory site path action query).accesses = _
    have haction : action = some "tree" := h
    unfold getMemory
    rw [if_pos haction]
    split
    · next hbase =>
      rw [hbase, walkDirectory_of_readdir readdir_nil]
    · rfl

theorem accesses_of_isSearch {path action query : Option String}
    (h : (MemoryRequest.get path action query).IsSearch) :
    (memoryReply site (.get path action query)).accesses
      = (walkDirectory site (searchVisit site (query.getD "")) id site.fuel site.base
          []).1 := by
  obtain ⟨rfl, hquery⟩ := h
  show (getMemory site path (some "search") query).accesses = _
  unfold getMemory
  rw [if_neg (by decide), if_neg (by simp), if_pos rfl, if_neg hquery]
  split
  · next hbase =>
    rw [hbase, walkDirectory_of_readdir readdir_nil]
  · rfl

/-- The tree accesses what the path of an entry leads to, whatever it is. -/
theorem mem_treeVisit {k : FileNode FileContent} {item : DirectoryItem} {p : List FileName}
    (h : site.stat item.path = some p) : .stat p ∈ (treeVisit site k item).accesses := by
  unfold treeVisit
  rw [h]
  cases k <;> exact List.mem_singleton_self _

/-- A search accesses what the path of a file of some names leads to. -/
theorem mem_searchVisit {query : String} {content : FileContent} {item : DirectoryItem}
    {p : List FileName} (h : site.stat item.path = some p)
    (hname : isSearched item.name = true) :
    .stat p ∈ (searchVisit site query (.file content) item).accesses := by
  unfold searchVisit
  dsimp only
  rw [if_pos hname]
  unfold searchInFile
  rw [h]
  dsimp only
  split
  · exact List.mem_singleton_self _
  · exact List.mem_cons_self

theorem isSearched_of_mem {query : String} {content : FileContent} {item : DirectoryItem}
    {a : FileAccess} (h : a ∈ (searchVisit site query (.file content) item).accesses) :
    isSearched item.name = true := by
  unfold searchVisit at h
  dsimp only at h
  split at h
  · next hname => exact hname
  · exact absurd h List.not_mem_nil

theorem enter_searchVisit_file {query : String} {content : FileContent}
    {item : DirectoryItem} :
    (searchVisit site query (.file content) item).enter = false := by
  unfold searchVisit
  dsimp only
  split <;> rfl

theorem not_isSearch_of_isTree {request : MemoryRequest} (h : request.IsTree) :
    ¬ request.IsSearch := by
  cases request with
  | get path action query =>
    rintro ⟨haction, -⟩
    exact absurd (h.symm.trans haction) (by decide)
  | post body => exact h.elim
  | delete body => exact h.elim

/-- **When the tree is confined.** -/
theorem confined_tree_iff {request : MemoryRequest} (h : request.IsTree) :
    StaysInside site request ↔ EntriesInside site request := by
  have hinside := @inside_walkDirectory_iff site _ _
    (fun files => files.mergeSort (MemoryFile.le site.localeLe)) visitsItem_treeVisit []
  rw [← accesses_of_isTree h] at hinside
  constructor
  · intro hconfined dir n k p hread hnode hp hvisit
    rcases hvisit with ⟨-, hlink⟩ | ⟨hsearch, -⟩
    · exact (hinside.mp hconfined.inside dir n k hread hnode hlink).1 _ (mem_treeVisit hp)
    · exact absurd hsearch (not_isSearch_of_isTree h)
  · intro hentries
    refine ⟨hinside.mpr fun dir n k hread hnode hlink => ?_, .inl h⟩
    have hentry : ∀ p, site.stat (Posix.join [site.base, n]) = some p → site.Inside p :=
      fun p hp => hentries dir n k p hread hnode hp (.inl ⟨h, hlink⟩)
    exact ⟨fun a ha => hentry a.path (visitsItem_treeVisit k _ a ha),
      fun _ p hp => hentry p (stat_of_readdir hp)⟩

/-- **When a search is confined.** -/
theorem confined_search_iff {request : MemoryRequest} (h : request.IsSearch) :
    StaysInside site request ↔ EntriesInside site request := by
  cases request with
  | post body => exact h.elim
  | delete body => exact h.elim
  | get path action query =>
    have hinside := @inside_walkDirectory_iff site _ _ id
      (visitsItem_searchVisit (query.getD "")) []
    rw [← accesses_of_isSearch h] at hinside
    constructor
    · intro hconfined dir n k p hread hnode hp hvisit
      rcases hvisit with ⟨htree, -⟩ | ⟨-, hvisit⟩
      · exact absurd h (not_isSearch_of_isTree htree)
      · cases k with
        | directory =>
          obtain ⟨-, hbelow⟩ := hinside.mp hconfined.inside dir n .directory hread hnode id
          exact hbelow rfl p (Option.filter_eq_some_iff.mpr ⟨hp, by simpa using hvisit⟩)
        | file content =>
          obtain ⟨hin, -⟩ := hinside.mp hconfined.inside dir n (.file content) hread hnode id
          exact hin _ (mem_searchVisit hp hvisit)
        | link target => exact hvisit.elim
        | special => exact hvisit.elim
    · intro hentries
      refine ⟨hinside.mpr fun dir n k hread hnode hlink => ?_, .inr (.inl h)⟩
      cases k with
      | directory =>
        refine ⟨fun a ha => absurd ha List.not_mem_nil, fun _ p hp => ?_⟩
        obtain ⟨hstat, hdir⟩ := Option.filter_eq_some_iff.mp hp
        exact hentries dir n .directory p hread hnode hstat (.inr ⟨h, of_decide_eq_true hdir⟩)
      | file content =>
        refine ⟨fun a ha => ?_, fun henter => ?_⟩
        · exact hentries dir n (.file content) a.path hread hnode
            (visitsItem_searchVisit _ _ _ a ha) (.inr ⟨h, isSearched_of_mem ha⟩)
        · rw [enter_searchVisit_file] at henter
          exact absurd henter Bool.false_ne_true
      | link target => exact absurd trivial hlink
      | special =>
        exact ⟨fun a ha => absurd ha List.not_mem_nil,
          fun henter => absurd henter Bool.false_ne_true⟩

/-- **When the memory browser is confined**: exactly if the entries of the base
directory that the request visits are, under the paths that they are visited by,
within the real path of the base. -/
theorem memory_confined_iff (site : MemorySite) (request : MemoryRequest) :
    StaysInside site request ↔ EntriesInside site request := by
  by_cases htree : request.IsTree
  · exact confined_tree_iff htree
  · by_cases hsearch : request.IsSearch
    · exact confined_search_iff hsearch
    · refine iff_of_true (staysInside_of_worksOn (worksOn_memoryReply htree hsearch)) ?_
      intro dir n k p _ _ _ hvisit
      rcases hvisit with ⟨h, -⟩ | ⟨h, -⟩
      · exact absurd h htree
      · exact absurd h hsearch

/-- A link to `/x/y`, and two directories `m`: one beside the link, one beside what
it leads to. -/
def sampleEntries : List (List FileName × FileNode FileContent) :=
  [("/l", .link "/x/y".toList), ("/x", .directory), ("/x/y", .directory),
    ("/x/m", .directory), ("/x/m/a", .directory), ("/m", .directory),
    ("/m/a", .directory), ("/m/a/secret.txt", .file ⟨"secret", 6⟩)].map
      fun (path, node) => (Posix.segments path.toList, node)

/-- The memory directory is `/l/../m`, which is `/x/m`. -/
def sampleMemorySite : MemorySite where
  rt := sampleRuntime
  fs := @FileSystem.ofEntries FileContent sampleEntries (by decide +kernel)
  cwd := []
  base := "/l/../m".toList
  otherSize _ := 0
  localeLe a b := decide (a ≤ b)
  isChunk _ := true

/-- **The tree of `/l/../m` lists `/m/a`**, where `/x/m/a` is meant. -/
theorem not_confined_sampleTree :
    ¬ StaysInside sampleMemorySite (.get none (some "tree") none) := by
  intro h
  have hbase : sampleMemorySite.fs.realpath sampleMemorySite.cwd sampleMemorySite.base
      = .ok (Posix.segments "/x/m".toList) := by rfl
  have hlist : FileAccess.list (Posix.segments "/m/a".toList)
      ∈ (memoryReply sampleMemorySite (.get none (some "tree") none)).accesses := by
    decide +kernel
  obtain ⟨base, hbase', hprefix⟩ := h.inside _ hlist
  obtain rfl := Except.ok.inj (hbase.symm.trans hbase')
  exact absurd hprefix (by decide)

end MissionControl
