import MissionControl.Settings
import MissionControl.Library.Machine
import MissionControl.Library.Table

/-!
# Backups and their retention

A backup is written by the database driver, which its request waits for; the request then
removes what is beyond its limit, newest first. There are two such requests with limits of
their own: the scheduler takes the setting `general.backup_retention_count`, `POST
/api/backup` takes 10 whatever the setting says.

So a backup is removed although the setting asks for more than 10, and a setting that is a
negative number is handed to `slice`, which then counts from the end: with `-1` a backup
removes the oldest one, which can be itself (`not_keepsBackups_sampleSetting`).
`backups_kept_iff` says exactly which backups respect the setting and survive.
-/

namespace MissionControl

/-! ## The directory -/

/-- A file of `BACKUP_DIR`, with the time of its modification. -/
structure BackupFile where
  name : String
  mtime : ℕ
  deriving DecidableEq

/-- **`BACKUP_DIR`**: no two files have one name. -/
structure BackupDir where
  files : List BackupFile
  nodup : (files.map BackupFile.name).Nodup

/-- `f.startsWith('mc-backup-') && f.endsWith('.db')`. -/
def isBackup (f : BackupFile) : Bool :=
  "mc-backup-".toList.isPrefixOf f.name.toList && ".db".toList.isSuffixOf f.name.toList

/-- The name of the backup of a time. -/
def backupName (timestamp : String) : String := "mc-backup-" ++ timestamp ++ ".db"

namespace BackupDir

/-- No two files were modified at one time. -/
def DistinctTimes (dir : BackupDir) : Prop := (dir.files.map BackupFile.mtime).Nodup

def find (dir : BackupDir) (name : String) : Option BackupFile :=
  dir.files.find? (fun f => f.name = name)

def backups (dir : BackupDir) : List BackupFile := dir.files.filter isBackup

/-- The backups that are newer than a file. -/
def newer (dir : BackupDir) (f : BackupFile) : ℕ :=
  dir.backups.countP (fun g => f.mtime < g.mtime)

/-- `unlinkSync`. -/
def unlink (dir : BackupDir) (name : String) : BackupDir where
  files := dir.files.filter (fun f => f.name ≠ name)
  nodup := dir.nodup.sublist (List.filter_sublist.map _)

/-- A file is written, in place of the one that has its name. -/
def write (dir : BackupDir) (name : String) (mtime : ℕ) : BackupDir where
  files := ⟨name, mtime⟩ :: (dir.unlink name).files
  nodup := by
    refine List.nodup_cons.mpr ⟨fun hmem => ?_, (dir.unlink name).nodup⟩
    obtain ⟨f, hf, hname⟩ := List.mem_map.mp hmem
    exact of_decide_eq_true (List.mem_filter.mp hf).2 hname

end BackupDir

/-! ## Pruning -/

/-- A backup that is removed, with the one it is removed for and how many there are when
it is. -/
structure Pruned where
  name : String
  created : String
  existing : ℕ
  deriving DecidableEq

/-- `xs.slice(n)`: what is behind the first elements, or the last ones for a number below
zero. -/
def sliceFrom {α : Type} (n : ℤ) (xs : List α) : List α :=
  if 0 ≤ n then xs.drop n.toNat else xs.drop (xs.length - n.natAbs)

/-- `.sort((a, b) => b.mtime - a.mtime)`. -/
def newestFirst (files : List BackupFile) : List BackupFile :=
  (Descending.insertion BackupFile.mtime).sort files

def unlinkAll (created : String) : List BackupFile → BackupDir → BackupDir × List Pruned
  | [], dir => (dir, [])
  | f :: files, dir =>
    let (dir', pruned) := unlinkAll created files (dir.unlink f.name)
    (dir', ⟨f.name, created, dir.backups.length⟩ :: pruned)

def prune (limit : ℤ) (created : String) (dir : BackupDir) : BackupDir × List Pruned :=
  unlinkAll created (sliceFrom limit (newestFirst dir.backups)) dir

/-! ## Requests -/

/-- What makes a backup: `runBackup` of the scheduler, or `POST /api/backup`. -/
inductive BackupRoute where
  | scheduled | manual
  deriving DecidableEq

/-- `MAX_BACKUPS`. -/
def MAX_BACKUPS : ℤ := 10

def BackupRoute.limit (settings : Settings) : BackupRoute → ℤ
  | scheduled => getSettingNumber settings "general.backup_retention_count" 10
  | manual => MAX_BACKUPS

structure BackupState where
  settings : Settings
  dir : BackupDir

/-- What happens: the driver has written a backup, a request goes on with the backup it
has waited for, and the settings change. -/
inductive BackupAction where
  | write (timestamp : String) (mtime : ℕ)
  | finish (route : BackupRoute) (timestamp : String)
  | putSettings (body : Json)
  | deleteSetting (body : Json)

/-- **The backups**, the requests for them interleaving where they wait for the driver. A
request whose backup is gone has failed, and removes nothing. -/
def backupMachine (site : SettingsSite) : Machine BackupState BackupAction Pruned where
  step s
    | .write timestamp mtime =>
      ({ s with dir := s.dir.write (backupName timestamp) mtime }, [])
    | .finish route timestamp =>
      match s.dir.find (backupName timestamp) with
      | none => (s, [])
      | some _ =>
        let (dir, pruned) := prune (route.limit s.settings) (backupName timestamp) s.dir
        ({ s with dir }, pruned)
    | .putSettings body => ({ s with settings := (putSettings site s.settings body).2 }, [])
    | .deleteSetting body =>
      ({ s with settings := (deleteSetting site s.settings body).2 }, [])

/-- **How many backups are to be kept**: the number of the setting, or 10 where there is
none or it is not positive. -/
def retentionCount (settings : Settings) : ℕ :=
  match (settings "general.backup_retention_count").bind parseInt with
  | some n => if 0 < n then n.toNat else 10
  | none => 10

/-- **The setting is respected**: no backup is removed while there are no more than are to
be kept, and none by the request that has made it. -/
def KeepsBackups (site : SettingsSite) (s : BackupState) (a : BackupAction) : Prop :=
  ∀ p ∈ (backupMachine site).emits s a,
    retentionCount s.settings < p.existing ∧ p.name ≠ p.created

/-- A file is written at a time at which no other one was modified. -/
def WrittenApart (s : BackupState) : BackupAction → Prop
  | .write timestamp mtime =>
    ∀ f ∈ s.dir.files, f.name ≠ backupName timestamp → f.mtime ≠ mtime
  | _ => True

/-- **A request removes what it may**: the limit of a manual backup is no smaller than the
setting, or not reached; that of a scheduled one is positive, or leaves 10 backups; and
the backup that was made is among those that are left. -/
def WithinRetention (s : BackupState) : BackupAction → Prop
  | .finish route timestamp =>
    ∀ f, s.dir.find (backupName timestamp) = some f →
      match route with
      | .manual =>
        (retentionCount s.settings ≤ 10 ∨ s.dir.backups.length ≤ 10) ∧ s.dir.newer f < 10
      | .scheduled =>
        let limit := getSettingNumber s.settings "general.backup_retention_count" 10
        if 0 < limit then (s.dir.newer f : ℤ) < limit
        else 10 + limit.natAbs ≤ s.dir.backups.length
          ∧ s.dir.newer f + limit.natAbs < s.dir.backups.length
  | _ => True

/-! ## What pruning removes -/

theorem isBackup_backupName (timestamp : String) (mtime : ℕ) :
    isBackup ⟨backupName timestamp, mtime⟩ = true := by
  unfold isBackup backupName
  rw [String.toList_append, String.toList_append, Bool.and_eq_true, List.isPrefixOf_iff_prefix,
    List.isSuffixOf_iff_suffix]
  exact ⟨(List.prefix_append _ _).trans (List.prefix_append _ _), List.suffix_append _ _⟩

namespace BackupDir

variable {dir : BackupDir}

theorem find_eq_some {name : String} {f : BackupFile} (h : dir.find name = some f) :
    f ∈ dir.files ∧ f.name = name :=
  ⟨List.mem_of_find?_eq_some h, by simpa using List.find?_some h⟩

theorem eq_of_name {f g : BackupFile} (hf : f ∈ dir.files) (hg : g ∈ dir.files)
    (hname : f.name = g.name) : f = g := List.inj_on_of_nodup_map dir.nodup hf hg hname

/-- **Removing a backup** leaves one fewer. -/
theorem length_backups_unlink {f : BackupFile} (hf : f ∈ dir.backups) :
    (dir.unlink f.name).backups.length + 1 = dir.backups.length := by
  have hnodup : dir.backups.Nodup :=
    (List.Nodup.of_map _ dir.nodup).sublist List.filter_sublist
  have herase : (dir.unlink f.name).backups = dir.backups.erase f := by
    rw [hnodup.erase_eq_filter]
    show (dir.files.filter _).filter _ = (dir.files.filter _).filter _
    rw [List.filter_filter, List.filter_filter]
    refine List.filter_congr fun g hg => ?_
    have hiff : g.name ≠ f.name ↔ g ≠ f := by
      refine not_congr ⟨fun hname => ?_, fun h => congrArg _ h⟩
      exact dir.eq_of_name hg (List.mem_filter.mp hf).1 hname
    rw [Bool.and_comm, decide_eq_decide.mpr hiff, decide_not]
    rfl
  rw [herase, List.length_erase_of_mem hf]
  have := List.length_pos_of_mem hf
  omega

theorem mem_backups_unlink {f g : BackupFile} (hg : g ∈ dir.backups)
    (hne : g.name ≠ f.name) : g ∈ (dir.unlink f.name).backups := by
  obtain ⟨hmem, hbackup⟩ := List.mem_filter.mp hg
  exact List.mem_filter.mpr ⟨List.mem_filter.mpr ⟨hmem, decide_eq_true hne⟩, hbackup⟩

end BackupDir

theorem unlinkAll_names (created : String) (files : List BackupFile) (dir : BackupDir) :
    (unlinkAll created files dir).2.map (fun p => (p.name, p.created))
      = files.map (fun f => (f.name, created)) := by
  induction files generalizing dir with
  | nil => rfl
  | cons f files ih => exact congrArg ((f.name, created) :: ·) (ih (dir.unlink f.name))

theorem unlinkAll_sublist (created : String) (files : List BackupFile) (dir : BackupDir) :
    (unlinkAll created files dir).1.files.Sublist dir.files := by
  induction files generalizing dir with
  | nil => exact List.Sublist.refl _
  | cons f files ih => exact (ih (dir.unlink f.name)).trans List.filter_sublist

/-- **When backups are removed one by one**, there are more than `n` each time exactly if
`n` are left. -/
theorem unlinkAll_existing {n : ℕ} {created : String} {files : List BackupFile}
    {dir : BackupDir} (hmem : ∀ f ∈ files, f ∈ dir.backups)
    (hnodup : (files.map BackupFile.name).Nodup) :
    (∀ p ∈ (unlinkAll created files dir).2, n < p.existing)
      ↔ files = [] ∨ n + files.length ≤ dir.backups.length := by
  induction files generalizing dir with
  | nil => exact iff_of_true (fun p hp => absurd hp List.not_mem_nil) (Or.inl rfl)
  | cons f files ih =>
    rw [List.map_cons, List.nodup_cons] at hnodup
    have hlen := dir.length_backups_unlink (hmem f List.mem_cons_self)
    have hrest : ∀ g ∈ files, g ∈ (dir.unlink f.name).backups := by
      intro g hg
      refine dir.mem_backups_unlink (hmem g (List.mem_cons_of_mem f hg)) fun hname => ?_
      exact hnodup.1 (List.mem_map.mpr ⟨g, hg, hname⟩)
    show (∀ p ∈ _ :: (unlinkAll created files (dir.unlink f.name)).2, n < p.existing) ↔ _
    rw [List.forall_mem_cons, ih hrest hnodup.2, List.length_cons]
    simp only [reduceCtorEq, false_or]
    constructor
    · rintro ⟨hlt, rfl | hle⟩
      · exact hlt
      · omega
    · intro hle
      refine ⟨by show n < dir.backups.length; omega, Or.inr (by omega)⟩

/-- How many elements `slice` leaves in front. -/
def keptCount (limit : ℤ) (length : ℕ) : ℕ :=
  if 0 ≤ limit then min limit.toNat length else length - limit.natAbs

theorem sliceFrom_eq_drop {α : Type} (limit : ℤ) (xs : List α) :
    sliceFrom limit xs = xs.drop (keptCount limit xs.length) := by
  unfold sliceFrom keptCount
  split
  · rcases Nat.le_total limit.toNat xs.length with hle | hle
    · rw [min_eq_left hle]
    · rw [min_eq_right hle, List.drop_of_length_le hle, List.drop_length]
  · rfl

theorem keptCount_le (limit : ℤ) (length : ℕ) : keptCount limit length ≤ length := by
  unfold keptCount
  split
  · exact min_le_right _ _
  · exact Nat.sub_le _ _

section Prune

variable {dir : BackupDir} {limit : ℤ} {created : String}

theorem newestFirst_perm (files : List BackupFile) : (newestFirst files).Perm files :=
  (Descending.insertion BackupFile.mtime).perm files

theorem sliceFrom_newestFirst (dir : BackupDir) (limit : ℤ) :
    sliceFrom limit (newestFirst dir.backups)
      = (newestFirst dir.backups).drop (keptCount limit dir.backups.length) := by
  rw [sliceFrom_eq_drop, (newestFirst_perm dir.backups).length_eq]

theorem BackupDir.nodup_names_newestFirst (dir : BackupDir) :
    ((newestFirst dir.backups).map BackupFile.name).Nodup :=
  ((newestFirst_perm dir.backups).map _).nodup_iff.mpr
    (dir.nodup.sublist (List.filter_sublist.map _))

/-- **More than `n` backups are there** each time one is removed, if none is or `n` are
kept. -/
theorem prune_existing_iff (n : ℕ) :
    (∀ p ∈ (prune limit created dir).2, n < p.existing)
      ↔ keptCount limit dir.backups.length = dir.backups.length
        ∨ n ≤ keptCount limit dir.backups.length := by
  have hperm := newestFirst_perm dir.backups
  have hle := keptCount_le limit dir.backups.length
  have hmem : ∀ f ∈ sliceFrom limit (newestFirst dir.backups), f ∈ dir.backups := by
    intro f hf
    rw [sliceFrom_newestFirst] at hf
    exact hperm.mem_iff.mp (List.mem_of_mem_drop hf)
  have hnodup : ((sliceFrom limit (newestFirst dir.backups)).map BackupFile.name).Nodup := by
    rw [sliceFrom_newestFirst]
    exact dir.nodup_names_newestFirst.sublist ((List.drop_sublist _ _).map _)
  unfold prune
  rw [unlinkAll_existing hmem hnodup, sliceFrom_newestFirst, List.length_drop,
    hperm.length_eq, List.drop_eq_nil_iff, hperm.length_eq]
  omega

/-- **A backup survives** the pruning for it exactly if few enough backups are newer. -/
theorem prune_survives_iff (hdistinct : dir.DistinctTimes) {f : BackupFile}
    (hf : f ∈ dir.backups) :
    (∀ p ∈ (prune limit f.name dir).2, p.name ≠ p.created)
      ↔ dir.newer f < keptCount limit dir.backups.length := by
  have hperm := newestFirst_perm dir.backups
  have hfirst := (Descending.insertion BackupFile.mtime).mem_first_iff
    (n := keptCount limit dir.backups.length) hf
    (hdistinct.sublist (List.filter_sublist.map _))
  have hpairs := unlinkAll_names f.name (sliceFrom limit (newestFirst dir.backups)) dir
  rw [sliceFrom_newestFirst] at hpairs
  show _ ↔ dir.backups.countP (fun g => f.mtime < g.mtime) < _
  rw [← hfirst]
  show _ ↔ f ∈ (newestFirst dir.backups).take _
  have hmem : f ∈ newestFirst dir.backups := hperm.mem_iff.mpr hf
  have hnodup := List.Nodup.of_map _ dir.nodup_names_newestFirst
  rw [← List.take_append_drop (keptCount limit dir.backups.length)
    (newestFirst dir.backups)] at hmem hnodup
  unfold prune
  rw [sliceFrom_newestFirst]
  constructor
  · intro h
    refine (List.mem_append.mp hmem).resolve_right fun hdrop => ?_
    -- otherwise it is removed for itself
    have hin : (f.name, f.name) ∈ (unlinkAll f.name ((newestFirst dir.backups).drop
        (keptCount limit dir.backups.length)) dir).2.map (fun p => (p.name, p.created)) := by
      rw [hpairs]
      exact List.mem_map.mpr ⟨f, hdrop, rfl⟩
    obtain ⟨p, hp, heq⟩ := List.mem_map.mp hin
    exact h p hp ((congrArg Prod.fst heq).trans (congrArg Prod.snd heq).symm)
  · intro htake p hp heq
    have hin : (p.name, p.created) ∈ (unlinkAll f.name ((newestFirst dir.backups).drop
        (keptCount limit dir.backups.length)) dir).2.map (fun p => (p.name, p.created)) :=
      List.mem_map.mpr ⟨p, hp, rfl⟩
    rw [hpairs] at hin
    obtain ⟨g, hg, hpair⟩ := List.mem_map.mp hin
    have hname : g.name = f.name :=
      (congrArg Prod.fst hpair).trans (heq.trans (congrArg Prod.snd hpair).symm)
    have hgmem := (List.mem_filter.mp (hperm.mem_iff.mp (List.mem_of_mem_drop hg))).1
    obtain rfl := dir.eq_of_name hgmem (List.mem_filter.mp hf).1 hname
    exact List.disjoint_of_nodup_append hnodup htake hg

/-- **What a request removes** is beyond the setting, and not its own backup, exactly if as
many are kept. -/
theorem prune_keeps_iff (n : ℕ) (hdistinct : dir.DistinctTimes) {f : BackupFile}
    (hf : f ∈ dir.backups) :
    (∀ p ∈ (prune limit f.name dir).2, n < p.existing ∧ p.name ≠ p.created)
      ↔ (keptCount limit dir.backups.length = dir.backups.length
          ∨ n ≤ keptCount limit dir.backups.length)
        ∧ dir.newer f < keptCount limit dir.backups.length := by
  rw [forall₂_and, prune_existing_iff n, prune_survives_iff hdistinct hf]

end Prune

/-! ## Runs -/

/-- The number of backups to be kept is that of the scheduler, where it is positive. -/
theorem retentionCount_eq (settings : Settings) :
    (0 < getSettingNumber settings "general.backup_retention_count" 10 ∧
        (retentionCount settings : ℤ)
          = getSettingNumber settings "general.backup_retention_count" 10)
      ∨ (getSettingNumber settings "general.backup_retention_count" 10 < 0
        ∧ retentionCount settings = 10) := by
  unfold retentionCount getSettingNumber
  cases (settings "general.backup_retention_count").bind parseInt with
  | none => exact Or.inl ⟨by decide, rfl⟩
  | some n =>
    show (0 < (if n = 0 then 10 else n) ∧ (((if 0 < n then n.toNat else 10 : ℕ) : ℤ)
      = if n = 0 then 10 else n)) ∨ ((if n = 0 then 10 else n) < 0
        ∧ (if 0 < n then n.toNat else 10) = 10)
    rcases lt_trichotomy n 0 with hneg | rfl | hpos
    · right
      rw [if_neg hneg.ne, if_neg hneg.not_gt]
      exact ⟨hneg, rfl⟩
    · left
      exact ⟨by decide, rfl⟩
    · left
      rw [if_neg hpos.ne', if_pos hpos]
      exact ⟨hpos, Int.toNat_of_nonneg hpos.le⟩

/-- **A request respects the setting** exactly if it removes what it may. -/
theorem keepsBackups_iff (site : SettingsSite) (s : BackupState) (a : BackupAction)
    (hdistinct : s.dir.DistinctTimes) :
    KeepsBackups site s a ↔ WithinRetention s a := by
  cases a with
  | write timestamp mtime | putSettings body | deleteSetting body =>
    exact iff_of_true (fun p hp => absurd hp List.not_mem_nil) trivial
  | finish route timestamp =>
    unfold KeepsBackups Machine.emits backupMachine
    show (∀ p ∈ (match s.dir.find (backupName timestamp) with
      | none => (s, [])
      | some _ => _ : BackupState × List Pruned).2, _) ↔ ∀ f, _ → _
    cases hfind : s.dir.find (backupName timestamp) with
    | none => exact iff_of_true (fun p hp => absurd hp List.not_mem_nil) nofun
    | some f =>
      obtain ⟨hfile, hname⟩ := BackupDir.find_eq_some hfind
      have hf : f ∈ s.dir.backups := by
        refine List.mem_filter.mpr ⟨hfile, ?_⟩
        have := isBackup_backupName timestamp f.mtime
        rwa [← hname] at this
      have hnewer : s.dir.newer f < s.dir.backups.length := by
        refine Nat.lt_of_le_of_ne List.countP_le_length fun heq => ?_
        exact absurd (of_decide_eq_true (List.countP_eq_length.mp heq f hf)) (lt_irrefl _)
      show (∀ p ∈ (prune (route.limit s.settings) (backupName timestamp) s.dir).2, _) ↔ _
      rw [← hname, prune_keeps_iff _ hdistinct hf]
      simp only [Option.some.injEq, forall_eq']
      cases route with
      | manual =>
        show (keptCount 10 _ = _ ∨ _ ≤ keptCount 10 _) ∧ _ < keptCount 10 _ ↔ _
        have hkept : keptCount 10 s.dir.backups.length = min 10 s.dir.backups.length := rfl
        rw [hkept]
        omega
      | scheduled =>
        have hlimit : BackupRoute.scheduled.limit s.settings
          = getSettingNumber s.settings "general.backup_retention_count" 10 := rfl
        show _ ↔ if 0 < getSettingNumber _ _ 10 then _ else _
        rw [hlimit]
        obtain ⟨hpos, hcount⟩ | ⟨hneg, hcount⟩ := retentionCount_eq s.settings
        · -- the limit is what is to be kept
          generalize getSettingNumber s.settings "general.backup_retention_count" 10 = limit
            at hpos hcount
          rw [if_pos hpos]
          unfold keptCount
          rw [if_pos hpos.le]
          omega
        · generalize getSettingNumber s.settings "general.backup_retention_count" 10 = limit
            at hneg
          rw [if_neg hneg.not_gt, hcount]
          unfold keptCount
          rw [if_neg hneg.not_ge]
          omega

theorem distinctTimes_next (site : SettingsSite) (s : BackupState) (a : BackupAction)
    (hdistinct : s.dir.DistinctTimes) (happart : WrittenApart s a) :
    ((backupMachine site).next s a).dir.DistinctTimes := by
  cases a with
  | write timestamp mtime =>
    refine List.nodup_cons.mpr ⟨fun hmem => ?_, ?_⟩
    · obtain ⟨f, hf, htime⟩ := List.mem_map.mp hmem
      obtain ⟨hfile, hname⟩ := List.mem_filter.mp hf
      exact happart f hfile (of_decide_eq_true hname) htime
    · exact hdistinct.sublist (List.filter_sublist.map _)
  | finish route timestamp =>
    unfold Machine.next backupMachine
    show BackupDir.DistinctTimes (match s.dir.find (backupName timestamp) with
      | none => (s, [])
      | some _ => _ : BackupState × List Pruned).1.dir
    split
    · exact hdistinct
    · exact hdistinct.sublist ((unlinkAll_sublist _ _ _).map _)
  | putSettings body | deleteSetting body => exact hdistinct

/-- **Exactly which runs respect the retention of backups**, at every request: those whose
requests remove what they may. -/
theorem backups_kept_iff (site : SettingsSite) (s : BackupState) (as : List BackupAction)
    (hdistinct : s.dir.DistinctTimes)
    (happart : (backupMachine site).EachStep WrittenApart s as) :
    (backupMachine site).EachStep (KeepsBackups site) s as
      ↔ (backupMachine site).EachStep WithinRetention s as := by
  have hinv : ∀ p a, p ++ [a] <+: as → ((backupMachine site).state s p).dir.DistinctTimes := by
    intro p a hp
    have hpre : (backupMachine site).EachStep WrittenApart s p := fun q b hq =>
      happart q b (hq.trans ((List.prefix_append p [a]).trans hp))
    exact Machine.Throughout.invariant (backupMachine site)
      (I := fun _ s => s.dir.DistinctTimes) (C := fun _ => WrittenApart) hdistinct
      (fun _ s a hs ha => distinctTimes_next site s a hs ha) hpre
  refine forall₃_congr fun p a hp => ?_
  exact keepsBackups_iff site _ a (hinv p a hp)

/-! ## A setting below zero -/

/-- A configuration with the defaults. -/
def sampleSettingsSite : SettingsSite where
  rt := sampleRuntime
  sq := sampleSqlite
  retention := ⟨.finite 90, .finite 365, .finite 30, .finite 60, .finite 90, .finite 90⟩
  gatewayHost := "127.0.0.1"
  gatewayPort := .finite 18789

/-- No setting is stored, and there is no backup. -/
def emptyBackups : BackupState := ⟨fun _ => none, ⟨[], List.nodup_nil⟩⟩

/-- An administrator sets a number of backups, and one is written. -/
def sampleCount (count : String) : List BackupAction :=
  [.putSettings (.obj [("settings", .obj [("general.backup_retention_count", .str count)])]),
    .write "2025-01-01_03-00-00" 1]

/-- The request for the backup goes on. -/
def sampleBackup (count : String) (route : BackupRoute) : List BackupAction :=
  sampleCount count ++ [.finish route "2025-01-01_03-00-00"]

theorem writtenApart_sampleBackup (count : String) (route : BackupRoute) :
    (backupMachine sampleSettingsSite).EachStep WrittenApart emptyBackups
      (sampleBackup count route) := by
  refine .cons _ trivial (.cons _ (fun f hf => ?_) (.cons _ trivial (Machine.eachStep_nil _ _ _)))
  exact absurd hf List.not_mem_nil

theorem backups_kept_iff_sampleBackup :
    emptyBackups.dir.DistinctTimes
    ∧ (backupMachine sampleSettingsSite).EachStep WrittenApart emptyBackups
        (sampleBackup "20" .scheduled)
    ∧ ((backupMachine sampleSettingsSite).EachStep (KeepsBackups sampleSettingsSite)
          emptyBackups (sampleBackup "20" .scheduled)
        ↔ (backupMachine sampleSettingsSite).EachStep WithinRetention emptyBackups
          (sampleBackup "20" .scheduled)) :=
  ⟨List.nodup_nil, writtenApart_sampleBackup "20" .scheduled,
    backups_kept_iff sampleSettingsSite emptyBackups (sampleBackup "20" .scheduled)
      List.nodup_nil (writtenApart_sampleBackup "20" .scheduled)⟩

/-- **With the setting `-1`** a scheduled backup removes itself. -/
theorem not_keepsBackups_sampleSetting :
    ¬ ∀ as, (backupMachine sampleSettingsSite).EachStep WrittenApart emptyBackups as →
      (backupMachine sampleSettingsSite).EachStep (KeepsBackups sampleSettingsSite)
        emptyBackups as := by
  intro h
  have hkept := h _ (writtenApart_sampleBackup "-1" .scheduled) (sampleCount "-1") _
    (List.prefix_refl _)
  have hpruned : (backupMachine sampleSettingsSite).emits
      ((backupMachine sampleSettingsSite).state emptyBackups (sampleCount "-1"))
      (.finish .scheduled "2025-01-01_03-00-00")
        = [⟨"mc-backup-2025-01-01_03-00-00.db", "mc-backup-2025-01-01_03-00-00.db", 1⟩] := by
    decide +kernel
  exact (hkept _ (hpruned ▸ List.mem_singleton_self _)).2 rfl

end MissionControl
