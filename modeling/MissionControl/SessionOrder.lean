import MissionControl.ClaudeSessions

/-!
# The order in which transcripts are read

The order of what `readdir` lists is not fixed, and each session is written over what an
earlier one has left under its id. Of the columns that are updated the last session counts,
and of the others the first one, or the row that was there.

So the rows do not depend on the order exactly if the sessions of each id agree on what is
written of them (`orderIndependent_iff`). Two transcripts of one session that have got apart
do not, and which of them is stored is the order's choice
(`not_orderIndependent_sampleBranches`).
-/

namespace MissionControl

/-- **Two listings of one project**: the same files, in any order. -/
structure SameFiles (dir dir' : ProjectDir) : Prop where
  slug : dir.slug = dir'.slug
  files : Option.Rel List.Perm dir.files dir'.files

/-- **Two listings of the same projects**, the directories in any order, and the files of
each. -/
def Reordered : Option (List ProjectDir) → Option (List ProjectDir) → Prop :=
  Option.Rel fun dirs dirs' => ∃ between, dirs.Perm between ∧ List.Forall₂ SameFiles between dirs'

/-- **The rows do not depend on the order**: they are the same after a sync, however the
directories and files are listed. -/
def OrderIndependent (site : TranscriptSite) (sq : Sqlite) (now : ℕ)
    (projects : Option (List ProjectDir)) (table : SessionTable) : Prop :=
  ∀ projects', Reordered projects projects' →
    (syncClaudeSessions site sq now projects' table).1
      = (syncClaudeSessions site sq now projects table).1

/-- **The sessions of an id agree**, if all of them can be stored: on the columns that are
updated, and on all of them where there is no row yet. -/
def AgreeOnIds (site : TranscriptSite) (sq : Sqlite) (now : ℕ)
    (projects : Option (List ProjectDir)) (table : SessionTable) : Prop :=
  (∀ s ∈ scanClaudeSessions site now projects, s.Storable sq now) →
    ∀ s ∈ scanClaudeSessions site now projects, ∀ t ∈ scanClaudeSessions site now projects,
      storedId sq now s = storedId sq now t →
        ∀ c : SessionColumn, c.isUpdated = true ∨ table (storedId sq now s) = none →
          storedRow sq now s c = storedRow sq now t c

/-! ## Rows that are merged -/

theorem mergeRow_of_updated {c : SessionColumn} (hc : c.isUpdated = true)
    (v : Option ClaudeSessionRow) (row : ClaudeSessionRow) : mergeRow v row c = row c := by
  cases v with
  | none => rfl
  | some old => exact if_pos hc

theorem mergeRow_of_kept {c : SessionColumn} (hc : ¬ c.isUpdated = true)
    (old row : ClaudeSessionRow) : mergeRow (some old) row c = old c := if_neg hc

/-- **Rows that agree are merged to any of them.** -/
theorem mergeAll_of_agree {v : Option ClaudeSessionRow} {rows : List ClaudeSessionRow}
    (h : ∀ r ∈ rows, ∀ r' ∈ rows, ∀ c : SessionColumn, c.isUpdated = true ∨ v = none → r c = r' c)
    {r : ClaudeSessionRow} (hr : r ∈ rows) :
    Upserts.mergeAll mergeRow v rows = some (mergeRow v r) := by
  induction rows using List.reverseRecOn generalizing r with
  | nil => cases hr
  | append_singleton rows x ih =>
    have hx : x ∈ rows ++ [x] := List.mem_append_right _ (List.mem_singleton_self x)
    rw [Upserts.mergeAll_concat]
    refine congrArg some (funext fun c => ?_)
    by_cases hc : c.isUpdated = true
    · rw [mergeRow_of_updated hc, mergeRow_of_updated hc]
      exact h x hx r hr c (.inl hc)
    · cases hrows : rows with
      | nil =>
        subst hrows
        obtain rfl := List.mem_singleton.mp hr
        rfl
      | cons first rest =>
        have hfirst : first ∈ rows := hrows ▸ List.mem_cons_self
        rw [← hrows, ih (fun r hr r' hr' => h r (List.mem_append_left _ hr) r'
          (List.mem_append_left _ hr')) hfirst, mergeRow_of_kept hc]
        cases v with
        | none => exact h first (List.mem_append_left _ hfirst) r hr c (.inr rfl)
        | some old => rw [mergeRow_of_kept hc, mergeRow_of_kept hc]

theorem mergeAll_of_kept {c : SessionColumn} (hc : ¬ c.isUpdated = true)
    (first : ClaudeSessionRow) (rows : List ClaudeSessionRow) :
    ∃ row, Upserts.mergeAll mergeRow none (first :: rows) = some row ∧ row c = first c := by
  induction rows using List.reverseRecOn with
  | nil => exact ⟨first, rfl, rfl⟩
  | append_singleton rows x ih =>
    obtain ⟨row, hrow, hfirst⟩ := ih
    rw [← List.cons_append, Upserts.mergeAll_concat, hrow]
    exact ⟨_, rfl, (mergeRow_of_kept hc row x).trans hfirst⟩

/-! ## Listings -/

section Listings

variable {site : TranscriptSite} {sq : Sqlite} {now : ℕ}

theorem SameFiles.refl (dir : ProjectDir) : SameFiles dir dir := by
  refine ⟨rfl, ?_⟩
  cases dir.files with
  | none => exact .none
  | some files => exact .some (List.Perm.refl files)

theorem SameFiles.scanProject_perm {dir dir' : ProjectDir} (h : SameFiles dir dir') :
    (scanProject site now dir).Perm (scanProject site now dir') := by
  have hfiles : ∀ {files files' : Option (List TranscriptFile)},
      Option.Rel List.Perm files files' → (files.getD []).Perm (files'.getD []) := by
    intro files files' hrel
    cases hrel with
    | none => exact List.Perm.refl _
    | some hperm => exact hperm
  unfold scanProject
  rw [h.slug]
  exact List.Perm.filterMap _ (List.Perm.filter _ (hfiles h.files))

/-- **Another order finds the same sessions.** -/
theorem Reordered.scan_perm {projects projects' : Option (List ProjectDir)}
    (h : Reordered projects projects') (site : TranscriptSite) (now : ℕ) :
    (scanClaudeSessions site now projects).Perm (scanClaudeSessions site now projects') := by
  unfold scanClaudeSessions
  cases h with
  | none => exact List.Perm.refl _
  | some h =>
    obtain ⟨between, hperm, hsame⟩ := h
    refine (hperm.flatMap_right (scanProject site now)).trans ?_
    rw [Option.getD_some]
    clear hperm
    induction hsame with
    | nil => exact List.Perm.refl _
    | cons hdir _ ih =>
      rw [List.flatMap_cons, List.flatMap_cons]
      exact hdir.scanProject_perm.append ih

theorem sameFiles_of_perm (slug : String) {files files' : List TranscriptFile}
    (h : files.Perm files') : SameFiles ⟨slug, some files⟩ ⟨slug, some files'⟩ := ⟨rfl, .some h⟩

theorem reordered_last (before after : List ProjectDir) (slug : String)
    {files files' : List TranscriptFile} (h : files.Perm files') :
    Reordered (some (before ++ ⟨slug, some files⟩ :: after))
      (some (before ++ after ++ [⟨slug, some files'⟩])) := by
  refine .some ⟨before ++ after ++ [⟨slug, some files⟩], ?_, ?_⟩
  · exact List.perm_middle.trans (List.perm_append_singleton _ _).symm
  · exact List.rel_append (List.forall₂_same.mpr fun dir _ => SameFiles.refl dir)
      (.cons (sameFiles_of_perm slug h) .nil)

theorem reordered_first (before after : List ProjectDir) (slug : String)
    {files files' : List TranscriptFile} (h : files.Perm files') :
    Reordered (some (before ++ ⟨slug, some files⟩ :: after))
      (some (⟨slug, some files'⟩ :: (before ++ after))) :=
  .some ⟨⟨slug, some files⟩ :: (before ++ after), List.perm_middle,
    .cons (sameFiles_of_perm slug h) (List.forall₂_same.mpr fun dir _ => SameFiles.refl dir)⟩

theorem scanProject_append (slug : String) (files files' : List TranscriptFile) :
    scanProject site now ⟨slug, some (files ++ files')⟩
      = scanProject site now ⟨slug, some files⟩ ++ scanProject site now ⟨slug, some files'⟩ := by
  unfold scanProject
  rw [Option.getD_some, List.filter_append, List.filterMap_append]
  rfl

/-- **Any session can be the last one**, and the first one. -/
theorem exists_reordered {projects : Option (List ProjectDir)} {s : SessionStats}
    (hs : s ∈ scanClaudeSessions site now projects) :
    (∃ projects' before, Reordered projects projects'
        ∧ scanClaudeSessions site now projects' = before ++ [s])
      ∧ ∃ projects' after, Reordered projects projects'
        ∧ scanClaudeSessions site now projects' = s :: after := by
  obtain ⟨dir, hdir, f, hf, hname, hparse⟩ := mem_scanClaudeSessions.mp hs
  cases projects with
  | none => cases hdir
  | some dirs =>
    obtain ⟨slug, files⟩ := dir
    cases files with
    | none => cases hf
    | some files =>
      obtain ⟨before, after, rfl⟩ := List.append_of_mem hdir
      obtain ⟨first, last, rfl⟩ := List.append_of_mem hf
      have hlast : (first ++ f :: last).Perm (first ++ last ++ [f]) :=
        List.perm_middle.trans (List.perm_append_singleton _ _).symm
      have hone : scanProject site now ⟨slug, some [f]⟩ = [s] := by
        have hfilter : [f].filter (fun f => isJsonl f.name) = [f] := List.filter_cons_of_pos hname
        unfold scanProject
        rw [Option.getD_some, hfilter]
        exact List.filterMap_cons_some hparse
      refine ⟨⟨_, (before ++ after).flatMap (scanProject site now)
          ++ scanProject site now ⟨slug, some (first ++ last)⟩,
          reordered_last before after slug hlast, ?_⟩,
        ⟨_, scanProject site now ⟨slug, some (first ++ last)⟩
          ++ (before ++ after).flatMap (scanProject site now),
          reordered_first before after slug List.perm_middle, ?_⟩⟩
      · unfold scanClaudeSessions
        rw [Option.getD_some, List.flatMap_append, List.flatMap_singleton, scanProject_append,
          hone, List.append_assoc]
      · unfold scanClaudeSessions
        rw [Option.getD_some, List.flatMap_cons, ← List.singleton_append, scanProject_append,
          hone, List.append_assoc, List.singleton_append]

end Listings

/-! ## Every order -/

section Order

variable {site : TranscriptSite} {sq : Sqlite} {now : ℕ}

theorem ofKey_perm {κ α : Type} [DecidableEq κ] (key : α → κ) {xs ys : List α} (h : xs.Perm ys)
    (k : κ) : (Upserts.ofKey key k xs).Perm (Upserts.ofKey key k ys) := h.filter _

theorem sync_eq_table {projects : Option (List ProjectDir)} (table : SessionTable)
    (h : (∀ s ∈ scanClaudeSessions site now projects, s.Storable sq now) →
      scanClaudeSessions site now projects = []) :
    (syncClaudeSessions site sq now projects table).1 = table := by
  by_cases hempty : scanClaudeSessions site now projects = []
  · unfold syncClaudeSessions
    rw [hempty]
    rfl
  · have hfails := fun hok => hempty (h ((sync_eq_ok_iff table).mp hok))
    unfold syncClaudeSessions at hfails ⊢
    dsimp only at hfails ⊢
    split
    · rfl
    · next hsome =>
      rw [if_neg hsome] at hfails
      split
      · next hfold =>
        rw [hfold] at hfails
        exact absurd ⟨_, rfl⟩ hfails
      · rfl

/-- **Sessions that agree leave the same rows**, in any order. -/
theorem orderIndependent_of_agree {projects : Option (List ProjectDir)} {table : SessionTable}
    (h : AgreeOnIds site sq now projects table) : OrderIndependent site sq now projects table := by
  intro projects' hreordered
  have hperm := hreordered.scan_perm site now
  by_cases hstorable : ∀ s ∈ scanClaudeSessions site now projects, s.Storable sq now
  · have hstorable' : ∀ s ∈ scanClaudeSessions site now projects', s.Storable sq now :=
      fun s hs => hstorable s (hperm.mem_iff.mpr hs)
    by_cases hempty : scanClaudeSessions site now projects = []
    · rw [sync_eq_table table fun _ => hempty,
        sync_eq_table table fun _ => List.nil_perm.mp (hempty ▸ hperm)]
    · have hempty' : scanClaudeSessions site now projects' ≠ [] := fun hnil =>
        hempty (List.perm_nil.mp (hnil ▸ hperm))
      funext id
      rw [syncClaudeSessions_apply table hstorable hempty,
        syncClaudeSessions_apply table hstorable' hempty']
      have hof := ofKey_perm (storedId sq now) hperm id
      cases hsessions : Upserts.ofKey (storedId sq now) id
          (scanClaudeSessions site now projects) with
      | nil =>
        rw [hsessions] at hof
        rw [List.nil_perm.mp hof]
      | cons s sessions =>
        rw [← hsessions]
        have hagree : ∀ r ∈ (Upserts.ofKey (storedId sq now) id
            (scanClaudeSessions site now projects)).map (storedRow sq now),
            ∀ r' ∈ (Upserts.ofKey (storedId sq now) id
              (scanClaudeSessions site now projects)).map (storedRow sq now),
            ∀ c : SessionColumn, c.isUpdated = true ∨ deactivated table id = none →
              r c = r' c := by
          intro r hr r' hr' c hc
          obtain ⟨s, hs, rfl⟩ := List.mem_map.mp hr
          obtain ⟨t, ht, rfl⟩ := List.mem_map.mp hr'
          obtain ⟨hmem, rfl⟩ := Upserts.mem_ofKey.mp hs
          obtain ⟨hmem', hid⟩ := Upserts.mem_ofKey.mp ht
          exact h hstorable s hmem t hmem' hid.symm c (hc.imp_right Option.map_eq_none_iff.mp)
        have hmem : storedRow sq now s ∈ (Upserts.ofKey (storedId sq now) id
            (scanClaudeSessions site now projects)).map (storedRow sq now) :=
          List.mem_map_of_mem (hsessions ▸ List.mem_cons_self)
        have hmap := hof.map (storedRow sq now)
        rw [mergeAll_of_agree hagree hmem, mergeAll_of_agree (fun r hr r' hr' =>
          hagree r (hmap.mem_iff.mpr hr) r' (hmap.mem_iff.mpr hr')) (hmap.mem_iff.mp hmem)]
  · have hstorable' : ¬ ∀ s ∈ scanClaudeSessions site now projects', s.Storable sq now :=
      fun h => hstorable fun s hs => h s (hperm.mem_iff.mp hs)
    rw [sync_eq_table table fun h => absurd h hstorable,
      sync_eq_table table fun h => absurd h hstorable']

theorem sync_of_last {projects projects' : Option (List ProjectDir)} {table : SessionTable}
    (hsame : (syncClaudeSessions site sq now projects' table).1
      = (syncClaudeSessions site sq now projects table).1)
    (hstorable : ∀ s ∈ scanClaudeSessions site now projects', s.Storable sq now)
    {before : List SessionStats} {s : SessionStats}
    (hs : scanClaudeSessions site now projects' = before ++ [s]) {c : SessionColumn}
    (hc : c.isUpdated = true) :
    ((syncClaudeSessions site sq now projects table).1 (storedId sq now s)).map (fun r => r c)
      = some (storedRow sq now s c) := by
  have hne : scanClaudeSessions site now projects' ≠ [] := by
    rw [hs]
    exact List.append_ne_nil_of_right_ne_nil _ (List.cons_ne_nil _ _)
  have hof : Upserts.ofKey (storedId sq now) (storedId sq now s) (before ++ [s])
      = Upserts.ofKey (storedId sq now) (storedId sq now s) before ++ [s] := by
    unfold Upserts.ofKey
    rw [List.filter_append]
    exact congrArg _ (List.filter_cons_of_pos (decide_eq_true rfl))
  rw [← hsame, syncClaudeSessions_apply table hstorable hne, hs, hof, List.map_append,
    List.map_singleton, Upserts.mergeAll_concat, Option.map_some, mergeRow_of_updated hc]

theorem sync_of_getLast {projects : Option (List ProjectDir)} {table : SessionTable}
    {c : SessionColumn} {id : String} {v : SqlValue}
    (hok : (syncClaudeSessions site sq now projects table).2.isOk = true)
    (hc : c.isUpdated = true)
    (hlast : (scanClaudeSessions site now projects).getLast?.map
      (fun s => (storedId sq now s, storedRow sq now s c)) = some (id, v)) :
    ((syncClaudeSessions site sq now projects table).1 id).map (fun r => r c) = some v := by
  obtain ⟨s, hs, hdata⟩ := Option.map_eq_some_iff.mp hlast
  obtain ⟨before, hscan⟩ := List.getLast?_eq_some_iff.mp hs
  obtain ⟨rfl, rfl⟩ := Prod.mk.inj hdata
  refine sync_of_last rfl ((sync_eq_ok_iff table).mp ?_) hscan hc
  cases hsync : (syncClaudeSessions site sq now projects table).2 with
  | ok message => exact ⟨message, rfl⟩
  | error e =>
    rw [hsync] at hok
    cases hok

theorem sync_of_first {projects projects' : Option (List ProjectDir)} {table : SessionTable}
    (hsame : (syncClaudeSessions site sq now projects' table).1
      = (syncClaudeSessions site sq now projects table).1)
    (hstorable : ∀ s ∈ scanClaudeSessions site now projects', s.Storable sq now)
    {after : List SessionStats} {s : SessionStats}
    (hs : scanClaudeSessions site now projects' = s :: after) {c : SessionColumn}
    (hc : ¬ c.isUpdated = true) (hnone : table (storedId sq now s) = none) :
    ((syncClaudeSessions site sq now projects table).1 (storedId sq now s)).map (fun r => r c)
      = some (storedRow sq now s c) := by
  have hne : scanClaudeSessions site now projects' ≠ [] := by
    rw [hs]
    exact List.cons_ne_nil _ _
  obtain ⟨row, hrow, hfirst⟩ := mergeAll_of_kept hc (storedRow sq now s)
    ((Upserts.ofKey (storedId sq now) (storedId sq now s) after).map (storedRow sq now))
  have hcleared : deactivated table (storedId sq now s) = none := Option.map_eq_none_iff.mpr hnone
  rw [← hsame, syncClaudeSessions_apply table hstorable hne, hs, Upserts.ofKey_cons_self,
    List.map_cons, hcleared, hrow, Option.map_some, hfirst]

end Order

/-- **The rows do not depend on the order** exactly if the sessions of each id agree. -/
theorem orderIndependent_iff (site : TranscriptSite) (sq : Sqlite) (now : ℕ)
    (projects : Option (List ProjectDir)) (table : SessionTable) :
    OrderIndependent site sq now projects table ↔ AgreeOnIds site sq now projects table := by
  refine ⟨fun h hstorable s hs t ht hid c hc => ?_, orderIndependent_of_agree⟩
  have hstorable' : ∀ {projects'}, Reordered projects projects' →
      ∀ s ∈ scanClaudeSessions site now projects', s.Storable sq now :=
    fun hreordered s hs => hstorable s ((hreordered.scan_perm site now).mem_iff.mpr hs)
  obtain ⟨⟨plast, before, hrlast, hlast⟩, ⟨pfirst, after, hrfirst, hfirst⟩⟩ := exists_reordered hs
  obtain ⟨⟨plast', before', hrlast', hlast'⟩, ⟨pfirst', after', hrfirst', hfirst'⟩⟩ :=
    exists_reordered ht
  by_cases hupdated : c.isUpdated = true
  · have hs' := sync_of_last (h _ hrlast) (hstorable' hrlast) hlast hupdated
    have ht' := sync_of_last (h _ hrlast') (hstorable' hrlast') hlast' hupdated
    rw [← hid, hs'] at ht'
    exact Option.some.inj ht'
  · have hnone := hc.resolve_left hupdated
    have hs' := sync_of_first (h _ hrfirst) (hstorable' hrfirst) hfirst hupdated hnone
    have ht' := sync_of_first (h _ hrfirst') (hstorable' hrfirst') hfirst' hupdated (hid ▸ hnone)
    rw [← hid, hs'] at ht'
    exact Option.some.inj ht'

/-! ## Two transcripts of one session -/

/-- A transcript of an entry, on a branch. -/
def sampleBranchFile (name branch : String) : TranscriptFile where
  name := name
  content := some ("\x7b\"sessionId\":\"s1\",\"gitBranch\":\"".toList ++ branch.toList
    ++ "\"\x7d".toList)

/-- A project with transcripts of one session. -/
def sampleBranches (files : List TranscriptFile) : Option (List ProjectDir) :=
  some [⟨"demo", some files⟩]

/-- **The branch that is stored is the order's choice.** -/
theorem not_orderIndependent_sampleBranches :
    ¬ OrderIndependent sampleScanSite sampleSqlite 0
      (sampleBranches [sampleBranchFile "a.jsonl" "main", sampleBranchFile "b.jsonl" "fix"])
      fun _ => none := by
  intro h
  have hreordered : Reordered
      (sampleBranches [sampleBranchFile "a.jsonl" "main", sampleBranchFile "b.jsonl" "fix"])
      (sampleBranches [sampleBranchFile "b.jsonl" "fix", sampleBranchFile "a.jsonl" "main"]) :=
    reordered_first [] [] "demo" (List.Perm.swap _ _ _)
  have hfix : ((syncClaudeSessions sampleScanSite sampleSqlite 0
      (sampleBranches [sampleBranchFile "a.jsonl" "main", sampleBranchFile "b.jsonl" "fix"])
      fun _ => none).1 "s1").map (fun r => r .git_branch) = some (.text "fix") :=
    sync_of_getLast (by decide +kernel) rfl (by decide +kernel)
  have hmain : ((syncClaudeSessions sampleScanSite sampleSqlite 0
      (sampleBranches [sampleBranchFile "b.jsonl" "fix", sampleBranchFile "a.jsonl" "main"])
      fun _ => none).1 "s1").map (fun r => r .git_branch) = some (.text "main") :=
    sync_of_getLast (by decide +kernel) rfl (by decide +kernel)
  rw [h _ hreordered, hfix] at hmain
  exact absurd (Option.some.inj hmain) (by decide)

end MissionControl
