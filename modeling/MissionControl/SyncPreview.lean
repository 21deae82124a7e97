import MissionControl.ConfigSync

/-!
# The preview of a sync

`previewSyncDiff` says which agents a sync would create and update. It compares each agent of
the list with the table as it is; the sync compares it with the table as the agents before it
have left it. So the two part where a name comes more than once: of two new agents of a name
the preview counts both, and the sync creates one and updates it
(`not_preview_predicts_sampleTwins`).

`preview_predicts_iff` says for which lists and tables the preview predicts the sync.
-/

namespace MissionControl

/-- What a preview has come to so far: the names that are new, those that have changed, and
all of them. -/
structure PreviewState where
  newAgents : List (Option Json)
  updatedAgents : List (Option Json)
  configNames : List (Option Json)

structure SyncDiff where
  inConfig : ℕ
  inMC : ℕ
  newAgents : List (Option Json)
  updatedAgents : List (Option Json)
  onlyInMC : List SqlValue

section Preview

variable (site : AgentSite)

def previewAgent (agents : Table AgentRow) (p : PreviewState) (agent : Json) :
    Except Exception PreviewState := do
  let (name, role, config) ← mapAgentToMC site agent
  let p := { p with configNames := p.configNames ++ [name] }
  match agents.first fun r => (r .name).equals name with
  | none => .ok { p with newAgents := p.newAgents ++ [name] }
  | some (_, r) =>
    if differsFrom role config (r .role, r .config) then
      .ok { p with updatedAgents := p.updatedAgents ++ [name] }
    else .ok p

/-- The agents of the preview, one after the other. -/
def previewAgents (agents : Table AgentRow) (p : PreviewState) :
    List Json → Except Exception PreviewState
  | [] => .ok p
  | agent :: list => do
    let p ← previewAgent site agents p agent
    previewAgents agents p list

/-- **`previewSyncDiff`.** -/
def previewSyncDiff (agents : Table AgentRow) (file : Option Json) :
    Except Exception SyncDiff :=
  match file with
  | none => .ok ⟨0, 0, [], [], []⟩
  | some parsed => do
    let list ← Json.iterate
      (some (Json.or (Json.get? (Json.get? (some parsed) "agents") "list") (.arr [])))
    let p ← previewAgents site agents ⟨[], [], []⟩ list
    let mcNames := agents.rows.map fun r => r.2 .name
    .ok ⟨list.length, mcNames.length, p.newAgents, p.updatedAgents,
      mcNames.filter fun v => !p.configNames.any v.equals⟩

/-- The names that are new in a preview, and those that have changed: none, if it throws. -/
def previewedNames (agents : Table AgentRow) (file : Option Json) :
    List (Option Json) × List (Option Json) :=
  match previewSyncDiff site agents file with
  | .ok diff => (diff.newAgents, diff.updatedAgents)
  | .error _ => ([], [])

/-- **The preview predicts the sync**: the names that it lists are those that the sync
reports, each as often. -/
def PreviewPredicts (agents : Table AgentRow) (now : ℕ) (file : Option Json) : Prop :=
  (previewedNames site agents file).1.Perm
      (namesOf .created (syncResults site agents now file))
    ∧ (previewedNames site agents file).2.Perm
      (namesOf .updated (syncResults site agents now file))

end Preview

/-- How many entries differ from what is stored as they come: the first from `v`, and each
other one from the one before. -/
def changes : SqlValue × SqlValue → List SyncEntry → ℕ
  | _, [] => 0
  | v, e :: es => (e.differs v).toNat + changes e.value es

/-- **The entries of a name are foreseen**, by what is stored under it: of a new name there is
one, and those of an agent that is there have its name itself, and differ from it as often as
they differ from what is stored as they come. -/
def EntriesForeseen (agentName : String) (es : List SyncEntry) :
    Option (SqlValue × SqlValue) → Prop
  | none => es.length ≤ 1
  | some v => (∀ e ∈ es, e.name = some (.str agentName))
    ∧ es.countP (·.differs v) = changes v es

/-- **The sync is foreseen**: one of the agents is `null`, so that neither the preview nor the
sync goes through, or all of them can be stored, and those of each name are foreseen. -/
def SyncForeseen (site : AgentSite) (agents : Table AgentRow) (file : Option Json) : Prop :=
  ∀ list, listedAgents file = some list → Json.null ∈ list
    ∨ ∃ es, list.mapM (readEntry site) = some es ∧ ∀ agentName,
      EntriesForeseen agentName (Upserts.ofKey (·.agentName) agentName es)
        (storedAgent site.sq agents agentName)

/-! ## What the preview lists -/

namespace SyncEntry

/-- Whether the preview lists the entry as new. -/
def isNew (σ : String → Option (SqlValue × SqlValue)) (e : SyncEntry) : Bool :=
  !Json.equalsText e.name e.agentName || (σ e.agentName).isNone

/-- Whether the preview lists the entry as changed. -/
def isChanged (σ : String → Option (SqlValue × SqlValue)) (e : SyncEntry) : Bool :=
  Json.equalsText e.name e.agentName && (σ e.agentName).any e.differs

end SyncEntry

section Entries

variable {site : AgentSite} {agents : Table AgentRow} {agent : Json} {e : SyncEntry}

theorem first_equals_name (h : IsAgentsTable site.sq agents)
    (he : readEntry site agent = some e) :
    (agents.first fun r => (r .name).equals e.name)
      = if Json.equalsText e.name e.agentName then findByName site.sq agents (.text e.agentName)
        else none := by
  split
  · next hname =>
    rw [Json.equalsText_iff.mp hname]
    unfold findByName
    congr 1
    funext r
    refine Bool.eq_iff_iff.mpr (Iff.trans ?_ isNamed_text.symm)
    cases r .name with
    | null => exact ⟨fun h => (by cases h), fun h => (by cases h)⟩
    | number n => cases n <;> exact ⟨fun h => (by cases h), fun h => (by cases h)⟩
    | text t => rw [equals_text, Option.some.injEq, Json.str.injEq, SqlValue.text.injEq, eq_comm]
  · next hname =>
    rw [agents.first_eq_none]
    intro id r hr
    obtain ⟨t, ht⟩ := exists_text (h.kept hr .name) (h.required hr .name (by decide))
    rw [ht, Bool.eq_false_iff]
    intro hequals
    have hequals := equals_text.mp hequals
    have hkept := (readEntry_eq_some.mp he).2.1
    rw [hequals] at hkept
    have htext : t = e.agentName := Option.some.inj hkept
    exact hname (Json.equalsText_iff.mpr (htext ▸ hequals))

/-- **An entry in the preview.** -/
theorem previewAgent_entry (h : IsAgentsTable site.sq agents)
    (he : readEntry site agent = some e) (p : PreviewState) :
    previewAgent site agents p agent = .ok
      { newAgents := p.newAgents
          ++ if e.isNew (storedAgent site.sq agents) then [e.name] else []
        updatedAgents := p.updatedAgents
          ++ if e.isChanged (storedAgent site.sq agents) then [e.name] else []
        configNames := p.configNames ++ [e.name] } := by
  have hmap := (readEntry_eq_some.mp he).1
  unfold previewAgent
  rw [hmap, ok_bind]
  dsimp only
  rw [first_equals_name h he]
  unfold SyncEntry.isNew SyncEntry.isChanged storedAgent SyncEntry.differs
  cases Json.equalsText e.name e.agentName with
  | false =>
    rw [if_neg Bool.false_ne_true]
    simp
  | true =>
    rw [if_pos rfl]
    cases findByName site.sq agents (.text e.agentName) with
    | none => simp
    | some found =>
      obtain ⟨id, r⟩ := found
      dsimp only
      split <;> simp_all

/-- **The entries in the preview**, all compared with what is stored before. -/
theorem previewAgents_entries (h : IsAgentsTable site.sq agents) {list : List Json}
    {es : List SyncEntry} (hes : list.mapM (readEntry site) = some es) (p : PreviewState) :
    previewAgents site agents p list = .ok
      { newAgents := p.newAgents
          ++ (es.filter (·.isNew (storedAgent site.sq agents))).map (·.name)
        updatedAgents := p.updatedAgents
          ++ (es.filter (·.isChanged (storedAgent site.sq agents))).map (·.name)
        configNames := p.configNames ++ es.map (·.name) } := by
  induction list generalizing es p with
  | nil =>
    obtain rfl := Option.some.inj hes
    simp [previewAgents]
  | cons agent list ih =>
    obtain ⟨e, es, he, hrest, rfl⟩ := RoseTree.mapM_cons_eq_some.mp hes
    rw [previewAgents, previewAgent_entry h he, ok_bind, ih hrest]
    rw [List.filter_cons, List.filter_cons]
    split <;> split <;> simp

theorem mapAgentToMC_eq_error {ex : Exception} (h : mapAgentToMC site agent = .error ex) :
    agent = .null := by
  unfold mapAgentToMC at h
  match agent with
  | .null => rfl
  | .bool _ | .num _ | .str _ | .arr _ | .obj _ => cases h

theorem previewAgents_null (agents : Table AgentRow) {list : List Json}
    (hnull : Json.null ∈ list) (p : PreviewState) :
    ∃ ex, previewAgents site agents p list = .error ex := by
  induction list generalizing p with
  | nil => cases hnull
  | cons agent list ih =>
    rw [previewAgents]
    cases hagent : previewAgent site agents p agent with
    | error ex => exact ⟨ex, rfl⟩
    | ok p' =>
      obtain rfl | hrest := List.mem_cons.mp hnull
      · cases hagent
      · exact ih hrest p'

/-- **The preview lists an agent that cannot be stored.** -/
theorem previewAgent_listed (h : IsAgentsTable site.sq agents) (p : PreviewState)
    (hagent : agent ≠ .null) :
    ∃ p', previewAgent site agents p agent = .ok p'
      ∧ p.newAgents.length + p.updatedAgents.length
        + (readEntry site agent).isNone.toNat ≤ p'.newAgents.length + p'.updatedAgents.length := by
  unfold previewAgent
  cases hmap : mapAgentToMC site agent with
  | error ex => exact absurd (mapAgentToMC_eq_error hmap) hagent
  | ok mapped =>
    obtain ⟨name, role, config⟩ := mapped
    rw [ok_bind]
    dsimp only
    cases hfirst : agents.first fun r => (r .name).equals name with
    | none =>
      refine ⟨_, rfl, ?_⟩
      have hle := Bool.toNat_le (readEntry site agent).isNone
      rw [List.length_append, List.length_singleton]
      dsimp only
      omega
    | some found =>
      obtain ⟨id, r⟩ := found
      obtain ⟨hr, hname, -⟩ := agents.first_eq_some.mp hfirst
      dsimp only
      split
      · refine ⟨_, rfl, ?_⟩
        have hle := Bool.toNat_le (readEntry site agent).isNone
        rw [List.length_append, List.length_singleton]
        dsimp only
        omega
      · next hsame =>
        -- what has not changed can be stored
        obtain ⟨t, ht⟩ := exists_text (h.kept hr .name) (h.required hr .name (by decide))
        obtain ⟨u, hu⟩ := exists_text (h.kept hr .role) (h.required hr .role (by decide))
        have hrole := (Bool.or_eq_false_iff.mp (Bool.eq_false_iff.mpr hsame)).2
        rw [Bool.not_eq_false'] at hrole
        dsimp only at hrole
        rw [hu, equals_text] at hrole
        rw [ht, equals_text] at hname
        have hread : readEntry site agent = some ⟨t, name, role, u, config⟩ :=
          readEntry_eq_some.mpr ⟨hmap, by rw [hname]; rfl, by rw [hrole]; rfl⟩
        rw [hread]
        exact ⟨_, rfl, le_rfl⟩

theorem previewAgents_listed (h : IsAgentsTable site.sq agents) {list : List Json}
    (hnull : Json.null ∉ list) (p : PreviewState) :
    ∃ p', previewAgents site agents p list = .ok p'
      ∧ p.newAgents.length + p.updatedAgents.length
        + list.countP (fun agent => (readEntry site agent).isNone)
          ≤ p'.newAgents.length + p'.updatedAgents.length := by
  induction list generalizing p with
  | nil => exact ⟨p, rfl, le_rfl⟩
  | cons agent list ih =>
    rw [List.mem_cons, not_or] at hnull
    obtain ⟨hhead, htail⟩ := hnull
    obtain ⟨p₁, hagent, hle⟩ := previewAgent_listed h p (Ne.symm hhead)
    obtain ⟨p', hrest, hle'⟩ := ih htail p₁
    refine ⟨p', by rw [previewAgents, hagent, ok_bind, hrest], ?_⟩
    rw [List.countP_cons]
    cases hnone : (readEntry site agent).isNone with
    | false =>
      rw [hnone] at hle
      simp only [Bool.toNat_false, Bool.false_eq_true, if_false] at hle ⊢
      omega
    | true =>
      rw [hnone] at hle
      simp only [Bool.toNat_true, if_true] at hle ⊢
      omega

end Entries

/-! ## What the sync does -/

/-- What the sync does with the entries of a name. -/
def doneWith (action : SyncAction) : Option (SqlValue × SqlValue) → List SyncEntry →
    List SyncEntry :=
  Upserts.chain SyncEntry.value fun v e => decide (e.action v = action)

section Done

variable {es : List SyncEntry} {v : SqlValue × SqlValue}

theorem created_of_some : doneWith .created (some v) es = [] := by
  have hnot : ∀ (v : SqlValue × SqlValue) (e : SyncEntry),
      decide (e.action (some v) = .created) = false := by
    intro v e
    refine decide_eq_false ?_
    show ¬ (if e.differs v = true then SyncAction.updated else .unchanged) = .created
    split <;> exact fun h => by cases h
  exact Upserts.chain_eq_nil (fun e _ => hnot v e) fun v e _ => hnot v e

theorem length_created_of_none : (doneWith .created none es).length = min 1 es.length := by
  cases es with
  | nil => rfl
  | cons e es =>
    show (e :: doneWith .created (some e.value) es).length = _
    rw [created_of_some, List.length_singleton, List.length_cons]
    omega

/-- **An agent that is there is updated as often as it changes.** -/
theorem length_updated_of_some : (doneWith .updated (some v) es).length = changes v es := by
  induction es generalizing v with
  | nil => rfl
  | cons e es ih =>
    have hupdated : decide (e.action (some v) = .updated) = e.differs v := by
      show decide ((if e.differs v = true then SyncAction.updated else .unchanged) = .updated) = _
      cases e.differs v <;> rfl
    rw [changes, ← ih]
    unfold doneWith
    rw [Upserts.chain, hupdated]
    cases e.differs v with
    | false => exact (Nat.zero_add _).symm
    | true => exact Nat.add_comm _ 1

end Done

section Names

variable {sq : Sqlite} {σ : String → Option (SqlValue × SqlValue)} {es : List SyncEntry}

/-- **The entries of each name are foreseen** exactly where the preview lists as many of them
as the sync creates and updates. -/
theorem entriesForeseen_iff {agentName : String} (hes : ∀ e ∈ es, e.agentName = agentName) :
    EntriesForeseen agentName es (σ agentName)
      ↔ (es.filter (·.isNew σ)).length = (doneWith .created (σ agentName) es).length
        ∧ (es.filter (·.isChanged σ)).length = (doneWith .updated (σ agentName) es).length := by
  cases hσ : σ agentName with
  | none =>
    have hnew : es.filter (·.isNew σ) = es := by
      refine List.filter_eq_self.mpr fun e he => ?_
      unfold SyncEntry.isNew
      rw [hes e he, hσ, Option.isNone_none, Bool.or_true]
    have hchanged : es.filter (·.isChanged σ) = [] := by
      refine List.filter_eq_nil_iff.mpr fun e he => ?_
      unfold SyncEntry.isChanged
      rw [hes e he, hσ, Option.any_none, Bool.and_false]
      exact Bool.false_ne_true
    rw [hnew, hchanged, length_created_of_none]
    show es.length ≤ 1 ↔ _
    constructor
    · intro hle
      refine ⟨(Nat.min_eq_right hle).symm, ?_⟩
      match es, hle with
      | [], _ => rfl
      | [e], _ => rfl
    · rintro ⟨hmin, -⟩
      exact hmin.trans_le (Nat.min_le_left 1 _)
  | some v =>
    have hnew : ∀ e ∈ es, e.isNew σ = !Json.equalsText e.name agentName := by
      intro e he
      unfold SyncEntry.isNew
      rw [hes e he, hσ, Option.isNone_some, Bool.or_false]
    have hchanged : ∀ e ∈ es, e.isChanged σ
        = (Json.equalsText e.name agentName && e.differs v) := by
      intro e he
      unfold SyncEntry.isChanged
      rw [hes e he, hσ, Option.any_some]
    rw [created_of_some, length_updated_of_some, List.length_nil, List.length_eq_zero_iff,
      List.filter_eq_nil_iff]
    show (∀ e ∈ es, e.name = some (.str agentName)) ∧ es.countP (·.differs v) = changes v es ↔ _
    have hnames : (∀ e ∈ es, ¬ e.isNew σ = true)
        ↔ ∀ e ∈ es, e.name = some (.str agentName) := by
      refine forall₂_congr fun e he => ?_
      rw [hnew e he, Bool.not_eq_true, Bool.not_eq_false', Json.equalsText_iff]
    rw [hnames]
    refine and_congr_right fun hall => ?_
    have hcount : (es.filter (·.isChanged σ)).length = es.countP (·.differs v) := by
      rw [List.countP_eq_length_filter]
      refine congrArg List.length (List.filter_congr fun e he => ?_)
      rw [hchanged e he, Json.equalsText_iff.mpr (hall e he), Bool.true_and]
    rw [hcount]

/-- The entries of a name that is foreseen have the same name in the file. -/
theorem name_eq_of_foreseen {e e' : SyncEntry}
    (hforeseen : EntriesForeseen e.agentName (Upserts.ofKey (·.agentName) e.agentName es)
      (σ e.agentName)) (he : e ∈ es) (he' : e' ∈ es) (hname : e.agentName = e'.agentName) :
    e.name = e'.name := by
  have hmem : e ∈ Upserts.ofKey (·.agentName) e.agentName es := Upserts.mem_ofKey.mpr ⟨he, rfl⟩
  have hmem' : e' ∈ Upserts.ofKey (·.agentName) e.agentName es :=
    Upserts.mem_ofKey.mpr ⟨he', hname.symm⟩
  cases hσ : σ e.agentName with
  | none =>
    rw [hσ] at hforeseen
    obtain ⟨x, hx⟩ := List.length_eq_one_iff.mp
      (Nat.le_antisymm hforeseen (List.length_pos_of_mem hmem))
    rw [hx] at hmem hmem'
    rw [List.mem_singleton.mp hmem, List.mem_singleton.mp hmem']
  | some v =>
    rw [hσ] at hforeseen
    rw [hforeseen.1 e hmem, hforeseen.1 e' hmem']

/-- **The names are the same, each as often**, exactly where the entries of each name are
foreseen. -/
theorem perm_names_iff (hes : ∀ e ∈ es, keptText sq e.name = some e.agentName) :
    (((es.filter (·.isNew σ)).map (·.name)).Perm ((entriesDone .created σ es).map (·.name))
      ∧ ((es.filter (·.isChanged σ)).map (·.name)).Perm
        ((entriesDone .updated σ es).map (·.name)))
      ↔ ∀ agentName, EntriesForeseen agentName (Upserts.ofKey (·.agentName) agentName es)
        (σ agentName) := by
  have hkey : ∀ zs : List SyncEntry, zs ⊆ es →
      ∀ e ∈ zs, (keptText sq e.name).getD "" = e.agentName := by
    intro zs hsubset e he
    rw [hes e (hsubset he), Option.getD_some]
  have hnew := hkey (es.filter (·.isNew σ)) (List.filter_subset_self _)
  have hchanged := hkey (es.filter (·.isChanged σ)) (List.filter_subset_self _)
  have hdone : ∀ action, entriesDone action σ es ⊆ es := fun _ => Upserts.picked_subset es
  have hlengths : ∀ agentName, EntriesForeseen agentName
      (Upserts.ofKey (·.agentName) agentName es) (σ agentName)
        ↔ (Upserts.ofKey (·.agentName) agentName (es.filter (·.isNew σ))).length
            = (Upserts.ofKey (·.agentName) agentName (entriesDone .created σ es)).length
          ∧ (Upserts.ofKey (·.agentName) agentName (es.filter (·.isChanged σ))).length
            = (Upserts.ofKey (·.agentName) agentName (entriesDone .updated σ es)).length := by
    intro agentName
    unfold entriesDone
    rw [Upserts.ofKey_filter, Upserts.ofKey_filter, Upserts.ofKey_picked, Upserts.ofKey_picked]
    exact entriesForeseen_iff fun e he => (Upserts.mem_ofKey.mp he).2
  constructor
  · rintro ⟨hcreated, hupdated⟩ agentName
    exact (hlengths agentName).mpr
      ⟨Upserts.length_ofKey_of_perm (fun x => (keptText sq x).getD "") hnew
          (hkey _ (hdone .created)) hcreated agentName,
        Upserts.length_ofKey_of_perm (fun x => (keptText sq x).getD "") hchanged
          (hkey _ (hdone .updated)) hupdated agentName⟩
  · intro hforeseen
    have hone : ∀ zs zs' : List SyncEntry, zs ⊆ es → zs' ⊆ es → ∀ e ∈ zs ++ zs', ∀ e' ∈ zs ++ zs',
        e.agentName = e'.agentName → e.name = e'.name := by
      intro zs zs' hsubset hsubset' e he e' he' hname
      have hmem := List.append_subset.mpr ⟨hsubset, hsubset'⟩
      exact name_eq_of_foreseen (hforeseen e.agentName) (hmem he) (hmem he') hname
    exact ⟨Upserts.perm_map_of_keys (fun x => (keptText sq x).getD "") hnew
        (hkey _ (hdone .created))
        (hone _ _ (List.filter_subset_self _) (hdone .created)) fun agentName =>
          ((hlengths agentName).mp (hforeseen agentName)).1,
      Upserts.perm_map_of_keys (fun x => (keptText sq x).getD "") hchanged
        (hkey _ (hdone .updated))
        (hone _ _ (List.filter_subset_self _) (hdone .updated)) fun agentName =>
          ((hlengths agentName).mp (hforeseen agentName)).2⟩

end Names

section Lists

variable {site : AgentSite} {agents : Table AgentRow} {file : Option Json}

theorem previewedNames_of_none (hlist : listedAgents file = none) :
    previewedNames site agents file = ([], []) := by
  unfold listedAgents at hlist
  unfold previewedNames previewSyncDiff
  cases file with
  | none => rfl
  | some parsed =>
    dsimp only at hlist ⊢
    generalize Json.or (Json.get? (Json.get? (some parsed) "agents") "list") (.arr []) = list
      at hlist
    cases hiterate : Json.iterate (some list) with
    | error ex => rfl
    | ok elements =>
      rw [hiterate] at hlist
      split at hlist
      · next hlength =>
        -- what is iterated is no object, so it has no length of its own
        match list with
        | .obj fields => cases hiterate
        | .null | .bool _ | .num _ | .str _ | .arr _ => cases hlength
      · cases hlist

theorem previewedNames_of_some {list : List Json} (hlist : listedAgents file = some list) :
    previewedNames site agents file
      = match previewAgents site agents ⟨[], [], []⟩ list with
        | .ok p => (p.newAgents, p.updatedAgents)
        | .error _ => ([], []) := by
  unfold listedAgents at hlist
  unfold previewedNames previewSyncDiff
  cases file with
  | none => cases hlist
  | some parsed =>
    dsimp only at hlist ⊢
    split at hlist
    · cases hlist
    · cases hiterate : Json.iterate
          (some (Json.or (Json.get? (Json.get? (some parsed) "agents") "list") (.arr []))) with
      | error ex =>
        rw [hiterate] at hlist
        cases hlist
      | ok elements =>
        rw [hiterate] at hlist
        obtain rfl := Option.some.inj hlist
        rw [ok_bind]
        cases previewAgents site agents ⟨[], [], []⟩ elements <;> rfl

end Lists

/-- **The preview predicts the sync** exactly where the sync is foreseen. -/
theorem preview_predicts_iff (site : AgentSite) (agents : AgentsTable site.sq) (now : ℕ)
    (file : Option Json) :
    PreviewPredicts site agents.table now file ↔ SyncForeseen site agents.table file := by
  have hagents : IsAgentsTable site.sq agents.table := agents.isTable
  unfold PreviewPredicts SyncForeseen syncResults
  cases hlist : listedAgents file with
  | none =>
    rw [previewedNames_of_none hlist]
    refine iff_of_true ⟨.refl _, .refl _⟩ fun list h => ?_
    cases h
  | some list =>
    rw [previewedNames_of_some hlist]
    dsimp only
    -- what is no entry is not stored
    have hrefused : list.mapM (readEntry site) = none →
        ∃ ex, reportAgents site now ⟨agents.table, 0, 0⟩ list = .error ex := by
      intro hnone
      cases hreport : reportAgents site now ⟨agents.table, 0, 0⟩ list with
      | error ex => exact ⟨ex, rfl⟩
      | ok results =>
        obtain ⟨p', hsync⟩ := exists_syncAgents_of_report hreport
        obtain ⟨es, hes⟩ := exists_entries hagents hsync
        cases hnone.symm.trans hes
    cases hes : list.mapM (readEntry site) with
    | none =>
      obtain ⟨ex, hreport⟩ := hrefused hes
      rw [hreport]
      dsimp only
      by_cases hnull : Json.null ∈ list
      · obtain ⟨ex', hpreview⟩ := previewAgents_null agents.table hnull ⟨[], [], []⟩
        rw [hpreview]
        exact iff_of_true ⟨.refl _, .refl _⟩ fun list' h => .inl (Option.some.inj h ▸ hnull)
      · obtain ⟨p', hpreview, hle⟩ := previewAgents_listed hagents hnull ⟨[], [], []⟩
        rw [hpreview]
        dsimp only
        have hlisted : 0 < list.countP fun agent => (readEntry site agent).isNone := by
          rw [List.countP_pos_iff]
          by_contra hall
          obtain ⟨es, hsome⟩ := @RoseTree.exists_mapM _ _ (readEntry site) list fun agent hagent =>
            Option.ne_none_iff_exists'.mp fun hnone =>
              hall ⟨agent, hagent, Option.isNone_iff_eq_none.mpr hnone⟩
          cases hes.symm.trans hsome
        refine iff_of_false (fun h => ?_) fun h => ?_
        · have hnew := h.1.length_eq
          have hchanged := h.2.length_eq
          rw [show namesOf .created [] = [] from rfl, List.length_nil] at hnew
          rw [show namesOf .updated [] = [] from rfl, List.length_nil] at hchanged
          simp only [List.length_nil] at hle
          omega
        · obtain hin | ⟨es, hsome, -⟩ := h list rfl
          · exact hnull hin
          · cases hes.symm.trans hsome
    | some es =>
      have hmap := RoseTree.mapM_eq_some_iff.mp hes
      have hnull : Json.null ∉ list := by
        intro hin
        have hmem : readEntry site .null ∈ es.map some := hmap ▸ List.mem_map_of_mem hin
        obtain ⟨e, -, he⟩ := List.mem_map.mp hmem
        cases he
      have hnames : ∀ e ∈ es, keptText site.sq e.name = some e.agentName := by
        intro e he
        have hmem : some e ∈ list.map (readEntry site) := hmap ▸ List.mem_map_of_mem he
        obtain ⟨agent, -, hread⟩ := List.mem_map.mp hmem
        exact (readEntry_eq_some.mp hread).2.1
      obtain ⟨-, results, -, -, -, hreport, hdone⟩ :=
        syncAgents_entries now ⟨agents.table, 0, 0⟩ hes hagents
      rw [hreport, previewAgents_entries hagents hes]
      dsimp only
      rw [hdone, hdone, List.nil_append, List.nil_append, perm_names_iff hnames]
      constructor
      · intro h list' hlisted
        obtain rfl := Option.some.inj hlisted
        exact .inr ⟨es, hes, h⟩
      · intro h
        obtain hin | ⟨es', hsome, hforeseen⟩ := h list rfl
        · exact absurd hin hnull
        · obtain rfl := Option.some.inj (hes.symm.trans hsome)
          exact hforeseen

/-- **Of two agents of a new name** the preview lists both as new, and the sync creates
one. -/
theorem not_preview_predicts_sampleTwins :
    ¬ ∀ (site : AgentSite) (agents : AgentsTable site.sq) (now : ℕ) (file : Option Json),
      PreviewPredicts site agents.table now file := by
  intro h
  have hlength := (h sampleAgentSite ⟨.empty, .empty _⟩ 1700000000 (some sampleTwins)).1.length_eq
  exact absurd hlength (by decide +kernel)

end MissionControl
