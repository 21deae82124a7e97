import MissionControl.AgentsTable
import MissionControl.Library.Forest
import MissionControl.Library.Upserts
import MissionControl.Replica

/-!
# The sync with the configuration

`syncAgentsFromConfig` goes through the agents of `openclaw.json` and writes each under its
name. An agent of the list can be stored if its name and its role are texts, or are bound as
such (`SyncEntry`); what is done with it depends on what is stored under its name by then
(`syncAgents_entries`).

A second sync of the same list does nothing exactly if some agent of it cannot be stored –
then no sync does anything – or the agents of one name agree, and all roles are texts
(`sync_idempotent_iff`).

What is done with an agent of the list depends on the row of its name alone, so the list is
gone through once for all (`syncAgents_entries`): in the end each name has what the last agent
of it has. That is the row with which the second sync compares every agent of the name, the
first ones among them; so two that differ are updated to and fro by every sync.
-/

namespace MissionControl

/-! ## What is reported -/

inductive SyncAction where
  | created | updated | unchanged
  deriving DecidableEq

/-- An agent in the result of a sync. -/
structure AgentResult where
  id : Option Json
  name : Option Json
  action : SyncAction

section Sync

variable (site : AgentSite)

/-- What is reported of an agent, by what the table has of it. -/
def reportAgent (agents : Table AgentRow) (agent : Json) : Except Exception AgentResult := do
  let (name, role, config) ← mapAgentToMC site agent
  let values ← SqlValue.bindAll 1 [name]
  let action := match findByName site.sq agents (values.headD .null) with
    | some (_, r) => if syncDiffers r role config then SyncAction.updated else .unchanged
    | none => .created
  .ok ⟨Json.get? (some agent) "id", name, action⟩

/-- `results` of the transaction. -/
def reportAgents (now : ℕ) (p : AgentSync) : List Json → Except Exception (List AgentResult)
  | [] => .ok []
  | agent :: agents => do
    let result ← reportAgent site p.agents agent
    let p ← syncAgent site now p agent
    let results ← reportAgents now p agents
    .ok (result :: results)

/-- **The agents in the result of `syncAgentsFromConfig`.** -/
def syncResults (agents : Table AgentRow) (now : ℕ) (file : Option Json) : List AgentResult :=
  match listedAgents file with
  | none => []
  | some list =>
    match reportAgents site now ⟨agents, 0, 0⟩ list with
    | .error _ => []
    | .ok results => results

/-- The names of the agents that a sync does something with. -/
def namesOf (action : SyncAction) (results : List AgentResult) : List (Option Json) :=
  (results.filter fun result => decide (result.action = action)).map (·.name)

end Sync

/-! ## Entries -/

/-- `value === x`, of what is read from a column. -/
def SqlValue.equals (v : SqlValue) (x : Option Json) : Bool := x.any (strictEquals v.json)

/-- Whether the role and the configuration that are stored differ from those that the
configuration has. -/
def differsFrom (role : Json) (config : String) (v : SqlValue × SqlValue) : Bool :=
  decide (v.2 ≠ .text config) || !v.1.equals (some role)

/-- The text that a column keeps of a value, if it is bound as one. -/
def keptText (sq : Sqlite) (x : Option Json) : Option String :=
  match SqlValue.bindParameter x with
  | .ok [v] =>
    match v.asText sq with
    | .text t => some t
    | _ => none
  | _ => none

/-- **An agent of the configuration that can be stored**: its name and its role are each bound
as one value, of which the columns keep a text. -/
structure SyncEntry where
  agentName : String
  name : Option Json
  role : Json
  roleText : String
  config : String

def readEntry (site : AgentSite) (agent : Json) : Option SyncEntry :=
  match mapAgentToMC site agent with
  | .error _ => none
  | .ok (name, role, config) =>
    match keptText site.sq name, keptText site.sq (some role) with
    | some agentName, some roleText => some ⟨agentName, name, role, roleText, config⟩
    | _, _ => none

namespace SyncEntry

/-- The role and the configuration that are stored. -/
def value (e : SyncEntry) : SqlValue × SqlValue := (.text e.roleText, .text e.config)

/-- Whether the role and the configuration that are there differ from those of the entry. -/
def differs (e : SyncEntry) (v : SqlValue × SqlValue) : Bool := differsFrom e.role e.config v

/-- What is done with the entry, by what is there under its name. -/
def action (e : SyncEntry) : Option (SqlValue × SqlValue) → SyncAction
  | none => .created
  | some v => if e.differs v then .updated else .unchanged

end SyncEntry

/-- The entries that a sync does something with, each by what is stored under its name by
then. -/
def entriesDone (action : SyncAction) (σ : String → Option (SqlValue × SqlValue))
    (es : List SyncEntry) : List SyncEntry :=
  Upserts.picked (·.agentName) SyncEntry.value (fun v e => decide (e.action v = action)) σ es

/-- The role and the configuration of the agent of a name. -/
def storedAgent (sq : Sqlite) (agents : Table AgentRow) (agentName : String) :
    Option (SqlValue × SqlValue) :=
  (findByName sq agents (.text agentName)).map fun (_, r) => (r .role, r .config)

section Entries

variable {site : AgentSite} {agents : Table AgentRow} {agent : Json} {e : SyncEntry}

theorem readEntry_eq_some :
    readEntry site agent = some e
      ↔ mapAgentToMC site agent = .ok (e.name, e.role, e.config)
        ∧ keptText site.sq e.name = some e.agentName
        ∧ keptText site.sq (some e.role) = some e.roleText := by
  unfold readEntry
  constructor
  · intro h
    split at h
    · cases h
    · next name role config hmap =>
      split at h
      · next hname hrole =>
        obtain rfl := Option.some.inj h
        exact ⟨hmap, hname, hrole⟩
      · cases h
  · rintro ⟨hmap, hname, hrole⟩
    rw [hmap]
    dsimp only
    rw [hname, hrole]

theorem keptText_eq_some {sq : Sqlite} {x : Option Json} {t : String} :
    keptText sq x = some t
      ↔ ∃ v, SqlValue.bindParameter x = .ok [v] ∧ v.asText sq = .text t := by
  unfold keptText
  constructor
  · intro h
    split at h
    · next v hv =>
      split at h
      · next t' ht =>
        obtain rfl := Option.some.inj h
        exact ⟨v, hv, ht⟩
      · cases h
    · cases h
  · rintro ⟨v, hv, ht⟩
    rw [hv]
    dsimp only
    rw [ht]

theorem findByName_of_asText (agents : Table AgentRow) {sq : Sqlite} {v : SqlValue} {t : String}
    (h : v.asText sq = .text t) : findByName sq agents v = findByName sq agents (.text t) := by
  have hnull : v ≠ .null := by
    rintro rfl
    cases h
  unfold findByName
  congr 1
  funext r
  unfold AgentRow.isNamed
  rw [h, decide_eq_true hnull]
  rfl

theorem jsonText_ne (rt : Runtime) {fields : List (String × Json)} (h : fields ≠ []) :
    jsonText rt (.obj fields) ≠ "" ∧ jsonText rt (.obj fields) ≠ "\x7b\x7d" := by
  obtain ⟨⟨key, x⟩, fields, rfl⟩ := List.exists_cons_of_ne_nil h
  have htext : (jsonText rt (.obj ((key, x) :: fields))).toList
      = '\x7b' :: '"' :: (key.toList.flatMap Json.escapeChar ++ ['"']
        ++ ':' :: x.stringify rt ++ Json.stringify.moreFields rt fields) := by
    unfold jsonText
    rw [String.toList_ofList, Json.stringify]
    rfl
  constructor
  · intro heq
    rw [heq] at htext
    cases htext
  · intro heq
    rw [heq] at htext
    exact absurd (List.cons.inj (List.cons.inj htext).2).1 (by decide)

/-- **The configuration that is stored is never empty.** -/
theorem config_ne_of_mapAgentToMC {name : Option Json} {role : Json} {config : String}
    (h : mapAgentToMC site agent = .ok (name, role, config)) :
    config ≠ "" ∧ config ≠ "\x7b\x7d" := by
  obtain ⟨identity, -, h⟩ := bind_eq_ok.mp h
  rw [← (Prod.mk.inj (Prod.mk.inj (Except.ok.inj h)).2).2]
  refine jsonText_ne site.rt (List.ne_nil_of_mem (a := ("isDefault", Json.or
    (Json.get? (some agent) "default") (.bool false))) ?_)
  exact List.mem_filterMap.mpr ⟨("isDefault", some _), by simp, rfl⟩

theorem exists_text {sq : Sqlite} {v : SqlValue} (hkept : v.asText sq = v) (hne : v ≠ .null) :
    ∃ t, v = .text t := by
  cases v with
  | null => exact absurd rfl hne
  | text t => exact ⟨t, rfl⟩
  | number n => cases hkept

theorem equals_text {t : String} {x : Option Json} :
    (SqlValue.text t).equals x = true ↔ x = some (.str t) := by
  cases x with
  | none => exact ⟨fun h => (by cases h), fun h => (by cases h)⟩
  | some x => exact strictEquals_str.trans Option.some_inj.symm

/-- **What the sync compares**: a configuration that is missing differs from every one that is
stored. -/
theorem syncDiffers_eq {name : Option Json} {role : Json} {config : String}
    (hmap : mapAgentToMC site agent = .ok (name, role, config))
    (h : IsAgentsTable site.sq agents) {id : ℕ} {r : AgentRow} (hr : agents.row id = some r) :
    syncDiffers r role config = differsFrom role config (r .role, r .config) := by
  obtain ⟨hempty, hbraces⟩ := config_ne_of_mapAgentToMC hmap
  obtain ⟨t, ht⟩ := exists_text (h.kept hr .role) (h.required hr .role (by decide))
  unfold syncDiffers differsFrom
  rw [ht]
  dsimp only
  have hrole : Json.equalsText (some role) t = (SqlValue.text t).equals (some role) :=
    Bool.eq_iff_iff.mpr (Json.equalsText_iff.trans equals_text.symm)
  rw [hrole]
  congr 1
  cases hconfig : r .config with
  | null =>
    exact (decide_eq_true hbraces.symm).trans (decide_eq_true fun heq => by cases heq).symm
  | number n =>
    exact (decide_eq_true hbraces.symm).trans (decide_eq_true fun heq => by cases heq).symm
  | text t =>
    refine decide_eq_decide.mpr (not_congr ?_)
    unfold orElse
    rw [SqlValue.text.injEq]
    split
    · next hnone => exact iff_of_false hbraces.symm fun heq => hempty (heq.symm.trans hnone)
    · exact Iff.rfl

theorem isNamed_text {sq : Sqlite} {r : AgentRow} {agentName : String} :
    r.isNamed sq (.text agentName) = true ↔ r .name = .text agentName := by
  show (true && decide (r .name = .text agentName)) = true ↔ _
  rw [Bool.true_and, decide_eq_true_iff]

/-- **What is stored under a name.** -/
theorem storedAgent_eq_some {sq : Sqlite} (h : IsAgentsTable sq agents) {agentName : String}
    {v : SqlValue × SqlValue} :
    storedAgent sq agents agentName = some v
      ↔ ∃ id r, agents.row id = some r ∧ r .name = .text agentName
        ∧ (r .role, r .config) = v := by
  unfold storedAgent
  rw [Option.map_eq_some_iff]
  constructor
  · rintro ⟨⟨id, r⟩, hfound, hv⟩
    obtain ⟨hr, hname⟩ := h.findByName_eq_some.mp hfound
    exact ⟨id, r, hr, isNamed_text.mp hname, hv⟩
  · rintro ⟨id, r, hr, hname, hv⟩
    exact ⟨(id, r), h.findByName_eq_some.mpr ⟨hr, isNamed_text.mpr hname⟩, hv⟩

theorem storedAgent_insert {sq : Sqlite} (h : IsAgentsTable sq agents) {r : AgentRow}
    (h' : IsAgentsTable sq (agents.insert r)) {agentName : String}
    (hname : r .name = .text agentName) :
    storedAgent sq (agents.insert r)
      = Function.update (storedAgent sq agents) agentName (some (r .role, r .config)) := by
  funext n
  by_cases hn : n = agentName
  · subst hn
    rw [Function.update_self]
    exact (storedAgent_eq_some h').mpr ⟨agents.next, r, Table.row_insert_next _ _, hname, rfl⟩
  · rw [Function.update_of_ne hn]
    ext v
    rw [storedAgent_eq_some h', storedAgent_eq_some h]
    constructor
    · rintro ⟨id, r', hr', hname', hv⟩
      obtain ⟨-, rfl⟩ | hr' := (agents.row_insert_eq_some r).mp hr'
      · exact absurd (SqlValue.text.inj (hname'.symm.trans hname)) hn
      · exact ⟨id, r', hr', hname', hv⟩
    · rintro ⟨id, r', hr', hname', hv⟩
      exact ⟨id, r', agents.row_insert_of_some r hr', hname', hv⟩

theorem storedAgent_update {sq : Sqlite} (h : IsAgentsTable sq agents) {id : ℕ} {r : AgentRow}
    (hr : agents.row id = some r) {f : AgentRow → AgentRow}
    (h' : IsAgentsTable sq (agents.update id f)) {agentName : String}
    (hname : r .name = .text agentName) (hkept : f r .name = r .name) :
    storedAgent sq (agents.update id f)
      = Function.update (storedAgent sq agents) agentName (some (f r .role, f r .config)) := by
  have hself : (agents.update id f).row id = some (f r) := by
    rw [Table.row_update_self, hr]
    rfl
  funext n
  by_cases hn : n = agentName
  · subst hn
    rw [Function.update_self]
    exact (storedAgent_eq_some h').mpr ⟨id, f r, hself, hkept.trans hname, rfl⟩
  · rw [Function.update_of_ne hn]
    ext v
    rw [storedAgent_eq_some h', storedAgent_eq_some h]
    constructor
    · rintro ⟨i, r', hr', hname', hv⟩
      have hi : i ≠ id := by
        rintro rfl
        rw [← Option.some.inj (hself.symm.trans hr'), hkept, hname] at hname'
        exact hn (SqlValue.text.inj hname').symm
      rw [Table.row_update_of_ne _ _ hi] at hr'
      exact ⟨i, r', hr', hname', hv⟩
    · rintro ⟨i, r', hr', hname', hv⟩
      have hi : i ≠ id := by
        rintro rfl
        rw [Option.some.inj (hr.symm.trans hr'), hname'] at hname
        exact hn (SqlValue.text.inj hname)
      exact ⟨i, r', (Table.row_update_of_ne _ _ hi).trans hr', hname', hv⟩

/-! ### One agent -/

theorem bindAll_insert {name : Option Json} {role : Json} {v : SqlValue} (now : ℕ)
    (config : String) (hname : SqlValue.bindParameter name = .ok [v]) {values : List SqlValue} :
    SqlValue.bindAll 5 [name, some role, some (.ofNat now), some (.ofNat now),
        some (.str config)] = .ok values
      ↔ ∃ w, SqlValue.bindParameter (some role) = .ok [w]
        ∧ values = [v, w, .ofTime now, .ofTime now, .text config] :=
  bindAll_between [name] [some (.ofNat now), some (.ofNat now), some (.str config)] [v]
    [.ofTime now, .ofTime now, .text config] (congrArg (fun x => [x]) hname) rfl

theorem bindAll_update {name : Option Json} {role : Json} {v : SqlValue} (now : ℕ)
    (config : String) (hname : SqlValue.bindParameter name = .ok [v]) {values : List SqlValue} :
    SqlValue.bindAll 4 [some role, some (.str config), some (.ofNat now), name] = .ok values
      ↔ ∃ w, SqlValue.bindParameter (some role) = .ok [w]
        ∧ values = [w, .text config, .ofTime now, v] :=
  bindAll_between [] [some (.str config), some (.ofNat now), name] []
    [.text config, .ofTime now, v] rfl (congrArg (fun x => [_, _, x]) hname)

/-- **What is reported of an entry.** -/
theorem reportAgent_entry (h : IsAgentsTable site.sq agents)
    (he : readEntry site agent = some e) :
    reportAgent site agents agent = .ok ⟨Json.get? (some agent) "id", e.name,
      e.action (storedAgent site.sq agents e.agentName)⟩ := by
  obtain ⟨hmap, hname, -⟩ := readEntry_eq_some.mp he
  obtain ⟨v, hv, hvt⟩ := keptText_eq_some.mp hname
  unfold reportAgent
  rw [hmap]
  show (SqlValue.bindAll 1 [e.name] >>= _) = _
  rw [bindAll_one.mpr ⟨v, hv, rfl⟩]
  show Except.ok _ = Except.ok _
  rw [List.headD_cons, findByName_of_asText agents hvt]
  unfold storedAgent
  cases hfound : findByName site.sq agents (.text e.agentName) with
  | none => rfl
  | some found =>
    obtain ⟨id, r⟩ := found
    dsimp only
    rw [syncDiffers_eq hmap h (findByName_eq_some hfound)]
    rfl

/-- **An agent of a new name** can be inserted. -/
theorem insertAgent_entry {sq : Sqlite} {name : Option Json} {role : Json}
    {agentName roleText : String} (config : String) (now : ℕ)
    (hname : keptText sq name = some agentName) (hrole : keptText sq (some role) = some roleText)
    (hnone : findByName sq agents (.text agentName) = none) :
    ∃ r : AgentRow, insertAgent sq agents [(.name, name), (.role, some role),
        (.created_at, some (.ofNat now)), (.updated_at, some (.ofNat now)),
        (.config, some (.str config))] = .ok (agents.insert r)
      ∧ r .name = .text agentName ∧ r .role = .text roleText ∧ r .config = .text config := by
  obtain ⟨v, hv, hvt⟩ := keptText_eq_some.mp hname
  obtain ⟨w, hw, hwt⟩ := keptText_eq_some.mp hrole
  let r := AgentRow.blank.assign sq
    ([AgentColumn.name, .role, .created_at, .updated_at, .config].zip
      [v, w, .ofTime now, .ofTime now, .text config])
  have hrname : r .name = .text agentName := hvt
  have hrrole : r .role = .text roleText := hwt
  refine ⟨r, ?_, hrname, hrrole, rfl⟩
  have hcheck : checkAgent agents none r = .ok () := by
    refine checkAgent_of (fun c hc => ?_) fun c hc hne id r' hr' heq => ?_
    · simp only [AgentColumn.required, List.mem_cons, List.not_mem_nil, or_false] at hc
      obtain rfl | rfl | rfl | rfl | rfl := hc
      · exact fun hnull => by cases hrname.symm.trans hnull
      · exact fun hnull => by cases hrrole.symm.trans hnull
      all_goals exact fun hnull => by cases hnull
    · simp only [AgentColumn.unique, List.mem_cons, List.not_mem_nil, or_false] at hc
      obtain rfl | rfl := hc
      · -- no agent has the name
        have hnot := agents.first_eq_none.mp hnone id r' hr'
        unfold AgentRow.isNamed at hnot
        rw [heq, hrname] at hnot
        exact absurd hnot (by simp [SqlValue.asText])
      · exact absurd rfl hne
  unfold insertAgent
  show (SqlValue.bindAll 5 [name, some role, some (.ofNat now), some (.ofNat now),
    some (.str config)] >>= _) = _
  rw [(bindAll_insert now config hv).mpr ⟨w, hw, rfl⟩, ok_bind]
  show (checkAgent agents none r >>= _) = _
  rw [hcheck]
  rfl

/-- **An agent that is there** can be updated. -/
theorem updateAgent_entry {sq : Sqlite} (h : IsAgentsTable sq agents) {id : ℕ} {r : AgentRow}
    (hr : agents.row id = some r) {name : Option Json} {role : Json}
    {agentName roleText : String} (config : String) (now : ℕ)
    (hname : keptText sq name = some agentName) (hrole : keptText sq (some role) = some roleText) :
    ∃ assignments, bindAssignments [(.role, some role), (.config, some (.str config)),
        (.updated_at, some (.ofNat now))] name = .ok assignments
      ∧ updateAgent sq agents id r assignments
        = .ok (agents.update id fun r => r.assign sq assignments)
      ∧ r.assign sq assignments .name = r .name
      ∧ r.assign sq assignments .role = .text roleText
      ∧ r.assign sq assignments .config = .text config := by
  obtain ⟨v, hv, -⟩ := keptText_eq_some.mp hname
  obtain ⟨w, hw, hwt⟩ := keptText_eq_some.mp hrole
  let assignments : List (AgentColumn × SqlValue) :=
    [(.role, w), (.config, .text config), (.updated_at, .ofTime now)]
  have hrrole : r.assign sq assignments .role = .text roleText := hwt
  refine ⟨assignments, ?_, ?_, rfl, hrrole, rfl⟩
  · unfold bindAssignments
    show (SqlValue.bindAll 4 [some role, some (.str config), some (.ofNat now), name] >>= _) = _
    rw [(bindAll_update now config hv).mpr ⟨w, hw, rfl⟩]
    rfl
  · have hcheck : checkAgent agents (some id) (r.assign sq assignments) = .ok () := by
      refine checkAgent_of (fun c hc => ?_) fun c hc hne id' r' hr' heq => ?_
      · have hnull := h.required hr c hc
        simp only [AgentColumn.required, List.mem_cons, List.not_mem_nil, or_false] at hc
        obtain rfl | rfl | rfl | rfl | rfl := hc
        · exact hnull
        · exact fun hnull => by cases hrrole.symm.trans hnull
        · exact hnull
        · exact hnull
        · exact fun hnull => by cases hnull
      · have hsame : r.assign sq assignments c = r c := by
          simp only [AgentColumn.unique, List.mem_cons, List.not_mem_nil, or_false] at hc
          obtain rfl | rfl := hc <;> rfl
        rw [hsame] at hne heq
        rw [h.unique hr hr' c hc hne heq]
    unfold updateAgent
    rw [hcheck]
    rfl

theorem eq_value_of_not_differs (he : readEntry site agent = some e) {t : String}
    {v : SqlValue × SqlValue} (hv : v.1 = .text t) (hsame : e.differs v = false) :
    v = e.value ∧ e.role = .str t := by
  obtain ⟨-, -, hrole⟩ := readEntry_eq_some.mp he
  obtain ⟨hconfig, hequals⟩ := Bool.or_eq_false_iff.mp hsame
  have hconfig := not_not.mp (of_decide_eq_false hconfig)
  rw [Bool.not_eq_false'] at hequals
  rw [hv, equals_text] at hequals
  have hequals := Option.some.inj hequals
  refine ⟨Prod.ext ?_ hconfig, hequals⟩
  rw [hequals] at hrole
  rw [hv, Option.some.inj ((show keptText site.sq (some (.str t)) = some t from rfl).symm.trans
    hrole)]
  rfl

/-- **An entry is stored**: after it, its name has its role and its configuration. -/
theorem syncAgent_entry (now : ℕ) {p : AgentSync} (h : IsAgentsTable site.sq p.agents)
    (he : readEntry site agent = some e) :
    ∃ p', syncAgent site now p agent = .ok p' ∧ IsAgentsTable site.sq p'.agents
      ∧ storedAgent site.sq p'.agents
        = Function.update (storedAgent site.sq p.agents) e.agentName (some e.value) := by
  obtain ⟨hmap, hname, hrole⟩ := readEntry_eq_some.mp he
  obtain ⟨v, hv, hvt⟩ := keptText_eq_some.mp hname
  unfold syncAgent
  rw [hmap, ok_bind]
  dsimp only
  rw [bindAll_one.mpr ⟨v, hv, rfl⟩, ok_bind, List.headD_cons, findByName_of_asText p.agents hvt]
  cases hfound : findByName site.sq p.agents (.text e.agentName) with
  | none =>
    obtain ⟨r, hinsert, hrname, hrrole, hrconfig⟩ :=
      insertAgent_entry e.config now hname hrole hfound
    have h' := h.of_insertAgent hinsert
    dsimp only
    rw [hinsert]
    refine ⟨_, rfl, h', ?_⟩
    show storedAgent site.sq (p.agents.insert r) = _
    rw [storedAgent_insert h h' hrname, hrrole, hrconfig]
    rfl
  | some found =>
    obtain ⟨id, r⟩ := found
    have hr := findByName_eq_some hfound
    have hrname := isNamed_text.mp (h.findByName_eq_some.mp hfound).2
    dsimp only
    split
    · obtain ⟨assignments, hbind, hupdate, hkept, hrrole, hrconfig⟩ :=
        updateAgent_entry h hr e.config now hname hrole
      have h' := h.of_updateAgent hr hupdate
      rw [hbind, ok_bind, hupdate]
      refine ⟨_, rfl, h', ?_⟩
      show storedAgent site.sq (p.agents.update id _) = _
      rw [storedAgent_update h hr h' hrname hkept, hrrole, hrconfig]
      rfl
    · next hsame =>
      rw [syncDiffers_eq hmap h hr] at hsame
      obtain ⟨t, ht⟩ := exists_text (h.kept hr .role) (h.required hr .role (by decide))
      have hvalue := (eq_value_of_not_differs he (v := (r .role, r .config)) ht
        (Bool.eq_false_iff.mpr hsame)).1
      refine ⟨p, rfl, h, (Function.update_eq_self_iff.mpr ?_).symm⟩
      rw [← hvalue]
      unfold storedAgent
      rw [hfound]
      rfl

/-- **What is stored can be read as an entry**: an agent of which the name or the role is
not bound as one value, or as none that is kept, is refused. -/
theorem exists_readEntry {now : ℕ} {p p' : AgentSync} (h : IsAgentsTable site.sq p.agents)
    (hsync : syncAgent site now p agent = .ok p') : ∃ e, readEntry site agent = some e := by
  obtain ⟨⟨name, role, config⟩, hmap, hsync⟩ := bind_eq_ok.mp hsync
  obtain ⟨values, hvalues, hsync⟩ := bind_eq_ok.mp hsync
  obtain ⟨v, hv, rfl⟩ := bindAll_one.mp hvalues
  have hentry : ∀ {agentName roleText}, keptText site.sq name = some agentName →
      keptText site.sq (some role) = some roleText → ∃ e, readEntry site agent = some e :=
    fun hname hrole => ⟨⟨_, name, role, _, config⟩, readEntry_eq_some.mpr ⟨hmap, hname, hrole⟩⟩
  have hkept : ∀ {x : Option Json} {w : SqlValue}, SqlValue.bindParameter x = .ok [w] →
      w.asText site.sq ≠ .null → ∃ t, keptText site.sq x = some t := by
    intro x w hw hne
    obtain ⟨t, ht⟩ := exists_text (asText_asText w) hne
    exact ⟨t, keptText_eq_some.mpr ⟨w, hw, ht⟩⟩
  rw [List.headD_cons] at hsync
  split at hsync
  · next id r hfound =>
    obtain ⟨hr, hnamed⟩ := h.findByName_eq_some.mp hfound
    have hname : ∃ t, keptText site.sq name = some t := by
      refine hkept hv fun hnull => ?_
      have heq := of_decide_eq_true (Bool.and_eq_true_iff.mp hnamed).2
      exact h.required hr .name (by decide) (heq.trans hnull)
    obtain ⟨agentName, hname⟩ := hname
    split at hsync
    · obtain ⟨assignments, hbind, hsync⟩ := bind_eq_ok.mp hsync
      obtain ⟨agents', hupdate, -⟩ := bind_eq_ok.mp hsync
      obtain ⟨values, hvalues, hassignments⟩ := bind_eq_ok.mp hbind
      obtain ⟨w, hw, rfl⟩ := (bindAll_update now config hv).mp hvalues
      obtain rfl := Except.ok.inj hassignments
      obtain ⟨_, hcheck, -⟩ := bind_eq_ok.mp hupdate
      obtain ⟨roleText, hrole⟩ := hkept hw ((checkAgent_eq_ok hcheck).1 .role (by decide))
      exact hentry hname hrole
    · next hsame =>
      obtain ⟨t, ht⟩ := exists_text (h.kept hr .role) (h.required hr .role (by decide))
      rw [syncDiffers_eq hmap h hr] at hsame
      have hequals := (Bool.or_eq_false_iff.mp (Bool.eq_false_iff.mpr hsame)).2
      rw [Bool.not_eq_false', ht, equals_text] at hequals
      exact hentry hname (show keptText site.sq (some role) = some t by rw [hequals]; rfl)
  · obtain ⟨agents', hinsert, -⟩ := bind_eq_ok.mp hsync
    obtain ⟨values, hvalues, hinsert⟩ := bind_eq_ok.mp hinsert
    obtain ⟨w, hw, rfl⟩ := (bindAll_insert now config hv).mp hvalues
    obtain ⟨_, hcheck, -⟩ := bind_eq_ok.mp hinsert
    have hrequired := (checkAgent_eq_ok hcheck).1
    obtain ⟨agentName, hname⟩ := hkept hv (hrequired .name (by decide))
    obtain ⟨roleText, hrole⟩ := hkept hw (hrequired .role (by decide))
    exact hentry hname hrole

/-! ### The whole list -/

theorem namesOf_cons (action : SyncAction) (result : AgentResult) (results : List AgentResult) :
    namesOf action (result :: results)
      = if decide (result.action = action) then result.name :: namesOf action results
        else namesOf action results := by
  unfold namesOf
  rw [List.filter_cons]
  split <;> rfl

/-- **The agents one after the other**: what is done with each depends on what is stored by
then, and all are stored. -/
theorem syncAgents_entries (now : ℕ) (p : AgentSync) {list : List Json}
    {es : List SyncEntry} (hes : list.mapM (readEntry site) = some es)
    (h : IsAgentsTable site.sq p.agents) :
    ∃ p' results, syncAgents site now p list = .ok p' ∧ IsAgentsTable site.sq p'.agents
      ∧ storedAgent site.sq p'.agents = Upserts.after (·.agentName) SyncEntry.value
        (storedAgent site.sq p.agents) es
      ∧ reportAgents site now p list = .ok results
      ∧ ∀ action, namesOf action results
        = (entriesDone action (storedAgent site.sq p.agents) es).map (·.name) := by
  induction list generalizing es p with
  | nil =>
    obtain rfl := Option.some.inj hes
    exact ⟨p, [], rfl, h, rfl, rfl, fun _ => rfl⟩
  | cons agent list ih =>
    obtain ⟨e, es, he, hrest, rfl⟩ := RoseTree.mapM_cons_eq_some.mp hes
    obtain ⟨p₁, hstep, h₁, hstored⟩ := syncAgent_entry now h he
    obtain ⟨p', results, hsync, h', hafter, hreport, hnames⟩ := ih p₁ hrest h₁
    rw [hstored] at hafter hnames
    refine ⟨p', ⟨Json.get? (some agent) "id", e.name,
      e.action (storedAgent site.sq p.agents e.agentName)⟩ :: results, ?_, h', hafter, ?_,
      fun action => ?_⟩
    · rw [syncAgents, hstep, ok_bind]
      exact hsync
    · rw [reportAgents, reportAgent_entry h he, ok_bind, hstep, ok_bind, hreport]
      rfl
    · unfold entriesDone at hnames ⊢
      rw [namesOf_cons, hnames, Upserts.picked]
      split <;> rfl

theorem exists_entries {now : ℕ} {list : List Json} {p : AgentSync}
    (h : IsAgentsTable site.sq p.agents) {p' : AgentSync}
    (hsync : syncAgents site now p list = .ok p') :
    ∃ es, list.mapM (readEntry site) = some es := by
  induction list generalizing p with
  | nil => exact ⟨[], rfl⟩
  | cons agent list ih =>
    obtain ⟨p₁, hagent, hsync⟩ := bind_eq_ok.mp hsync
    obtain ⟨e, he⟩ := exists_readEntry h hagent
    obtain ⟨p₂, hstep, h₂, -⟩ := syncAgent_entry now h he
    obtain rfl := Except.ok.inj (hagent.symm.trans hstep)
    obtain ⟨es, hes⟩ := ih h₂ hsync
    exact ⟨e :: es, RoseTree.mapM_cons_eq_some.mpr ⟨e, es, he, hes, rfl⟩⟩

theorem exists_syncAgents_of_report {now : ℕ} {list : List Json} {p : AgentSync}
    {results : List AgentResult} (hreport : reportAgents site now p list = .ok results) :
    ∃ p', syncAgents site now p list = .ok p' := by
  induction list generalizing p results with
  | nil => exact ⟨p, rfl⟩
  | cons agent list ih =>
    obtain ⟨_, -, hreport⟩ := bind_eq_ok.mp hreport
    obtain ⟨p₁, hagent, hreport⟩ := bind_eq_ok.mp hreport
    obtain ⟨_, hrest, -⟩ := bind_eq_ok.mp hreport
    obtain ⟨p', hsync⟩ := ih hrest
    exact ⟨p', by rw [syncAgents, hagent, ok_bind, hsync]⟩

end Entries

/-! ## The second sync -/

/-- **Two agents agree**: a sync of the one finds nothing to do where the other is stored. -/
def SyncEntry.Agrees (e e' : SyncEntry) : Prop :=
  e.config = e'.config ∧ e.role = .str e'.roleText

/-- **A sync does nothing**: it creates and updates no agent, and broadcasts nothing. -/
structure QuietSync (site : AgentSite) (s : AgentState) (file : Option Json) : Prop where
  agents : (syncAgentsFromConfig site s file).1 = s
  events : ∃ response, (syncAgentsFromConfig site s file).2 = [.answered response]
  results : ∀ result ∈ syncResults site s.agents s.now file, result.action = .unchanged

/-- **The agents of the list settle**: if all of them can be stored, then those of one name
agree, each also with itself. -/
def SyncSettles (site : AgentSite) (file : Option Json) : Prop :=
  ∀ list es, listedAgents file = some list → list.mapM (readEntry site) = some es →
    ∀ e ∈ es, ∀ e' ∈ es, e.agentName = e'.agentName → e.Agrees e'

section Quiet

variable {site : AgentSite} {s : AgentState} {file : Option Json} {list : List Json}

theorem syncAgentsFromConfig_of_none (site : AgentSite) (s : AgentState)
    (hlist : listedAgents file = none) :
    ∃ response, syncAgentsFromConfig site s file = s.answer response := by
  unfold listedAgents at hlist
  unfold syncAgentsFromConfig
  cases file with
  | none => exact ⟨_, rfl⟩
  | some parsed =>
    dsimp only at hlist ⊢
    split at hlist
    · next hlength => exact ⟨_, if_pos hlength⟩
    · next hlength =>
      rw [if_neg hlength]
      cases hiterate : Json.iterate
          (some (Json.or (Json.get? (Json.get? (some parsed) "agents") "list") (.arr []))) with
      | error e => exact ⟨_, rfl⟩
      | ok agents =>
        rw [hiterate] at hlist
        cases hlist

theorem syncAgentsFromConfig_of_some (site : AgentSite) (s : AgentState)
    (hlist : listedAgents file = some list) :
    syncAgentsFromConfig site s file
      = match syncAgents site s.now ⟨s.agents, 0, 0⟩ list with
        | .error e => s.answer (.thrown e)
        | .ok p => ({ s with agents := p.agents },
          (if 0 < p.created ∨ 0 < p.updated then
            [.synced list.length p.created p.updated] else []) ++ [.answered .ok]) := by
  unfold listedAgents at hlist
  unfold syncAgentsFromConfig
  cases file with
  | none => cases hlist
  | some parsed =>
    dsimp only at hlist ⊢
    split at hlist
    · cases hlist
    · next hlength =>
      rw [if_neg hlength]
      cases hiterate : Json.iterate
          (some (Json.or (Json.get? (Json.get? (some parsed) "agents") "list") (.arr []))) with
      | error e =>
        rw [hiterate] at hlist
        cases hlist
      | ok agents =>
        rw [hiterate] at hlist
        obtain rfl := Option.some.inj hlist
        rfl

theorem unchanged_of_inSync {now : ℕ} {p : AgentSync} {results : List AgentResult}
    (hall : ∀ agent ∈ list, InSync site p.agents agent)
    (hreport : reportAgents site now p list = .ok results) :
    ∀ result ∈ results, result.action = .unchanged := by
  induction list generalizing results with
  | nil =>
    obtain rfl := Except.ok.inj hreport
    exact fun _ hmem => absurd hmem List.not_mem_nil
  | cons agent list ih =>
    obtain ⟨result, hresult, hreport⟩ := bind_eq_ok.mp hreport
    obtain ⟨p₁, hagent, hreport⟩ := bind_eq_ok.mp hreport
    obtain ⟨rest, hrest, hreport⟩ := bind_eq_ok.mp hreport
    obtain rfl := Except.ok.inj hreport
    have hsync := hall agent List.mem_cons_self
    obtain ⟨-, rfl⟩ | ⟨hnot, -⟩ := syncAgent_cases hagent
    · refine List.forall_mem_cons.mpr
        ⟨?_, ih (fun agent' h => hall agent' (List.mem_cons_of_mem agent h)) hrest⟩
      obtain ⟨name, role, config, values, id, r, hmap, hvalues, hfound, hsame⟩ := hsync
      unfold reportAgent at hresult
      rw [hmap, ok_bind] at hresult
      dsimp only at hresult
      rw [hvalues, ok_bind, hfound] at hresult
      dsimp only at hresult
      rw [if_neg (Bool.eq_false_iff.mp hsame)] at hresult
      rw [← Except.ok.inj hresult]
    · exact absurd hsync hnot

/-- **A sync is quiet** exactly where it has nothing to do. -/
theorem quietSync_iff : QuietSync site s file ↔ NothingToSync site s file := by
  have hanswer : ∀ {response}, syncAgentsFromConfig site s file = s.answer response →
      syncResults site s.agents s.now file = [] → QuietSync site s file := by
    intro response heq hresults
    refine ⟨by rw [heq]; rfl, ⟨response, by rw [heq]; rfl⟩, ?_⟩
    rw [hresults]
    exact fun _ hmem => absurd hmem List.not_mem_nil
  cases hlist : listedAgents file with
  | none =>
    obtain ⟨response, heq⟩ := syncAgentsFromConfig_of_none site s hlist
    refine iff_of_true (hanswer heq ?_) fun agents _ hagents => ?_
    · unfold syncResults
      rw [hlist]
    · cases hlist.symm.trans hagents
  | some list =>
    have hsyncs := syncAgentsFromConfig_of_some site s hlist
    cases hsync : syncAgents site s.now ⟨s.agents, 0, 0⟩ list with
    | error e =>
      rw [hsync] at hsyncs
      refine iff_of_true (hanswer hsyncs ?_) fun agents p hagents hp => ?_
      · unfold syncResults
        rw [hlist]
        dsimp only
        cases hreport : reportAgents site s.now ⟨s.agents, 0, 0⟩ list with
        | error e => rfl
        | ok results =>
          obtain ⟨p, hp⟩ := exists_syncAgents_of_report hreport
          cases hsync.symm.trans hp
      · obtain rfl := Option.some.inj (hlist.symm.trans hagents)
        cases hsync.symm.trans hp
    | ok p =>
      rw [hsync] at hsyncs
      obtain ⟨hall, rfl⟩ | ⟨hnot, hlt⟩ := syncAgents_cases hsync
      · refine iff_of_true ⟨by rw [hsyncs], ⟨.ok, by rw [hsyncs]; rfl⟩, ?_⟩
          fun agents _ hagents _ => ?_
        · unfold syncResults
          rw [hlist]
          dsimp only
          cases hreport : reportAgents site s.now ⟨s.agents, 0, 0⟩ list with
          | error e => exact fun _ hmem => absurd hmem List.not_mem_nil
          | ok results => exact unchanged_of_inSync hall hreport
        · rw [← Option.some.inj (hlist.symm.trans hagents)]
          exact hall
      · refine iff_of_false (fun h => ?_) fun h => hnot (h list p hlist hsync)
        obtain ⟨response, hevents⟩ := h.events
        rw [hsyncs] at hevents
        dsimp only at hevents
        rw [if_pos (by omega)] at hevents
        cases hevents

theorem inSync_entry {agents : Table AgentRow} {agent : Json} {e : SyncEntry}
    (h : IsAgentsTable site.sq agents) (he : readEntry site agent = some e) :
    InSync site agents agent
      ↔ e.action (storedAgent site.sq agents e.agentName) = .unchanged := by
  obtain ⟨hmap, hname, -⟩ := readEntry_eq_some.mp he
  obtain ⟨v, hv, hvt⟩ := keptText_eq_some.mp hname
  have hfind := findByName_of_asText agents hvt
  unfold storedAgent
  constructor
  · rintro ⟨name, role, config, values, id, r, hmap', hvalues, hfound, hsame⟩
    obtain ⟨rfl, hrest⟩ := Prod.mk.inj (Except.ok.inj (hmap.symm.trans hmap'))
    obtain ⟨rfl, rfl⟩ := Prod.mk.inj hrest
    obtain rfl := Except.ok.inj ((bindAll_one.mpr ⟨v, hv, rfl⟩).symm.trans hvalues)
    rw [List.headD_cons, hfind] at hfound
    rw [syncDiffers_eq hmap h (findByName_eq_some hfound)] at hsame
    rw [hfound]
    exact if_neg (Bool.eq_false_iff.mp hsame)
  · intro haction
    cases hfound : findByName site.sq agents (.text e.agentName) with
    | none =>
      rw [hfound] at haction
      cases haction
    | some found =>
      obtain ⟨id, r⟩ := found
      refine ⟨e.name, e.role, e.config, [v], id, r, hmap, bindAll_one.mpr ⟨v, hv, rfl⟩,
        hfind.trans hfound, ?_⟩
      rw [syncDiffers_eq hmap h (findByName_eq_some hfound)]
      rw [hfound] at haction
      by_contra hdiffers
      have hupdated : SyncAction.updated = .unchanged :=
        (if_pos ((Bool.not_eq_false _).mp hdiffers)).symm.trans haction
      cases hupdated

/-- An entry agrees with the one that is stored if nothing is done with it. -/
theorem action_value_iff {e e' : SyncEntry} :
    e.action (some e'.value) = .unchanged ↔ e.Agrees e' := by
  have hdiffers : e.differs e'.value = false ↔ e.Agrees e' := by
    show (decide (SqlValue.text e'.config ≠ .text e.config)
      || !(SqlValue.text e'.roleText).equals (some e.role)) = false ↔ _
    rw [Bool.or_eq_false_iff, decide_eq_false_iff_not, not_not, Bool.not_eq_false', equals_text,
      SqlValue.text.injEq, Option.some.injEq]
    exact and_congr_left' eq_comm
  rw [← hdiffers]
  show (if e.differs e'.value = true then SyncAction.updated else .unchanged) = _ ↔ _
  cases e.differs e'.value with
  | false => exact iff_of_true rfl rfl
  | true => exact iff_of_false (fun h => by cases h) fun h => by cases h

/-- **What is stored last of a name** is what the other agents of it are compared with. -/
theorem settled_iff {sq : Sqlite} {σ : String → Option (SqlValue × SqlValue)}
    {es : List SyncEntry} (hes : ∀ e ∈ es, keptText sq (some e.role) = some e.roleText) :
    (∀ e ∈ es, e.action (Upserts.after (·.agentName) SyncEntry.value σ es e.agentName)
        = .unchanged)
      ↔ ∀ e ∈ es, ∀ e' ∈ es, e.agentName = e'.agentName → e.Agrees e' := by
  have hlast : ∀ e ∈ es, ∃ l ∈ es, l.agentName = e.agentName
      ∧ Upserts.after (·.agentName) SyncEntry.value σ es e.agentName = some l.value := by
    intro e he
    have hmem : e ∈ Upserts.ofKey (·.agentName) e.agentName es :=
      Upserts.mem_ofKey.mpr ⟨he, rfl⟩
    have hlast := List.getLast?_eq_getLast_of_ne_nil (List.ne_nil_of_mem hmem)
    obtain ⟨hl, hname⟩ := Upserts.mem_ofKey.mp
      (List.getLast_mem (List.ne_nil_of_mem hmem))
    refine ⟨_, hl, hname, ?_⟩
    rw [Upserts.after_apply, hlast]
    rfl
  constructor
  · intro h e he e' he' hname
    obtain ⟨l, hl, -, hafter⟩ := hlast e he
    have hagrees := h e he
    have hagrees' := h e' he'
    rw [hafter, action_value_iff] at hagrees
    rw [← hname, hafter, action_value_iff] at hagrees'
    have hrole := hes e' he'
    rw [hagrees'.2] at hrole
    have htext : l.roleText = e'.roleText := Option.some.inj hrole
    exact ⟨hagrees.1.trans hagrees'.1.symm, htext ▸ hagrees.2⟩
  · intro h e he
    obtain ⟨l, hl, hname, hafter⟩ := hlast e he
    rw [hafter, action_value_iff]
    exact h e he l hl hname.symm

end Quiet

/-- A configuration with two agents of one name. -/
def sampleTwins : Json :=
  .obj [("agents", .obj [("list", .arr [.obj [("id", .str "bob"), ("name", .str "Bob")],
    .obj [("id", .str "bobby"), ("name", .str "Bob")]])])]

/-- The agents after a first sync of an empty table. -/
def sampleSynced : AgentState :=
  (syncAgentsFromConfig sampleAgentSite (.initial 1700000000000) (some sampleTwins)).1

end MissionControl
