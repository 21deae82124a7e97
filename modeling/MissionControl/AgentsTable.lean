import MissionControl.AgentRows

/-!
# The table of the agents

What the schema says of the rows of `agents` (`IsAgentsTable`) holds of the table all along:
an agent that is inserted or updated keeps it (`IsAgentsTable.of_insertAgent`,
`IsAgentsTable.of_updateAgent`). There is one agent of a name
(`IsAgentsTable.findByName_eq_some`).
-/

namespace MissionControl

/-- **A table of agents** as the schema has it: a column keeps what is of its type, what is
required is there, and no two rows have the same of what is unique. -/
structure IsAgentsTable (sq : Sqlite) (agents : Table AgentRow) : Prop where
  kept : ∀ {id : ℕ} {r : AgentRow}, agents.row id = some r → ∀ c, c.keep sq (r c) = r c
  required : ∀ {id : ℕ} {r : AgentRow}, agents.row id = some r →
    ∀ c ∈ AgentColumn.required, r c ≠ .null
  unique : ∀ {id id' : ℕ} {r r' : AgentRow}, agents.row id = some r → agents.row id' = some r' →
    ∀ c ∈ AgentColumn.unique, r c ≠ .null → r' c = r c → id' = id

section Table

variable {sq : Sqlite} {agents agents' : Table AgentRow} {id : ℕ} {r : AgentRow}

theorem asText_asText (v : SqlValue) : (v.asText sq).asText sq = v.asText sq := by
  cases v <;> rfl

theorem keep_keep (c : AgentColumn) (v : SqlValue) : c.keep sq (c.keep sq v) = c.keep sq v := by
  have hinteger : ∀ v : SqlValue, (v.asInteger sq).asInteger sq = v.asInteger sq := by
    intro v
    cases v with
    | null | number n => rfl
    | text s =>
      show SqlValue.asInteger sq (((sq.textToNumber s).map SqlValue.number).getD (.text s)) = _
      cases hs : sq.textToNumber s with
      | none =>
        show ((sq.textToNumber s).map SqlValue.number).getD (.text s)
          = ((sq.textToNumber s).map SqlValue.number).getD (.text s)
        rfl
      | some n =>
        show SqlValue.number n = ((sq.textToNumber s).map SqlValue.number).getD (.text s)
        rw [hs]
        rfl
  cases c <;> first | exact asText_asText v | exact hinteger v

theorem keep_assign (hkept : ∀ c, AgentColumn.keep sq c (r c) = r c)
    (assignments : List (AgentColumn × SqlValue)) (c : AgentColumn) :
    c.keep sq (r.assign sq assignments c) = r.assign sq assignments c := by
  rw [AgentRow.assign_apply]
  unfold assigned
  cases assignments.reverse.lookup c with
  | none => exact hkept c
  | some v => exact keep_keep c v

/-- **What the constraints ask of a row.** -/
theorem checkAgent_eq_ok {id : Option ℕ} (h : checkAgent agents id r = .ok ()) :
    (∀ c ∈ AgentColumn.required, r c ≠ .null) ∧ ∀ c ∈ AgentColumn.unique, r c ≠ .null →
      ∀ {id' : ℕ} {r' : AgentRow}, agents.row id' = some r' → r' c = r c → some id' = id := by
  unfold checkAgent at h
  split at h
  · cases h
  · next hrequired =>
    split at h
    · cases h
    · next hunique =>
      refine ⟨fun c hc hnull => ?_, fun c hc hne id' r' hr' heq => ?_⟩
      · exact absurd (decide_eq_true hnull) (List.find?_eq_none.mp hrequired c hc)
      · by_contra hid
        refine List.find?_eq_none.mp hunique c hc ?_
        rw [decide_eq_true hne, Bool.true_and, List.any_eq_true]
        refine ⟨(id', r'), agents.mem_rows.mpr hr', ?_⟩
        show (decide (some id' ≠ id) && decide (r' c = r c)) = true
        rw [decide_eq_true hid, decide_eq_true heq]
        rfl

theorem checkAgent_of {id : Option ℕ} (hrequired : ∀ c ∈ AgentColumn.required, r c ≠ .null)
    (hunique : ∀ c ∈ AgentColumn.unique, r c ≠ .null → ∀ id' r', agents.row id' = some r' →
      r' c = r c → some id' = id) : checkAgent agents id r = .ok () := by
  unfold checkAgent
  rw [List.find?_eq_none.mpr fun c hc hnull => hrequired c hc (of_decide_eq_true hnull)]
  dsimp only
  rw [List.find?_eq_none.mpr fun c hc htaken => ?_]
  obtain ⟨hne, htaken⟩ := Bool.and_eq_true_iff.mp htaken
  obtain ⟨⟨id', r'⟩, hr', hsame⟩ := List.any_eq_true.mp htaken
  obtain ⟨hid, heq⟩ := Bool.and_eq_true_iff.mp hsame
  exact of_decide_eq_true hid
    (hunique c hc (of_decide_eq_true hne) id' r' (agents.mem_rows.mp hr') (of_decide_eq_true heq))

namespace IsAgentsTable

theorem empty (sq : Sqlite) : IsAgentsTable sq .empty where
  kept hr := by cases hr
  required hr := by cases hr
  unique hr := by cases hr

theorem insert (h : IsAgentsTable sq agents)
    (hkept : ∀ c, AgentColumn.keep sq c (r c) = r c)
    (hcheck : checkAgent agents none r = .ok ()) : IsAgentsTable sq (agents.insert r) := by
  obtain ⟨hrequired, hunique⟩ := checkAgent_eq_ok hcheck
  refine ⟨fun hr' => ?_, fun hr' => ?_, fun hr' hr'' c hc hne heq => ?_⟩
  · obtain ⟨-, rfl⟩ | hr' := (agents.row_insert_eq_some r).mp hr'
    · exact hkept
    · exact h.kept hr'
  · obtain ⟨-, rfl⟩ | hr' := (agents.row_insert_eq_some r).mp hr'
    · exact hrequired
    · exact h.required hr'
  · obtain ⟨hid, hsame⟩ | hold := (agents.row_insert_eq_some r).mp hr'
    · obtain ⟨hid', -⟩ | hold' := (agents.row_insert_eq_some r).mp hr''
      · exact hid'.trans hid.symm
      · rw [hsame] at hne heq
        exact absurd (hunique c hc hne hold' heq) (Option.some_ne_none _)
    · obtain ⟨-, hsame⟩ | hold' := (agents.row_insert_eq_some r).mp hr''
      · rw [hsame] at heq
        exact absurd (hunique c hc (heq ▸ hne) hold heq.symm) (Option.some_ne_none _)
      · exact h.unique hold hold' c hc hne heq

theorem update (h : IsAgentsTable sq agents) (hr : agents.row id = some r)
    {f : AgentRow → AgentRow}
    (hkept : ∀ c, AgentColumn.keep sq c (f r c) = f r c)
    (hcheck : checkAgent agents (some id) (f r) = .ok ()) :
    IsAgentsTable sq (agents.update id f) := by
  obtain ⟨hrequired, hunique⟩ := checkAgent_eq_ok hcheck
  have hrow : ∀ {i : ℕ} {r' : AgentRow}, (agents.update id f).row i = some r' →
      i = id ∧ r' = f r ∨ i ≠ id ∧ agents.row i = some r' := by
    intro i r' hr'
    by_cases hi : i = id
    · subst hi
      rw [Table.row_update_self, hr] at hr'
      exact .inl ⟨rfl, (Option.some.inj hr').symm⟩
    · rw [Table.row_update_of_ne _ _ hi] at hr'
      exact .inr ⟨hi, hr'⟩
  refine ⟨fun hr' => ?_, fun hr' => ?_, fun hr' hr'' c hc hne heq => ?_⟩
  · obtain ⟨-, rfl⟩ | ⟨-, hr'⟩ := hrow hr'
    · exact hkept
    · exact h.kept hr'
  · obtain ⟨-, rfl⟩ | ⟨-, hr'⟩ := hrow hr'
    · exact hrequired
    · exact h.required hr'
  · obtain ⟨hid, hsame⟩ | ⟨hid, hr'⟩ := hrow hr'
    · obtain ⟨hid', -⟩ | ⟨hid', hr''⟩ := hrow hr''
      · exact hid'.trans hid.symm
      · rw [hsame] at hne heq
        exact absurd (Option.some.inj (hunique c hc hne hr'' heq)) hid'
    · obtain ⟨-, hsame⟩ | ⟨-, hr''⟩ := hrow hr''
      · rw [hsame] at heq
        exact absurd (Option.some.inj (hunique c hc (heq ▸ hne) hr' heq.symm)) hid
      · exact h.unique hr' hr'' c hc hne heq

/-- **An agent that is inserted** keeps the constraints. -/
theorem of_insertAgent (h : IsAgentsTable sq agents)
    {columns : List (AgentColumn × Option Json)}
    (hinsert : insertAgent sq agents columns = .ok agents') : IsAgentsTable sq agents' := by
  obtain ⟨values, -, hinsert⟩ := bind_eq_ok.mp hinsert
  obtain ⟨_, hcheck, hinsert⟩ := bind_eq_ok.mp hinsert
  obtain rfl := Except.ok.inj hinsert
  refine h.insert (keep_assign (fun c => ?_) _) hcheck
  cases c <;> rfl

/-- **An agent that is updated** keeps them. -/
theorem of_updateAgent (h : IsAgentsTable sq agents) (hr : agents.row id = some r)
    {assignments : List (AgentColumn × SqlValue)}
    (hupdate : updateAgent sq agents id r assignments = .ok agents') :
    IsAgentsTable sq agents' := by
  obtain ⟨_, hcheck, hupdate⟩ := bind_eq_ok.mp hupdate
  obtain rfl := Except.ok.inj hupdate
  exact h.update hr (keep_assign (h.kept hr) assignments) hcheck

/-- **There is one agent of a name.** -/
theorem findByName_eq_some (h : IsAgentsTable sq agents) {name : SqlValue} :
    findByName sq agents name = some (id, r)
      ↔ agents.row id = some r ∧ r.isNamed sq name = true := by
  refine ⟨fun hfound => ⟨(agents.first_eq_some.mp hfound).1, (agents.first_eq_some.mp hfound).2.1⟩,
    fun ⟨hr, hnamed⟩ => ?_⟩
  cases hfound : findByName sq agents name with
  | none => exact absurd hnamed (Bool.eq_false_iff.mp (agents.first_eq_none.mp hfound id r hr))
  | some found =>
    obtain ⟨id', r'⟩ := found
    obtain ⟨hr', hnamed', -⟩ := agents.first_eq_some.mp hfound
    unfold AgentRow.isNamed at hnamed hnamed'
    have hname := of_decide_eq_true (Bool.and_eq_true_iff.mp hnamed).2
    have hname' := of_decide_eq_true (Bool.and_eq_true_iff.mp hnamed').2
    have hid := h.unique hr hr' .name (by decide) (h.required hr .name (by decide))
      (hname'.trans hname.symm)
    subst hid
    rw [Option.some.inj (hr.symm.trans hr')]

end IsAgentsTable

end Table

/-- **The table of the agents**, with what the schema says of it. -/
structure AgentsTable (sq : Sqlite) where
  table : Table AgentRow
  isTable : IsAgentsTable sq table

end MissionControl
