import MissionControl.JsonRoundTrip
import MissionControl.TranscriptTallies

/-!
# Lines that say nothing

A line of a transcript that is no JSON object says nothing of the session, and
`parseSessionFile` ignores it, whether it is no JSON at all or a value of another kind.
Only `null` is taken for an entry, and its properties cannot be read: the error is not the
one of the line, and the whole file has no statistics.

So a line that says nothing is ignored exactly if it is not `null`, or there are no
statistics without it (`parseSessionFile_ignores_iff`).
-/

namespace MissionControl

/-- **Lines have statistics**: one of the entries has a session id, all of them can be read,
and the last model and the last time have texts. -/
structure HasStatistics (site : TranscriptSite) (lines : List (List Char)) : Prop where
  sessionId : ∃ entry ∈ entriesOf site lines, ∃ x, fieldOf "sessionId" entry = some x
  readable : ∀ entry ∈ entriesOf site lines, entry.Readable site.rt
  model : ∀ x ∈ lastIn site (fun entry => (messageOf "assistant" entry).bind (fieldOf "model"))
    lines, x.HasText site.rt
  lastMessageAt : ∀ x ∈ lastIn site (fieldOf "timestamp") lines, x.HasText site.rt

section Noise

variable {site : TranscriptSite}

/-! ## Files that have statistics -/

theorem forall_mem_some {x : Json} {p : Json → Prop} : (∀ y ∈ some x, p y) ↔ p x :=
  ⟨fun h => h x rfl, fun h _ hy => Option.some.inj hy ▸ h⟩

theorem tokenCosts_ok_iff {model : Option Json} :
    (∃ costs, tokenCosts site model = .ok costs) ↔ ∀ x ∈ model, x.HasText site.rt := by
  cases model with
  | none => exact ⟨fun _ x hx => (by cases hx), fun _ => ⟨_, rfl⟩⟩
  | some x =>
    rw [forall_mem_some]
    unfold tokenCosts
    constructor
    · rintro ⟨costs, h⟩
      obtain ⟨key, hkey, -⟩ := bind_eq_ok.mp h
      exact ⟨key, hkey⟩
    · rintro ⟨key, hkey⟩
      dsimp only
      rw [hkey, ok_bind]
      cases sessionPricing.lookup key with
      | none => exact ⟨_, rfl⟩
      | some costs => exact ⟨_, rfl⟩

theorem dateValue_ok_iff {x : Json} :
    (∃ time, dateValue site x = .ok time) ↔ x.HasText site.rt := by
  have hobject : (∃ time, (do
      let text ← x.toStr site.rt
      Except.ok (site.dateParse text) : Except Exception (Option ℤ)) = .ok time)
      ↔ x.HasText site.rt := by
    constructor
    · rintro ⟨time, h⟩
      obtain ⟨text, htext, -⟩ := bind_eq_ok.mp h
      exact ⟨text, htext⟩
    · rintro ⟨text, htext⟩
      exact ⟨_, bind_eq_ok.mpr ⟨text, htext, rfl⟩⟩
  cases x with
  | null => exact ⟨fun _ => ⟨_, rfl⟩, fun _ => ⟨_, rfl⟩⟩
  | bool b => exact ⟨fun _ => ⟨_, rfl⟩, fun _ => ⟨_, rfl⟩⟩
  | num n => exact ⟨fun _ => ⟨_, rfl⟩, fun _ => ⟨_, rfl⟩⟩
  | str t => exact hobject
  | arr xs => exact hobject
  | obj fields => exact hobject

theorem isActiveAt_ok_iff (now : ℕ) {lastMessageAt : Option Json} :
    (∃ isActive, isActiveAt site now lastMessageAt = .ok isActive)
      ↔ ∀ x ∈ lastMessageAt, x.HasText site.rt := by
  cases lastMessageAt with
  | none => exact ⟨fun _ x hx => (by cases hx), fun _ => ⟨_, rfl⟩⟩
  | some x =>
    rw [forall_mem_some, ← dateValue_ok_iff]
    unfold isActiveAt
    constructor
    · rintro ⟨isActive, h⟩
      obtain ⟨time, htime, -⟩ := bind_eq_ok.mp h
      exact ⟨time, htime⟩
    · rintro ⟨time, htime⟩
      exact ⟨_, bind_eq_ok.mpr ⟨time, htime, rfl⟩⟩

/-- **There are statistics** exactly if the lines have some. -/
theorem parseSessionFile_isSome_iff (now : ℕ) (slug : String) {lines : List (List Char)}
    (h : ∀ line ∈ lines, '\n' ∉ line) :
    (∃ stats, parseSessionFile site now (some (transcript lines)) slug = some stats)
      ↔ HasStatistics site lines := by
  simp only [parseSessionFile_eq_some h]
  have hstats : ∀ s : TranscriptScan, (∃ stats, s.stats site now slug = .ok (some stats))
      ↔ (∃ x, s.sessionId = some x) ∧ (∀ x ∈ s.model, x.HasText site.rt)
        ∧ ∀ x ∈ s.lastMessageAt, x.HasText site.rt := by
    intro s
    rw [← tokenCosts_ok_iff, ← isActiveAt_ok_iff now]
    unfold TranscriptScan.stats
    cases s.sessionId with
    | none => exact ⟨fun ⟨_, h⟩ => (by cases h), fun ⟨⟨_, h⟩, _⟩ => (by cases h)⟩
    | some sessionId =>
      dsimp only
      constructor
      · rintro ⟨stats, h⟩
        obtain ⟨costs, hcosts, h⟩ := bind_eq_ok.mp h
        obtain ⟨isActive, hactive, -⟩ := bind_eq_ok.mp h
        exact ⟨⟨_, rfl⟩, ⟨costs, hcosts⟩, ⟨isActive, hactive⟩⟩
      · rintro ⟨-, ⟨costs, hcosts⟩, ⟨isActive, hactive⟩⟩
        rw [hcosts, ok_bind, hactive]
        exact ⟨_, rfl⟩
  rw [exists_and_left, hstats]
  have hsession : (TranscriptScan.after site {} (tally site lines)).sessionId
      = firstIn site (fieldOf "sessionId") lines := first_tally first_sessionId lines
  have hmodel : (TranscriptScan.after site {} (tally site lines)).model
      = lastIn site (fun entry => (messageOf "assistant" entry).bind (fieldOf "model")) lines :=
    Option.or_none.trans (last_tally last_model lines)
  have hlast : (TranscriptScan.after site {} (tally site lines)).lastMessageAt
      = lastIn site (fieldOf "timestamp") lines :=
    Option.or_none.trans (last_tally last_lastMessageAt lines)
  have hfirst : (∃ x, firstIn site (fieldOf "sessionId") lines = some x)
      ↔ ∃ entry ∈ entriesOf site lines, ∃ x, fieldOf "sessionId" entry = some x := by
    unfold firstIn
    simp only [← Option.isSome_iff_exists, List.isSome_findSome?, List.any_eq_true]
  rw [hsession, hmodel, hlast, hfirst]
  exact ⟨fun ⟨hreadable, hsome, hm, ht⟩ => ⟨hsome, hreadable, hm, ht⟩,
    fun h => ⟨h.readable, h.sessionId, h.model, h.lastMessageAt⟩⟩

/-! ## Lines without an entry -/

theorem entryTally_of_noise (site : TranscriptSite) {x : Json} (hnull : x ≠ .null)
    (hobj : ∀ fields, x ≠ .obj fields) :
    entryTally site x = 0 ∧ x.Readable site.rt := by
  have hget : ∀ key, Json.get? (some x) key = none := by
    intro key
    cases x with
    | null => exact absurd rfl hnull
    | obj fields => exact absurd rfl (hobj fields)
    | bool b => rfl
    | num n => rfl
    | str t => rfl
    | arr xs => rfl
  have hfield : ∀ key, fieldOf key x = none := by
    intro key
    unfold fieldOf
    rw [hget]
    rfl
  have hmessage : ∀ type, messageOf type x = none := by
    intro type
    unfold messageOf
    rw [hget, hget]
    rfl
  refine ⟨?_, hnull, fun m hm => ?_, fun m hm => ?_⟩
  · unfold entryTally
    simp only [hfield, hmessage]
    rfl
  · rw [hmessage] at hm
    cases hm
  · rw [hmessage] at hm
    cases hm

theorem lines_of_insert {A B : List (List Char)} {noise : List Char}
    (h : ∀ line ∈ A ++ noise :: B, '\n' ∉ line) : ∀ line ∈ A ++ B, '\n' ∉ line := by
  intro line hline
  rcases List.mem_append.mp hline with hA | hB
  · exact h line (List.mem_append_left _ hA)
  · exact h line (List.mem_append_right _ (List.mem_cons_of_mem _ hB))

theorem tally_insert (A B : List (List Char)) (noise : List Char) :
    tally site (A ++ noise :: B) = tally site A
      + ((Json.parse site.rt noise).elim 0 (entryTally site) + tally site B) := by
  rw [tally_append, tally_cons]

theorem mem_entriesOf_insert {A B : List (List Char)} {noise : List Char} {entry : Json} :
    entry ∈ entriesOf site (A ++ noise :: B)
      ↔ Json.parse site.rt noise = some entry ∨ entry ∈ entriesOf site (A ++ B) := by
  unfold entriesOf
  rw [List.mem_filterMap, List.mem_filterMap]
  simp only [List.mem_append, List.mem_cons]
  constructor
  · rintro ⟨line, hline | rfl | hline, h⟩
    · exact .inr ⟨line, .inl hline, h⟩
    · exact .inl h
    · exact .inr ⟨line, .inr hline, h⟩
  · rintro (h | ⟨line, hline | hline, h⟩)
    · exact ⟨noise, .inr (.inl rfl), h⟩
    · exact ⟨line, .inl hline, h⟩
    · exact ⟨line, .inr (.inr hline), h⟩

/-- **A line that is not `null` is ignored**, if it is no object. -/
theorem parseSessionFile_insert (now : ℕ) (slug : String) {A B : List (List Char)}
    {noise : List Char} (hlines : ∀ line ∈ A ++ noise :: B, '\n' ∉ line)
    (hobj : ∀ fields, Json.parse site.rt noise ≠ some (.obj fields))
    (hnull : Json.parse site.rt noise ≠ some .null) :
    parseSessionFile site now (some (transcript (A ++ noise :: B))) slug
      = parseSessionFile site now (some (transcript (A ++ B))) slug := by
  have hrest := lines_of_insert hlines
  have hnothing : (Json.parse site.rt noise).elim 0 (entryTally site) = 0
      ∧ ∀ x, Json.parse site.rt noise = some x → x.Readable site.rt := by
    cases hparse : Json.parse site.rt noise with
    | none => exact ⟨rfl, fun x hx => (by cases hx)⟩
    | some x =>
      obtain ⟨hzero, hreadable⟩ := entryTally_of_noise site (x := x)
        (fun h => hnull (h ▸ hparse)) (fun fields h => hobj fields (h ▸ hparse))
      exact ⟨hzero, fun y hy => Option.some.inj hy ▸ hreadable⟩
  refine Option.ext fun stats => ?_
  rw [parseSessionFile_eq_some hlines, parseSessionFile_eq_some hrest, tally_insert, hnothing.1,
    zero_add, ← tally_append]
  refine and_congr_left fun _ => ?_
  simp only [mem_entriesOf_insert]
  exact ⟨fun h entry hentry => h entry (.inr hentry),
    fun h entry hentry => hentry.elim (hnothing.2 entry) (h entry)⟩

end Noise

/-- **A line that is no object is ignored** exactly if it is not `null`, or there are no
statistics without it. -/
theorem parseSessionFile_ignores_iff (site : TranscriptSite) (now : ℕ) (slug : String)
    {A B : List (List Char)} {noise : List Char}
    (hlines : ∀ line ∈ A ++ noise :: B, '\n' ∉ line)
    (hobj : ∀ fields, Json.parse site.rt noise ≠ some (.obj fields)) :
    parseSessionFile site now (some (transcript (A ++ noise :: B))) slug
        = parseSessionFile site now (some (transcript (A ++ B))) slug
      ↔ Json.parse site.rt noise ≠ some .null ∨ ¬ HasStatistics site (A ++ B) := by
  have hrest := lines_of_insert hlines
  by_cases hnull : Json.parse site.rt noise = some .null
  · have hnone : parseSessionFile site now (some (transcript (A ++ noise :: B))) slug = none := by
      refine Option.eq_none_iff_forall_ne_some.mpr fun stats h => ?_
      exact ((parseSessionFile_eq_some hlines).mp h).1 .null
        (mem_entriesOf_insert.mpr (.inl hnull)) |>.ne_null rfl
    rw [hnone, ← parseSessionFile_isSome_iff now slug hrest]
    constructor
    · intro h
      refine .inr fun ⟨stats, hstats⟩ => ?_
      rw [← h] at hstats
      cases hstats
    · rintro (h | h)
      · exact absurd hnull h
      · exact (Option.eq_none_iff_forall_ne_some.mpr fun stats hstats => h ⟨stats, hstats⟩).symm
  · exact ⟨fun _ => .inl hnull, fun _ => parseSessionFile_insert now slug hlines hobj hnull⟩

/-! ## A `null` among the lines -/

/-- A site for concrete runs: every time is the first one. -/
def sampleTranscriptSite : TranscriptSite where
  rt := sampleRuntime
  dateParse _ := some 0

/-- An entry that says the id of the session. -/
def sampleSessionEntry : Json := .obj [("sessionId", .str "s1")]

/-- Its line. -/
def sampleSessionLine : List Char := Json.stringify sampleRuntime sampleSessionEntry

theorem entriesOf_sampleSessionLine :
    entriesOf sampleTranscriptSite [sampleSessionLine] = [sampleSessionEntry] :=
  List.filterMap_cons_some
    (@Json.parse_stringify sampleRuntime sampleSessionEntry fun n hn => (by cases hn))

theorem hasStatistics_sample : HasStatistics sampleTranscriptSite [sampleSessionLine] := by
  have hmessage : ∀ type, messageOf type sampleSessionEntry = none := fun type => rfl
  have hlast : ∀ value : Json → Option Json, value sampleSessionEntry = none →
      lastIn sampleTranscriptSite value [sampleSessionLine] = none := by
    intro value hvalue
    unfold lastIn
    rw [entriesOf_sampleSessionLine, List.filterMap_cons_none hvalue]
    rfl
  constructor
  · rw [entriesOf_sampleSessionLine]
    exact ⟨_, List.mem_singleton_self _, .str "s1", rfl⟩
  · rw [entriesOf_sampleSessionLine]
    intro entry hentry
    obtain rfl := List.mem_singleton.mp hentry
    refine ⟨fun h => (by cases h), fun m hm => ?_, fun m hm => ?_⟩
    · rw [hmessage] at hm
      cases hm
    · rw [hmessage] at hm
      cases hm
  · rw [hlast _ rfl]
    exact fun x hx => (by cases hx)
  · rw [hlast _ rfl]
    exact fun x hx => (by cases hx)

/-- A line that is no JSON is ignored. -/
theorem parseSessionFile_ignores_sample :
    parseSessionFile sampleTranscriptSite 0
        (some (transcript ([sampleSessionLine] ++ "oops".toList :: []))) "demo"
        = parseSessionFile sampleTranscriptSite 0
          (some (transcript ([sampleSessionLine] ++ []))) "demo"
      ↔ Json.parse sampleTranscriptSite.rt "oops".toList ≠ some .null
        ∨ ¬ HasStatistics sampleTranscriptSite ([sampleSessionLine] ++ []) :=
  parseSessionFile_ignores_iff sampleTranscriptSite 0 "demo" (by decide) (by
    intro fields h
    have hparse : Json.parse sampleTranscriptSite.rt "oops".toList = none := rfl
    rw [hparse] at h
    cases h)

/-- **A `null` drops the whole file.** -/
theorem not_ignores_sampleNull :
    ¬ ∀ (site : TranscriptSite) (now : ℕ) (slug : String) (A B : List (List Char))
      (noise : List Char), (∀ line ∈ A ++ noise :: B, '\n' ∉ line) →
      (∀ fields, Json.parse site.rt noise ≠ some (.obj fields)) →
        parseSessionFile site now (some (transcript (A ++ noise :: B))) slug
          = parseSessionFile site now (some (transcript (A ++ B))) slug := by
  intro h
  have hparse : Json.parse sampleTranscriptSite.rt "null".toList = some .null := rfl
  have hsame := h sampleTranscriptSite 0 "demo" [sampleSessionLine] [] "null".toList (by decide)
    fun fields hfields => by
      rw [hparse] at hfields
      cases hfields
  obtain ⟨stats, hstats⟩ := (parseSessionFile_isSome_iff 0 "demo" (by decide)).mpr
    hasStatistics_sample
  have hreadable := ((parseSessionFile_eq_some (by decide)).mp (hsame.trans hstats)).1
  exact (hreadable .null (mem_entriesOf_insert.mpr (.inl hparse))).ne_null rfl

end MissionControl
