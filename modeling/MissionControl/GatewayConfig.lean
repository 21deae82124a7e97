import MissionControl.Tasks
import MissionControl.OpenclawConfig

/-!
# The configuration of the gateway

`PUT /api/gateway-config` assigns values to paths of `openclaw.json`. It is to preserve the
password and the secret of the gateway: an update whose path begins with one of theirs is
refused.

A path may also end before theirs. An update of `gateway` or of `gateway.auth` passes, and
puts its own value in place of what holds the secrets
(`not_gatewaySecrets_kept_sampleAuth`). They are kept exactly if the last update of these
that reaches its place carries them as they were (`gatewaySecrets_kept_iff`).
-/

namespace MissionControl

/-- **What the route depends on**: the runtime, `OPENCLAW_HOME`, and the texts of errors
that are not its own. -/
structure GatewayConfigSite where
  rt : Runtime
  openclawHome : String
  readErrorText : String
  typeErrorText : String

/-- `gatewayConfigUpdateSchema`. The updates are in the order of `Object.entries`. -/
def gatewayConfigUpdateSchema : Reader (List (String × Json)) :=
  .object fun fields => Reader.record.field "updates" fields

def blockedPaths : List String := ["gateway.auth.password", "gateway.auth.secret"]

/-- `s.startsWith(part)`. -/
def startsWith (s part : String) : Bool := part.toList.isPrefixOf s.toList

/-- **The updates of a request**, or what is answered before the file is read. -/
def acceptGatewayConfig (site : GatewayConfigSite) (body : Option Json) :
    Except ApiResponse (List (String × Json)) :=
  if site.openclawHome = "" then .error (.error 404 "OPENCLAW_HOME not configured")
  else
    match validateBody gatewayConfigUpdateSchema body with
    | .error response => .error response
    | .ok updates =>
      match updates.find? fun (key, _) => blockedPaths.any (startsWith key) with
      | some (key, _) => .error (.error 403 ("Cannot modify protected field: " ++ key))
      | none => .ok updates

/-- The updates applied one after the other. Every path has its surroundings at the time
of its assignment. -/
def applyUpdates (rt : Runtime) (around : String → Surroundings) :
    List (String × Json) → Json → Except Exception Json
  | [], parsed => .ok parsed
  | (path, value) :: updates, parsed => do
    let parsed ← setNestedValue rt (around path) parsed path value
    applyUpdates rt around updates parsed

def GatewayConfigSite.message (site : GatewayConfigSite) : Exception → String
  | .error message => message
  | .typeError => site.typeErrorText

/-- **`PUT /api/gateway-config`**: what is answered, and what is written. There is no
content where the file cannot be read, or is no JSON. -/
def putGatewayConfig (site : GatewayConfigSite) (around : String → Surroundings)
    (body : Option Json) (content : Option Json) : ApiResponse × Option Json :=
  match acceptGatewayConfig site body with
  | .error response => (response, none)
  | .ok updates =>
    match content with
    | none => (.error 500 ("Failed to update config: " ++ site.readErrorText), none)
    | some parsed =>
      match applyUpdates site.rt around updates parsed with
      | .ok parsed =>
        (.json 200 (.obj [("updated", .arr (updates.map fun u => .str u.1)),
          ("count", .ofNat updates.length)]), some parsed.stored)
      | .error e => (.error 500 ("Failed to update config: " ++ site.message e), none)

/-! ## The updates that decide -/

section Secrets

variable {rt : Runtime} {around : String → Surroundings}

/-- **An update puts its value in place of what holds a path**: its own path is the
beginning of that one, and it reaches its place. -/
def Replaces (around : String → Surroundings) (path : List String) (update : String × Json)
    (parsed : Json) : Prop :=
  splitDots update.1 <+: path ∧ Lands (around update.1) (splitDots update.1) parsed

/-- What an update carries for a path that it holds. -/
def carried (path : List String) (update : String × Json) : Option Json :=
  update.2.valueAt (path.drop (splitDots update.1).length)

/-- Some update puts its value in place of what holds the path. -/
def AnyReplaces (rt : Runtime) (around : String → Surroundings) (path : List String)
    (updates : List (String × Json)) (parsed : Json) : Prop :=
  ∃ first update rest reached, updates = first ++ update :: rest
    ∧ applyUpdates rt around first parsed = .ok reached ∧ Replaces around path update reached

/-- The last update that puts its value in place of what holds the path. -/
def LastReplaces (rt : Runtime) (around : String → Surroundings) (path : List String)
    (updates : List (String × Json)) (parsed : Json) (update : String × Json) : Prop :=
  ∃ first rest reached next, updates = first ++ update :: rest
    ∧ applyUpdates rt around first parsed = .ok reached ∧ Replaces around path update reached
    ∧ setNestedValue rt (around update.1) reached update.1 update.2 = .ok next
    ∧ ¬ AnyReplaces rt around path rest next

/-- **The secrets are carried**: the last update that puts its value in place of what holds
one of them has it as it was. Where there is none, the secret is a value that is written
as it was read, which only a number out of range is not. -/
def SecretsCarried (rt : Runtime) (around : String → Surroundings)
    (updates : List (String × Json)) (content : Json) : Prop :=
  ∀ blocked ∈ blockedPaths,
    (∀ update, LastReplaces rt around (splitDots blocked) updates content update →
      (carried (splitDots blocked) update).map Json.stored
        = content.valueAt (splitDots blocked))
    ∧ (¬ AnyReplaces rt around (splitDots blocked) updates content →
      (content.valueAt (splitDots blocked)).map Json.stored
        = content.valueAt (splitDots blocked))

theorem intercalate_splitDots (path : String) :
    ['.'].intercalate ((splitDots path).map String.toList) = path.toList := by
  unfold splitDots
  rw [List.map_map, show String.toList ∘ String.ofList = id from
    funext fun cs => String.toList_ofList, List.map_id, List.intercalate_splitOn]

theorem intercalate_prefix {sep : List Char} {names more : List (List Char)}
    (h : names <+: more) : sep.intercalate names <+: sep.intercalate more := by
  obtain ⟨rest, rfl⟩ := h
  induction names with
  | nil => exact List.nil_prefix
  | cons name names ih =>
    cases names with
    | nil =>
      rw [List.intercalate_singleton]
      cases rest with
      | nil =>
        rw [List.append_nil, List.intercalate_singleton]
      | cons next rest =>
        rw [List.singleton_append, List.intercalate_cons_cons, List.append_assoc]
        exact List.prefix_append _ _
    | cons next names =>
      rw [List.cons_append, List.cons_append, List.intercalate_cons_cons,
        List.intercalate_cons_cons]
      exact (List.prefix_append_right_inj _).mpr ih

/-- **A path that goes on from another one begins with it.** -/
theorem startsWith_of_prefix {path key : String} (h : splitDots path <+: splitDots key) :
    startsWith key path = true := by
  unfold startsWith
  rw [List.isPrefixOf_iff_prefix, ← intercalate_splitDots path, ← intercalate_splitDots key]
  exact intercalate_prefix (h.map String.toList)

theorem blockedPaths_names : ∀ blocked ∈ blockedPaths, ∀ key ∈ splitDots blocked,
    arrayIndex key = none ∧ key ≠ "__proto__" := by
  decide +kernel

/-- **An update of a path that does not go on from another one** puts its part in place of
what stands there, or changes nothing there. -/
theorem valueAt_setNestedValue {path : List String} {update : String × Json}
    {parsed next : Json} (hpath : ∀ key ∈ path, arrayIndex key = none ∧ key ≠ "__proto__")
    (hbeyond : ¬ path <+: splitDots update.1)
    (h : setNestedValue rt (around update.1) parsed update.1 update.2 = .ok next) :
    (Replaces around path update parsed → next.valueAt path = carried path update)
      ∧ (¬ Replaces around path update parsed → next.valueAt path = parsed.valueAt path) := by
  by_cases hprefix : splitDots update.1 <+: path
  · obtain ⟨rest, rfl⟩ := hprefix
    have hne : splitDots update.1 ≠ [] := fun h =>
      List.splitOn_ne_nil '.' update.1.toList (List.map_eq_nil_iff.mp h)
    obtain ⟨hlands, hnot⟩ := valueAt_setNested_below hne
      (fun key hkey => (hpath key (List.mem_append_left rest hkey)).1)
      (fun key hkey => (hpath key (List.mem_append_left rest hkey)).2) h
    refine ⟨fun hreplaces => ?_, fun hreplaces => hnot fun hlands => ?_⟩
    · unfold carried
      rw [List.drop_left]
      exact hlands hreplaces.2
    · exact hreplaces ⟨List.prefix_append _ rest, hlands⟩
  · refine ⟨fun hreplaces => absurd hreplaces.1 hprefix, fun _ => ?_⟩
    rcases apart_or_prefix fun key hkey => (hpath key hkey).1 with hapart | h' | h'
    · exact valueAt_setNested_same (fun key hkey => (hpath key hkey).1) hapart h
    · exact absurd h' hbeyond
    · exact absurd h' hprefix

theorem applyUpdates_append {first rest : List (String × Json)} {parsed d : Json} :
    applyUpdates rt around (first ++ rest) parsed = .ok d
      ↔ ∃ reached, applyUpdates rt around first parsed = .ok reached
        ∧ applyUpdates rt around rest reached = .ok d := by
  induction first generalizing parsed with
  | nil => simp [applyUpdates]
  | cons update first ih =>
    rw [List.cons_append, applyUpdates, applyUpdates, bind_eq_ok]
    constructor
    · rintro ⟨next, hnext, h⟩
      obtain ⟨reached, hreached, h⟩ := ih.mp h
      exact ⟨reached, bind_eq_ok.mpr ⟨next, hnext, hreached⟩, h⟩
    · rintro ⟨reached, hreached, h⟩
      obtain ⟨next, hnext, hreached⟩ := bind_eq_ok.mp hreached
      exact ⟨next, hnext, ih.mpr ⟨reached, hreached, h⟩⟩

section Path

variable {path : List String} {updates : List (String × Json)} {parsed d : Json}

theorem anyReplaces_cons {update : String × Json} {next : Json}
    (h : setNestedValue rt (around update.1) parsed update.1 update.2 = .ok next) :
    AnyReplaces rt around path (update :: updates) parsed
      ↔ Replaces around path update parsed ∨ AnyReplaces rt around path updates next := by
  constructor
  · rintro ⟨first, u, rest, reached, hsplit, hreached, hreplaces⟩
    cases first with
    | nil =>
      obtain ⟨rfl, -⟩ := List.cons.inj hsplit
      cases hreached
      exact .inl hreplaces
    | cons u' first =>
      obtain ⟨rfl, rfl⟩ := List.cons.inj hsplit
      obtain ⟨next', hnext', hreached⟩ := bind_eq_ok.mp hreached
      obtain rfl : next = next' := Except.ok.inj (h.symm.trans hnext')
      exact .inr ⟨first, u, rest, reached, rfl, hreached, hreplaces⟩
  · rintro (hreplaces | ⟨first, u, rest, reached, rfl, hreached, hreplaces⟩)
    · exact ⟨[], update, updates, parsed, rfl, rfl, hreplaces⟩
    · exact ⟨update :: first, u, rest, reached, rfl, bind_eq_ok.mpr ⟨next, h, hreached⟩,
        hreplaces⟩

/-- **Where no update puts its value in place**, the path keeps what it has. -/
theorem valueAt_applyUpdates_of_not
    (hpath : ∀ key ∈ path, arrayIndex key = none ∧ key ≠ "__proto__")
    (hbeyond : ∀ update ∈ updates, ¬ path <+: splitDots update.1)
    (h : applyUpdates rt around updates parsed = .ok d)
    (hnot : ¬ AnyReplaces rt around path updates parsed) :
    d.valueAt path = parsed.valueAt path := by
  induction updates generalizing parsed with
  | nil =>
    cases h
    rfl
  | cons update updates ih =>
    obtain ⟨next, hnext, h⟩ := bind_eq_ok.mp h
    rw [anyReplaces_cons hnext, not_or] at hnot
    rw [ih (fun u hu => hbeyond u (List.mem_cons_of_mem _ hu)) h hnot.2]
    exact (valueAt_setNestedValue hpath (hbeyond update List.mem_cons_self) hnext).2 hnot.1

/-- **The last update that puts its value in place** decides what the path has. -/
theorem valueAt_applyUpdates_of_last
    (hpath : ∀ key ∈ path, arrayIndex key = none ∧ key ≠ "__proto__")
    (hbeyond : ∀ update ∈ updates, ¬ path <+: splitDots update.1)
    (h : applyUpdates rt around updates parsed = .ok d) {update : String × Json}
    (hlast : LastReplaces rt around path updates parsed update) :
    d.valueAt path = carried path update := by
  obtain ⟨first, rest, reached, next, rfl, hreached, hreplaces, hnext, hnot⟩ := hlast
  obtain ⟨reached', hreached', h⟩ := applyUpdates_append.mp h
  obtain rfl : reached = reached' := Except.ok.inj (hreached.symm.trans hreached')
  obtain ⟨next', hnext', h⟩ := bind_eq_ok.mp h
  obtain rfl : next = next' := Except.ok.inj (hnext.symm.trans hnext')
  rw [valueAt_applyUpdates_of_not hpath (fun u hu => hbeyond u (by simp [hu])) h hnot]
  exact (valueAt_setNestedValue hpath (hbeyond update (by simp)) hnext).1 hreplaces

theorem exists_lastReplaces (h : applyUpdates rt around updates parsed = .ok d)
    (hany : AnyReplaces rt around path updates parsed) :
    ∃ update, LastReplaces rt around path updates parsed update := by
  induction updates generalizing parsed with
  | nil =>
    obtain ⟨first, u, rest, _, hsplit, -⟩ := hany
    simp at hsplit
  | cons update updates ih =>
    obtain ⟨next, hnext, h⟩ := bind_eq_ok.mp h
    by_cases hrest : AnyReplaces rt around path updates next
    · obtain ⟨u, first, rest, reached, next', rfl, hreached, hlast⟩ := ih h hrest
      exact ⟨u, update :: first, rest, reached, next', rfl,
        bind_eq_ok.mpr ⟨next, hnext, hreached⟩, hlast⟩
    · have hreplaces := ((anyReplaces_cons hnext).mp hany).resolve_right hrest
      exact ⟨update, [], updates, parsed, next, rfl, rfl, hreplaces, hnext, hrest⟩

end Path

/-- The updates that pass do not go on from a path that is blocked. -/
theorem not_prefix_of_accept {site : GatewayConfigSite} {body : Option Json}
    {updates : List (String × Json)} (h : acceptGatewayConfig site body = .ok updates) :
    ∀ blocked ∈ blockedPaths, ∀ update ∈ updates,
      ¬ splitDots blocked <+: splitDots update.1 := by
  intro blocked hblocked update hupdate hprefix
  unfold acceptGatewayConfig at h
  split at h
  · exact nomatch h
  · split at h
    · exact nomatch h
    · split at h
      · exact nomatch h
      · next hfind =>
        obtain rfl := Except.ok.inj h
        refine List.find?_eq_none.mp hfind update hupdate (List.any_eq_true.mpr ?_)
        exact ⟨blocked, hblocked, startsWith_of_prefix hprefix⟩

end Secrets

/-- **The secrets of the gateway are kept exactly if they are carried**: in what a request
writes they are what they were if and only if the last update that puts its value in place
of what holds them carries them. -/
theorem gatewaySecrets_kept_iff (site : GatewayConfigSite) (around : String → Surroundings)
    {body : Option Json} {updates : List (String × Json)} {content w : Json}
    (haccept : acceptGatewayConfig site body = .ok updates)
    (hwritten : (putGatewayConfig site around body (some content)).2 = some w) :
    (∀ blocked ∈ blockedPaths,
        w.valueAt (splitDots blocked) = content.valueAt (splitDots blocked))
      ↔ SecretsCarried site.rt around updates content := by
  obtain ⟨d, hd, rfl⟩ : ∃ d, applyUpdates site.rt around updates content = .ok d
      ∧ w = d.stored := by
    unfold putGatewayConfig at hwritten
    rw [haccept] at hwritten
    dsimp only at hwritten
    split at hwritten
    · next d hd => exact ⟨d, hd, (Option.some.inj hwritten).symm⟩
    · exact nomatch hwritten
  refine forall₂_congr fun blocked hblocked => ?_
  have hpath := blockedPaths_names blocked hblocked
  have hbeyond := not_prefix_of_accept haccept blocked hblocked
  rw [valueAt_stored]
  constructor
  · intro h
    refine ⟨fun update hlast => ?_, fun hnot => ?_⟩
    · rw [← valueAt_applyUpdates_of_last hpath hbeyond hd hlast]
      exact h
    · rw [valueAt_applyUpdates_of_not hpath hbeyond hd hnot] at h
      exact h
  · rintro ⟨hlast, hnot⟩
    by_cases hany : AnyReplaces site.rt around (splitDots blocked) updates content
    · obtain ⟨update, hupdate⟩ := exists_lastReplaces hd hany
      rw [valueAt_applyUpdates_of_last hpath hbeyond hd hupdate]
      exact hlast update hupdate
    · rw [valueAt_applyUpdates_of_not hpath hbeyond hd hany]
      exact hnot hany

/-! ## A configuration with a password -/

/-- A site whose objects inherit what every object does. -/
def sampleGatewayConfigSite : GatewayConfigSite :=
  ⟨sampleRuntime, "/home/openclaw/.openclaw", "ENOENT", "TypeError"⟩

/-- Objects that inherit what every object does. -/
def sampleSurroundings : Surroundings where
  inherits path := path.getLast?.any (· ∈ objectPrototype)
  throws := false

def sampleConfig : Json :=
  .obj [("gateway", .obj [("port", .ofNat 18789),
    ("auth", .obj [("mode", .str "password"), ("password", .str "hunter2")])])]

/-- The body of a request with one update. -/
def sampleUpdate (path : String) (value : Json) : Option Json :=
  some (.obj [("updates", .obj [(path, value)])])

theorem accept_sampleUpdate {path : String} {value : Json} (hproto : path ≠ "__proto__")
    (hblocked : blockedPaths.any (startsWith path) = false) :
    acceptGatewayConfig sampleGatewayConfigSite (sampleUpdate path value)
      = .ok [(path, value)] := by
  have hread : validateBody gatewayConfigUpdateSchema (sampleUpdate path value)
      = .ok [(path, value)] := by
    simp [validateBody, gatewayConfigUpdateSchema, sampleUpdate, Reader.object, Reader.field,
      Reader.record, Reader.ofType, Checked.under, hproto]
  unfold acceptGatewayConfig
  rw [hread, if_neg (by decide)]
  simp [hblocked]

/-- An update of the port keeps the secrets. -/
theorem gatewaySecrets_kept_samplePort :
    SecretsCarried sampleRuntime (fun _ => sampleSurroundings)
      [("gateway.port", .ofNat 18790)] sampleConfig :=
  (gatewaySecrets_kept_iff sampleGatewayConfigSite (fun _ => sampleSurroundings)
    (accept_sampleUpdate (by decide) (by decide +kernel)) (by
      have hsplit : splitDots "gateway.port" = ["gateway", "port"] := by decide +kernel
      unfold putGatewayConfig
      rw [accept_sampleUpdate (by decide) (by decide +kernel)]
      simp only [applyUpdates, setNestedValue, hsplit, sampleConfig, setNested]
      rfl)).mp (by
      have hpassword : splitDots "gateway.auth.password" = ["gateway", "auth", "password"] := by
        decide +kernel
      have hsecret : splitDots "gateway.auth.secret" = ["gateway", "auth", "secret"] := by
        decide +kernel
      simp only [blockedPaths, List.forall_mem_cons, hpassword, hsecret]
      exact ⟨rfl, rfl, List.forall_mem_nil _⟩)

/-- **The password is gone** after an update of what holds it, which passes. -/
theorem not_gatewaySecrets_kept_sampleAuth :
    ∃ w, (putGatewayConfig sampleGatewayConfigSite (fun _ => sampleSurroundings)
        (sampleUpdate "gateway.auth" (.obj [("mode", .str "none")])) (some sampleConfig)).2
        = some w
      ∧ ¬ ∀ blocked ∈ blockedPaths,
        w.valueAt (splitDots blocked) = sampleConfig.valueAt (splitDots blocked) := by
  have hsplit : splitDots "gateway.auth" = ["gateway", "auth"] := by decide +kernel
  have hpassword : splitDots "gateway.auth.password" = ["gateway", "auth", "password"] := by
    decide +kernel
  refine ⟨.obj [("gateway", .obj [("port", .ofNat 18789),
    ("auth", .obj [("mode", .str "none")])])], ?_, fun h => ?_⟩
  · unfold putGatewayConfig
    rw [accept_sampleUpdate (by decide) (by decide +kernel)]
    simp only [applyUpdates, setNestedValue, hsplit, sampleConfig, setNested]
    rfl
  · have hkept := h "gateway.auth.password" List.mem_cons_self
    rw [hpassword] at hkept
    cases hkept

end MissionControl
