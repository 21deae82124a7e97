import MissionControl.GatewayConfig
import MissionControl.JsonText

/-!
# What `GET /api/gateway-config` hides

The configuration is shown with a mask in place of its secrets. A text is one if it is the
value of a sensitive key, or stands anywhere below one. What `redactSensitive` makes of a
value is told place by place (`at_redactSensitive`): going down, the first key that it
recognises decides. Its value is masked if it is a text, and is left alone with all that is
in it if it is none.

So the redaction is complete exactly if no text stands further below a key that is
recognised, or below one that is sensitive and not recognised (`redacted_iff`). There are
keys of that kind: names are compared in lower case, and `apiKey` is looked for with a
capital.
-/

namespace MissionControl

def sensitiveKeys : List String := ["password", "secret", "token", "api_key", "apiKey"]

/-- `'••••••••'`. -/
def secretMask : String := "••••••••"

/-- `sensitiveKeys.some(sk => key.toLowerCase().includes(sk))`. -/
def isRecognised (rt : Runtime) (key : String) : Bool :=
  sensitiveKeys.any fun sk => includes (rt.toLowerCase key) sk

/-- A text that is not empty is masked. -/
def maskText : Json → Json
  | .str s => if s = "" then .str s else .str secretMask
  | x => x

/-- **`redactSensitive`.** An index is no sensitive name. -/
def redactSensitive (rt : Runtime) : Json → Json
  | .obj fields => .obj (redactFields fields)
  | .arr elements => .arr (redactElements elements)
  | x => x
where
  redactFields : List (String × Json) → List (String × Json)
    | [] => []
    | (key, x) :: fields =>
      (key, if isRecognised rt key then maskText x else redactSensitive rt x)
        :: redactFields fields
  redactElements : List Json → List Json
    | [] => []
    | x :: elements => redactSensitive rt x :: redactElements elements

/-- The file `openclaw.json` as it is read. -/
inductive ConfigFile where
  | missing
  | unreadable
  | text (raw : String)

/-- **`GET /api/gateway-config`.** -/
def getGatewayConfig (site : GatewayConfigSite) (file : ConfigFile) : ApiResponse :=
  let configPath := pathJoin [site.openclawHome, "openclaw.json"]
  if site.openclawHome = "" then .error 404 "OPENCLAW_HOME not configured"
  else
    match file with
    | .missing =>
      .json 404 (.obj [("error", .str "Config file not found"), ("path", .str configPath)])
    | .unreadable => .error 500 ("Failed to read config: " ++ site.readErrorText)
    | .text raw =>
      match Json.parse site.rt raw.toList with
      | none => .error 500 ("Failed to read config: " ++ site.readErrorText)
      | some parsed =>
        .json 200 (.obj [("path", .str configPath),
          ("config", redactSensitive site.rt parsed.stored),
          ("raw_size", .ofNat (utf16Length raw))])

/-! ## Places -/

/-- A way down: by a key of an object, or by an index of an array. -/
inductive Place where
  | key (name : String)
  | index (i : ℕ)

/-- **What stands at a place.** -/
def Json.at : List Place → Json → Option Json
  | [], x => some x
  | .key name :: path, .obj fields => (fields.lookup name).bind (Json.at path)
  | .index i :: path, .arr elements => elements[i]?.bind (Json.at path)
  | _, _ => none

/-- Whether a name contains, ignoring case, one of the sensitive names. -/
def isSensitive (rt : Runtime) (name : String) : Bool :=
  ["password", "secret", "token", "api_key", "apikey"].any fun sk =>
    includes (rt.toLowerCase name) sk

/-- A place at or below a key of the names. -/
def AtOrBelow (names : String → Bool) (path : List Place) : Prop :=
  ∃ name, .key name ∈ path ∧ names name = true

/-- A value that has no others in it. -/
def Json.isScalar : Json → Bool
  | .arr _ | .obj _ => false
  | _ => true

/-- **A complete redaction**: at and below the sensitive keys there are no texts but empty
ones and masks, and everywhere else there are the same values as before. -/
structure Redacted (rt : Runtime) (x y : Json) : Prop where
  masked : ∀ path s, AtOrBelow (isSensitive rt) path → y.at path = some (.str s) → s ≠ "" →
    s = secretMask
  unchanged : ∀ path, ¬ AtOrBelow (isSensitive rt) path → ∀ v, v.isScalar = true →
    (y.at path = some v ↔ x.at path = some v)

/-- A place that is masked: the value of a recognised key, with none above it. -/
def IsMasked (rt : Runtime) (path : List Place) : Prop :=
  ∃ before name, path = before ++ [.key name] ∧ isRecognised rt name = true
    ∧ ¬ AtOrBelow (isRecognised rt) before

/-- **The secrets of a value are masked**: every text at or below a sensitive key is the
value of a key that is recognised, with none above it, or the mask already. -/
def SecretsMasked (rt : Runtime) (x : Json) : Prop :=
  ∀ path s, AtOrBelow (isSensitive rt) path → x.at path = some (.str s) → s ≠ "" →
    IsMasked rt path ∨ s = secretMask

section Places

variable {rt : Runtime}

/-- What becomes of a value at a place. -/
def redactAt (rt : Runtime) : List Place → Json → Json
  | [], x => redactSensitive rt x
  | [.key name], x => if isRecognised rt name then maskText x else redactSensitive rt x
  | .key name :: path, x => if isRecognised rt name then x else redactAt rt path x
  | .index _ :: path, x => redactAt rt path x

theorem lookup_redactFields (fields : List (String × Json)) (name : String) :
    (redactSensitive.redactFields rt fields).lookup name
      = (fields.lookup name).map fun x =>
        if isRecognised rt name then maskText x else redactSensitive rt x := by
  induction fields with
  | nil => rfl
  | cons f fields ih =>
    rw [redactSensitive.redactFields, List.lookup_cons, List.lookup_cons]
    cases heq : name == f.1 with
    | true =>
      obtain rfl := eq_of_beq heq
      rfl
    | false => exact ih

theorem getElem?_redactElements (elements : List Json) (i : ℕ) :
    (redactSensitive.redactElements rt elements)[i]? = elements[i]?.map (redactSensitive rt) := by
  induction elements generalizing i with
  | nil => rfl
  | cons x elements ih =>
    cases i with
    | zero => rfl
    | succ i => exact ih i

theorem at_maskText {path : List Place} (hpath : path ≠ []) (x : Json) :
    (maskText x).at path = x.at path := by
  match x with
  | .str s =>
    cases path with
    | nil => exact absurd rfl hpath
    | cons p path =>
      show Json.at _ (if s = "" then Json.str s else .str secretMask) = _
      split <;> cases p <;> rfl
  | .null | .bool _ | .num _ | .arr _ | .obj _ => rfl

/-- **What stands at a place of the redaction.** -/
theorem at_redactSensitive (path : List Place) (x : Json) :
    (redactSensitive rt x).at path = (x.at path).map (redactAt rt path) := by
  induction path generalizing x with
  | nil => rfl
  | cons p path ih =>
    match p, x with
    | .key name, .obj fields =>
      show (List.lookup name (redactSensitive.redactFields rt fields)).bind _
        = ((fields.lookup name).bind _).map _
      rw [lookup_redactFields]
      cases fields.lookup name with
      | none => rfl
      | some y =>
        show Json.at path (if isRecognised rt name then maskText y else redactSensitive rt y)
          = (y.at path).map _
        cases path with
        | nil => rfl
        | cons q path =>
          have hstep : redactAt rt (.key name :: q :: path)
              = fun x => if isRecognised rt name then x else redactAt rt (q :: path) x := rfl
          rw [hstep]
          cases isRecognised rt name with
          | true =>
            simp only [if_true]
            rw [at_maskText (List.cons_ne_nil q path), Option.map_id']
          | false =>
            simp only [Bool.false_eq_true, if_false]
            exact ih y
    | .index i, .arr elements =>
      show (redactSensitive.redactElements rt elements)[i]?.bind _
        = (elements[i]?.bind _).map _
      rw [getElem?_redactElements]
      cases elements[i]? with
      | none => rfl
      | some y => exact ih y
    | .key _, .null | .key _, .bool _ | .key _, .num _ | .key _, .str _ | .key _, .arr _ => rfl
    | .index _, .null | .index _, .bool _ | .index _, .num _ | .index _, .str _
    | .index _, .obj _ => rfl

theorem redactSensitive_of_isScalar {x : Json} (h : x.isScalar = true) :
    redactSensitive rt x = x := by
  match x with
  | .null | .bool _ | .num _ | .str _ => rfl
  | .arr _ | .obj _ => cases h

theorem isScalar_redactSensitive (x : Json) :
    (redactSensitive rt x).isScalar = x.isScalar := by
  cases x <;> rfl

theorem isScalar_maskText (x : Json) : (maskText x).isScalar = x.isScalar := by
  match x with
  | .str s =>
    show Json.isScalar (if s = "" then Json.str s else .str secretMask) = _
    split <;> rfl
  | .null | .bool _ | .num _ | .arr _ | .obj _ => rfl

theorem isScalar_redactAt (path : List Place) (x : Json) :
    (redactAt rt path x).isScalar = x.isScalar := by
  induction path with
  | nil => exact isScalar_redactSensitive x
  | cons p path ih =>
    match p, path, ih with
    | .key name, [], _ =>
      unfold redactAt
      split
      · exact isScalar_maskText x
      · exact isScalar_redactSensitive x
    | .key name, q :: path, ih =>
      unfold redactAt
      split
      · rfl
      · exact ih
    | .index _, _, ih => exact ih

/-! ## The places that are masked -/

theorem not_isMasked_nil : ¬ IsMasked rt [] := by
  rintro ⟨before, name, h, -⟩
  exact List.append_ne_nil_of_right_ne_nil before (List.cons_ne_nil _ _) h.symm

theorem atOrBelow_cons_key {names : String → Bool} {name : String} {path : List Place} :
    AtOrBelow names (.key name :: path) ↔ names name = true ∨ AtOrBelow names path := by
  constructor
  · rintro ⟨other, hmem, hother⟩
    rcases List.mem_cons.mp hmem with heq | hmem
    · obtain rfl := Place.key.inj heq
      exact .inl hother
    · exact .inr ⟨other, hmem, hother⟩
  · rintro (hname | ⟨other, hmem, hother⟩)
    · exact ⟨name, List.mem_cons_self, hname⟩
    · exact ⟨other, List.mem_cons_of_mem _ hmem, hother⟩

theorem atOrBelow_cons_index {names : String → Bool} {i : ℕ} {path : List Place} :
    AtOrBelow names (.index i :: path) ↔ AtOrBelow names path := by
  refine ⟨fun ⟨name, hmem, hname⟩ => ?_, fun ⟨name, hmem, hname⟩ => ?_⟩
  · rcases List.mem_cons.mp hmem with heq | hmem
    · cases heq
    · exact ⟨name, hmem, hname⟩
  · exact ⟨name, List.mem_cons_of_mem _ hmem, hname⟩

theorem isMasked_singleton {name : String} :
    IsMasked rt [.key name] ↔ isRecognised rt name = true := by
  constructor
  · rintro ⟨before, other, h, hother, -⟩
    have hlast : [] ++ [Place.key name] = before ++ [.key other] := h
    obtain ⟨-, hlast⟩ := List.append_inj' hlast rfl
    obtain rfl := Place.key.inj (List.singleton_inj.mp hlast)
    exact hother
  · exact fun h => ⟨[], name, rfl, h, fun ⟨_, hmem, _⟩ => by cases hmem⟩

/-- A place below a key is masked, if the key is not recognised and the rest is masked. -/
theorem isMasked_cons_key {name : String} {path : List Place} (hpath : path ≠ []) :
    IsMasked rt (.key name :: path) ↔ isRecognised rt name = false ∧ IsMasked rt path := by
  constructor
  · rintro ⟨before, other, h, hother, hnot⟩
    cases before with
    | nil => exact absurd (List.cons.inj h).2 hpath
    | cons p before =>
      obtain ⟨rfl, rfl⟩ := List.cons.inj h
      rw [atOrBelow_cons_key, not_or] at hnot
      exact ⟨Bool.eq_false_iff.mpr hnot.1, before, other, rfl, hother, hnot.2⟩
  · rintro ⟨hname, before, other, rfl, hother, hnot⟩
    refine ⟨.key name :: before, other, rfl, hother, ?_⟩
    rw [atOrBelow_cons_key, not_or]
    exact ⟨Bool.eq_false_iff.mp hname, hnot⟩

theorem isMasked_cons_index {i : ℕ} {path : List Place} :
    IsMasked rt (.index i :: path) ↔ IsMasked rt path := by
  constructor
  · rintro ⟨before, other, h, hother, hnot⟩
    cases before with
    | nil => cases (List.cons.inj h).1
    | cons p before =>
      obtain ⟨rfl, rfl⟩ := List.cons.inj h
      rw [atOrBelow_cons_index] at hnot
      exact ⟨before, other, rfl, hother, hnot⟩
  · rintro ⟨before, other, rfl, hother, hnot⟩
    exact ⟨.index i :: before, other, rfl, hother, atOrBelow_cons_index.not.mpr hnot⟩

/-- **A value at a place that is masked.** -/
theorem redactAt_of_isMasked {path : List Place} (h : IsMasked rt path) (x : Json) :
    redactAt rt path x = maskText x := by
  induction path with
  | nil => exact absurd h not_isMasked_nil
  | cons p path ih =>
    match p, path, ih, h with
    | .key name, [], _, h =>
      unfold redactAt
      rw [if_pos (isMasked_singleton.mp h)]
    | .key name, q :: path, ih, h =>
      obtain ⟨hname, h⟩ := (isMasked_cons_key (List.cons_ne_nil q path)).mp h
      unfold redactAt
      rw [if_neg (by rw [hname]; exact Bool.false_ne_true)]
      exact ih h
    | .index _, _, ih, h => exact ih (isMasked_cons_index.mp h)

theorem redactAt_of_not_isMasked {path : List Place} (h : ¬ IsMasked rt path) {x : Json}
    (hx : x.isScalar = true) : redactAt rt path x = x := by
  induction path with
  | nil => exact redactSensitive_of_isScalar hx
  | cons p path ih =>
    match p, path, ih, h with
    | .key name, [], _, h =>
      unfold redactAt
      rw [if_neg (isMasked_singleton.not.mp h)]
      exact redactSensitive_of_isScalar hx
    | .key name, q :: path, ih, h =>
      unfold redactAt
      split
      · rfl
      · next hname =>
        refine ih fun hmasked => h ?_
        exact (isMasked_cons_key (List.cons_ne_nil q path)).mpr
          ⟨Bool.eq_false_iff.mpr hname, hmasked⟩
    | .index _, _, ih, h => exact ih fun hmasked => h (isMasked_cons_index.mpr hmasked)

/-! ## The redaction -/

theorem mem_of_includes {s part : String} (h : includes s part = true) {c : Char}
    (hc : c ∈ part.toList) : c ∈ s.toList := by
  obtain ⟨tail, htail, hprefix⟩ := List.any_eq_true.mp h
  have hinfix : part.toList <:+: s.toList :=
    (List.isPrefixOf_iff_prefix.mp hprefix).isInfix.trans
      ((List.mem_tails _ _).mp htail).isInfix
  exact hinfix.subset hc

theorem isSensitive_of_isRecognised (hlower : ∀ s, 'K' ∉ (rt.toLowerCase s).toList)
    {name : String} (h : isRecognised rt name = true) : isSensitive rt name = true := by
  obtain ⟨sk, hsk, hincludes⟩ := List.any_eq_true.mp h
  refine List.any_eq_true.mpr ⟨sk, ?_, hincludes⟩
  have hne : sk ≠ "apiKey" := by
    rintro rfl
    exact hlower name (mem_of_includes hincludes (by decide))
  simp only [sensitiveKeys, List.mem_cons, List.not_mem_nil, or_false] at hsk ⊢
  tauto

end Places

/-- **The redaction of a configuration is complete** exactly if every text at or below a
sensitive key is the value of a recognised key, with none above it, or the mask already. -/
theorem redacted_iff {rt : Runtime} (hlower : ∀ s, 'K' ∉ (rt.toLowerCase s).toList)
    (x : Json) : Redacted rt x (redactSensitive rt x) ↔ SecretsMasked rt x := by
  have htext : ∀ {path : List Place} {v w : Json}, w.isScalar = true → redactAt rt path v = w →
      ¬ IsMasked rt path → v = w := by
    intro path v w hw hredact hnot
    have hv : v.isScalar = true := by rw [← isScalar_redactAt path v, hredact, hw]
    rw [← hredact, redactAt_of_not_isMasked hnot hv]
  constructor
  · rintro ⟨hmasked, -⟩ path s hsecret hs hne
    by_cases hplace : IsMasked rt path
    · exact .inl hplace
    · refine .inr (hmasked path s hsecret ?_ hne)
      rw [at_redactSensitive, hs, Option.map_some, redactAt_of_not_isMasked hplace rfl]
  · intro h
    refine ⟨fun path s hsecret hs hne => ?_, fun path hplain v hv => ?_⟩
    · rw [at_redactSensitive] at hs
      obtain ⟨u, hu, hredact⟩ := Option.map_eq_some_iff.mp hs
      by_cases hplace : IsMasked rt path
      · rw [redactAt_of_isMasked hplace] at hredact
        match u with
        | .str t =>
          have hredact : (if t = "" then Json.str t else .str secretMask) = .str s := hredact
          split at hredact
          · next ht => exact absurd ((Json.str.inj hredact).symm.trans ht) hne
          · exact (Json.str.inj hredact).symm
        | .null | .bool _ | .num _ | .arr _ | .obj _ => cases hredact
      · obtain rfl := htext rfl hredact hplace
        exact (h path s hsecret hu hne).resolve_left hplace
    · have hplace : ¬ IsMasked rt path := by
        rintro ⟨before, name, rfl, hname, -⟩
        exact hplain ⟨name, by simp, isSensitive_of_isRecognised hlower hname⟩
      rw [at_redactSensitive]
      constructor
      · intro hv'
        obtain ⟨u, hu, hredact⟩ := Option.map_eq_some_iff.mp hv'
        rw [hu, htext hv hredact hplace]
      · intro hv'
        rw [hv', Option.map_some, redactAt_of_not_isMasked hplace hv]

/-! ## Keys of a configuration -/

theorem notMem_toLowerCase_sample (s : String) : 'K' ∉ (sampleRuntime.toLowerCase s).toList := by
  show 'K' ∉ (String.ofList (s.toList.map Char.toLower)).toList
  rw [String.toList_ofList, List.mem_map]
  rintro ⟨c, -, hc⟩
  unfold Char.toLower at hc
  split at hc
  · next hrange =>
    have hlow : 65 ≤ c.val.toNat := UInt32.le_iff_toNat_le.mp hrange.1
    have hhigh : c.val.toNat ≤ 90 := UInt32.le_iff_toNat_le.mp hrange.2
    have hsum : (c.val + ('a'.val - 'A'.val)).toNat = 75 :=
      congrArg (fun d : Char => d.val.toNat) hc
    rw [UInt32.toNat_add, show ('a'.val - 'A'.val).toNat = 32 from rfl] at hsum
    omega
  · next hrange =>
    subst hc
    exact hrange (by decide)

/-- A password is masked. -/
theorem redacted_samplePassword :
    Redacted sampleRuntime (.obj [("password", .str "hunter2")])
      (redactSensitive sampleRuntime (.obj [("password", .str "hunter2")])) :=
  (redacted_iff notMem_toLowerCase_sample _).mpr fun path s _ hs _ => by
    match path with
    | [] | .index _ :: _ => cases hs
    | .key name :: path =>
      have hs : (([("password", Json.str "hunter2")]).lookup name).bind (Json.at path)
        = some (.str s) := hs
      rw [List.lookup_cons] at hs
      cases hname : name == "password" with
      | true =>
        obtain rfl := eq_of_beq hname
        rw [hname] at hs
        cases path with
        | nil =>
          exact .inl ⟨[], "password", rfl, by decide +kernel, fun ⟨_, hmem, _⟩ => by cases hmem⟩
        | cons p path => cases p <;> cases hs
      | false =>
        rw [hname] at hs
        cases hs

/-- **An API key is shown.** -/
theorem not_redacted_sampleApiKey :
    ¬ ∀ rt : Runtime, (∀ s, 'K' ∉ (rt.toLowerCase s).toList) → ∀ x : Json,
      Redacted rt x (redactSensitive rt x) := by
  intro h
  have hkey : isRecognised sampleRuntime "apiKey" = false := by decide +kernel
  have hshown : (redactSensitive sampleRuntime
      (.obj [("llm", .obj [("apiKey", .str "sk-live")])])).at [.key "llm", .key "apiKey"]
        = some (.str "sk-live") := by
    rw [at_redactSensitive]
    show some (redactAt _ _ (.str "sk-live")) = _
    rw [redactAt_of_not_isMasked ?_ rfl]
    rw [isMasked_cons_key (List.cons_ne_nil _ _), isMasked_singleton, hkey]
    exact fun hboth => Bool.false_ne_true hboth.2
  have hmasked := (h sampleRuntime notMem_toLowerCase_sample _).masked _ "sk-live"
    ⟨"apiKey", by simp, by decide +kernel⟩ hshown (by decide)
  exact absurd hmasked (by decide)

end MissionControl
