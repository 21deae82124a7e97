import MissionControl.JsonText

/-!
# The configuration file `openclaw.json`

Two modules write the configuration: `PUT /api/gateway-config` assigns values at paths
with dots, and `writeAgentToConfig` merges an agent into `agents.list`. Both work on what
`JSON.parse` gives, with the assignments of the language: an index beyond the end of an
array leaves holes, `length` cuts an array off, other names that are assigned to an array
are not written, and nothing can be assigned to a primitive value.

What a value has not as its own it may inherit. A path that comes by such a property – or
by one set aside on an array – leaves the tree, and what is assigned there is not
written; `Surroundings` says where that happens.

An assignment leaves alone what stands at a path apart from its own
(`valueAt_setNested`), and so does a merged agent (`valueAt_mergeAgent`).
-/

namespace MissionControl

open Json (assign)

/-! ## Elements and properties -/

/-- What an array has where nothing was assigned: `undefined`, and `null` as it is
written. No JSON value is it. -/
def Json.hole : Json := .num .nan

def Json.isHole : Json → Bool
  | .num .nan => true
  | _ => false

/-- The index that a name is in an array. -/
def arrayIndex (key : String) : Option ℕ :=
  match readDigits 10 key.toList with
  | some i => if toString i = key ∧ i < 2 ^ 32 - 1 then some i else none
  | none => none

/-- `elements[i] = x`. -/
def setElement (elements : List Json) (i : ℕ) (x : Json) : List Json :=
  if i < elements.length then elements.set i x
  else elements ++ List.replicate (i - elements.length) .hole ++ [x]

/-- `elements.length = x`. -/
def setLength (rt : Runtime) (elements : List Json) (x : Json) :
    Except Exception (List Json) := do
  let n ← Json.toNumber rt (some x)
  match n.integer with
  | some z =>
    if 0 ≤ z ∧ z < 2 ^ 32 then
      .ok (elements.take z.toNat ++ List.replicate (z.toNat - elements.length) .hole)
    else .error (.error "Invalid array length")
  | none => .error (.error "Invalid array length")

/-- **What is around an assignment**: the properties that are inherited or set aside. -/
structure Surroundings where
  /-- Whether the property at a path, which is not in the tree, is something other than
  `undefined`. -/
  inherits : List String → Bool
  throws : Bool

def Surroundings.under (around : Surroundings) (key : String) : Surroundings :=
  { around with inherits := fun path => around.inherits (key :: path) }

def Surroundings.outside (around : Surroundings) (x : Json) : Except Exception Json :=
  if around.throws then .error .typeError else .ok x

/-- `current[key] = value`, in strict mode. The name `__proto__` is inherited, and what is
assigned to it becomes the prototype. -/
def assignProperty (rt : Runtime) (around : Surroundings) (current : Json) (key : String)
    (value : Json) : Except Exception Json :=
  match current with
  | .obj fields =>
    if key = "__proto__" ∧ (fields.lookup key).isNone ∧ around.inherits [key] then .ok current
    else .ok (.obj (assign fields key value))
  | .arr elements =>
    match arrayIndex key with
    | some i => .ok (.arr (setElement elements i value))
    | none =>
      if key = "length" then do
        let elements ← setLength rt elements value
        .ok (.arr elements)
      else .ok current
  | .null => .error .typeError
  | .bool _ | .num _ | .str _ =>
    if key = "__proto__" ∧ around.inherits [key] then .ok current else .error .typeError

/-- The value assigned behind a list of names: a name that is `undefined` becomes an empty
object on the way. -/
def setNested (rt : Runtime) (around : Surroundings) :
    List String → Json → Json → Except Exception Json
  | [], _, current => .ok current
  | [key], value, current => assignProperty rt around current key value
  | key :: next :: keys, value, current =>
    match current with
    | .obj fields =>
      if (fields.lookup key).isNone && around.inherits [key] then around.outside current
      else do
        let x ← setNested rt (around.under key) (next :: keys) value
          ((fields.lookup key).getD (.obj []))
        .ok (.obj (assign fields key x))
    | .arr elements =>
      match arrayIndex key with
      | some i =>
        let element := elements[i]?.filter (!·.isHole)
        if element.isNone && around.inherits [key] then around.outside current
        else do
          let x ← setNested rt (around.under key) (next :: keys) value
            (element.getD (.obj []))
          .ok (.arr (setElement elements i x))
      | none =>
        if key = "length" then do
          let _ ← setNested rt (around.under key) (next :: keys) value
            (.num (.finite elements.length))
          .ok current
        else around.outside current
    | .null => .error .typeError
    | .bool _ | .num _ | .str _ =>
      if around.inherits [key] then around.outside current else .error .typeError

/-- `path.split('.')`. -/
def splitDots (path : String) : List String := (path.toList.splitOn '.').map String.ofList

/-- **`setNestedValue`.** -/
def setNestedValue (rt : Runtime) (around : Surroundings) (obj : Json) (path : String)
    (value : Json) : Except Exception Json :=
  setNested rt around (splitDots path) value obj

/-! ## Agents -/

mutual

/-- The properties of the source, one after the other, on what the target has become. -/
def mergeProperties (target result : List (String × Json)) :
    List (String × Json) → List (String × Json)
  | [] => result
  | (key, x) :: source =>
    if key = "__proto__" ∧ (target.lookup key).isNone then mergeProperties target result source
    else mergeProperties target (assign result key (mergeValue (target.lookup key) x)) source

/-- The value of a property: merged, if both are objects. -/
def mergeValue (old : Option Json) : Json → Json
  | .obj source =>
    match old with
    | some (.obj target) => .obj (mergeProperties target target source)
    | _ => .obj source
  | x => x

end

/-- **`deepMerge`** on two objects: the properties of the source take the place of those of
the target, and objects are merged. What is assigned to the name `__proto__` becomes the
prototype, where the target has no property of that name. -/
def deepMerge (target source : List (String × Json)) : List (String × Json) :=
  mergeProperties target target source

/-- `a === b` on JSON values: no two objects or arrays are the same. -/
def strictEquals : Json → Json → Bool
  | .null, .null => true
  | .bool a, .bool b => a = b
  | .num .nan, _ => false
  | .num a, .num b => a = b
  | .str a, .str b => a = b
  | _, _ => false

theorem strictEquals_str {t : String} {x : Json} :
    strictEquals (.str t) x = true ↔ x = .str t := by
  cases x with
  | str s =>
    show decide (t = s) = true ↔ _
    rw [decide_eq_true_iff, Json.str.injEq, eq_comm]
  | _ => exact ⟨fun h => (by cases h), fun h => (by cases h)⟩

theorem Json.equalsText_iff {t : String} {x : Option Json} :
    Json.equalsText x t = true ↔ x = some (.str t) := by
  unfold Json.equalsText
  cases x with
  | none => exact ⟨fun h => (by cases h), fun h => (by cases h)⟩
  | some x =>
    rw [Option.some.injEq]
    cases x with
    | str s =>
      show decide (s = t) = true ↔ _
      rw [decide_eq_true_iff, Json.str.injEq]
    | _ => exact ⟨fun h => (by cases h), fun h => (by cases h)⟩

/-- **An agent as it is written to the configuration.** -/
structure AgentConfig where
  id : Json
  name : Option Json
  /-- The configuration that the other fields are taken from. -/
  config : Json

/-- The fields that are taken from the configuration of an agent, where they count as
true. -/
def agentConfigKeys : List String :=
  ["model", "identity", "sandbox", "tools", "subagents", "memorySearch"]

def AgentConfig.fields (agent : AgentConfig) : List (String × Json) :=
  ("id", agent.id) :: (agent.name.map fun name => ("name", name)).toList
    ++ agentConfigKeys.filterMap fun key =>
      ((Json.get? (some agent.config) key).filter fun x => Json.truthy (some x)).map
        fun x => (key, x)

/-- `name.toLowerCase().replace(/\s+/g, '-')`. -/
def openclawId (rt : Runtime) (name : String) : String :=
  String.ofList (dashes (rt.toLowerCase name).toList)
where
  /-- A dash in place of each run of white space. -/
  dashes : List Char → List Char
    | [] => []
    | c :: cs =>
      if isWhiteSpace c then
        (if cs.head?.any isWhiteSpace then dashes cs else '-' :: dashes cs)
      else c :: dashes cs

/-- `list.findIndex(a => a.id === id)`. -/
def findAgent (id : Json) : List Json → Except Exception (Option ℕ)
  | [] => .ok none
  | x :: list => do
    let other ← Json.get (some x) "id"
    if other.any fun other => strictEquals other id then .ok (some 0)
    else
      let i ← findAgent id list
      .ok (i.map (· + 1))

/-- The agent merged into the one of its id, or put at the end of the list. Only objects
have an id. -/
def mergeIntoList (agent : AgentConfig) (list : List Json) : Except Exception (List Json) := do
  match ← findAgent agent.id list with
  | some i =>
    .ok (list.modify i fun
      | .obj target => .obj (deepMerge target agent.fields)
      | x => x)
  | none => .ok (list ++ [.obj agent.fields])

/-- The agent merged into the list of `agents`, which is made where it counts as false. -/
def mergeIntoAgents (around : Surroundings) (agents : List (String × Json))
    (agent : AgentConfig) : Except Exception Json :=
  let list := agents.lookup "list"
  if list.isNone && around.inherits ["agents", "list"] then around.outside (.obj agents)
  else
    match Json.or list (.arr []) with
    | .arr list => do
      let list ← mergeIntoList agent list
      .ok (.obj (assign agents "list" (.arr list)))
    | _ => .error .typeError

/-- **`writeAgentToConfig`**, between the file as it is read and as it is written. For
`agents` and its `list`, `around` says whether an inherited one counts as true. -/
def mergeAgent (around : Surroundings) (parsed : Json) (agent : AgentConfig) :
    Except Exception Json :=
  match parsed with
  | .obj fields =>
    let agents := fields.lookup "agents"
    if agents.isNone && around.inherits ["agents"] then around.outside parsed
    else
      match Json.or agents (.obj []) with
      | .obj agents => do
        let agents ← mergeIntoAgents around agents agent
        .ok (.obj (assign fields "agents" agents))
      | .arr _ => around.outside parsed
      | _ => if around.inherits ["agents", "list"] then around.outside parsed
        else .error .typeError
  | .arr _ => around.outside parsed
  | .null => .error .typeError
  | .bool _ | .num _ | .str _ =>
    if around.inherits ["agents"] then around.outside parsed else .error .typeError

/-! ## Places of the configuration -/

/-- A property or an element of a value. -/
def Json.child : Json → String → Option Json
  | .obj fields, key => fields.lookup key
  | .arr elements, key => (arrayIndex key).bind (elements[·]?)
  | _, _ => none

/-- **What stands at a path.** -/
def Json.valueAt : List String → Json → Option Json
  | [], x => some x
  | key :: path, x => (x.child key).bind (valueAt path)

/-- **Two paths are apart**, for an assignment at the second one: they part at some name.
Where the second one ends in `length` there, it is not beside an index, which it may cut
off. -/
def Apart : List String → List String → Prop
  | key :: path, key' :: path' =>
    (key = key' ∧ Apart path path')
      ∨ (key ≠ key' ∧ ¬ (key' = "length" ∧ path' = [] ∧ (arrayIndex key).isSome))
  | _, _ => False

section Paths

variable {rt : Runtime} {around : Surroundings}

theorem mem_of_lookup {fields : List (String × Json)} {key : String} {x : Json}
    (h : fields.lookup key = some x) : (key, x) ∈ fields := by
  obtain ⟨before, after, rfl, -⟩ := List.lookup_eq_some_iff.mp h
  exact List.mem_append_right _ List.mem_cons_self

theorem lookup_eq_none_of_notMem {fields : List (String × Json)} {key : String}
    (h : key ∉ fields.map Prod.fst) : fields.lookup key = none := by
  refine List.lookup_eq_none_iff.mpr fun f hf => bne_iff_ne.mpr ?_
  rintro rfl
  exact h (List.mem_map_of_mem hf)

theorem lookup_of_mem {fields : List (String × Json)} {f : String × Json}
    (hnodup : (fields.map Prod.fst).Nodup) (hf : f ∈ fields) : fields.lookup f.1 = some f.2 := by
  induction fields with
  | nil => cases hf
  | cons g fields ih =>
    rw [List.map_cons, List.nodup_cons] at hnodup
    rw [List.lookup_cons]
    obtain rfl | hf := List.mem_cons.mp hf
    · rw [beq_self_eq_true]
    · have hne : f.1 ≠ g.1 := fun heq => hnodup.1 (heq ▸ List.mem_map_of_mem hf)
      rw [beq_false_of_ne hne]
      exact ih hnodup.2 hf

theorem lookup_assign_self (fields : List (String × Json)) (key : String) (x : Json) :
    (assign fields key x).lookup key = some x := by
  unfold assign
  split
  · next h =>
    induction fields with
    | nil => simp at h
    | cons f fields ih =>
      rw [List.map_cons]
      by_cases hf : f.1 = key
      · rw [if_pos hf, List.lookup_cons_self]
      · rw [if_neg hf, List.lookup_cons, beq_false_of_ne (Ne.symm hf)]
        exact ih (by simpa [hf] using h)
  · next h =>
    rw [List.lookup_append, List.lookup_eq_none_iff.mpr fun f hf => ?_]
    · exact List.lookup_cons_self
    · simp only [List.any_eq_true, decide_eq_true_eq, not_exists, not_and] at h
      exact bne_iff_ne.mpr (Ne.symm (h f hf))

theorem lookup_assign_of_ne (fields : List (String × Json)) {key key' : String} (x : Json)
    (h : key' ≠ key) : (assign fields key x).lookup key' = fields.lookup key' := by
  have hmap : (fields.map fun f => if f.1 = key then (key, x) else f).lookup key'
      = fields.lookup key' := by
    induction fields with
    | nil => rfl
    | cons f fields ih =>
      rw [List.map_cons]
      by_cases hf : f.1 = key
      · rw [if_pos hf, List.lookup_cons, List.lookup_cons, ih, hf, beq_false_of_ne h]
      · rw [if_neg hf, List.lookup_cons, List.lookup_cons, ih]
  unfold assign
  split
  · exact hmap
  · rw [List.lookup_append, List.lookup_cons, beq_false_of_ne h]
    simp

theorem arrayIndex_injective {key key' : String} {i : ℕ} (h : arrayIndex key = some i)
    (h' : arrayIndex key' = some i) : key = key' := by
  have hname : ∀ {key : String}, arrayIndex key = some i → toString i = key := by
    intro key h
    unfold arrayIndex at h
    split at h
    · split at h
      · next hi =>
        obtain rfl := Option.some.inj h
        exact hi.1
      · exact nomatch h
    · exact nomatch h
  rw [← hname h, ← hname h']

theorem getElem?_setElement_self (elements : List Json) (i : ℕ) (x : Json) :
    (setElement elements i x)[i]? = some x := by
  unfold setElement
  split
  · next h => rw [List.getElem?_set_self h]
  · next h =>
    have hlength : (elements ++ List.replicate (i - elements.length) Json.hole).length = i := by
      rw [List.length_append, List.length_replicate]
      omega
    rw [List.getElem?_append_right hlength.le, hlength, Nat.sub_self]
    rfl

theorem getElem?_setElement_of_ne {elements : List Json} {i j : ℕ} {x y : Json}
    (h : elements[j]? = some y) (hne : j ≠ i) : (setElement elements i x)[j]? = some y := by
  have hj : j < elements.length := (List.getElem?_eq_some_iff.mp h).1
  unfold setElement
  split
  · rw [List.getElem?_set_ne (Ne.symm hne), h]
  · rw [List.append_assoc, List.getElem?_append_left hj, h]

theorem eq_of_outside {x d : Json} (h : around.outside x = .ok d) : d = x := by
  unfold Surroundings.outside at h
  split at h
  · exact nomatch h
  · exact (Except.ok.inj h).symm

/-- **What is left of the other children** of a value where one is put in place: all of
them, and only those where the names are no indices. -/
structure Beside (key : String) (current d : Json) : Prop where
  keeps : ∀ k, k ≠ key → ∀ w, current.child k = some w → d.child k = some w
  same : ∀ k, k ≠ key → arrayIndex k = none → d.child k = current.child k

theorem Beside.refl (key : String) (x : Json) : Beside key x x :=
  ⟨fun _ _ _ h => h, fun _ _ _ => rfl⟩

theorem beside_assign (fields : List (String × Json)) (key : String) (x : Json) :
    Beside key (.obj fields) (.obj (assign fields key x)) where
  keeps _ hk _ hw := (lookup_assign_of_ne fields x hk).trans hw
  same _ hk _ := lookup_assign_of_ne fields x hk

theorem beside_setElement {elements : List Json} {key : String} {i : ℕ}
    (hi : arrayIndex key = some i) (x : Json) :
    Beside key (.arr elements) (.arr (setElement elements i x)) where
  keeps k hk w hw := by
    obtain ⟨j, hj, hjw⟩ := Option.bind_eq_some_iff.mp hw
    show (arrayIndex k).bind _ = _
    rw [hj]
    exact getElem?_setElement_of_ne hjw fun heq => hk (arrayIndex_injective hj (heq ▸ hi))
  same k _ hindex := by
    show (arrayIndex k).bind _ = (arrayIndex k).bind _
    rw [hindex]
    rfl

/-- **An assignment leaves the other children**, unless it is to the `length` of an
array, where indices may be cut off. -/
theorem beside_assignProperty {current d value : Json} {key : String}
    (h : assignProperty rt around current key value = .ok d) :
    Beside key current d ∨ (key = "length"
      ∧ ∃ elements cut, current = .arr elements ∧ d = .arr cut) := by
  unfold assignProperty at h
  match current with
  | .obj fields =>
    dsimp only at h
    split at h
    · cases h
      exact .inl (.refl key _)
    · cases h
      exact .inl (beside_assign fields key value)
  | .arr elements =>
    dsimp only at h
    split at h
    · next i hi =>
      cases h
      exact .inl (beside_setElement hi value)
    · split at h
      · next hkey =>
        obtain ⟨cut, -, h⟩ := bind_eq_ok.mp h
        cases h
        exact .inr ⟨hkey, elements, cut, rfl, rfl⟩
      · cases h
        exact .inl (.refl key _)
  | .null => exact nomatch h
  | .bool _ | .num _ | .str _ =>
    dsimp only at h
    split at h
    · cases h
      exact .inl (.refl key _)
    · exact nomatch h

theorem eq_hole_of_isHole {x : Json} (h : x.isHole = true) : x = .hole := by
  match x with
  | .num .nan => rfl
  | .num (.infinity _) | .num (.finite _) | .null | .bool _ | .str _ | .arr _ | .obj _ =>
    exact nomatch h

/-- What is taken for an element: the one that is there, or an empty object where there is
none, or a hole. -/
theorem element_cases (element : Option Json) :
    element = some ((element.filter (!·.isHole)).getD (.obj []))
      ∨ ((element.filter (!·.isHole)).getD (.obj []) = .obj []
        ∧ ∀ w, element = some w → w = .hole) := by
  cases element with
  | none => exact .inr ⟨rfl, fun _ h => nomatch h⟩
  | some x =>
    cases hx : x.isHole with
    | true =>
      refine .inr ⟨?_, fun w hw => eq_hole_of_isHole (Option.some.inj hw ▸ hx)⟩
      rw [Option.filter_some, hx]
      rfl
    | false =>
      refine .inl ?_
      rw [Option.filter_some, hx]
      rfl

/-- **A step on the way** to a nested value: nothing is assigned in the tree, or a child –
the one that is there, or an empty object – is replaced by what becomes of it. -/
theorem setNested_cons {current d value : Json} {key next : String} {keys : List String}
    (h : setNested rt around (key :: next :: keys) value current = .ok d) :
    d = current ∨ ∃ y z, setNested rt (around.under key) (next :: keys) value y = .ok z
      ∧ (current.child key = some y
        ∨ (y = .obj [] ∧ ∀ w, current.child key = some w → w = .hole))
      ∧ d.child key = some z ∧ Beside key current d := by
  match current with
  | .obj fields =>
    rw [setNested] at h
    split at h
    · exact .inl (eq_of_outside h)
    · obtain ⟨z, hz, h⟩ := bind_eq_ok.mp h
      cases h
      refine .inr ⟨_, z, hz, ?_, lookup_assign_self fields key z, beside_assign fields key z⟩
      cases hlookup : fields.lookup key with
      | none => exact .inr ⟨rfl, fun w hw => nomatch hlookup.symm.trans hw⟩
      | some y => exact .inl hlookup
  | .arr elements =>
    rw [setNested] at h
    split at h
    · next i hi =>
      dsimp only at h
      split at h
      · exact .inl (eq_of_outside h)
      · obtain ⟨z, hz, h⟩ := bind_eq_ok.mp h
        cases h
        have hchild : (Json.arr elements).child key = elements[i]? := by
          show (arrayIndex key).bind _ = _
          rw [hi]
          rfl
        refine .inr ⟨_, z, hz, ?_, ?_, beside_setElement hi z⟩
        · rw [hchild]
          exact element_cases elements[i]?
        · show (arrayIndex key).bind _ = _
          rw [hi]
          exact getElem?_setElement_self elements i z
    · split at h
      · obtain ⟨_, -, h⟩ := bind_eq_ok.mp h
        cases h
        exact .inl rfl
      · exact .inl (eq_of_outside h)
  | .null =>
    rw [setNested] at h
    exact nomatch h
  | .bool _ | .num _ | .str _ =>
    rw [setNested] at h
    split at h
    · exact .inl (eq_of_outside h)
    · exact nomatch h

/-- **An assignment leaves alone what stands at a path apart.** -/
theorem valueAt_setNested {path keys : List String} {current d value x : Json}
    (hapart : Apart path keys) (h : setNested rt around keys value current = .ok d)
    (hx : current.valueAt path = some x) : d.valueAt path = some x := by
  induction keys generalizing path around current d with
  | nil => cases path <;> exact hapart.elim
  | cons key' keys ih =>
    cases path with
    | nil => exact hapart.elim
    | cons key path =>
      obtain ⟨y, hy, hyx⟩ := Option.bind_eq_some_iff.mp hx
      cases keys with
      | nil =>
        rcases hapart with ⟨-, hapart⟩ | ⟨hne, hlength⟩
        · cases path <;> exact hapart.elim
        · refine Option.bind_eq_some_iff.mpr ⟨y, ?_, hyx⟩
          rcases beside_assignProperty h with hbeside | ⟨hkey, elements, cut, rfl, -⟩
          · exact hbeside.keeps key hne y hy
          · obtain ⟨i, hi, -⟩ := Option.bind_eq_some_iff.mp hy
            exact absurd ⟨hkey, rfl, by rw [hi]; rfl⟩ hlength
      | cons next keys =>
        rcases setNested_cons h with rfl | ⟨u, z, hz, hu, hd, hbeside⟩
        · exact hx
        rcases hapart with ⟨rfl, hapart⟩ | ⟨hne, -⟩
        · refine Option.bind_eq_some_iff.mpr ⟨z, hd, ih hapart hz ?_⟩
          rcases hu with hu | ⟨-, hhole⟩
          · obtain rfl : y = u := Option.some.inj (hy.symm.trans hu)
            exact hyx
          · -- nothing stands behind a hole
            rw [hhole y hy] at hyx
            cases path with
            | nil => exact hapart.elim
            | cons k path => exact nomatch hyx
        · exact Option.bind_eq_some_iff.mpr ⟨y, hbeside.keeps key hne y hy, hyx⟩

/-- A path without indices is apart from the names of an assignment, or one of them
begins with the other. -/
theorem apart_or_prefix {path keys : List String}
    (hindex : ∀ key ∈ path, arrayIndex key = none) :
    Apart path keys ∨ path <+: keys ∨ keys <+: path := by
  induction path generalizing keys with
  | nil => exact .inr (.inl List.nil_prefix)
  | cons key path ih =>
    cases keys with
    | nil => exact .inr (.inr List.nil_prefix)
    | cons key' keys =>
      by_cases hkey : key = key'
      · subst hkey
        rcases ih fun k hk => hindex k (List.mem_cons_of_mem _ hk) with h | h | h
        · exact .inl (.inl ⟨rfl, h⟩)
        · exact .inr (.inl ((List.prefix_cons_inj key).mpr h))
        · exact .inr (.inr ((List.prefix_cons_inj key).mpr h))
      · refine .inl (.inr ⟨hkey, fun ⟨_, _, hsome⟩ => ?_⟩)
        rw [hindex key List.mem_cons_self] at hsome
        exact nomatch hsome

theorem child_arr {key : String} (hkey : arrayIndex key = none) (elements : List Json) :
    (Json.arr elements).child key = none := by
  show (arrayIndex key).bind _ = none
  rw [hkey]
  rfl

theorem valueAt_of_child_eq_none {key : String} {path : List String} {x : Json}
    (h : x.child key = none) : x.valueAt (key :: path) = none := by
  show (x.child key).bind _ = none
  rw [h]
  rfl

theorem valueAt_of_hole {key : String} {path : List String} {x : Json} (hpath : path ≠ [])
    (h : ∀ w, x.child key = some w → w = .hole) : x.valueAt (key :: path) = none := by
  cases hchild : x.child key with
  | none => exact valueAt_of_child_eq_none hchild
  | some w =>
    show (x.child key).bind _ = none
    obtain rfl := h w hchild
    rw [hchild]
    cases path with
    | nil => exact absurd rfl hpath
    | cons k path => rfl

theorem valueAt_empty {path : List String} (hpath : path ≠ []) :
    (Json.obj []).valueAt path = none := by
  cases path with
  | nil => exact absurd rfl hpath
  | cons key path => rfl

theorem Apart.ne_nil {path keys : List String} (h : Apart path keys) : path ≠ [] := by
  rintro rfl
  exact h.elim

/-- **An assignment changes nothing at a path apart** that has no indices, also where
nothing stands. -/
theorem valueAt_setNested_same {path keys : List String} {current d value : Json}
    (hindex : ∀ key ∈ path, arrayIndex key = none) (hapart : Apart path keys)
    (h : setNested rt around keys value current = .ok d) :
    d.valueAt path = current.valueAt path := by
  induction keys generalizing path around current d with
  | nil => cases path <;> exact hapart.elim
  | cons key' keys ih =>
    cases path with
    | nil => exact hapart.elim
    | cons key path =>
      have hkey : arrayIndex key = none := hindex key List.mem_cons_self
      have hbeside : ∀ {x : Json}, key ≠ key' → Beside key' current x →
          x.valueAt (key :: path) = current.valueAt (key :: path) := by
        intro x hne hbeside
        show (x.child key).bind _ = (current.child key).bind _
        rw [hbeside.same key hne hkey]
      cases keys with
      | nil =>
        rcases hapart with ⟨-, hapart⟩ | ⟨hne, -⟩
        · cases path <;> exact hapart.elim
        · rcases beside_assignProperty h with h | ⟨-, elements, cut, rfl, rfl⟩
          · exact hbeside hne h
          · rw [valueAt_of_child_eq_none (child_arr hkey _),
              valueAt_of_child_eq_none (child_arr hkey _)]
      | cons next keys =>
        rcases setNested_cons h with rfl | ⟨u, z, hz, hu, hd, h⟩
        · rfl
        rcases hapart with ⟨rfl, hapart⟩ | ⟨hne, -⟩
        · have hstep := ih (fun k hk => hindex k (List.mem_cons_of_mem _ hk)) hapart hz
          have hdz : d.valueAt (key :: path) = z.valueAt path := by
            show (d.child key).bind _ = _
            rw [hd]
            rfl
          rw [hdz, hstep]
          rcases hu with hu | ⟨rfl, hhole⟩
          · show _ = (current.child key).bind _
            rw [hu]
            rfl
          · rw [valueAt_of_hole hapart.ne_nil hhole, valueAt_empty hapart.ne_nil]
        · exact hbeside hne h

/-- **Whether an assignment reaches its place in the tree**, by names that are no indices:
every value on the way is an object, and what is not there is not inherited. -/
def Lands (around : Surroundings) : List String → Json → Prop
  | [_], .obj _ => True
  | key :: next :: keys, .obj fields =>
    ((fields.lookup key).isNone && around.inherits [key]) = false
      ∧ Lands (around.under key) (next :: keys) ((fields.lookup key).getD (.obj []))
  | _, _ => False

/-- On what is no object nothing is assigned to a name that is no index. -/
theorem child_assignProperty {current d value : Json} {key : String}
    (hkey : arrayIndex key = none) (hobject : ∀ fields, current ≠ .obj fields)
    (h : assignProperty rt around current key value = .ok d) :
    d.child key = current.child key := by
  unfold assignProperty at h
  match current with
  | .obj fields => exact absurd rfl (hobject fields)
  | .arr elements =>
    dsimp only at h
    rw [hkey] at h
    dsimp only at h
    split at h
    · obtain ⟨cut, -, h⟩ := bind_eq_ok.mp h
      cases h
      rw [child_arr hkey, child_arr hkey]
    · cases h
      rfl
  | .null => exact nomatch h
  | .bool _ | .num _ | .str _ =>
    dsimp only at h
    split at h
    · cases h
      rfl
    · exact nomatch h

/-- On the way through what is no object, by a name that is no index, nothing is
assigned. -/
theorem setNested_of_not_object {current d value : Json} {key next : String}
    {keys : List String} (hkey : arrayIndex key = none)
    (hobject : ∀ fields, current ≠ .obj fields)
    (h : setNested rt around (key :: next :: keys) value current = .ok d) : d = current := by
  match current with
  | .obj fields => exact absurd rfl (hobject fields)
  | .arr elements =>
    rw [setNested, hkey] at h
    dsimp only at h
    split at h
    · obtain ⟨_, -, h⟩ := bind_eq_ok.mp h
      exact (Except.ok.inj h).symm
    · exact eq_of_outside h
  | .null =>
    rw [setNested] at h
    exact nomatch h
  | .bool _ | .num _ | .str _ =>
    rw [setNested] at h
    split at h
    · exact eq_of_outside h
    · exact nomatch h

/-- **What stands behind the place of an assignment**: the part of the value, if the
assignment reaches it, and else what has stood there. -/
theorem valueAt_setNested_below {keys path : List String} {current d value : Json}
    (hkeys : keys ≠ []) (hindex : ∀ key ∈ keys, arrayIndex key = none)
    (hproto : ∀ key ∈ keys, key ≠ "__proto__")
    (h : setNested rt around keys value current = .ok d) :
    (Lands around keys current → d.valueAt (keys ++ path) = value.valueAt path)
      ∧ (¬ Lands around keys current →
        d.valueAt (keys ++ path) = current.valueAt (keys ++ path)) := by
  induction keys generalizing around current d with
  | nil => exact absurd rfl hkeys
  | cons key keys ih =>
    have hkey : arrayIndex key = none := hindex key List.mem_cons_self
    have hstep : ∀ {x z : Json} {path : List String}, x.child key = some z →
        x.valueAt (key :: path) = z.valueAt path := by
      intro x z path hz
      show (x.child key).bind _ = _
      rw [hz]
      rfl
    by_cases hobject : ∀ fields, current ≠ .obj fields
    · -- nothing is reached through what is no object
      refine ⟨fun hlands => ?_, fun _ => ?_⟩
      · match current, keys with
        | .obj fields, _ => exact absurd rfl (hobject fields)
        | .null, [] | .bool _, [] | .num _, [] | .str _, [] | .arr _, [] => exact hlands.elim
        | .null, _ :: _ | .bool _, _ :: _ | .num _, _ :: _ | .str _, _ :: _ | .arr _, _ :: _ =>
          exact hlands.elim
      · cases keys with
        | nil =>
          show (d.child key).bind _ = (current.child key).bind _
          rw [child_assignProperty hkey hobject h]
        | cons next keys => rw [setNested_of_not_object hkey hobject h]
    · obtain ⟨fields, rfl⟩ := not_forall_not.mp hobject
      cases keys with
      | nil =>
        refine ⟨fun _ => ?_, fun hnot => absurd trivial hnot⟩
        rw [setNested, assignProperty,
          if_neg fun h => hproto key List.mem_cons_self h.1] at h
        cases h
        exact hstep (lookup_assign_self fields key value)
      | cons next keys =>
        rw [setNested] at h
        split at h
        · next hcond =>
          refine ⟨fun hlands => ?_, fun _ => by rw [eq_of_outside h]⟩
          exact absurd hlands.1 (by rw [hcond]; decide)
        · next hcond =>
          obtain ⟨z, hz, h⟩ := bind_eq_ok.mp h
          cases h
          obtain ⟨hlands, hnot⟩ := ih (List.cons_ne_nil next keys)
            (fun k hk => hindex k (List.mem_cons_of_mem _ hk))
            (fun k hk => hproto k (List.mem_cons_of_mem _ hk)) hz
          have hd : ∀ path, (Json.obj (assign fields key z)).valueAt (key :: path)
              = z.valueAt path := fun _ => hstep (lookup_assign_self fields key z)
          refine ⟨fun h => (hd _).trans (hlands h.2), fun h => (hd _).trans ?_⟩
          refine (hnot fun hlands => h ⟨Bool.eq_false_iff.mpr hcond, hlands⟩).trans ?_
          cases hlookup : fields.lookup key with
          | none =>
            have hchild : (Json.obj fields).child key = none := hlookup
            exact (valueAt_of_child_eq_none hchild).symm
          | some y =>
            have hchild : (Json.obj fields).child key = some y := hlookup
            exact (hstep hchild).symm

/-! ## What is written -/

theorem child_stored (x : Json) (key : String) :
    x.stored.child key = (x.child key).map Json.stored := by
  match x with
  | .obj fields =>
    show (Json.stored.storedFields fields).lookup key = (fields.lookup key).map _
    induction fields with
    | nil => rfl
    | cons f fields ih =>
      show ((f.1, f.2.stored) :: Json.stored.storedFields fields).lookup key = _
      rw [List.lookup_cons, List.lookup_cons]
      cases key == f.1 with
      | true => rfl
      | false => exact ih
  | .arr elements =>
    rw [Json.stored_arr]
    show (arrayIndex key).bind _ = ((arrayIndex key).bind _).map _
    cases arrayIndex key with
    | none => rfl
    | some i => exact List.getElem?_map
  | .null | .bool _ | .str _ | .num .nan | .num (.infinity _) | .num (.finite _) => rfl

theorem valueAt_stored (path : List String) (x : Json) :
    x.stored.valueAt path = (x.valueAt path).map Json.stored := by
  induction path generalizing x with
  | nil => rfl
  | cons key path ih =>
    show (x.stored.child key).bind _ = ((x.child key).bind _).map _
    rw [child_stored]
    cases x.child key with
    | none => rfl
    | some y => exact ih y

end Paths

end MissionControl
