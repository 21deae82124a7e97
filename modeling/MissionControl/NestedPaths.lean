import MissionControl.OpenclawConfig

/-!
# An assignment in the tree

Where every value on the way of a path takes the next name (`Leads`) and the way does not
leave the tree (`escapes`), `setNestedValue` succeeds, and what comes of it is a tree that
the old one, the path and the value determine (`setNested_eq`). The value stands at the
path, the values on the way stay what they are, or are new objects, and what stands
elsewhere is left alone – but that an array which is assigned to beyond its end has holes
from then on (`valueAt_setAt_of_unrelated`).
-/

namespace MissionControl

open Json (assign)

/-- Whether there can be a child of the name. -/
def Json.takes (key : String) : Json → Bool
  | .obj _ => true
  | .arr _ => (arrayIndex key).isSome
  | _ => false

/-- What the way goes on to: a hole is as good as nothing. -/
def Json.next (x : Json) (key : String) : Option Json :=
  match x with
  | .arr elements => ((arrayIndex key).bind (elements[·]?)).filter (!·.isHole)
  | x => x.child key

/-- The value with a child put in its place. -/
def Json.putChild (x : Json) (key : String) (z : Json) : Json :=
  match x with
  | .obj fields => .obj (assign fields key z)
  | .arr elements => (arrayIndex key).elim x fun i => .arr (setElement elements i z)
  | x => x

/-- **The tree with a value at a path**, and with objects on the way where there was
nothing. Without a value there are the objects alone. -/
def Json.setAt (value : Option Json) : List String → Json → Json
  | [], x => x
  | [key], x => value.elim x (x.putChild key)
  | key :: name :: keys, x =>
    x.putChild key (setAt value (name :: keys) ((x.next key).getD (.obj [])))

/-- **A path leads through a tree**: every value on its way takes the next name. -/
def Leads : List String → Json → Prop
  | [], _ => True
  | key :: keys, x => x.takes key = true ∧ Leads keys ((x.next key).getD (.obj []))

/-- **Whether an assignment leaves the tree**: it comes by a property that is inherited. -/
def escapes (around : Surroundings) : List String → Json → Bool
  | key :: name :: keys, .obj fields =>
    ((fields.lookup key).isNone && around.inherits [key])
      || escapes (around.under key) (name :: keys) ((fields.lookup key).getD (.obj []))
  | key :: name :: keys, .arr elements =>
    match arrayIndex key with
    | some i =>
      let element := elements[i]?.filter (!·.isHole)
      (element.isNone && around.inherits [key])
        || escapes (around.under key) (name :: keys) (element.getD (.obj []))
    | none =>
      if key = "length" then
        escapes (around.under key) (name :: keys) (.num (.finite elements.length))
      else around.inherits [key]
  | key :: _ :: _, .bool _ | key :: _ :: _, .num _ | key :: _ :: _, .str _ =>
    around.inherits [key]
  | _, _ => false

/-- Whether the last name is an inherited `__proto__`: what is assigned to it becomes the
prototype. -/
def setsPrototype (around : Surroundings) : List String → Json → Bool
  | [], _ => false
  | [key], x => key = "__proto__" && (x.child key).isNone && around.inherits [key]
  | key :: name :: keys, x =>
    setsPrototype (around.under key) (name :: keys) ((x.next key).getD (.obj []))

def Unrelated (path keys : List String) : Prop := ¬ path <+: keys ∧ ¬ keys <+: path

def SameKind : Json → Json → Prop
  | .obj _, .obj _ => True
  | .arr _, .arr _ => True
  | _, _ => False

/-- **A path into a gap**: another one goes by an array, beyond its end, and this one ends
at an index between. -/
def IntoGap (x : Json) (path keys : List String) : Prop :=
  ∃ before key after key' i j elements, keys = before ++ key :: after ∧ path = before ++ [key']
    ∧ x.valueAt before = some (.arr elements) ∧ arrayIndex key = some i
    ∧ arrayIndex key' = some j ∧ elements.length ≤ j ∧ j < i

section Children

variable {rt : Runtime} {around : Surroundings} {x y z : Json} {key : String}

theorem SameKind.refl_of_takes (h : x.takes key = true) : SameKind x x := by
  match x with
  | .obj _ | .arr _ => trivial
  | .null | .bool _ | .num _ | .str _ => cases h

theorem SameKind.trans {w : Json} (h : SameKind x y) (h' : SameKind y w) : SameKind x w := by
  match x, y, w with
  | .obj _, .obj _, .obj _ | .arr _, .arr _, .arr _ => trivial

theorem SameKind.takes_eq (h : SameKind x y) (key : String) : y.takes key = x.takes key := by
  match x, y with
  | .obj _, .obj _ | .arr _, .arr _ => rfl

theorem child_of_index {i : ℕ} (h : arrayIndex key = some i) (elements : List Json) :
    (Json.arr elements).child key = elements[i]? := by
  show (arrayIndex key).bind _ = _
  rw [h]
  rfl

theorem putChild_of_index {i : ℕ} (h : arrayIndex key = some i) (elements : List Json)
    (z : Json) : (Json.arr elements).putChild key z = .arr (setElement elements i z) := by
  show (arrayIndex key).elim _ _ = _
  rw [h]
  rfl

/-- What the way goes on to is the child, or there is nothing, or a hole in an array. -/
theorem next_cases (x : Json) (key : String) :
    (∃ y, x.next key = some y ∧ x.child key = some y)
      ∨ (x.next key = none ∧ (x.child key = none
        ∨ (x.child key = some .hole ∧ ∃ elements, x = .arr elements))) := by
  have hother : ∀ o : Option Json, (∃ y, o = some y ∧ o = some y) ∨ o = none := by
    intro o
    cases o with
    | none => exact .inr rfl
    | some y => exact .inl ⟨y, rfl, rfl⟩
  match x with
  | .arr elements =>
    unfold Json.next Json.child
    dsimp only
    cases (arrayIndex key).bind (elements[·]?) with
    | none => exact .inr ⟨rfl, .inl rfl⟩
    | some y =>
      cases hy : y.isHole with
      | true =>
        obtain rfl := eq_hole_of_isHole hy
        exact .inr ⟨rfl, .inr ⟨rfl, elements, rfl⟩⟩
      | false =>
        refine .inl ⟨y, ?_, rfl⟩
        rw [Option.filter_some, hy]
        rfl
  | .obj fields =>
    exact (hother (fields.lookup key)).imp id fun h => ⟨h, .inl h⟩
  | .null | .bool _ | .num _ | .str _ => exact .inr ⟨rfl, .inl rfl⟩

theorem child_putChild_self (h : x.takes key = true) (z : Json) :
    (x.putChild key z).child key = some z := by
  match x with
  | .obj fields => exact lookup_assign_self fields key z
  | .arr elements =>
    obtain ⟨i, hi⟩ := Option.isSome_iff_exists.mp h
    rw [putChild_of_index hi, child_of_index hi]
    exact getElem?_setElement_self elements i z
  | .null | .bool _ | .num _ | .str _ => cases h

theorem sameKind_putChild (h : x.takes key = true) (z : Json) :
    SameKind x (x.putChild key z) := by
  match x with
  | .obj fields => trivial
  | .arr elements =>
    obtain ⟨i, hi⟩ := Option.isSome_iff_exists.mp h
    rw [putChild_of_index hi]
    trivial
  | .null | .bool _ | .num _ | .str _ => cases h

/-- An element of an array that is assigned to: the one it had, or a hole in front of the
new one. -/
theorem getElem?_setElement_cases (elements : List Json) {i j : ℕ} (z : Json) (hne : j ≠ i) :
    (setElement elements i z)[j]? = elements[j]?
      ∨ (elements.length ≤ j ∧ j < i ∧ (setElement elements i z)[j]? = some .hole) := by
  unfold setElement
  split
  · exact .inl (List.getElem?_set_ne (Ne.symm hne))
  · next hi =>
    rw [List.append_assoc]
    rcases Nat.lt_or_ge j elements.length with hj | hj
    · exact .inl (List.getElem?_append_left hj)
    · rw [List.getElem?_append_right hj]
      rcases Nat.lt_or_ge j i with hji | hji
      · refine .inr ⟨hj, hji, ?_⟩
        rw [List.getElem?_append_left (by rw [List.length_replicate]; omega),
          List.getElem?_replicate, if_pos (by omega)]
      · refine .inl ?_
        rw [List.getElem?_eq_none (by simp; omega), List.getElem?_eq_none hj]

/-- **The other children** stay, and between the end of an array and a new element there
are holes. -/
theorem child_putChild_of_ne {key' : String} (hne : key' ≠ key) (x z : Json) :
    (x.putChild key z).child key' = x.child key'
      ∨ (x.child key' = none ∧ (x.putChild key z).child key' = some .hole
        ∧ ∃ elements i j, x = .arr elements ∧ arrayIndex key = some i
          ∧ arrayIndex key' = some j ∧ elements.length ≤ j ∧ j < i) := by
  match x with
  | .obj fields => exact .inl (lookup_assign_of_ne fields z hne)
  | .arr elements =>
    cases hi : arrayIndex key with
    | none =>
      refine .inl ?_
      show ((arrayIndex key).elim _ _ : Json).child key' = _
      rw [hi]
      rfl
    | some i =>
      rw [putChild_of_index hi]
      cases hj : arrayIndex key' with
      | none => exact .inl ((child_arr hj _).trans (child_arr hj _).symm)
      | some j =>
        have hij : j ≠ i := fun heq => hne (arrayIndex_injective hj (heq ▸ hi))
        rw [child_of_index hj, child_of_index hj]
        refine (getElem?_setElement_cases elements z hij).imp id ?_
        rintro ⟨hlength, hlt, hhole⟩
        exact ⟨List.getElem?_eq_none hlength, hhole, elements, i, j, rfl, rfl, rfl, hlength, hlt⟩
  | .null | .bool _ | .num _ | .str _ => exact .inl rfl

end Children

/-! ## The assignment -/

section Assignment

variable {rt : Runtime} {around : Surroundings} {x value : Json} {key name : String}
  {keys : List String}

theorem assignProperty_of_takes (h : x.takes key = true) :
    assignProperty rt around x key value
      = .ok (if setsPrototype around [key] x then x else x.putChild key value) := by
  unfold assignProperty setsPrototype
  match x with
  | .obj fields =>
    show _ = Except.ok (if (key = "__proto__" && (fields.lookup key).isNone
      && around.inherits [key]) = true then _ else _)
    simp only [Bool.and_eq_true, decide_eq_true_eq, and_assoc]
    split <;> rfl
  | .arr elements =>
    obtain ⟨i, hi⟩ := Option.isSome_iff_exists.mp h
    have hkey : key ≠ "__proto__" := by
      rintro rfl
      have hnone : arrayIndex "__proto__" = none := by decide
      rw [hnone] at hi
      cases hi
    rw [putChild_of_index hi]
    dsimp only
    rw [hi, decide_eq_false hkey]
    rfl
  | .null | .bool _ | .num _ | .str _ => cases h

theorem setNested_of_takes (h : x.takes key = true)
    (hown : ((x.next key).isNone && around.inherits [key]) = false) :
    setNested rt around (key :: name :: keys) value x
      = (setNested rt (around.under key) (name :: keys) value
          ((x.next key).getD (.obj []))).map (x.putChild key) := by
  match x with
  | .obj fields =>
    have hown : ((fields.lookup key).isNone && around.inherits [key]) = false := hown
    rw [setNested, if_neg (by rw [hown]; exact Bool.false_ne_true)]
    rfl
  | .arr elements =>
    obtain ⟨i, hi⟩ := Option.isSome_iff_exists.mp h
    have hnext : (Json.arr elements).next key = elements[i]?.filter (!·.isHole) := by
      show ((arrayIndex key).bind _).filter _ = _
      rw [hi]
      rfl
    have hput : (Json.arr elements).putChild key
        = fun z => .arr (setElement elements i z) := funext (putChild_of_index hi elements)
    rw [hnext] at hown
    rw [setNested, hi, hnext, hput]
    dsimp only
    rw [if_neg (by rw [hown]; exact Bool.false_ne_true)]
    rfl
  | .null | .bool _ | .num _ | .str _ => cases h

theorem escapes_of_takes (h : x.takes key = true) :
    escapes around (key :: name :: keys) x
      = (((x.next key).isNone && around.inherits [key])
        || escapes (around.under key) (name :: keys) ((x.next key).getD (.obj []))) := by
  match x with
  | .obj fields => rfl
  | .arr elements =>
    obtain ⟨i, hi⟩ := Option.isSome_iff_exists.mp h
    have hnext : (Json.arr elements).next key = elements[i]?.filter (!·.isHole) := by
      show ((arrayIndex key).bind _).filter _ = _
      rw [hi]
      rfl
    rw [escapes, hi, hnext]
  | .null | .bool _ | .num _ | .str _ => cases h

/-- **An assignment that stays in the tree** succeeds, and puts the value in its place, or
an inherited `__proto__` out of it. -/
theorem setNested_eq (hkeys : keys ≠ []) (hleads : Leads keys x)
    (hinside : escapes around keys x = false) :
    setNested rt around keys value x
      = .ok (x.setAt (if setsPrototype around keys x then none else some value) keys) := by
  induction keys generalizing around x with
  | nil => exact absurd rfl hkeys
  | cons key keys ih =>
    obtain ⟨htakes, hrest⟩ := hleads
    cases keys with
    | nil =>
      rw [setNested, assignProperty_of_takes htakes]
      cases setsPrototype around [key] x <;> rfl
    | cons name keys =>
      rw [escapes_of_takes htakes, Bool.or_eq_false_iff] at hinside
      rw [setNested_of_takes htakes hinside.1, ih (List.cons_ne_nil name keys) hrest hinside.2]
      rfl

end Assignment

/-! ## What comes of it -/

section Tree

variable {around : Surroundings} {value : Option Json} {x : Json} {keys path : List String}

theorem valueAt_cons_of_child {x z : Json} {key : String} (h : x.child key = some z)
    (path : List String) : x.valueAt (key :: path) = z.valueAt path := by
  show (x.child key).bind _ = _
  rw [h]
  rfl

theorem valueAt_concat (path : List String) (key : String) (x : Json) :
    x.valueAt (path ++ [key]) = (x.valueAt path).bind (Json.child · key) := by
  induction path generalizing x with
  | nil => exact Option.bind_fun_some _
  | cons k path ih =>
    show (x.child k).bind _ = ((x.child k).bind _).bind _
    cases x.child k with
    | none => rfl
    | some y => exact ih y

/-- What stands behind the name is behind what the way goes on to, or that is a new
object. -/
theorem valueAt_cons_next (x : Json) (key : String) (path : List String) :
    x.valueAt (key :: path) = ((x.next key).getD (.obj [])).valueAt path
      ∨ (path = [] ∧ (x.next key).getD (.obj []) = .obj []
        ∧ ∀ w, x.valueAt [key] = some w → w = .hole) := by
  rcases next_cases x key with ⟨y, hnext, hchild⟩ | ⟨hnext, hchild⟩
  · left
    rw [valueAt_cons_of_child hchild, hnext, Option.getD_some]
  · have hhole : ∀ w, x.child key = some w → w = .hole := by
      intro w hw
      rcases hchild with hchild | ⟨hchild, -⟩
      · rw [hchild] at hw
        cases hw
      · exact Option.some.inj (hw.symm.trans hchild)
    rw [hnext, Option.getD_none]
    by_cases hpath : path = []
    · refine .inr ⟨hpath, rfl, fun w hw => ?_⟩
      obtain ⟨y, hy, hyw⟩ := Option.bind_eq_some_iff.mp hw
      exact Option.some.inj hyw ▸ hhole y hy
    · left
      rw [valueAt_empty hpath, valueAt_of_hole hpath hhole]

theorem valueAt_cons_next_of_ne_nil (x : Json) (key : String) (hpath : path ≠ []) :
    x.valueAt (key :: path) = ((x.next key).getD (.obj [])).valueAt path :=
  (valueAt_cons_next x key path).resolve_right fun h => hpath h.1

theorem sameKind_setAt (hleads : Leads keys x) (hkeys : keys ≠ []) :
    SameKind x (x.setAt value keys) := by
  match keys with
  | [] => exact absurd rfl hkeys
  | [key] =>
    cases value with
    | none => exact .refl_of_takes hleads.1
    | some v => exact sameKind_putChild hleads.1 v
  | key :: name :: keys => exact sameKind_putChild hleads.1 _

theorem valueAt_setAt_cons {key : String} (hkeys : keys ≠ []) (htakes : x.takes key = true)
    (path : List String) :
    (x.setAt value (key :: keys)).valueAt (key :: path)
      = (((x.next key).getD (.obj [])).setAt value keys).valueAt path := by
  cases keys with
  | nil => exact absurd rfl hkeys
  | cons name keys => exact valueAt_cons_of_child (child_putChild_self htakes _) path

variable (value) in
/-- **What stands on the way**: what was there, changed below, or a new object. -/
theorem valueAt_setAt_way {key : String} {rest : List String}
    (hleads : Leads (path ++ key :: rest) x) :
    ∃ y, (x.setAt value (path ++ key :: rest)).valueAt path = some y
      ∧ (∀ w, x.valueAt path = some w → w ≠ .hole → SameKind w y)
      ∧ ((∀ w, x.valueAt path = some w → w = .hole) → SameKind (.obj []) y) := by
  induction path generalizing x with
  | nil =>
    have hsame : SameKind x (x.setAt value (key :: rest)) :=
      sameKind_setAt hleads (List.cons_ne_nil _ _)
    refine ⟨_, rfl, fun w hw _ => Option.some.inj hw ▸ hsame, fun h => ?_⟩
    rw [h x rfl] at hleads
    cases hleads.1
  | cons k path ih =>
    obtain ⟨htakes, hleads⟩ := hleads
    obtain ⟨y, hy, hkept, hnew⟩ := ih hleads
    refine ⟨y, ?_, ?_⟩
    · rw [List.cons_append, valueAt_setAt_cons (by simp) htakes]
      exact hy
    · rcases valueAt_cons_next x k path with hsame | ⟨rfl, hobj, hhole⟩
      · rw [hsame]
        exact ⟨hkept, hnew⟩
      · rw [hobj] at hkept
        exact ⟨fun w hw hne => absurd (hhole w hw) hne,
          fun _ => hkept (.obj []) rfl fun h => by cases h⟩

/-- **The value stands at its path.** -/
theorem valueAt_setAt_self {v : Json} (hkeys : keys ≠ []) (hleads : Leads keys x) :
    (x.setAt (some v) keys).valueAt keys = some v := by
  induction keys generalizing x with
  | nil => exact absurd rfl hkeys
  | cons key keys ih =>
    obtain ⟨htakes, hleads⟩ := hleads
    cases keys with
    | nil => exact valueAt_cons_of_child (child_putChild_self htakes v) []
    | cons name keys =>
      rw [valueAt_setAt_cons (List.cons_ne_nil name keys) htakes]
      exact ih (List.cons_ne_nil name keys) hleads

theorem setsPrototype_iff (hkeys : keys ≠ []) :
    setsPrototype around keys x = true
      ↔ keys.getLast? = some "__proto__" ∧ x.valueAt keys = none
        ∧ around.inherits keys = true := by
  induction keys generalizing around x with
  | nil => exact absurd rfl hkeys
  | cons key keys ih =>
    cases keys with
    | nil =>
      have hvalue : x.valueAt [key] = x.child key := Option.bind_fun_some _
      rw [setsPrototype, hvalue, List.getLast?_singleton]
      simp only [Bool.and_eq_true, decide_eq_true_eq, Option.some.injEq, Option.isNone_iff_eq_none,
        and_assoc]
    | cons name keys =>
      rw [valueAt_cons_next_of_ne_nil x key (List.cons_ne_nil name keys), List.getLast?_cons_cons]
      exact ih (List.cons_ne_nil name keys)

theorem valueAt_setAt_none (hkeys : keys ≠ []) (hleads : Leads keys x)
    (hnone : x.valueAt keys = none) : (x.setAt none keys).valueAt keys = none := by
  induction keys generalizing x with
  | nil => exact absurd rfl hkeys
  | cons key keys ih =>
    obtain ⟨htakes, hleads⟩ := hleads
    cases keys with
    | nil => exact hnone
    | cons name keys =>
      have hne := List.cons_ne_nil name keys
      rw [valueAt_cons_next_of_ne_nil x key hne] at hnone
      rw [valueAt_setAt_cons hne htakes]
      exact ih hne hleads hnone

theorem IntoGap.cons {x y : Json} {key : String} (h : IntoGap y path keys)
    (hbelow : ∀ path z, y.valueAt path = some z → z ≠ .obj [] → x.valueAt (key :: path) = some z) :
    IntoGap x (key :: path) (key :: keys) := by
  obtain ⟨before, k, after, k', i, j, elements, rfl, rfl, hvalue, hi, hj, hlength, hlt⟩ := h
  exact ⟨key :: before, k, after, k', i, j, elements, rfl, rfl,
    hbelow before _ hvalue fun h => (by cases h), hi, hj, hlength, hlt⟩

variable (value) in
/-- **What stands elsewhere** is left alone, and an array has holes up to a new element. -/
theorem valueAt_setAt_of_unrelated (hleads : Leads keys x) (h : Unrelated path keys) :
    (x.setAt value keys).valueAt path = x.valueAt path
      ∨ (x.valueAt path = none ∧ (x.setAt value keys).valueAt path = some .hole
        ∧ IntoGap x path keys) := by
  induction keys generalizing path x with
  | nil => exact absurd List.nil_prefix h.2
  | cons key keys ih =>
    cases path with
    | nil => exact absurd List.nil_prefix h.1
    | cons k path =>
      obtain ⟨htakes, hleads⟩ := hleads
      by_cases hk : k = key
      · subst hk
        have hunrelated : Unrelated path keys := by
          unfold Unrelated at h
          rwa [List.prefix_cons_inj, List.prefix_cons_inj] at h
        have hpath : path ≠ [] := by
          rintro rfl
          exact hunrelated.1 List.nil_prefix
        have hkeys : keys ≠ [] := by
          rintro rfl
          exact hunrelated.2 List.nil_prefix
        rw [valueAt_setAt_cons hkeys htakes, valueAt_cons_next_of_ne_nil x k hpath]
        refine (ih hleads hunrelated).imp id fun ⟨hnone, hhole, hgap⟩ => ⟨hnone, hhole, ?_⟩
        refine hgap.cons fun path z hz hne => ?_
        rcases valueAt_cons_next x k path with hsame | ⟨rfl, hobj, -⟩
        · rw [hsame, hz]
        · rw [hobj] at hz
          exact absurd (Option.some.inj hz).symm hne
      · -- the path parts from the way here
        have hbeside : ∀ z, (x.putChild key z).valueAt (k :: path) = x.valueAt (k :: path)
            ∨ (x.valueAt (k :: path) = none ∧ (x.putChild key z).valueAt (k :: path) = some .hole
              ∧ IntoGap x (k :: path) (key :: keys)) := by
          intro z
          rcases child_putChild_of_ne hk x z with hsame
            | ⟨hnone, hhole, elements, i, j, rfl, hi, hj, hlength, hlt⟩
          · left
            show (Json.child _ k).bind _ = (Json.child _ k).bind _
            rw [hsame]
          · cases path with
            | nil =>
              exact .inr ⟨valueAt_of_child_eq_none hnone, valueAt_cons_of_child hhole [],
                [], key, keys, k, i, j, elements, rfl, rfl, rfl, hi, hj, hlength, hlt⟩
            | cons k' path =>
              left
              rw [valueAt_of_child_eq_none hnone, valueAt_cons_of_child hhole]
              rfl
        match keys, value with
        | [], none => exact .inl rfl
        | [], some v => exact hbeside v
        | name :: keys, _ => exact hbeside _

/-- A path leads through a tree, if every value on its way takes the next name, or is a
hole of an array. -/
theorem leads_of_forall
    (h : ∀ path key rest, keys = path ++ key :: rest → ∀ y, x.valueAt path = some y →
      y.takes key = true ∨ (y = .hole ∧ ∃ before k elements, path = before ++ [k]
        ∧ x.valueAt before = some (.arr elements))) : Leads keys x := by
  induction keys generalizing x with
  | nil => trivial
  | cons key keys ih =>
    refine ⟨?_, ih fun path k rest hkeys y hy => ?_⟩
    · rcases h [] key keys rfl x rfl with htakes | ⟨-, before, k, elements, hnil, -⟩
      · exact htakes
      · exact absurd hnil.symm (List.append_ne_nil_of_right_ne_nil before (List.cons_ne_nil k []))
    · have hobject : ∀ y, (Json.obj []).valueAt path = some y → y.takes k = true := by
        intro y hy
        cases path with
        | nil =>
          obtain rfl := Option.some.inj hy
          rfl
        | cons _ _ => cases hy
      rcases valueAt_cons_next x key path with hsame | ⟨-, hobj, -⟩
      · refine (h (key :: path) k rest (by rw [hkeys]; rfl) y (hsame.trans hy)).imp id ?_
        rintro ⟨rfl, before, k', elements, hpath, hbefore⟩
        refine ⟨rfl, ?_⟩
        cases before with
        | nil =>
          -- the way does not go on to a hole
          obtain ⟨-, rfl⟩ := List.cons.inj hpath
          obtain rfl := Option.some.inj hbefore
          have hnext := Option.some.inj hy
          cases hstep : (Json.arr elements).next key with
          | none =>
            rw [hstep] at hnext
            cases hnext
          | some z =>
            rw [hstep] at hnext
            obtain rfl : z = .hole := hnext
            have hfilter := (Option.filter_eq_some_iff.mp hstep).2
            cases hfilter
        | cons k'' before =>
          obtain ⟨rfl, hrest⟩ := List.cons.inj hpath
          refine ⟨before, k', elements, hrest, ?_⟩
          rcases valueAt_cons_next x key before with hsame | ⟨rfl, -, hhole⟩
          · rw [← hsame, hbefore]
          · cases hhole _ hbefore
      · rw [hobj] at hy
        exact .inl (hobject y hy)

/-- **A way stays in the tree** exactly if no name on it that is missing is inherited. -/
theorem escapes_eq_false_iff (hleads : Leads keys x) :
    escapes around keys x = false
      ↔ ∀ path, path <+: keys → path ≠ [] → path ≠ keys →
        (∀ w, x.valueAt path = some w → w = .hole) → around.inherits path = false := by
  induction keys generalizing around x with
  | nil => exact iff_of_true rfl fun path hpath hne => absurd (List.prefix_nil.mp hpath) hne
  | cons key keys ih =>
    cases keys with
    | nil =>
      refine iff_of_true (by cases x <;> rfl) fun path hpath hne hself => ?_
      cases path with
      | nil => exact absurd rfl hne
      | cons k path =>
        obtain ⟨rfl, hrest⟩ := List.cons_prefix_cons.mp hpath
        exact absurd (congrArg (k :: ·) (List.prefix_nil.mp hrest)) hself
    | cons name keys =>
      obtain ⟨htakes, hleads⟩ := hleads
      rw [escapes_of_takes htakes, Bool.or_eq_false_iff, ih hleads]
      constructor
      · rintro ⟨hown, hbelow⟩ path hpath hne hself hmissing
        cases path with
        | nil => exact absurd rfl hne
        | cons k path =>
          obtain ⟨rfl, hrest⟩ := List.cons_prefix_cons.mp hpath
          by_cases hnil : path = []
          · subst hnil
            rcases next_cases x k with ⟨y, hnext, hchild⟩ | ⟨hnext, -⟩
            · rw [hnext, hmissing y (valueAt_cons_of_child hchild [])] at hleads
              cases hleads.1
            · rw [hnext] at hown
              exact hown
          · rw [valueAt_cons_next_of_ne_nil x k hnil] at hmissing
            exact hbelow path hrest hnil (fun heq => hself (congrArg (k :: ·) heq)) hmissing
      · intro h
        refine ⟨?_, fun path hpath hne hself hmissing => ?_⟩
        · rcases next_cases x key with ⟨y, hnext, -⟩ | ⟨hnext, hchild⟩
          · rw [hnext]
            rfl
          · rw [hnext, h [key] ⟨name :: keys, rfl⟩ (List.cons_ne_nil _ _) (by simp) fun w hw => ?_]
            · rfl
            · obtain ⟨y, hy, hyw⟩ := Option.bind_eq_some_iff.mp hw
              obtain rfl := Option.some.inj hyw
              rcases hchild with hchild | ⟨hchild, -⟩
              · rw [hchild] at hy
                cases hy
              · exact Option.some.inj (hy.symm.trans hchild)
        · refine h (key :: path) (List.cons_prefix_cons.mpr ⟨rfl, hpath⟩) (List.cons_ne_nil _ _)
            (fun heq => hself (List.cons.inj heq).2) ?_
          rwa [valueAt_cons_next_of_ne_nil x key hne]

end Tree

end MissionControl
