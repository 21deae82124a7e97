import MissionControl.JsonRoundTrip
import MissionControl.OpenclawConfig

/-!
# JSON values that agree

Two values **agree** if the same stands at every path of both, in whatever order their
properties are (`Json.Agree`). What is read of a text has no two properties of one name
(`Json.proper_of_parse`), and what is written of such a value and read again agrees with it
(`Json.agree_readBack`).
-/

namespace MissionControl

namespace Json

/-! ## Agreement -/

/-- What a value is, apart from its parts. A number that JSON has no text for is written as
`null`. -/
inductive Kind where
  | null
  | bool (b : Bool)
  | num (q : ℚ)
  | str (s : String)
  | arr (length : ℕ)
  | obj
  deriving DecidableEq

def kind : Json → Kind
  | .null => .null
  | .bool b => .bool b
  | .num (.finite q) => .num q
  | .num _ => .null
  | .str s => .str s
  | .arr elements => .arr elements.length
  | .obj _ => .obj

/-- The kind of what stands at a path of a value, if there is one. -/
def kindAt (x : Option Json) (path : List String) : Option Kind :=
  (x.bind (valueAt path)).map kind

/-- **The same stands at every path** of two values, or neither of them is there. -/
def Agree (x y : Option Json) : Prop := kindAt x = kindAt y

section Agree

variable {x y z : Option Json}

theorem Agree.refl (x : Option Json) : Agree x x := rfl

theorem Agree.symm (h : Agree x y) : Agree y x := Eq.symm h

theorem Agree.trans (h : Agree x y) (h' : Agree y z) : Agree x z := Eq.trans h h'

theorem agree_none : Agree x none ↔ x = none := by
  constructor
  · intro h
    have hroot : kindAt x [] = none := congrFun h []
    cases x with
    | none => rfl
    | some x => cases hroot
  · rintro rfl
    exact .refl none

/-- **Two objects agree** if what they have under each name does. -/
theorem agree_obj {a b : List (String × Json)} :
    Agree (some (.obj a)) (some (.obj b)) ↔ ∀ key, Agree (a.lookup key) (b.lookup key) := by
  have hstep : ∀ (fields : List (String × Json)) (key : String) (path : List String),
      kindAt (some (.obj fields)) (key :: path) = kindAt (fields.lookup key) path :=
    fun _ _ _ => rfl
  constructor
  · intro h key
    funext path
    rw [← hstep, ← hstep]
    exact congrFun h (key :: path)
  · intro h
    funext path
    cases path with
    | nil => rfl
    | cons key path =>
      rw [hstep, hstep]
      exact congrFun (h key) path

theorem agree_stored (x : Option Json) : Agree (x.map stored) x := by
  have hkind : ∀ y : Json, y.stored.kind = y.kind := by
    intro y
    cases y with
    | num n => cases n <;> rfl
    | arr elements =>
      rw [stored_arr]
      exact congrArg Kind.arr (List.length_map _)
    | _ => rfl
  funext path
  cases x with
  | none => rfl
  | some x =>
    show (x.stored.valueAt path).map kind = (x.valueAt path).map kind
    rw [valueAt_stored, Option.map_map]
    exact congrArg (Option.map · (x.valueAt path)) (funext hkind)

end Agree

/-! ## Properties of different names -/

/-- **No object in a value has two properties of one name.** -/
def Proper : Json → Prop
  | .arr elements => properElements elements
  | .obj fields => (fields.map Prod.fst).Nodup ∧ properFields fields
  | .null | .bool _ | .num _ | .str _ => True
where
  properElements : List Json → Prop
    | [] => True
    | x :: xs => x.Proper ∧ properElements xs
  /-- The values of the properties of an object. -/
  properFields : List (String × Json) → Prop
    | [] => True
    | (_, x) :: fields => x.Proper ∧ properFields fields

theorem properElements_iff {elements : List Json} :
    Proper.properElements elements ↔ ∀ x ∈ elements, x.Proper := by
  induction elements with
  | nil => exact ⟨fun _ _ hx => absurd hx List.not_mem_nil, fun _ => trivial⟩
  | cons x elements ih => rw [Proper.properElements, ih, List.forall_mem_cons]

theorem properFields_iff {fields : List (String × Json)} :
    Proper.properFields fields ↔ ∀ f ∈ fields, f.2.Proper := by
  induction fields with
  | nil => exact ⟨fun _ _ hf => absurd hf List.not_mem_nil, fun _ => trivial⟩
  | cons f fields ih => rw [Proper.properFields, ih, List.forall_mem_cons]

theorem proper_obj {fields : List (String × Json)} :
    (obj fields).Proper ↔ (fields.map Prod.fst).Nodup ∧ ∀ f ∈ fields, f.2.Proper := by
  rw [Proper, properFields_iff]

theorem proper_empty : (obj []).Proper :=
  proper_obj.mpr ⟨List.nodup_nil, fun _ hf => absurd hf List.not_mem_nil⟩

theorem proper_arr {elements : List Json} :
    (arr elements).Proper ↔ ∀ x ∈ elements, x.Proper := by
  rw [Proper, properElements_iff]

theorem proper_assign {fields : List (String × Json)} {key : String} {x : Json}
    (h : (obj fields).Proper) (hx : x.Proper) : (obj (assign fields key x)).Proper := by
  obtain ⟨hnodup, hfields⟩ := proper_obj.mp h
  refine proper_obj.mpr ?_
  unfold assign
  split
  · have hnames : (fields.map fun f => if f.1 = key then (key, x) else f).map Prod.fst
        = fields.map Prod.fst := by
      rw [List.map_map]
      refine List.map_congr_left fun f _ => ?_
      show (if f.1 = key then (key, x) else f).1 = f.1
      split
      · next heq => exact heq.symm
      · rfl
    refine ⟨hnames ▸ hnodup, fun f hf => ?_⟩
    obtain ⟨g, hg, rfl⟩ := List.mem_map.mp hf
    split
    · exact hx
    · exact hfields g hg
  · next hnone =>
    refine ⟨?_, List.forall_mem_append.mpr ⟨hfields, List.forall_mem_singleton.mpr hx⟩⟩
    rw [List.map_append, List.nodup_append]
    refine ⟨hnodup, List.pairwise_singleton _ _, fun a ha b hb heq => hnone ?_⟩
    obtain ⟨f, hf, rfl⟩ := List.mem_map.mp ha
    exact List.any_eq_true.mpr ⟨f, hf,
      decide_eq_true (heq.trans (List.mem_singleton.mp hb))⟩

theorem proper_assignAll {fields source : List (String × Json)} (h : (obj fields).Proper)
    (hsource : ∀ f ∈ source, f.2.Proper) :
    (obj (source.foldl (fun fields f => assign fields f.1 f.2) fields)).Proper := by
  induction source generalizing fields with
  | nil => exact h
  | cons f source ih =>
    obtain ⟨hf, hsource⟩ := List.forall_mem_cons.mp hsource
    exact ih (proper_assign h hf) hsource

theorem proper_fromEntries {fields : List (String × Json)} (h : ∀ f ∈ fields, f.2.Proper) :
    (obj (fromEntries fields)).Proper :=
  proper_assignAll proper_empty h

theorem fromEntries_of_nodup {fields : List (String × Json)}
    (h : (fields.map Prod.fst).Nodup) : fromEntries fields = fields := by
  have hall : ∀ l acc : List (String × Json), ((acc ++ l).map Prod.fst).Nodup →
      l.foldl (fun acc f => assign acc f.1 f.2) acc = acc ++ l := by
    intro l
    induction l with
    | nil => exact fun acc _ => (List.append_nil acc).symm
    | cons f l ih =>
      intro acc hnodup
      have hnew : assign acc f.1 f.2 = acc ++ [f] := by
        unfold assign
        refine if_neg fun hany => ?_
        obtain ⟨g, hg, heq⟩ := List.any_eq_true.mp hany
        rw [List.map_append, List.nodup_append] at hnodup
        exact hnodup.2.2 g.1 (List.mem_map_of_mem hg) f.1
          (List.mem_map_of_mem List.mem_cons_self) (of_decide_eq_true heq)
      rw [List.foldl_cons, hnew, ih _ (by rw [List.append_assoc]; exact hnodup),
        List.append_assoc]
      rfl
  exact hall fields [] h

theorem keys_readBackFields (fields : List (String × Json)) :
    (readBack.readBackFields fields).map Prod.fst = fields.map Prod.fst := by
  induction fields with
  | nil => rfl
  | cons f fields ih => rw [readBack.readBackFields, List.map_cons, List.map_cons, ih]

/-! ## What is read of a text -/

section Parse

variable {rt : Runtime}

/-- **What the parser reads is proper**: a value, elements, properties. The induction is on
the fuel. -/
theorem proper_parseValue (n : ℕ) :
    (∀ s j r, parseValue rt n s = some (j, r) → j.Proper)
      ∧ (∀ s xs r, parseElements rt n s = some (xs, r) → ∀ x ∈ xs, x.Proper)
      ∧ ∀ s fields r, parseMembers rt n s = some (fields, r) → ∀ f ∈ fields, f.2.Proper := by
  induction n with
  | zero =>
    refine ⟨fun s j r h => ?_, fun s xs r h => ?_, fun s fields r h => ?_⟩
    · rw [parseValue] at h
      cases h
    · rw [parseElements] at h
      cases h
    · rw [parseMembers] at h
      cases h
  | succ n ih =>
    obtain ⟨hvalue, helements, hmembers⟩ := ih
    refine ⟨fun s j r h => ?_, fun s xs r h => ?_, fun s fields r h => ?_⟩
    · rw [parseValue] at h
      split at h
      · cases h
        trivial
      · cases h
        trivial
      · cases h
        trivial
      · obtain ⟨t, -, heq⟩ := Option.map_eq_some_iff.mp h
        cases heq
        trivial
      · split at h
        · cases h
          trivial
        · obtain ⟨⟨xs, t⟩, hxs, heq⟩ := Option.map_eq_some_iff.mp h
          cases heq
          exact proper_arr.mpr (helements _ _ _ hxs)
      · split at h
        · cases h
          exact proper_empty
        · obtain ⟨⟨fields, t⟩, hfields, heq⟩ := Option.map_eq_some_iff.mp h
          cases heq
          exact proper_fromEntries (hmembers _ _ _ hfields)
      · dsimp only at h
        split at h
        · cases h
          trivial
        · cases h
    · rw [parseElements] at h
      split at h
      · cases h
      · next x t hx =>
        have hproper := hvalue _ _ _ hx
        split at h
        · cases h
          exact List.forall_mem_singleton.mpr hproper
        · obtain ⟨⟨xs, t⟩, hxs, heq⟩ := Option.map_eq_some_iff.mp h
          cases heq
          exact List.forall_mem_cons.mpr ⟨hproper, helements _ _ _ hxs⟩
        · cases h
    · rw [parseMembers] at h
      split at h
      · split at h
        · cases h
        · split at h
          · split at h
            · cases h
            · next x t hx =>
              have hproper := hvalue _ _ _ hx
              split at h
              · cases h
                exact List.forall_mem_singleton.mpr hproper
              · obtain ⟨⟨fields, t⟩, hfields, heq⟩ := Option.map_eq_some_iff.mp h
                cases heq
                exact List.forall_mem_cons.mpr ⟨hproper, hmembers _ _ _ hfields⟩
              · cases h
          · cases h
      · cases h

/-- **What is read of a text has no two properties of one name.** -/
theorem proper_of_parse {s : List Char} {j : Json} (h : parse rt s = some j) : j.Proper := by
  unfold parse at h
  split at h
  · next hvalue =>
    split at h
    · cases h
      exact (proper_parseValue _).1 _ _ _ hvalue
    · cases h
  · cases h

end Parse

/-! ## What is written and read again -/

mutual

theorem readBack_eq_stored : ∀ j : Json, j.Proper → j.readBack = j.stored
  | .null, _ | .bool _, _ | .str _, _ => rfl
  | .num .nan, _ | .num (.infinity _), _ | .num (.finite _), _ => rfl
  | .arr elements, h => congrArg Json.arr (readBackElements_eq elements h)
  | .obj fields, h => by
    have hfields := readBackFields_eq fields h.2
    have hkeys : (readBack.readBackFields fields).map Prod.fst = fields.map Prod.fst :=
      keys_readBackFields fields
    show obj (fromEntries (readBack.readBackFields fields)) = obj (stored.storedFields fields)
    rw [fromEntries_of_nodup (hkeys ▸ h.1), hfields]

theorem readBackElements_eq : ∀ elements : List Json, Proper.properElements elements →
    readBack.readBackElements elements = stored.storedElements elements
  | [], _ => rfl
  | x :: elements, h =>
    congrArg₂ List.cons (readBack_eq_stored x h.1) (readBackElements_eq elements h.2)

theorem readBackFields_eq : ∀ fields : List (String × Json), Proper.properFields fields →
    readBack.readBackFields fields = stored.storedFields fields
  | [], _ => rfl
  | (key, x) :: fields, h =>
    congrArg₂ List.cons (congrArg (Prod.mk key) (readBack_eq_stored x h.1))
      (readBackFields_eq fields h.2)

end

/-- **What is written of a proper value and read again** agrees with it. -/
theorem agree_readBack {j : Json} (h : j.Proper) : Agree (some j.readBack) (some j) := by
  rw [readBack_eq_stored j h]
  exact agree_stored (some j)

end Json

end MissionControl
