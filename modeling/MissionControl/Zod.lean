import MissionControl.Js

/-!
# Schemas of request bodies

The combinators of the schema library that the validation of the source is
written with. A **reader** parses a value that is there; a **schema** parses a
property, which may be absent, and is written down with the combinators the
source uses – so that what `partial` does to an object is a function on
schemas. The issues of the properties of an object and of the elements of an
array are reported together; of one value only the first issue is kept.

Two rules decide what an absent property becomes: `default` fills its value
in, and `optional` asks the schema under it first whether that one takes an
absent property. So a default made optional still fills in its value
(`Schema.parse_optional_default`).
-/

namespace MissionControl

inductive IssueCode where
  | invalidType (expected : String)
  | tooSmall (minimum : ℚ)
  | tooBig (maximum : ℚ)
  | invalidValue (options : List String)
  deriving DecidableEq

/-- **An issue**: where, what, and the text the source gives for it, if it
gives one. -/
structure Issue where
  path : List String
  code : IssueCode
  message : Option String
  deriving DecidableEq

/-- What parsing gives: the value, or all that is wrong with it. -/
abbrev Checked (α : Type) := Except (List Issue) α

namespace Checked

variable {α β : Type}

/-- One part more of a value; the issues of all parts are gathered. -/
def ap (f : Checked (α → β)) (x : Checked α) : Checked β :=
  match f, x with
  | .ok f, .ok a => .ok (f a)
  | .ok _, .error issues => .error issues
  | .error issues, .ok _ => .error issues
  | .error issues, .error issues' => .error (issues ++ issues')

/-- The issues of a part, seen from the whole. -/
def under (key : String) (x : Checked α) : Checked α :=
  match x with
  | .ok a => .ok a
  | .error issues =>
    .error (issues.map (fun i => { i with path := key :: i.path }))

@[simp] theorem ap_eq_ok {f : Checked (α → β)} {x : Checked α} {b : β} :
    ap f x = .ok b ↔ ∃ g a, f = .ok g ∧ x = .ok a ∧ g a = b := by
  cases f with
  | error issues => cases x <;> simp [ap]
  | ok g => cases x <;> simp [ap]

@[simp] theorem under_eq_ok {key : String} {x : Checked α} {a : α} :
    under key x = .ok a ↔ x = .ok a := by
  cases x <;> simp [under]

end Checked

/-! ## Readers -/

/-- **A reader**: how a value that is there is parsed, and what is said of an
absent one. -/
structure Reader (α : Type) where
  absent : Issue
  read : Json → Checked α

namespace Reader

variable {α β : Type}

def ofType (expected : String) (value : Json → Option α) : Reader α where
  absent := ⟨[], .invalidType expected, none⟩
  read j :=
    match value j with
    | some a => .ok a
    | none => .error [⟨[], .invalidType expected, none⟩]

/-- `z.string()`. -/
def string : Reader String :=
  ofType "string" fun | .str s => some s | _ => none

/-- `z.number()`: the finite ones. -/
def number : Reader JsNumber :=
  ofType "number" fun | .num (.finite q) => some (.finite q) | _ => none

/-- `z.record(z.string(), z.unknown())`. -/
def record : Reader (List (String × Json)) :=
  ofType "record" fun
    | .obj fields => some (fields.filter (fun f => f.1 ≠ "__proto__"))
    | _ => none

/-- `z.enum(…)`: the texts, and what each stands for. -/
def enum (options : List (String × α)) : Reader α where
  absent := ⟨[], .invalidValue (options.map Prod.fst), none⟩
  read j :=
    match j with
    | .str s =>
      match options.lookup s with
      | some a => .ok a
      | none => .error [⟨[], .invalidValue (options.map Prod.fst), none⟩]
    | _ => .error [⟨[], .invalidValue (options.map Prod.fst), none⟩]

def check (r : Reader α) (test : α → Bool) (code : IssueCode)
    (message : Option String) : Reader α where
  absent := r.absent
  read j :=
    match r.read j with
    | .ok a => if test a then .ok a else .error [⟨[], code, message⟩]
    | .error issues => .error issues

/-- `.min(n, message)` of a string. -/
def minLength (r : Reader String) (n : ℕ) (message : Option String) :
    Reader String :=
  r.check (fun s => n ≤ utf16Length s) (.tooSmall n) message

/-- `.max(n)` of a string. -/
def maxLength (r : Reader String) (n : ℕ) : Reader String :=
  r.check (fun s => utf16Length s ≤ n) (.tooBig n) none

/-- `.min(n)` of a number. -/
def atLeast (r : Reader JsNumber) (n : ℚ) : Reader JsNumber :=
  r.check (fun | .finite q => n ≤ q | _ => false) (.tooSmall n) none

/-- `z.number().int().positive()`. An integer is a safe one. -/
def positiveInt : Reader ℕ where
  absent := number.absent
  read j :=
    match number.read j with
    | .error issues => .error issues
    | .ok n =>
      match n.integer with
      | none => .error [⟨[], .invalidType "int", none⟩]
      | some z =>
        if 2 ^ 53 - 1 < z then .error [⟨[], .tooBig (2 ^ 53 - 1), none⟩]
        else if z ≤ 0 then .error [⟨[], .tooSmall 0, none⟩]
        else .ok z.toNat

/-- The elements of an array, from the one at an index on. -/
def readElements (r : Reader α) : ℕ → List Json → Checked (List α)
  | _, [] => .ok []
  | i, x :: xs =>
    (Checked.ap (.ok List.cons) ((r.read x).under (toString i))).ap
      (readElements r (i + 1) xs)

/-- `z.array(r)`. -/
def array (r : Reader α) : Reader (List α) where
  absent := ⟨[], .invalidType "array", none⟩
  read j :=
    match j with
    | .arr elements => readElements r 0 elements
    | _ => .error [⟨[], .invalidType "array", none⟩]

/-- `z.object(…)`, where the properties are parsed together. -/
def object (parse : List (String × Json) → Checked α) : Reader α where
  absent := ⟨[], .invalidType "object", none⟩
  read j :=
    match j with
    | .obj fields => parse fields
    | _ => .error [⟨[], .invalidType "object", none⟩]

def field (r : Reader α) (key : String) (fields : List (String × Json)) :
    Checked α :=
  Checked.under key <|
    match fields.lookup key with
    | some j => r.read j
    | none => .error [r.absent]

def fieldOr (r : Reader α) (value : α) (key : String)
    (fields : List (String × Json)) : Checked α :=
  Checked.under key <|
    match fields.lookup key with
    | some j => r.read j
    | none => .ok value

theorem object_read_eq_ok {parse : List (String × Json) → Checked α} {j : Json}
    {a : α} :
    (object parse).read j = .ok a
      ↔ ∃ fields, j = .obj fields ∧ parse fields = .ok a := by
  cases j <;> simp [object]

end Reader

/-! ## Schemas of properties -/

/-- **The schema of a property.** -/
inductive Schema (α : Type) where
  | required (r : Reader α)
  | optional (s : Schema α)
  | default (value : α) (s : Schema α)

namespace Schema

variable {α : Type}

/-- Whether the schema itself says what an absent property becomes. -/
def takesAbsent : Schema α → Bool
  | .required _ => false
  | .optional _ => true
  | .default _ _ => true

/-- **What a property becomes**; `none` is `undefined`. -/
def parse : Schema α → Option Json → Checked (Option α)
  | .required r, some j => Except.map some (r.read j)
  | .required r, none => .error [r.absent]
  | .optional s, some j => s.parse (some j)
  | .optional s, none => if s.takesAbsent then s.parse none else .ok none
  | .default _ s, some j => s.parse (some j)
  | .default value _, none => .ok (some value)

def field (s : Schema α) (key : String) (fields : List (String × Json)) :
    Checked (Option α) :=
  (s.parse (fields.lookup key)).under key

/-- What an absent property is parsed to is what the schema says of one. -/
theorem eq_of_absent {s : Schema α} {key : String}
    {fields : List (String × Json)} {x y : Option α}
    (habsent : fields.lookup key = none)
    (h : s.parse (fields.lookup key) = .ok x) (hs : s.parse none = .ok y) :
    x = y := by
  rw [habsent, hs] at h
  exact (Except.ok.inj h).symm

/-- **A default made optional still fills in its value.** -/
theorem parse_optional_default (value : α) (s : Schema α) :
    (optional (default value s)).parse none = .ok (some value) := rfl

theorem parse_optional_optional (r : Reader α) :
    (optional (optional (required r))).parse none = .ok none := rfl

theorem parse_optional_required (r : Reader α) :
    (optional (required r)).parse none = .ok none := rfl

end Schema

end MissionControl
