import Mathlib.Algebra.Group.Int.Defs
import Mathlib.Algebra.GroupWithZero.Nat
import Mathlib.Data.Rat.Defs
import Mathlib.Data.List.DropRight
import Mathlib.Data.List.Infix
import MissionControl.Library.RegExp
import MissionControl.Library.Posix

/-!
# The JavaScript values the source computes with

Request bodies, the JSON columns of the database and the steps of a stored
plan are JSON values of any shape: the source reads them without checking
their types, and what it does with them is fixed by the coercions of the
language. The coercions are defined here as the language has them – which
values are falsy, what `String(x)` and `Number(x)` give, where reading a
property or calling a string method throws.

`Runtime` holds the few parts of the runtime and of the database driver
whose full tables the source does not depend on: every result holds for any
choice of them.
-/

namespace MissionControl

/-- What a call throws: an error the source raises with its text, or a type
error of the runtime. -/
inductive Exception where
  /-- `throw new Error(message)`. -/
  | error (message : String)
  /-- A `TypeError` of the runtime or the database driver. -/
  | typeError
  deriving DecidableEq

inductive JsNumber where
  | nan
  | infinity (negative : Bool)
  | finite (q : ℚ)
  deriving DecidableEq

/-- The integer a number is, as `Number.isInteger` decides it. -/
def JsNumber.integer : JsNumber → Option ℤ
  | .finite q => if q.den = 1 then some q.num else none
  | _ => none

theorem JsNumber.integer_eq_some {n : JsNumber} {z : ℤ} :
    n.integer = some z ↔ n = .finite z := by
  unfold integer
  cases n with
  | nan => exact ⟨fun h => (by cases h), fun h => (by cases h)⟩
  | infinity negative => exact ⟨fun h => (by cases h), fun h => (by cases h)⟩
  | finite q =>
    dsimp only
    split
    · next hden =>
      rw [Option.some.injEq, JsNumber.finite.injEq, ← Rat.intCast_inj,
        (Rat.den_eq_one_iff q).mp hden]
    · next hden =>
      refine ⟨fun h => (by cases h), fun h => absurd ?_ hden⟩
      rw [JsNumber.finite.inj h]
      exact Rat.den_intCast z

/-- A JSON value. `undefined` is the `none` of `Option Json`. -/
inductive Json where
  | null
  | bool (b : Bool)
  | num (n : JsNumber)
  | str (s : String)
  | arr (elements : List Json)
  | obj (fields : List (String × Json))

/-- **The parts of the runtime left open.** -/
structure Runtime where
  /-- `String.prototype.toLowerCase`. -/
  toLowerCase : String → String
  /-- `Number(s)` on a string. -/
  stringToNumber : String → JsNumber
  /-- `String(n)` on a number. -/
  numberToString : JsNumber → String
  /-- `JSON.parse`, `none` where it throws. -/
  parseJson : String → Option Json
  /-- Whether the database driver takes the value for a text column. -/
  bindable : Option Json → Bool

theorem bind_eq_ok {α β : Type} {x : Except Exception α}
    {f : α → Except Exception β} {r : β} :
    x >>= f = .ok r ↔ ∃ a, x = .ok a ∧ f a = .ok r := by
  cases x with
  | error e => simp [bind, Except.bind]
  | ok a => simp [bind, Except.bind]

theorem ok_bind {α β : Type} (x : α) (f : α → Except Exception β) :
    (Except.ok x >>= f) = f x := rfl

/-! ## Strings -/

/-- The characters `trim` removes: white space and line terminators. -/
def isWhiteSpace (c : Char) : Bool :=
  c.toNat ∈ [0x9, 0xA, 0xB, 0xC, 0xD, 0x20, 0xA0, 0x1680, 0x2028, 0x2029,
    0x202F, 0x205F, 0x3000, 0xFEFF]
  || (0x2000 ≤ c.toNat && c.toNat ≤ 0x200A)

/-- `String.prototype.trim`. -/
def trim (s : String) : String :=
  String.ofList ((s.toList.dropWhile isWhiteSpace).rdropWhile isWhiteSpace)

/-- `s || fallback` on a string. -/
def orElse (s fallback : String) : String := if s = "" then fallback else s

/-- `s.length`, in UTF-16 code units. -/
def utf16Length (s : String) : ℕ :=
  (s.toList.map (fun c => if 0xFFFF < c.toNat then 2 else 1)).sum

/-- `s.slice(0, n)` and `s.substring(0, n)`, in UTF-16 code units. Half a character is the
replacement character wherever it is written. -/
def sliceUnits : ℕ → List Char → List Char
  | _, [] => []
  | 0, _ => []
  | n + 1, c :: s =>
    if c.toNat ≤ 0xFFFF then c :: sliceUnits n s
    else if n = 0 then [Char.ofNat 0xFFFD]
    else c :: sliceUnits (n - 1) s

/-- `s.includes(part)` on a string. -/
def includes (s part : String) : Bool :=
  s.toList.tails.any (part.toList.isPrefixOf ·)

/-- The value of a digit in a radix, if the character is one. -/
def digitValue (radix : ℕ) (c : Char) : Option ℕ :=
  let n := c.toNat
  let value :=
    if 0x30 ≤ n ∧ n ≤ 0x39 then n - 0x30
    else if 0x61 ≤ n ∧ n ≤ 0x7A then n - 0x61 + 10
    else if 0x41 ≤ n ∧ n ≤ 0x5A then n - 0x41 + 10
    else radix
  if value < radix then some value else none

/-- The number the leading digits of a text say, if it begins with one. -/
def readDigits (radix : ℕ) (s : List Char) : Option ℕ :=
  match s.takeWhile (fun c => (digitValue radix c).isSome) with
  | [] => none
  | digits =>
    some ((digits.filterMap (digitValue radix)).foldl (fun n d => n * radix + d) 0)

/-- `parseInt(s)`; `none` is `NaN`. -/
def parseInt (s : String) : Option ℤ :=
  match s.toList.dropWhile isWhiteSpace with
  | '-' :: s => (magnitude s).map (fun n => -(n : ℤ))
  | '+' :: s => (magnitude s).map (fun n => (n : ℤ))
  | s => (magnitude s).map (fun n => (n : ℤ))
where
  /-- The number behind the sign, in hexadecimal behind `0x`. -/
  magnitude : List Char → Option ℕ
    | '0' :: 'x' :: s => readDigits 16 s
    | '0' :: 'X' :: s => readDigits 16 s
    | s => readDigits 10 s

theorem repr_injective {a b : ℕ} (h : a.repr = b.repr) : a = b := by
  have hdigits := congrArg String.toList h
  rw [Nat.toList_repr, Nat.toList_repr] at hdigits
  have hnat := congrArg (fun cs => Nat.ofDigitChars 10 cs 0) hdigits
  simpa only [Nat.ofDigitChars_toDigits (b := 10) (by decide) (by decide)]
    using hnat

theorem toList_intercalate (sep : String) : ∀ texts : List String,
    (sep.intercalate texts).toList
      = sep.toList.intercalate (texts.map String.toList)
  | [] => rfl
  | [text] => by simp
  | text :: text' :: texts => by
    have ih := toList_intercalate sep (text' :: texts)
    rw [String.intercalate_cons_cons, String.toList_append,
      String.toList_append, ih]
    simp

theorem isDigit_of_mem_repr {n : ℕ} {c : Char} (h : c ∈ n.repr.toList) : c.isDigit = true := by
  rw [Nat.toList_repr] at h
  exact Nat.isDigit_of_mem_toDigits (by decide) (by decide) h

theorem notMem_repr {n : ℕ} {c : Char} (hc : c.isDigit = false) : c ∉ n.repr.toList := by
  intro hmem
  rw [isDigit_of_mem_repr hmem] at hc
  exact absurd hc (by decide)

theorem digitValue_of_isDigit {c : Char} (h : c.isDigit = true) :
    digitValue 10 c = some (c.toNat - '0'.toNat) := by
  have hrange : 0x30 ≤ c.toNat ∧ c.toNat ≤ 0x39 := Char.isDigit_iff_toNat.mp h
  have hlt : c.toNat - 0x30 < 10 := by omega
  unfold digitValue
  dsimp only
  rw [if_pos hrange]
  exact if_pos hlt

/-- **The decimal digits of a number are read back.** -/
theorem readDigits_repr (n : ℕ) : readDigits 10 n.repr.toList = some n := by
  have hdigits : ∀ c ∈ n.repr.toList, digitValue 10 c = some (c.toNat - '0'.toNat) :=
    fun c hc => digitValue_of_isDigit (isDigit_of_mem_repr hc)
  have hall : n.repr.toList.takeWhile (fun c => (digitValue 10 c).isSome) = n.repr.toList := by
    rw [List.takeWhile_eq_self_iff]
    intro c hc
    rw [hdigits c hc]
    rfl
  have hvalues : n.repr.toList.filterMap (digitValue 10)
      = n.repr.toList.map fun c => c.toNat - '0'.toNat := by
    rw [← List.filterMap_eq_map]
    exact List.filterMap_congr hdigits
  have hnumber : (n.repr.toList.filterMap (digitValue 10)).foldl (fun n d => n * 10 + d) 0 = n := by
    have := Nat.ofDigitChars_ten_toDigits (n := n)
    rw [← Nat.toList_repr, Nat.ofDigitChars_eq_foldl] at this
    rw [hvalues, List.foldl_map]
    simpa only [Nat.mul_comm] using this
  unfold readDigits
  rw [hall]
  split
  · next hnil =>
    rw [Nat.toList_repr] at hnil
    exact absurd hnil Nat.toDigits_ne_nil
  · exact congrArg some hnumber

theorem not_isWhiteSpace_of_isDigit {c : Char} (h : c.isDigit = true) : isWhiteSpace c = false := by
  have hrange : 0x30 ≤ c.toNat ∧ c.toNat ≤ 0x39 := Char.isDigit_iff_toNat.mp h
  unfold isWhiteSpace
  rw [Bool.or_eq_false_iff, decide_eq_false_iff_not, Bool.and_eq_false_iff]
  refine ⟨fun hmem => ?_, .inl (decide_eq_false (by omega))⟩
  simp only [List.mem_cons, List.not_mem_nil, or_false] at hmem
  omega

theorem isWhiteSpace_of_inClass {ranges : List (Char × Char)} {c : Char}
    (hranges : ∀ r ∈ ranges, '!' ≤ r.1 ∧ r.2 ≤ '~')
    (h : Pattern.inClass ranges c = true) : isWhiteSpace c = false := by
  obtain ⟨r, hr, hc⟩ := List.any_eq_true.mp h
  rw [Bool.and_eq_true, decide_eq_true_eq, decide_eq_true_eq] at hc
  obtain ⟨hlo, hhi⟩ := hranges r hr
  have hlow : 0x21 ≤ c.toNat := le_trans hlo hc.1
  have hhigh : c.toNat ≤ 0x7E := le_trans hc.2 hhi
  unfold isWhiteSpace
  simp only [List.mem_cons, List.not_mem_nil, or_false, Bool.or_eq_false_iff,
    decide_eq_false_iff_not, Bool.and_eq_false_iff]
  omega

/-- **The text of a number is parsed back.** -/
theorem parseInt_repr (n : ℕ) : parseInt n.repr = some (n : ℤ) := by
  have hdigit : ∀ c ∈ n.repr.toList, c.isDigit = true := fun c => isDigit_of_mem_repr
  have hmagnitude : parseInt.magnitude n.repr.toList = some n := by
    unfold parseInt.magnitude
    split
    · next heq =>
      have := hdigit 'x' (by rw [heq]; simp)
      exact absurd this (by decide)
    · next heq =>
      have := hdigit 'X' (by rw [heq]; simp)
      exact absurd this (by decide)
    · exact readDigits_repr n
  have hblank : n.repr.toList.dropWhile isWhiteSpace = n.repr.toList := by
    rw [List.dropWhile_eq_self_iff]
    intro h
    rw [not_isWhiteSpace_of_isDigit (hdigit _ (List.getElem_mem h))]
    exact Bool.false_ne_true
  unfold parseInt
  rw [hblank]
  split
  · next heq =>
    have := hdigit '-' (by rw [heq]; simp)
    exact absurd this (by decide)
  · next heq =>
    have := hdigit '+' (by rw [heq]; simp)
    exact absurd this (by decide)
  · rw [hmagnitude]
    rfl

theorem trim_repr (n : ℕ) : trim n.repr = n.repr := by
  have hblank : ∀ c ∈ n.repr.toList, isWhiteSpace c = false :=
    fun c hc => not_isWhiteSpace_of_isDigit (isDigit_of_mem_repr hc)
  unfold trim
  rw [List.dropWhile_eq_self_iff.mpr, List.rdropWhile_eq_self_iff.mpr, String.ofList_toList]
  · intro h
    rw [hblank _ (List.getLast_mem h)]
    exact Bool.false_ne_true
  · intro h
    rw [hblank _ (List.getElem_mem h)]
    exact Bool.false_ne_true

/-- `new RegExp(re).test(s)`, for the expressions that are read. -/
def regExpTest (re s : String) : Bool := RegExp.test re.toList s.toList

/-- `path.join` on a POSIX system. -/
def pathJoin (parts : List String) : String :=
  String.ofList (Posix.join (parts.map String.toList))

/-- The properties that every object inherits. None is `undefined`, and none is a
number. -/
def objectPrototype : List String :=
  ["constructor", "__defineGetter__", "__defineSetter__", "hasOwnProperty",
    "__lookupGetter__", "__lookupSetter__", "isPrototypeOf", "propertyIsEnumerable",
    "toString", "valueOf", "__proto__", "toLocaleString"]

namespace Json

/-! ## Coercions -/

/-- Whether a value counts as true in a condition. -/
def truthy : Option Json → Bool
  | none => false
  | some .null => false
  | some (.bool b) => b
  | some (.num n) => n ≠ .nan && n ≠ .finite 0
  | some (.str s) => s ≠ ""
  | some (.arr _) => true
  | some (.obj _) => true

/-- `x || fallback`. -/
def or (x : Option Json) (fallback : Json) : Json :=
  match x with
  | some j => if truthy (some j) then j else fallback
  | none => fallback

/-- `x !== false`. -/
def notFalse : Option Json → Bool
  | some (.bool false) => false
  | _ => true

/-- `x === s` on a text. -/
def equalsText (x : Option Json) (s : String) : Bool :=
  match x with
  | some (.str t) => t = s
  | _ => false

/-- `x === n` on a number. -/
def equalsNumber (x : Option Json) (n : ℕ) : Bool :=
  match x with
  | some (.num (.finite q)) => q = n
  | _ => false

/-- Reading a property: `undefined` where there is none, a type error on
`null` and `undefined`. -/
def get (x : Option Json) (key : String) : Except Exception (Option Json) :=
  match x with
  | none => .error .typeError
  | some .null => .error .typeError
  | some (.obj fields) => .ok (fields.lookup key)
  | some _ => .ok none

/-- Reading a property with `?.`. -/
def get? (x : Option Json) (key : String) : Option Json :=
  match x with
  | some (.obj fields) => fields.lookup key
  | _ => none

theorem get?_of_get {x : Option Json} {key : String} {r : Option Json}
    (h : get x key = .ok r) : get? x key = r := by
  match x with
  | none | some .null => exact absurd h (by simp [get])
  | some (.obj _) | some (.bool _) | some (.num _) | some (.str _)
  | some (.arr _) => exact Except.ok.inj h

def asString : Json → Except Exception String
  | .str s => .ok s
  | _ => .error .typeError

/-- `String(x)`. An object whose own `toString` hides the inherited one
cannot be converted. -/
def toStr (rt : Runtime) : Json → Except Exception String
  | .null => .ok "null"
  | .bool b => .ok (if b then "true" else "false")
  | .num n => .ok (rt.numberToString n)
  | .str s => .ok s
  | .arr elements => do
    let texts ← elementTexts elements
    .ok (",".intercalate texts)
  | .obj fields =>
    if fields.any (fun f => f.1 = "toString") then .error .typeError
    else .ok "[object Object]"
where
  /-- The texts of the elements of an array; `null` has none. -/
  elementTexts : List Json → Except Exception (List String)
    | [] => .ok []
    | x :: xs => do
      let text ← match x with
        | .null => .ok ""
        | x => x.toStr rt
      let texts ← elementTexts xs
      .ok (text :: texts)

/-- `xs.join(sep)` on an array. -/
def join (rt : Runtime) (sep : String) (elements : List Json) :
    Except Exception String := do
  let texts ← toStr.elementTexts rt elements
  .ok (sep.intercalate texts)

/-- `String(x)` where `x` may be `undefined`. -/
def toStrUndefined (rt : Runtime) : Option Json → Except Exception String
  | none => .ok "undefined"
  | some j => j.toStr rt

/-- `Number(x)`. -/
def toNumber (rt : Runtime) : Option Json → Except Exception JsNumber
  | none => .ok .nan
  | some .null => .ok (.finite 0)
  | some (.bool b) => .ok (.finite (if b then 1 else 0))
  | some (.num n) => .ok n
  | some (.str s) => .ok (rt.stringToNumber s)
  | some j => do
    let text ← j.toStr rt
    .ok (rt.stringToNumber text)

/-- The items a value has where it is destructured as a list: the elements of
an array, the characters of a string. -/
def iterate : Option Json → Except Exception (List Json)
  | some (.arr elements) => .ok elements
  | some (.str s) => .ok (s.toList.map (fun c => .str (String.singleton c)))
  | _ => .error .typeError

/-- What is read back after `JSON.stringify` and `JSON.parse`: a number that
is not finite has become `null`. -/
def stored : Json → Json
  | .num (.finite q) => .num (.finite q)
  | .num _ => .null
  | .arr elements => .arr (storedElements elements)
  | .obj fields => .obj (storedFields fields)
  | .null => .null
  | .bool b => .bool b
  | .str s => .str s
where
  /-- The elements of an array as they are read back. -/
  storedElements : List Json → List Json
    | [] => []
    | x :: xs => x.stored :: storedElements xs
  /-- The properties of an object as they are read back. -/
  storedFields : List (String × Json) → List (String × Json)
    | [] => []
    | (key, x) :: fields => (key, x.stored) :: storedFields fields

mutual

/-- **What was read back is stored as it is.** -/
theorem stored_stored : ∀ j : Json, j.stored.stored = j.stored
  | .null => rfl
  | .bool _ => rfl
  | .num .nan => rfl
  | .num (.infinity _) => rfl
  | .num (.finite _) => rfl
  | .str _ => rfl
  | .arr elements => congrArg Json.arr (storedElements_stored elements)
  | .obj fields => congrArg Json.obj (storedFields_stored fields)

theorem storedElements_stored : ∀ elements : List Json,
    stored.storedElements (stored.storedElements elements) = stored.storedElements elements
  | [] => rfl
  | x :: elements => congrArg₂ List.cons (stored_stored x) (storedElements_stored elements)

theorem storedFields_stored : ∀ fields : List (String × Json),
    stored.storedFields (stored.storedFields fields) = stored.storedFields fields
  | [] => rfl
  | (key, x) :: fields =>
    congrArg₂ List.cons (congrArg (Prod.mk key) (stored_stored x)) (storedFields_stored fields)

end

theorem stored_arr (elements : List Json) : (arr elements).stored = .arr (elements.map stored) := by
  refine congrArg Json.arr ?_
  induction elements with
  | nil => rfl
  | cons x elements ih => exact congrArg (x.stored :: ·) ih

/-! ## Conditions on values of a known type -/

@[simp] theorem truthy_str (s : String) :
    truthy (some (.str s)) = decide (s ≠ "") := rfl

@[simp] theorem truthy_bool (b : Bool) : truthy (some (.bool b)) = b := rfl

end Json

/-- A runtime for concrete runs: the tables restricted to ASCII letters and
decimal integers, and a driver that takes numbers, strings and `null`. -/
def sampleRuntime : Runtime where
  toLowerCase s := String.ofList (s.toList.map Char.toLower)
  stringToNumber s :=
    if s.toList.all Char.isDigit then
      .finite (s.toList.foldl (fun n c => n * 10 + (c.toNat - '0'.toNat)) 0 : ℕ)
    else .nan
  numberToString
    | .finite q => toString q.num
    | _ => "NaN"
  parseJson _ := none
  bindable
    | none | some .null | some (.num _) | some (.str _) => true
    | _ => false

end MissionControl
