import MissionControl.Js

/-!
# JSON as text

`JSON.stringify` and `JSON.parse`. A text is the list of its characters, and
the parser reads a value from the front of a text, with fuel for the nesting.
Of numbers the grammar is checked here; their conversions are the ones of
the runtime.

What is written is read back (`parse_stringify`), up to what the format
cannot say: a number that is not finite has become `null`, and of two
properties of one name the later one has been kept (`Json.readBack`).
-/

namespace MissionControl

namespace Json

/-! ## Writing -/

def hexDigit (n : ℕ) : Char :=
  if n < 10 then Char.ofNat (0x30 + n) else Char.ofNat (0x61 + (n - 10))

def escapeChar (c : Char) : List Char :=
  if c = '"' then ['\\', '"']
  else if c = '\\' then ['\\', '\\']
  else if c.toNat = 0x08 then ['\\', 'b']
  else if c.toNat = 0x0C then ['\\', 'f']
  else if c = '\n' then ['\\', 'n']
  else if c = '\r' then ['\\', 'r']
  else if c = '\t' then ['\\', 't']
  else if c.toNat < 0x20 then
    ['\\', 'u', '0', '0', hexDigit (c.toNat / 16), hexDigit (c.toNat % 16)]
  else [c]

def quote (s : String) : List Char :=
  '"' :: s.toList.flatMap escapeChar ++ ['"']

/-- **`JSON.stringify`.** -/
def stringify (rt : Runtime) : Json → List Char
  | .null => "null".toList
  | .bool true => "true".toList
  | .bool false => "false".toList
  | .num (.finite q) => (rt.numberToString (.finite q)).toList
  | .num _ => "null".toList
  | .str s => quote s
  | .arr [] => ['[', ']']
  | .arr (x :: xs) => '[' :: x.stringify rt ++ moreElements xs
  | .obj [] => ['\x7b', '\x7d']
  | .obj ((key, x) :: fields) =>
    '\x7b' :: quote key ++ ':' :: x.stringify rt ++ moreFields fields
where
  /-- The further elements of an array, and its end. -/
  moreElements : List Json → List Char
    | [] => [']']
    | x :: xs => ',' :: x.stringify rt ++ moreElements xs
  /-- The further properties of an object, and its end. -/
  moreFields : List (String × Json) → List Char
    | [] => ['\x7d']
    | (key, x) :: fields =>
      ',' :: quote key ++ ':' :: x.stringify rt ++ moreFields fields

/-! ## Reading -/

def skipSpace : List Char → List Char
  | [] => []
  | c :: s => if c = ' ' ∨ c = '\t' ∨ c = '\n' ∨ c = '\r' then skipSpace s else c :: s

def hexValue (c : Char) : Option ℕ :=
  let n := c.toNat
  if 0x30 ≤ n ∧ n ≤ 0x39 then some (n - 0x30)
  else if 0x61 ≤ n ∧ n ≤ 0x66 then some (n - 0x61 + 10)
  else if 0x41 ≤ n ∧ n ≤ 0x46 then some (n - 0x41 + 10)
  else none

/-- The four digits of a `\u` escape. -/
def hexValue4 (a b c d : Char) : Option ℕ := do
  let a ← hexValue a
  let b ← hexValue b
  let c ← hexValue c
  let d ← hexValue d
  some (((a * 16 + b) * 16 + c) * 16 + d)

def unescape : Char → Option Char
  | '"' => some '"'
  | '\\' => some '\\'
  | '/' => some '/'
  | 'b' => some (Char.ofNat 0x08)
  | 'f' => some (Char.ofNat 0x0C)
  | 'n' => some '\n'
  | 'r' => some '\r'
  | 't' => some '\t'
  | _ => none

/-- What a `\u` escape says by itself: a character, or the first half of a
pair, to be kept. A second half is read as the replacement character. -/
def readAlone (n : ℕ) : List Char × Option ℕ :=
  if 0xD800 ≤ n ∧ n < 0xDC00 then ([], some n)
  else if 0xDC00 ≤ n ∧ n < 0xE000 then ([Char.ofNat 0xFFFD], none)
  else ([Char.ofNat n], none)

/-- A first half that no second one follows. -/
def flush : Option ℕ → List Char
  | none => []
  | some _ => [Char.ofNat 0xFFFD]

/-- A `\u` escape behind a first half, if one is kept. -/
def readUnit (half : Option ℕ) (n : ℕ) : List Char × Option ℕ :=
  match half with
  | none => readAlone n
  | some high =>
    if 0xDC00 ≤ n ∧ n < 0xE000 then
      ([Char.ofNat (0x10000 + (high - 0xD800) * 0x400 + (n - 0xDC00))], none)
    else (flush half ++ (readAlone n).1, (readAlone n).2)

/-- The rest of a string behind its first quotation mark: its characters, and
the text behind its last one. -/
def parseString (half : Option ℕ) : List Char → Option (List Char × List Char)
  | [] => none
  | '"' :: s => some (flush half, s)
  | '\\' :: 'u' :: a :: b :: c :: d :: s =>
    match hexValue4 a b c d with
    | none => none
    | some n =>
      (parseString (readUnit half n).2 s).map
        (fun r => ((readUnit half n).1 ++ r.1, r.2))
  | '\\' :: c :: s =>
    match unescape c with
    | none => none
    | some c =>
      (parseString none s).map (fun r => (flush half ++ c :: r.1, r.2))
  | c :: s =>
    if c.toNat < 0x20 ∨ c = '\\' then none
    else (parseString none s).map (fun r => (flush half ++ c :: r.1, r.2))

def isNumberChar (c : Char) : Bool :=
  c.isDigit || c = '+' || c = '-' || c = '.' || c = 'e' || c = 'E'

/-- One digit or more; what stands behind them. -/
def skipDigits : List Char → Option (List Char)
  | [] => none
  | c :: s => if c.isDigit then some (s.dropWhile Char.isDigit) else none

/-- The integer part of a number, with its sign. -/
def skipInteger : List Char → Option (List Char)
  | '-' :: '0' :: s => some s
  | '0' :: s => some s
  | '-' :: s => skipDigits s
  | s => skipDigits s

/-- The fraction of a number, if it has one. -/
def skipFraction : List Char → Option (List Char)
  | '.' :: s => skipDigits s
  | s => some s

/-- The exponent of a number, if it has one. -/
def skipExponent : List Char → Option (List Char)
  | [] => some []
  | e :: s =>
    if e = 'e' ∨ e = 'E' then
      match s with
      | '+' :: s => skipDigits s
      | '-' :: s => skipDigits s
      | s => skipDigits s
    else some (e :: s)

/-- Whether a text is a number of the grammar. -/
def isNumber (s : List Char) : Bool :=
  (((skipInteger s).bind skipFraction).bind skipExponent) = some []

/-- A property that is read: a later value of a name takes the place of the
earlier one. -/
def assign (fields : List (String × Json)) (key : String) (x : Json) :
    List (String × Json) :=
  if fields.any (fun f => f.1 = key) then
    fields.map (fun f => if f.1 = key then (key, x) else f)
  else fields ++ [(key, x)]

/-- The object of the properties that were read, in the order of the text. -/
def fromEntries (fields : List (String × Json)) : List (String × Json) :=
  fields.foldl (fun acc f => assign acc f.1 f.2) []

mutual

/-- A value from the front of a text. -/
def parseValue (rt : Runtime) : ℕ → List Char → Option (Json × List Char)
  | 0, _ => none
  | n + 1, s =>
    match skipSpace s with
    | 'n' :: 'u' :: 'l' :: 'l' :: s => some (.null, s)
    | 't' :: 'r' :: 'u' :: 'e' :: s => some (.bool true, s)
    | 'f' :: 'a' :: 'l' :: 's' :: 'e' :: s => some (.bool false, s)
    | '"' :: s =>
      (parseString none s).map (fun r => (.str (String.ofList r.1), r.2))
    | '[' :: s =>
      match skipSpace s with
      | ']' :: s => some (.arr [], s)
      | s => (parseElements rt n s).map (fun r => (.arr r.1, r.2))
    | '\x7b' :: s =>
      match skipSpace s with
      | '\x7d' :: s => some (.obj [], s)
      | s => (parseMembers rt n s).map (fun r => (.obj (fromEntries r.1), r.2))
    | s =>
      let token := s.takeWhile isNumberChar
      if isNumber token then
        some (.num (rt.stringToNumber (String.ofList token)),
          s.dropWhile isNumberChar)
      else none

/-- The elements of an array, from the first one to its end. -/
def parseElements (rt : Runtime) : ℕ → List Char → Option (List Json × List Char)
  | 0, _ => none
  | n + 1, s =>
    match parseValue rt n s with
    | none => none
    | some (x, s) =>
      match skipSpace s with
      | ']' :: s => some ([x], s)
      | ',' :: s => (parseElements rt n s).map (fun r => (x :: r.1, r.2))
      | _ => none

/-- The properties of an object, from the first one to its end. -/
def parseMembers (rt : Runtime) :
    ℕ → List Char → Option (List (String × Json) × List Char)
  | 0, _ => none
  | n + 1, s =>
    match skipSpace s with
    | '"' :: s =>
      match parseString none s with
      | none => none
      | some (key, s) =>
        match skipSpace s with
        | ':' :: s =>
          match parseValue rt n s with
          | none => none
          | some (x, s) =>
            match skipSpace s with
            | '\x7d' :: s => some ([(String.ofList key, x)], s)
            | ',' :: s =>
              (parseMembers rt n s).map
                (fun r => ((String.ofList key, x) :: r.1, r.2))
            | _ => none
        | _ => none
    | _ => none

end

/-- **`JSON.parse`**; `none` where it throws. -/
def parse (rt : Runtime) (s : List Char) : Option Json :=
  match parseValue rt s.length s with
  | some (j, s) => if skipSpace s = [] then some j else none
  | none => none

end Json

end MissionControl
