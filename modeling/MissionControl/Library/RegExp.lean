import MissionControl.Library.Pattern

/-!
# Reading the text of an anchored regular expression

`RegExp.parse` reads expressions of the form `^…$`, character by character,
for the part of the notation with literals, identity escapes, classes of
ranges, groups, alternation inside a group and counted repetition; any other
text is not read (`none`). What is read is a `Pattern`.

Reading is a fold over the characters (`Reader.step`), so a text that is put
together from pieces is read piece by piece. `RegExp.readAll_escape` is the
point of `RegExp.escape`: a text that was escaped is read as itself,
character for character, whatever characters it has.
-/

namespace RegExp

/-- The characters with a meaning of their own in the notation. -/
def syntaxCharacters : List Char :=
  ['.', '*', '+', '?', '^', '$', '\x7b', '\x7d', '(', ')', '|', '[', ']', '\\']

/-- **Quoting**: a backslash before every character with a meaning of its
own. -/
def escape (s : List Char) : List Char :=
  s.flatMap (fun c => if c ∈ syntaxCharacters then ['\\', c] else [c])

/-- A group being read: its finished alternatives and the items of the
current one, both latest first. -/
structure Group where
  alts : List Pattern
  items : List Pattern

/-- What the reader is in the middle of. -/
inductive Mode where
  | plain
  /-- An escape: the next character stands for itself. -/
  | escaped
  /-- A class: the ranges so far, a character that may begin a range, and
  whether the dash of that range has been read. -/
  | cls (ranges : List (Char × Char)) (first : Option Char) (dash : Bool)
  | lower (lo : Option ℕ)
  | upper (lo : ℕ) (hi : Option ℕ)
  /-- The end of the expression has been read. -/
  | done

/-- The reader: the open groups around the current one, innermost first, the
current group, and the mode. -/
structure Reader where
  outer : List Group
  here : Group
  /-- What the reader is in the middle of. -/
  mode : Mode

/-- The pattern of a group that is complete. -/
def Group.pattern (g : Group) : Pattern :=
  g.alts.foldl (fun acc p => .alt p acc) (Pattern.after g.items .empty)

namespace Reader

def start : Reader := ⟨[], ⟨[], []⟩, .plain⟩

def push (r : Reader) (p : Pattern) : Reader :=
  { r with here := { r.here with items := p :: r.here.items }, mode := .plain }

/-- The last item of the current alternative, repeated. -/
def repeatLast (r : Reader) (lo hi : ℕ) : Option Reader :=
  match r.here.items with
  | [] => none
  | p :: items =>
    some { r with
      here := { r.here with items := .rep p lo hi :: items }, mode := .plain }

def digit (n : Option ℕ) (c : Char) : Option ℕ :=
  some (n.getD 0 * 10 + (c.toNat - '0'.toNat))

def plainStep (r : Reader) (c : Char) : Option Reader :=
  if c = '\\' then some { r with mode := .escaped }
  else if c = '[' then some { r with mode := .cls [] none false }
  else if c = '(' then
    some { r with outer := r.here :: r.outer, here := ⟨[], []⟩ }
  else if c = ')' then
    match r.outer with
    | [] => none
    | g :: outer =>
      some { r with
        outer := outer
        here := { g with items := r.here.pattern :: g.items } }
  else if c = '|' then
    if r.outer.isEmpty then none
    else some { r with
      here := ⟨Pattern.after r.here.items .empty :: r.here.alts, []⟩ }
  else if c = '\x7b' then some { r with mode := .lower none }
  else if c = '$' then
    if r.outer.isEmpty then some { r with mode := .done } else none
  else if c ∈ syntaxCharacters then none
  else some (r.push (.char c))

def classStep (r : Reader) (ranges : List (Char × Char))
    (first : Option Char) (dash : Bool) (c : Char) : Option Reader :=
  match first, dash with
  | none, _ =>
    if c = ']' then some (r.push (.cls ranges))
    else if c = '\\' then none
    else some { r with mode := .cls ranges (some c) false }
  | some a, false =>
    if c = ']' then some (r.push (.cls ((a, a) :: ranges)))
    else if c = '\\' then none
    else if c = '-' then some { r with mode := .cls ranges (some a) true }
    else some { r with mode := .cls ((a, a) :: ranges) (some c) false }
  | some a, true =>
    if c = ']' then some (r.push (.cls (('-', '-') :: (a, a) :: ranges)))
    else if c = '\\' then none
    else some { r with mode := .cls ((a, c) :: ranges) none false }

/-- **One character of the expression.** -/
def step (r : Reader) (c : Char) : Option Reader :=
  match r.mode with
  | .plain => r.plainStep c
  | .escaped =>
    if c ∈ syntaxCharacters ∨ c = '/' then some (r.push (.char c)) else none
  | .cls ranges first dash => r.classStep ranges first dash c
  | .lower lo =>
    if c.isDigit then some { r with mode := .lower (digit lo c) }
    else match lo with
      | none => none
      | some n =>
        if c = ',' then some { r with mode := .upper n none }
        else if c = '\x7d' then r.repeatLast n n
        else none
  | .upper lo hi =>
    if c.isDigit then some { r with mode := .upper lo (digit hi c) }
    else match hi with
      | none => none
      | some n => if c = '\x7d' then r.repeatLast lo n else none
  | .done => none

def readAll (r : Reader) : List Char → Option Reader
  | [] => some r
  | c :: cs => (r.step c).bind (fun r' => r'.readAll cs)

theorem readAll_append (r : Reader) (s t : List Char) :
    r.readAll (s ++ t) = (r.readAll s).bind (fun r' => r'.readAll t) := by
  induction s generalizing r with
  | nil => rfl
  | cons c s ih =>
    rw [List.cons_append, readAll, readAll]
    cases r.step c with
    | none => rfl
    | some r' => exact ih r'

end Reader

/-- **The pattern of an anchored expression**, `none` where the text is
outside the notation read here. -/
def parse (text : List Char) : Option Pattern :=
  match text with
  | '^' :: body =>
    match Reader.start.readAll body with
    | some ⟨[], g, .done⟩ => some g.pattern
    | _ => none
  | _ => none

/-- **Testing a text against an expression.** -/
def test (text : List Char) (s : List Char) : Bool :=
  match parse text with
  | some p => p.test s
  | none => false

theorem test_eq_true_iff {text : List Char} {p : Pattern}
    (h : parse text = some p) (s : List Char) :
    test text s = true ↔ p.Matches s := by
  rw [test, h]
  exact p.test_iff s

/-! ## An escaped text is read as itself -/

open Reader in
theorem readAll_escape_char (outer : List Group) (g : Group) (c : Char) :
    (Reader.mk outer g .plain).readAll
        (if c ∈ syntaxCharacters then ['\\', c] else [c])
      = some ((Reader.mk outer g .plain).push (.char c)) := by
  by_cases hc : c ∈ syntaxCharacters
  · rw [if_pos hc]
    show (((Reader.mk outer g .escaped).step c).bind some) = _
    simp only [step, hc, true_or, if_true, Option.bind_some]
    rfl
  · rw [if_neg hc]
    have hne : ∀ d ∈ syntaxCharacters, c ≠ d := fun d hd h => hc (h ▸ hd)
    simp only [readAll, step, plainStep, hc, if_false,
      hne '\\' (by decide), hne '[' (by decide), hne '(' (by decide),
      hne ')' (by decide), hne '|' (by decide), hne '\x7b' (by decide),
      hne '$' (by decide), Option.bind_some]

/-- **An escaped text is read as itself**: the reader has taken in each of
its characters as a literal, and nothing else. -/
theorem readAll_escape (outer : List Group) (alts items : List Pattern)
    (s : List Char) :
    (Reader.mk outer ⟨alts, items⟩ .plain).readAll (escape s)
      = some ⟨outer, ⟨alts, (s.map Pattern.char).reverse ++ items⟩, .plain⟩ := by
  induction s generalizing items with
  | nil => rfl
  | cons c s ih =>
    rw [escape, List.flatMap_cons, Reader.readAll_append,
      readAll_escape_char, Option.bind_some]
    show (Reader.mk outer ⟨alts, .char c :: items⟩ .plain).readAll (escape s) = _
    rw [ih, List.map_cons, List.reverse_cons, List.append_assoc,
      List.singleton_append]

/-- An expression that begins with an escaped text: the rest is read after
the literal characters of the text. -/
theorem parse_escape_append (s rest : List Char) :
    parse ('^' :: (escape s ++ rest))
      = match (Reader.mk [] ⟨[], (s.map Pattern.char).reverse⟩ .plain).readAll
          rest with
        | some ⟨[], g, .done⟩ => some g.pattern
        | _ => none := by
  have h := readAll_escape [] [] [] s
  rw [List.append_nil] at h
  show (match (Reader.mk [] ⟨[], []⟩ .plain).readAll (escape s ++ rest) with
    | some ⟨[], g, .done⟩ => some g.pattern
    | _ => none) = _
  rw [Reader.readAll_append, h, Option.bind_some]

end RegExp
