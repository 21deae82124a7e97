import MissionControl.JsonText
import MissionControl.Library.Utf8

/-!
# JSON texts are read back

`parse_stringify`: what is written is read back, up to what the format
cannot say – a number that is not finite has become `null`, and of two
properties of one name the later value is kept (`Json.readBack`). The one
thing asked of the runtime is that it reads the numbers it writes
(`NumbersRead`).

A text that was damaged in the sense of `Utf8.Damages` is still the text of
some value, since damage only goes to characters inside strings; but it is
read back as the value that was written only if nothing was damaged
(`eq_of_damages`).
-/

namespace MissionControl

namespace Json

/-! ## Strings -/

theorem hexValue_hexDigit : ∀ n < 16, hexValue (hexDigit n) = some n := by
  decide

theorem parseString_self {c : Char} (h₁ : c ≠ '"') (h₂ : c ≠ '\\')
    (h₃ : ¬ c.toNat < 0x20) (s : List Char) :
    parseString none (c :: s)
      = (parseString none s).map (fun r => (c :: r.1, r.2)) := by
  rw [parseString.eq_def]
  split
  · contradiction
  · next heq => exact absurd (List.cons.inj heq).1 h₁
  · next heq => exact absurd (List.cons.inj heq).1 h₂
  · next heq => exact absurd (List.cons.inj heq).1 h₂
  · next heq =>
    obtain ⟨rfl, rfl⟩ := List.cons.inj heq
    rw [if_neg (not_or.mpr ⟨h₃, h₂⟩)]
    rfl

theorem parseString_escape {e c : Char} (he : e ≠ 'u') (h : unescape e = some c)
    (s : List Char) : parseString none ('\\' :: e :: s)
      = (parseString none s).map (fun r => (c :: r.1, r.2)) := by
  rw [parseString.eq_def]
  split
  · contradiction
  · next heq => exact absurd (List.cons.inj heq).1 (by decide)
  · next heq =>
    exact absurd (List.cons.inj (List.cons.inj heq).2).1 he
  · next heq =>
    obtain ⟨rfl, rfl⟩ := List.cons.inj (List.cons.inj heq).2
    rw [h]
    rfl
  · next hne heq =>
    obtain ⟨rfl, rfl⟩ := List.cons.inj heq
    exact absurd rfl (hne e s rfl)

/-- **An escaped character is read back.** -/
theorem parseString_escapeChar (c : Char) (s : List Char) :
    parseString none (escapeChar c ++ s)
      = (parseString none s).map (fun r => (c :: r.1, r.2)) := by
  have hself : ∀ n, c.toNat = n → Char.ofNat n = c := by
    rintro n rfl
    exact Char.ofNat_toNat c
  unfold escapeChar
  split
  · next h => exact parseString_escape (by decide) (by rw [h]; rfl) s
  split
  · next h => exact parseString_escape (by decide) (by rw [h]; rfl) s
  split
  · next h => exact parseString_escape (by decide) (by rw [← hself _ h]; rfl) s
  split
  · next h => exact parseString_escape (by decide) (by rw [← hself _ h]; rfl) s
  split
  · next h => exact parseString_escape (by decide) (by rw [h]; rfl) s
  split
  · next h => exact parseString_escape (by decide) (by rw [h]; rfl) s
  split
  · next h => exact parseString_escape (by decide) (by rw [h]; rfl) s
  split
  · next h =>
    -- a control character: four digits, the first two of them zero
    have hhigh := hexValue_hexDigit (c.toNat / 16) (by omega)
    have hlow := hexValue_hexDigit (c.toNat % 16) (by omega)
    have hdigits : hexValue4 '0' '0' (hexDigit (c.toNat / 16))
        (hexDigit (c.toNat % 16)) = some c.toNat := by
      unfold hexValue4
      rw [hhigh, hlow, show hexValue '0' = some 0 from rfl]
      show some _ = some _
      congr 1
      omega
    have hread : readUnit none c.toNat = ([c], none) := by
      show readAlone c.toNat = _
      unfold readAlone
      rw [if_neg (by omega), if_neg (by omega), Char.ofNat_toNat]
    show parseString none ('\\' :: 'u' :: '0' :: '0' :: _ :: _ :: s) = _
    rw [parseString]
    simp only [hdigits, hread]
    rfl
  · next h₁ h₂ _ _ _ _ _ h₃ => exact parseString_self h₁ h₂ h₃ s

theorem parseString_flatMap (s r : List Char) :
    parseString none (s.flatMap escapeChar ++ '"' :: r) = some (s, r) := by
  induction s with
  | nil => rfl
  | cons c s ih =>
    rw [List.flatMap_cons, List.append_assoc, parseString_escapeChar, ih]
    rfl

/-! ## Tokens -/

/-- The text of a value goes on with no character of a number. -/
def Stops (r : List Char) : Prop := ∀ c s, r = c :: s → isNumberChar c = false

theorem stops_nil : Stops [] := fun _ _ h => nomatch h

theorem stops_cons {c : Char} {s : List Char} (h : isNumberChar c = false) :
    Stops (c :: s) := by
  intro c' s' heq
  obtain ⟨rfl, -⟩ := List.cons.inj heq
  exact h

theorem skipSpace_cons {c : Char} (s : List Char)
    (h : ¬ (c = ' ' ∨ c = '\t' ∨ c = '\n' ∨ c = '\r')) :
    skipSpace (c :: s) = c :: s := if_neg h

theorem skipDigits_cons {c : Char} {s r : List Char}
    (h : skipDigits (c :: s) = some r) : c.isDigit = true := by
  by_contra hc
  simp [skipDigits, hc] at h

theorem isNumber_head {c : Char} {s : List Char} (h : isNumber (c :: s) = true) :
    c = '-' ∨ c.isDigit = true := by
  unfold isNumber at h
  cases hint : skipInteger (c :: s) with
  | none => rw [hint] at h; simp at h
  | some r =>
    unfold skipInteger at hint
    split at hint
    · next heq => exact Or.inl (List.cons.inj heq).1
    · next heq => exact Or.inr ((List.cons.inj heq).1 ▸ by decide)
    · next heq => exact Or.inl (List.cons.inj heq).1
    · exact Or.inr (skipDigits_cons hint)

theorem isNumber_ne_nil {s : List Char} (h : isNumber s = true) : s ≠ [] := by
  rintro rfl
  exact absurd h (by decide)

theorem takeWhile_token {token r : List Char}
    (h : ∀ c ∈ token, isNumberChar c = true) (hr : Stops r) :
    (token ++ r).takeWhile isNumberChar = token
      ∧ (token ++ r).dropWhile isNumberChar = r := by
  have hrest : r.takeWhile isNumberChar = [] ∧ r.dropWhile isNumberChar = r := by
    cases r with
    | nil => exact ⟨rfl, rfl⟩
    | cons c s =>
      have hc := hr c s rfl
      exact ⟨List.takeWhile_cons_of_neg (by simp [hc]),
        List.dropWhile_cons_of_neg (by simp [hc])⟩
  rw [List.takeWhile_append_of_pos h, List.dropWhile_append_of_pos h, hrest.1,
    hrest.2, List.append_nil]
  exact ⟨rfl, rfl⟩

/-! ## Values -/

def numbers : Json → List ℚ
  | .num (.finite q) => [q]
  | .arr elements => numbersOfElements elements
  | .obj fields => numbersOfFields fields
  | .num _ => []
  | .null => []
  | .bool _ => []
  | .str _ => []
where
  /-- The finite numbers in the elements of an array. -/
  numbersOfElements : List Json → List ℚ
    | [] => []
    | x :: xs => x.numbers ++ numbersOfElements xs
  /-- The finite numbers in the properties of an object. -/
  numbersOfFields : List (String × Json) → List ℚ
    | [] => []
    | (_, x) :: fields => x.numbers ++ numbersOfFields fields

/-- **The runtime reads the numbers that it writes**: `String(q)` is a number
of the grammar, and `Number` gives it back. -/
def NumbersRead (rt : Runtime) (qs : List ℚ) : Prop :=
  ∀ q ∈ qs, isNumber (rt.numberToString (.finite q)).toList = true
    ∧ (∀ c ∈ (rt.numberToString (.finite q)).toList, isNumberChar c = true)
    ∧ rt.stringToNumber (rt.numberToString (.finite q)) = .finite q

/-- **The value that is read back.** -/
def readBack : Json → Json
  | .num (.finite q) => .num (.finite q)
  | .num _ => .null
  | .arr elements => .arr (readBackElements elements)
  | .obj fields => .obj (fromEntries (readBackFields fields))
  | .null => .null
  | .bool b => .bool b
  | .str s => .str s
where
  /-- The elements of an array as they are read back. -/
  readBackElements : List Json → List Json
    | [] => []
    | x :: xs => x.readBack :: readBackElements xs
  /-- The properties of an object as they are read back, one by one. -/
  readBackFields : List (String × Json) → List (String × Json)
    | [] => []
    | (key, x) :: fields => (key, x.readBack) :: readBackFields fields

theorem length_readBackFields (fields : List (String × Json)) :
    (readBack.readBackFields fields).length = fields.length := by
  induction fields with
  | nil => rfl
  | cons f fields ih =>
    rw [readBack.readBackFields, List.length_cons, List.length_cons, ih]

/-! ## Reading a value back -/

variable {rt : Runtime}

/-- **What a text starts with**: no white space, and no end of an array. -/
theorem stringify_head {j : Json} (hj : NumbersRead rt j.numbers) :
    ∃ c s, stringify rt j = c :: s
      ∧ ¬ (c = ' ' ∨ c = '\t' ∨ c = '\n' ∨ c = '\r') ∧ c ≠ ']' := by
  cases j with
  | null => exact ⟨'n', _, rfl, by decide, by decide⟩
  | bool b =>
    cases b with
    | false => exact ⟨'f', _, rfl, by decide, by decide⟩
    | true => exact ⟨'t', _, rfl, by decide, by decide⟩
  | num x =>
    cases x with
    | nan => exact ⟨'n', _, rfl, by decide, by decide⟩
    | infinity b => exact ⟨'n', _, rfl, by decide, by decide⟩
    | finite q =>
      obtain ⟨hnumber, -, -⟩ := hj q (List.mem_singleton_self q)
      obtain ⟨c, s, heq⟩ := List.exists_cons_of_ne_nil (isNumber_ne_nil hnumber)
      refine ⟨c, s, heq, ?_, ?_⟩
      · rw [heq] at hnumber
        rintro (rfl | rfl | rfl | rfl) <;>
          exact absurd (isNumber_head hnumber) (by decide)
      · rintro rfl
        rw [heq] at hnumber
        exact absurd (isNumber_head hnumber) (by decide)
  | str s => exact ⟨'"', _, rfl, by decide, by decide⟩
  | arr elements =>
    cases elements with
    | nil => exact ⟨'[', _, rfl, by decide, by decide⟩
    | cons x xs => exact ⟨'[', _, rfl, by decide, by decide⟩
  | obj fields =>
    cases fields with
    | nil => exact ⟨'\x7b', _, rfl, by decide, by decide⟩
    | cons f fields => exact ⟨'\x7b', _, rfl, by decide, by decide⟩

theorem skipSpace_stringify {j : Json} (hj : NumbersRead rt j.numbers)
    (r : List Char) :
    skipSpace (stringify rt j ++ r) = stringify rt j ++ r := by
  obtain ⟨c, s, heq, hc, -⟩ := stringify_head hj
  rw [heq, List.cons_append, skipSpace_cons _ hc]

theorem length_stringify_pos {j : Json} (hj : NumbersRead rt j.numbers) :
    0 < (stringify rt j).length := by
  obtain ⟨c, s, heq, -⟩ := stringify_head hj
  rw [heq]
  exact Nat.succ_pos _

theorem stops_moreElements (xs : List Json) (r : List Char) :
    Stops (stringify.moreElements rt xs ++ r) := by
  cases xs with
  | nil => exact stops_cons (by decide)
  | cons x xs => exact stops_cons (by decide)

theorem stops_moreFields (fields : List (String × Json)) (r : List Char) :
    Stops (stringify.moreFields rt fields ++ r) := by
  cases fields with
  | nil => exact stops_cons (by decide)
  | cons f fields => exact stops_cons (by decide)

theorem parseValue_number {q : ℚ} (hq : NumbersRead rt [q]) (n : ℕ)
    {r : List Char} (hr : Stops r) :
    parseValue rt (n + 1) ((rt.numberToString (.finite q)).toList ++ r)
      = some (.num (.finite q), r) := by
  obtain ⟨hnumber, hchars, hread⟩ := hq q (List.mem_singleton_self q)
  obtain ⟨htake, hdrop⟩ := takeWhile_token hchars hr
  obtain ⟨c, s, heq⟩ := List.exists_cons_of_ne_nil (isNumber_ne_nil hnumber)
  have hskip : skipSpace ((rt.numberToString (.finite q)).toList ++ r)
      = (rt.numberToString (.finite q)).toList ++ r :=
    @skipSpace_stringify rt (.num (.finite q)) hq r
  -- no other value starts with a sign or a digit
  have hother : ∀ {d : Char} {t : List Char}, ¬ (d = '-' ∨ d.isDigit = true) →
      (rt.numberToString (.finite q)).toList ++ r ≠ d :: t := by
    intro d t hd hcontra
    rw [heq, List.cons_append] at hcontra
    obtain ⟨rfl, -⟩ := List.cons.inj hcontra
    exact hd (isNumber_head (heq ▸ hnumber))
  rw [parseValue, hskip]
  split
  · next h => exact absurd h (hother (by decide))
  · next h => exact absurd h (hother (by decide))
  · next h => exact absurd h (hother (by decide))
  · next h => exact absurd h (hother (by decide))
  · next h => exact absurd h (hother (by decide))
  · next h => exact absurd h (hother (by decide))
  · dsimp only
    rw [htake, hdrop, if_pos hnumber, String.ofList_toList, hread]

mutual

/-- **A value is read back** from the front of a text. -/
theorem parseValue_stringify : ∀ (j : Json) (n : ℕ) (r : List Char),
    NumbersRead rt j.numbers → Stops r → (stringify rt j).length ≤ n →
    parseValue rt n (stringify rt j ++ r) = some (j.readBack, r)
  | j, 0, r, hj, _, hn => absurd (length_stringify_pos hj) (by omega)
  | .null, n + 1, r, _, _, _ => rfl
  | .bool true, n + 1, r, _, _, _ => rfl
  | .bool false, n + 1, r, _, _, _ => rfl
  | .num .nan, n + 1, r, _, _, _ => rfl
  | .num (.infinity _), n + 1, r, _, _, _ => rfl
  | .num (.finite q), n + 1, r, hj, hr, _ => parseValue_number hj n hr
  | .str s, n + 1, r, _, _, _ => by
    show (parseString none ((s.toList.flatMap escapeChar ++ ['"']) ++ r)).map _ = _
    rw [List.append_assoc, List.singleton_append, parseString_flatMap]
    simp [readBack]
  | .arr [], n + 1, r, _, _, _ => rfl
  | .arr (x :: xs), n + 1, r, hj, hr, hn => by
    have hx : NumbersRead rt x.numbers := fun q hq =>
      hj q (List.mem_append_left _ hq)
    have hxs : NumbersRead rt (numbers.numbersOfElements xs) := fun q hq =>
      hj q (List.mem_append_right _ hq)
    have hlength : (stringify rt (.arr (x :: xs))).length
        = (stringify rt x).length + (stringify.moreElements rt xs).length + 1 := by
      show ('[' :: stringify rt x ++ stringify.moreElements rt xs).length = _
      rw [List.length_append, List.length_cons]
      omega
    have helements := parseElements_stringify xs x n r
      (fun m r' => parseValue_stringify x m r' hx) hx hxs (by omega)
    obtain ⟨c, s, heq, hc, hend⟩ := stringify_head hx
    show (match skipSpace ((stringify rt x ++ stringify.moreElements rt xs) ++ r)
      with
      | ']' :: s => _
      | s => _) = _
    rw [List.append_assoc, skipSpace_stringify hx]
    split
    · -- the text of an element does not begin as the end of an array does
      next h =>
      rw [heq] at h
      exact absurd (List.cons.inj h).1 hend
    · rw [helements]
      rfl
  | .obj [], n + 1, r, _, _, _ => rfl
  | .obj ((key, x) :: fields), n + 1, r, hj, hr, hn => by
    have hx : NumbersRead rt x.numbers := fun q hq =>
      hj q (List.mem_append_left _ hq)
    have hfields : NumbersRead rt (numbers.numbersOfFields fields) := fun q hq =>
      hj q (List.mem_append_right _ hq)
    have hlength : (stringify rt (.obj ((key, x) :: fields))).length
        = (quote key).length + (stringify rt x).length
          + (stringify.moreFields rt fields).length + 2 := by
      show ('\x7b' :: quote key ++ ':' :: stringify rt x
        ++ stringify.moreFields rt fields).length = _
      simp only [List.length_cons, List.length_append]
      omega
    have hmembers := parseMembers_stringify fields key x n r
      (fun m r' => parseValue_stringify x m r' hx) hx hfields (by omega)
    show (parseMembers rt n ((quote key ++ ':' :: stringify rt x
      ++ stringify.moreFields rt fields) ++ r)).map _ = _
    rw [List.append_assoc, List.append_assoc, List.cons_append, hmembers]
    rfl

theorem parseElements_stringify : ∀ (xs : List Json) (x : Json) (n : ℕ)
    (r : List Char),
    (∀ (m : ℕ) (r' : List Char), Stops r' → (stringify rt x).length ≤ m →
      parseValue rt m (stringify rt x ++ r') = some (x.readBack, r')) →
    NumbersRead rt x.numbers →
    NumbersRead rt (numbers.numbersOfElements xs) →
    (stringify rt x).length + (stringify.moreElements rt xs).length ≤ n →
    parseElements rt n (stringify rt x ++ (stringify.moreElements rt xs ++ r))
      = some (x.readBack :: readBack.readBackElements xs, r)
  | _, _, 0, _, _, hx, _, hn => absurd (length_stringify_pos hx) (by omega)
  | [], x, n + 1, r, hx, _, _, hn => by
    have hlength : (stringify.moreElements rt []).length = 1 := rfl
    rw [parseElements, hx n _ (stops_moreElements [] r) (by omega)]
    rfl
  | y :: ys, x, n + 1, r, hx, _, hys, hn => by
    have hy : NumbersRead rt y.numbers := fun q hq =>
      hys q (List.mem_append_left _ hq)
    have hmore : NumbersRead rt (numbers.numbersOfElements ys) := fun q hq =>
      hys q (List.mem_append_right _ hq)
    have hlength : (stringify.moreElements rt (y :: ys)).length
        = (stringify rt y).length + (stringify.moreElements rt ys).length + 1 := by
      simp [stringify.moreElements]
    rw [parseElements, hx n _ (stops_moreElements (y :: ys) r) (by omega)]
    show (parseElements rt n
      ((stringify rt y ++ stringify.moreElements rt ys) ++ r)).map _ = _
    rw [List.append_assoc, parseElements_stringify ys y n r
      (fun m r' => parseValue_stringify y m r' hy) hy hmore (by omega)]
    rfl

theorem parseMembers_stringify : ∀ (fields : List (String × Json)) (key : String)
    (x : Json) (n : ℕ) (r : List Char),
    (∀ (m : ℕ) (r' : List Char), Stops r' → (stringify rt x).length ≤ m →
      parseValue rt m (stringify rt x ++ r') = some (x.readBack, r')) →
    NumbersRead rt x.numbers →
    NumbersRead rt (numbers.numbersOfFields fields) →
    (quote key).length + (stringify rt x).length
      + (stringify.moreFields rt fields).length ≤ n →
    parseMembers rt n
      (quote key ++ ':' :: (stringify rt x ++ (stringify.moreFields rt fields ++ r)))
      = some ((key, x.readBack) :: readBack.readBackFields fields, r)
  | _, _, _, 0, _, _, hx, _, hn => absurd (length_stringify_pos hx) (by omega)
  | fields, key, x, n + 1, r, hx, _, hfields, hn => by
    have hkey : parseString none (key.toList.flatMap escapeChar
        ++ '"' :: ':' :: (stringify rt x ++ (stringify.moreFields rt fields ++ r)))
        = some (key.toList, ':' :: (stringify rt x
          ++ (stringify.moreFields rt fields ++ r))) :=
      parseString_flatMap _ _
    have hquote : 0 < (quote key).length := Nat.succ_pos _
    show (match parseString none ((key.toList.flatMap escapeChar ++ ['"'])
      ++ ':' :: (stringify rt x ++ (stringify.moreFields rt fields ++ r))) with
      | none => none
      | some (key, s) => _) = _
    rw [List.append_assoc, List.singleton_append, hkey]
    show (match parseValue rt n (stringify rt x
      ++ (stringify.moreFields rt fields ++ r)) with
      | none => none
      | some (x, s) => _) = _
    rw [hx n _ (stops_moreFields fields r) (by omega)]
    match fields with
    | [] => simp [stringify.moreFields, readBack.readBackFields, skipSpace]
    | (key', y) :: fields =>
      have hy : NumbersRead rt y.numbers := fun q hq =>
        hfields q (List.mem_append_left _ hq)
      have hmore : NumbersRead rt (numbers.numbersOfFields fields) := fun q hq =>
        hfields q (List.mem_append_right _ hq)
      have hlength : (stringify.moreFields rt ((key', y) :: fields)).length
          = (quote key').length + (stringify rt y).length
            + (stringify.moreFields rt fields).length + 2 := by
        simp only [stringify.moreFields, List.length_cons, List.length_append]
        omega
      show ((parseMembers rt n ((quote key' ++ ':' :: stringify rt y
        ++ stringify.moreFields rt fields) ++ r))).map _ = _
      rw [List.append_assoc, List.append_assoc, List.cons_append,
        parseMembers_stringify fields key' y n r
          (fun m r' => parseValue_stringify y m r' hy) hy hmore (by omega),
        String.ofList_toList]
      rfl

end

/-- **What is written is read back.** -/
theorem parse_stringify {j : Json} (hj : NumbersRead rt j.numbers) :
    parse rt (stringify rt j) = some j.readBack := by
  have h := parseValue_stringify j (stringify rt j).length [] hj stops_nil
    (Nat.le_refl _)
  rw [List.append_nil] at h
  unfold parse
  rw [h]
  rfl

/-! ## Damaged texts -/

theorem escapeChar_of_le {c : Char} (h : 0x80 ≤ c.toNat) : escapeChar c = [c] := by
  have hne : ∀ d : Char, d.toNat < 0x80 → c ≠ d := by
    rintro d hd rfl
    omega
  unfold escapeChar
  rw [if_neg (hne _ (by decide)), if_neg (hne _ (by decide)), if_neg (by omega),
    if_neg (by omega), if_neg (hne _ (by decide)), if_neg (hne _ (by decide)),
    if_neg (hne _ (by decide)), if_neg (by omega)]

theorem escapeChar_ascii {c : Char} (h : c.toNat < 0x80) :
    Utf8.Ascii (escapeChar c) := by
  have hall : ∀ n < 0x80, Utf8.Ascii (escapeChar (Char.ofNat n)) := by
    decide +kernel
  have hchar := hall c.toNat h
  rwa [Char.ofNat_toNat] at hchar

theorem flatMap_replacement (k : ℕ) :
    (List.replicate k Utf8.replacement).flatMap escapeChar
      = List.replicate k Utf8.replacement := by
  induction k with
  | zero => rfl
  | succ k ih =>
    rw [List.replicate_succ, List.flatMap_cons, ih, escapeChar_of_le (by decide)]
    rfl

theorem damages_escapes {s t : List Char} (h : Utf8.Damages (s.flatMap escapeChar) t) :
    ∃ s' : List Char, t = s'.flatMap escapeChar := by
  induction s generalizing t with
  | nil =>
    cases h
    exact ⟨[], rfl⟩
  | cons c s ih =>
    obtain ⟨t₁, t₂, rfl, h₁, h₂⟩ := h.of_append
    obtain ⟨s', rfl⟩ := ih h₂
    by_cases hc : c.toNat < 0x80
    · rw [h₁.eq_of_ascii (escapeChar_ascii hc)]
      exact ⟨c :: s', rfl⟩
    · rw [escapeChar_of_le (by omega)] at h₁
      rcases h₁.of_singleton with rfl | ⟨k, rfl⟩
      · exact ⟨c :: s', by rw [List.flatMap_cons, escapeChar_of_le (by omega)]⟩
      · exact ⟨List.replicate k Utf8.replacement ++ s', by
          rw [List.flatMap_append, flatMap_replacement]⟩

theorem damages_quote {s : String} {t : List Char} (h : Utf8.Damages (quote s) t) :
    ∃ s' : String, t = quote s' := by
  obtain ⟨t₁, t₂, rfl, h₁, h₂⟩ := (show Utf8.Damages
    (['"'] ++ (s.toList.flatMap escapeChar ++ ['"'])) t from h).of_append
  obtain ⟨t₃, t₄, rfl, h₃, h₄⟩ := h₂.of_append
  obtain ⟨s', rfl⟩ := damages_escapes h₃
  rw [h₁.eq_of_ascii (by decide), h₄.eq_of_ascii (by decide)]
  refine ⟨String.ofList s', ?_⟩
  unfold quote
  rw [String.toList_ofList]
  rfl

theorem fromEntries_eq {fields : List (String × Json)}
    (h : (fromEntries fields).length = fields.length) :
    fromEntries fields = fields := by
  have hassign : ∀ (acc : List (String × Json)) (key : String) (x : Json),
      (assign acc key x).length ≤ acc.length
        ∨ assign acc key x = acc ++ [(key, x)] := by
    intro acc key x
    unfold assign
    split
    · exact Or.inl (Nat.le_of_eq (List.length_map _))
    · exact Or.inr rfl
  have hlength : ∀ (l acc : List (String × Json)),
      (l.foldl (fun acc f => assign acc f.1 f.2) acc).length
        ≤ acc.length + l.length := by
    intro l
    induction l with
    | nil => exact fun acc => Nat.le_refl _
    | cons f l ih =>
      intro acc
      have h := ih (assign acc f.1 f.2)
      rw [List.foldl_cons, List.length_cons]
      rcases hassign acc f.1 f.2 with hle | heq
      · omega
      · rw [heq, List.length_append, List.length_singleton] at h
        rw [heq]
        omega
  have hall : ∀ (l acc : List (String × Json)),
      (l.foldl (fun acc f => assign acc f.1 f.2) acc).length
        = acc.length + l.length →
      l.foldl (fun acc f => assign acc f.1 f.2) acc = acc ++ l := by
    intro l
    induction l with
    | nil => exact fun acc _ => (List.append_nil acc).symm
    | cons f l ih =>
      intro acc hacc
      rw [List.foldl_cons, List.length_cons] at hacc
      have hle := hlength l (assign acc f.1 f.2)
      rcases hassign acc f.1 f.2 with hshort | heq
      · omega
      · rw [heq] at hacc
        rw [List.foldl_cons, heq, ih _ (by
          rw [hacc, List.length_append, List.length_singleton]
          omega), List.append_assoc]
        rfl
  have hnil := hall fields [] (by rw [List.length_nil, Nat.zero_add]; exact h)
  rwa [List.nil_append] at hnil

theorem isNumberChar_ascii {c : Char} (h : isNumberChar c = true) :
    c.toNat < 0x80 := by
  unfold isNumberChar at h
  simp only [Bool.or_eq_true, decide_eq_true_eq] at h
  rcases h with ((((h | rfl) | rfl) | rfl) | rfl) | rfl
  · exact Nat.lt_of_le_of_lt (Char.isDigit_iff_toNat.mp h).2 (by decide)
  all_goals decide

theorem eq_of_ascii (s : List Char) (hs : Utf8.Ascii s)
    {t : List Char} (h : Utf8.Damages s t) : t = s := h.eq_of_ascii hs

mutual

/-- **A damaged text is the text of another value** of the same numbers,
which is read back as the one that was written only if it is that one. -/
theorem damages_stringify : ∀ (j : Json) (t : List Char),
    NumbersRead rt j.numbers → Utf8.Damages (stringify rt j) t →
    ∃ j', t = stringify rt j' ∧ j'.numbers = j.numbers
      ∧ (j'.readBack = j → j' = j)
  | .null, t, _, h => ⟨.null, eq_of_ascii "null".toList (by decide) h, rfl, id⟩
  | .bool true, t, _, h => ⟨.bool true, eq_of_ascii "true".toList (by decide) h, rfl, id⟩
  | .bool false, t, _, h => ⟨.bool false, eq_of_ascii "false".toList (by decide) h, rfl, id⟩
  | .num .nan, t, _, h =>
    ⟨.num .nan, eq_of_ascii "null".toList (by decide) h, rfl, fun _ => rfl⟩
  | .num (.infinity b), t, _, h =>
    ⟨.num (.infinity b), eq_of_ascii "null".toList (by decide) h, rfl, fun _ => rfl⟩
  | .num (.finite q), t, hj, h => by
    obtain ⟨-, hchars, -⟩ := hj q (List.mem_singleton_self q)
    exact ⟨.num (.finite q),
      h.eq_of_ascii (fun c hc => isNumberChar_ascii (hchars c hc)), rfl, id⟩
  | .str s, t, _, h => by
    obtain ⟨s', rfl⟩ := damages_quote h
    exact ⟨.str s', rfl, rfl, id⟩
  | .arr [], t, _, h => ⟨.arr [], eq_of_ascii ['[', ']'] (by decide) h, rfl, id⟩
  | .arr (x :: xs), t, hj, h => by
    obtain ⟨t₁, t₂, rfl, h₁, h₂⟩ := (show Utf8.Damages
      (['['] ++ (stringify rt x ++ stringify.moreElements rt xs)) t from h).of_append
    obtain ⟨t₃, t₄, rfl, h₃, h₄⟩ := h₂.of_append
    obtain ⟨x', rfl, hx, hxeq⟩ := damages_stringify x t₃
      (fun q hq => hj q (List.mem_append_left _ hq)) h₃
    obtain ⟨xs', rfl, hxs, hxseq⟩ := damages_moreElements xs t₄
      (fun q hq => hj q (List.mem_append_right _ hq)) h₄
    refine ⟨.arr (x' :: xs'), ?_, ?_, fun heq => ?_⟩
    · rw [h₁.eq_of_ascii (by decide)]
      rfl
    · show x'.numbers ++ numbers.numbersOfElements xs' = _
      rw [hx, hxs]
      rfl
    · obtain ⟨h₅, h₆⟩ := List.cons.inj (Json.arr.inj heq)
      rw [hxeq h₅, hxseq h₆]
  | .obj [], t, _, h => ⟨.obj [], eq_of_ascii ['\x7b', '\x7d'] (by decide) h, rfl, id⟩
  | .obj ((key, x) :: fields), t, hj, h => by
    obtain ⟨t₁, t₂, rfl, h₁, h₂⟩ := (show Utf8.Damages
      (['\x7b'] ++ (quote key ++ ':' :: stringify rt x
        ++ stringify.moreFields rt fields)) t from h).of_append
    obtain ⟨key', x', fields', rfl, hnumbers, hlength, heq⟩ :=
      damages_fields fields key x t₂
        (fun t => damages_stringify x t
          (fun q hq => hj q (List.mem_append_left _ hq)))
        (fun q hq => hj q (List.mem_append_right _ hq)) h₂
    refine ⟨.obj ((key', x') :: fields'), ?_, hnumbers, fun hread => ?_⟩
    · rw [h₁.eq_of_ascii (by decide)]
      rfl
    · have hentries : fromEntries (readBack.readBackFields ((key', x') :: fields'))
          = (key, x) :: fields := Json.obj.inj hread
      have hsame : fromEntries (readBack.readBackFields ((key', x') :: fields'))
          = readBack.readBackFields ((key', x') :: fields') := by
        refine fromEntries_eq ?_
        rw [hentries, List.length_cons, ← hlength, ← length_readBackFields,
          readBack.readBackFields, List.length_cons]
      rw [heq (hsame ▸ hentries)]

theorem damages_moreElements : ∀ (xs : List Json) (t : List Char),
    NumbersRead rt (numbers.numbersOfElements xs) →
    Utf8.Damages (stringify.moreElements rt xs) t →
    ∃ xs', t = stringify.moreElements rt xs'
      ∧ numbers.numbersOfElements xs' = numbers.numbersOfElements xs
      ∧ (readBack.readBackElements xs' = xs → xs' = xs)
  | [], t, _, h => ⟨[], eq_of_ascii [']'] (by decide) h, rfl, id⟩
  | x :: xs, t, hj, h => by
    obtain ⟨t₁, t₂, rfl, h₁, h₂⟩ := (show Utf8.Damages
      ([','] ++ (stringify rt x ++ stringify.moreElements rt xs)) t from h).of_append
    obtain ⟨t₃, t₄, rfl, h₃, h₄⟩ := h₂.of_append
    obtain ⟨x', rfl, hx, hxeq⟩ := damages_stringify x t₃
      (fun q hq => hj q (List.mem_append_left _ hq)) h₃
    obtain ⟨xs', rfl, hxs, hxseq⟩ := damages_moreElements xs t₄
      (fun q hq => hj q (List.mem_append_right _ hq)) h₄
    refine ⟨x' :: xs', ?_, ?_, fun heq => ?_⟩
    · rw [h₁.eq_of_ascii (by decide)]
      rfl
    · show x'.numbers ++ numbers.numbersOfElements xs' = _
      rw [hx, hxs]
      rfl
    · obtain ⟨h₅, h₆⟩ := List.cons.inj heq
      rw [hxeq h₅, hxseq h₆]

theorem damages_fields : ∀ (fields : List (String × Json)) (key : String)
    (x : Json) (t : List Char),
    (∀ t, Utf8.Damages (stringify rt x) t → ∃ x', t = stringify rt x'
      ∧ x'.numbers = x.numbers ∧ (x'.readBack = x → x' = x)) →
    NumbersRead rt (numbers.numbersOfFields fields) →
    Utf8.Damages
      (quote key ++ ':' :: stringify rt x ++ stringify.moreFields rt fields) t →
    ∃ key' x' fields',
      t = quote key' ++ ':' :: stringify rt x' ++ stringify.moreFields rt fields'
      ∧ numbers.numbersOfFields ((key', x') :: fields')
        = numbers.numbersOfFields ((key, x) :: fields)
      ∧ fields'.length = fields.length
      ∧ (readBack.readBackFields ((key', x') :: fields') = (key, x) :: fields →
        (key', x') :: fields' = (key, x) :: fields)
  | fields, key, x, t, hx, hj, h => by
    obtain ⟨t₁, t₂, rfl, h₁, h₂⟩ := h.of_append
    obtain ⟨t₃, t₄, rfl, h₃, h₄⟩ := h₁.of_append
    obtain ⟨t₅, t₆, rfl, h₅, h₆⟩ := (show Utf8.Damages
      ([':'] ++ stringify rt x) t₄ from h₄).of_append
    obtain ⟨key', rfl⟩ := damages_quote h₃
    obtain ⟨x', rfl, hnumbers, hxeq⟩ := hx t₆ h₆
    obtain rfl := h₅.eq_of_ascii (by decide)
    match fields with
    | [] =>
      obtain rfl := eq_of_ascii ['\x7d'] (by decide) h₂
      refine ⟨key', x', [], rfl, ?_, rfl, fun heq => ?_⟩
      · show x'.numbers ++ [] = _
        rw [hnumbers]
        rfl
      · obtain ⟨h₇, -⟩ := List.cons.inj heq
        obtain ⟨rfl, h₈⟩ := Prod.mk.inj h₇
        rw [hxeq h₈]
    | (key₂, y) :: fields =>
      obtain ⟨t₇, t₈, rfl, h₇, h₈⟩ := (show Utf8.Damages
        ([','] ++ (quote key₂ ++ ':' :: stringify rt y
          ++ stringify.moreFields rt fields)) t₂ from h₂).of_append
      obtain ⟨key₂', y', fields', rfl, hmore, hlength, hmoreeq⟩ :=
        damages_fields fields key₂ y t₈
          (fun t => damages_stringify y t
            (fun q hq => hj q (List.mem_append_left _ hq)))
          (fun q hq => hj q (List.mem_append_right _ hq)) h₈
      refine ⟨key', x', (key₂', y') :: fields', ?_, ?_, ?_, fun heq => ?_⟩
      · rw [h₇.eq_of_ascii (by decide)]
        rfl
      · show x'.numbers ++ numbers.numbersOfFields ((key₂', y') :: fields') = _
        rw [hnumbers, hmore]
        rfl
      · rw [List.length_cons, List.length_cons, hlength]
      · obtain ⟨h₉, hrest⟩ := List.cons.inj heq
        obtain ⟨rfl, h₁₀⟩ := Prod.mk.inj h₉
        rw [hxeq h₁₀, hmoreeq hrest]

end

/-- **A damaged text is not read back as the value that was written.** -/
theorem eq_of_damages {j : Json} (hj : NumbersRead rt j.numbers) {t : List Char}
    (h : Utf8.Damages (stringify rt j) t) (hparse : parse rt t = some j) :
    t = stringify rt j := by
  obtain ⟨j', rfl, hnumbers, heq⟩ := damages_stringify j t hj h
  rw [parse_stringify (hnumbers ▸ hj), Option.some.injEq] at hparse
  rw [heq hparse]

/-! ## Lines -/

theorem le_of_isNumberChar {c : Char} (h : isNumberChar c = true) : 0x20 ≤ c.toNat := by
  unfold isNumberChar at h
  simp only [Bool.or_eq_true, decide_eq_true_eq] at h
  rcases h with ((((h | rfl) | rfl) | rfl) | rfl) | rfl
  · exact Nat.le_trans (by decide) (Char.isDigit_iff_toNat.mp h).1
  all_goals decide

theorem le_of_all {s : List Char} (hs : s.all (fun d => decide (0x20 ≤ d.toNat)) = true)
    {d : Char} (hd : d ∈ s) : 0x20 ≤ d.toNat :=
  of_decide_eq_true (List.all_eq_true.mp hs d hd)

/-- **No control character stands in a string**: each of them is escaped. -/
theorem le_of_mem_quote {s : String} {d : Char} (h : d ∈ quote s) : 0x20 ≤ d.toNat := by
  have hescape : ∀ c : Char, ∀ d ∈ escapeChar c, 0x20 ≤ d.toNat := by
    intro c d hd
    by_cases hlow : c.toNat < 0x20
    · have hall : ∀ n < 0x20,
          (escapeChar (Char.ofNat n)).all (fun d => decide (0x20 ≤ d.toNat)) = true := by decide
      have hc := hall c.toNat hlow
      rw [Char.ofNat_toNat] at hc
      exact le_of_all hc hd
    by_cases hquote : c = '"'
    · subst hquote
      exact le_of_all (by decide) hd
    by_cases hslash : c = '\\'
    · subst hslash
      exact le_of_all (by decide) hd
    have hne : ∀ x : Char, x.toNat < 0x20 → c ≠ x := by
      rintro x hx rfl
      exact hlow hx
    have hself : escapeChar c = [c] := by
      unfold escapeChar
      rw [if_neg hquote, if_neg hslash, if_neg (by omega), if_neg (by omega),
        if_neg (hne '\n' (by decide)), if_neg (hne '\r' (by decide)),
        if_neg (hne '\t' (by decide)), if_neg hlow]
    rw [hself] at hd
    obtain rfl := List.mem_singleton.mp hd
    exact Nat.not_lt.mp hlow
  rcases List.mem_cons.mp h with rfl | h
  · decide
  rcases List.mem_append.mp h with h | h
  · obtain ⟨c, -, hc⟩ := List.mem_flatMap.mp h
    exact hescape c d hc
  · obtain rfl := List.mem_singleton.mp h
    decide

mutual

/-- **No control character stands in the text of a value.** -/
theorem le_of_mem_stringify {d : Char} : ∀ (j : Json), NumbersRead rt j.numbers →
    d ∈ stringify rt j → 0x20 ≤ d.toNat
  | .null, _, h => le_of_all (s := "null".toList) (by decide) h
  | .bool true, _, h => le_of_all (s := "true".toList) (by decide) h
  | .bool false, _, h => le_of_all (s := "false".toList) (by decide) h
  | .num .nan, _, h => le_of_all (s := "null".toList) (by decide) h
  | .num (.infinity _), _, h => le_of_all (s := "null".toList) (by decide) h
  | .num (.finite q), hj, h =>
    le_of_isNumberChar ((hj q (List.mem_singleton_self q)).2.1 _ h)
  | .str s, _, h => le_of_mem_quote h
  | .arr [], _, h => le_of_all (s := ['[', ']']) (by decide) h
  | .arr (x :: xs), hj, h => by
    rcases List.mem_append.mp h with h | h
    · rcases List.mem_cons.mp h with rfl | h
      · decide
      · exact le_of_mem_stringify x (fun q hq => hj q (List.mem_append_left _ hq)) h
    · exact le_of_mem_moreElements xs (fun q hq => hj q (List.mem_append_right _ hq)) h
  | .obj [], _, h => le_of_all (s := ['\x7b', '\x7d']) (by decide) h
  | .obj ((key, x) :: fields), hj, h => by
    rcases List.mem_append.mp h with h | h
    · rcases List.mem_cons.mp h with rfl | h
      · decide
      rcases List.mem_append.mp h with h | h
      · exact le_of_mem_quote h
      rcases List.mem_cons.mp h with rfl | h
      · decide
      · exact le_of_mem_stringify x (fun q hq => hj q (List.mem_append_left _ hq)) h
    · exact le_of_mem_moreFields fields (fun q hq => hj q (List.mem_append_right _ hq)) h

theorem le_of_mem_moreElements {d : Char} : ∀ (xs : List Json),
    NumbersRead rt (numbers.numbersOfElements xs) →
    d ∈ stringify.moreElements rt xs → 0x20 ≤ d.toNat
  | [], _, h => by
    obtain rfl := List.mem_singleton.mp h
    decide
  | x :: xs, hj, h => by
    rcases List.mem_append.mp h with h | h
    · rcases List.mem_cons.mp h with rfl | h
      · decide
      · exact le_of_mem_stringify x (fun q hq => hj q (List.mem_append_left _ hq)) h
    · exact le_of_mem_moreElements xs (fun q hq => hj q (List.mem_append_right _ hq)) h

theorem le_of_mem_moreFields {d : Char} : ∀ (fields : List (String × Json)),
    NumbersRead rt (numbers.numbersOfFields fields) →
    d ∈ stringify.moreFields rt fields → 0x20 ≤ d.toNat
  | [], _, h => by
    obtain rfl := List.mem_singleton.mp h
    decide
  | (key, x) :: fields, hj, h => by
    rcases List.mem_append.mp h with h | h
    · rcases List.mem_cons.mp h with rfl | h
      · decide
      rcases List.mem_append.mp h with h | h
      · exact le_of_mem_quote h
      rcases List.mem_cons.mp h with rfl | h
      · decide
      · exact le_of_mem_stringify x (fun q hq => hj q (List.mem_append_left _ hq)) h
    · exact le_of_mem_moreFields fields (fun q hq => hj q (List.mem_append_right _ hq)) h

end

/-- **The text of a value is one line.** -/
theorem newline_notMem_stringify (j : Json) (hj : NumbersRead rt j.numbers) :
    '\n' ∉ stringify rt j :=
  fun h => absurd (le_of_mem_stringify j hj h) (by decide)

end Json

end MissionControl
