import Mathlib.Tactic.Common
import MissionControl.Library.Lines

/-!
# UTF-8, with replacement

Octets are natural numbers. `Utf8.encode` writes a text, and `Utf8.decode`
reads octets the way decoders with replacement do: it never fails, but puts
the replacement character where the octets are not UTF-8, one for each
longest start of a character and for each octet that starts none.

Decoding is not compatible with cutting: a reader that decodes a stream
chunk by chunk (`Utf8.decodeChunks`) damages each character a cut goes
through. `decodeChunks_damages` says what is left of such a text, and
`decodeChunks_eq_iff` that nothing is lost exactly when no cut goes through
a character.
-/

namespace Utf8

def encodeChar (c : Char) : List ℕ :=
  let n := c.toNat
  if n < 0x80 then [n]
  else if n < 0x800 then [0xC0 + n / 64, 0x80 + n % 64]
  else if n < 0x10000 then
    [0xE0 + n / 4096, 0x80 + n / 64 % 64, 0x80 + n % 64]
  else
    [0xF0 + n / 262144, 0x80 + n / 4096 % 64, 0x80 + n / 64 % 64, 0x80 + n % 64]

/-- **The octets of a text.** -/
def encode (s : List Char) : List ℕ := s.flatMap encodeChar

def replacement : Char := Char.ofNat 0xFFFD

inductive State where
  | start
  /-- Inside a character: how many octets follow the next one, the least and
  the greatest value of the next one, and the code so far. -/
  | need (more lower upper code : ℕ)

/-- The octet that starts a character; `none` if there is no such character. -/
def first (b : ℕ) : Option (List Char × State) :=
  if b < 0x80 then some ([Char.ofNat b], .start)
  else if 0xC2 ≤ b ∧ b ≤ 0xDF then some ([], .need 0 0x80 0xBF (b - 0xC0))
  else if 0xE0 ≤ b ∧ b ≤ 0xEF then
    some ([], .need 1 (if b = 0xE0 then 0xA0 else 0x80)
      (if b = 0xED then 0x9F else 0xBF) (b - 0xE0))
  else if 0xF0 ≤ b ∧ b ≤ 0xF4 then
    some ([], .need 2 (if b = 0xF0 then 0x90 else 0x80)
      (if b = 0xF4 then 0x8F else 0xBF) (b - 0xF0))
  else none

def restart (b : ℕ) : List Char × State :=
  (first b).getD ([replacement], .start)

/-- **An octet**: the characters it brings and where the decoder then stands.
An octet that does not fit where it stands starts over. -/
def State.step : State → ℕ → List Char × State
  | .start, b => restart b
  | .need more lower upper code, b =>
    if lower ≤ b ∧ b ≤ upper then
      match more with
      | 0 => ([Char.ofNat (code * 64 + (b - 0x80))], .start)
      | more + 1 => ([], .need more 0x80 0xBF (code * 64 + (b - 0x80)))
    else (replacement :: (restart b).1, (restart b).2)

/-- The characters that octets bring, from where the decoder stands to the
end of the octets. -/
def State.decode : State → List ℕ → List Char
  | .start, [] => []
  | .need _ _ _ _, [] => [replacement]
  | s, b :: bs => (s.step b).1 ++ (s.step b).2.decode bs

/-- **The text octets are decoded to.** -/
def decode (bs : List ℕ) : List Char := State.start.decode bs

/-- The text of a stream that is decoded chunk by chunk. -/
def decodeChunks (chunks : List (List ℕ)) : List Char := chunks.flatMap decode

theorem State.decode_cons (s : State) (b : ℕ) (bs : List ℕ) :
    s.decode (b :: bs) = (s.step b).1 ++ (s.step b).2.decode bs := by
  cases s <;> rfl

theorem State.decode_need_ne_nil (bs : List ℕ) : ∀ more lower upper code,
    (State.need more lower upper code).decode bs ≠ [] := by
  induction bs with
  | nil => exact fun _ _ _ _ => List.cons_ne_nil _ _
  | cons b bs ih =>
    intro more lower upper code
    rw [State.decode_cons]
    unfold State.step
    dsimp only
    split
    · cases more with
      | zero => exact List.cons_ne_nil _ _
      | succ more => exact ih more _ _ _
    · exact List.cons_ne_nil _ _

/-- **Octets are never decoded to nothing.** -/
theorem decode_ne_nil {bs : List ℕ} (h : bs ≠ []) : decode bs ≠ [] := by
  obtain ⟨b, bs, rfl⟩ := List.exists_cons_of_ne_nil h
  unfold decode
  rw [State.decode_cons]
  show (restart b).1 ++ (restart b).2.decode bs ≠ []
  unfold restart first
  repeat' split
  all_goals first
    | exact List.cons_ne_nil _ _
    | exact State.decode_need_ne_nil bs _ _ _ _

/-! ## What is encoded is decoded -/

theorem toNat_bounds (c : Char) :
    c.toNat < 0xD800 ∨ 0xDFFF < c.toNat ∧ c.toNat < 0x110000 := c.valid

section Need

variable (more lower upper code b : ℕ) (bs : List ℕ)

theorem decode_need_last (h : lower ≤ b ∧ b ≤ upper) :
    (State.need 0 lower upper code).decode (b :: bs)
      = Char.ofNat (code * 64 + (b - 0x80)) :: decode bs := by
  have hstep : (State.need 0 lower upper code).step b
      = ([Char.ofNat (code * 64 + (b - 0x80))], .start) := if_pos h
  rw [State.decode_cons, hstep]
  rfl

theorem decode_need_next (h : lower ≤ b ∧ b ≤ upper) :
    (State.need (more + 1) lower upper code).decode (b :: bs)
      = (State.need more 0x80 0xBF (code * 64 + (b - 0x80))).decode bs := by
  have hstep : (State.need (more + 1) lower upper code).step b
      = ([], .need more 0x80 0xBF (code * 64 + (b - 0x80))) := if_pos h
  rw [State.decode_cons, hstep, List.nil_append]

theorem decode_first {out : List Char} {s : State} (h : first b = some (out, s)) :
    decode (b :: bs) = out ++ s.decode bs := by
  unfold decode
  rw [State.decode_cons]
  show (restart b).1 ++ (restart b).2.decode bs = _
  unfold restart
  rw [h, Option.getD_some]

end Need

/-- **A character in front is decoded to itself.** -/
theorem decode_encodeChar_append (c : Char) (bs : List ℕ) :
    decode (encodeChar c ++ bs) = c :: decode bs := by
  have hc := toNat_bounds c
  have hself : ∀ n, n = c.toNat → Char.ofNat n = c := by
    rintro n rfl
    exact Char.ofNat_toNat c
  unfold encodeChar
  dsimp only
  split
  · next h =>
    rw [List.singleton_append, decode_first c.toNat bs (if_pos h), hself _ rfl]
    rfl
  split
  · next h₁ h₂ =>
    rw [List.cons_append, List.cons_append, List.nil_append,
      decode_first _ _ (by
        unfold first
        rw [if_neg (by omega), if_pos (by omega)]),
      List.nil_append, decode_need_last _ _ _ _ _ (by omega), hself _ (by omega)]
  split
  · next h₁ h₂ h₃ =>
    rw [List.cons_append, List.cons_append, List.cons_append, List.nil_append,
      decode_first _ _ (by
        unfold first
        rw [if_neg (by omega), if_neg (by omega), if_pos (by omega)]),
      List.nil_append, decode_need_next _ _ _ _ _ _ (by split <;> split <;> omega),
      decode_need_last _ _ _ _ _ (by omega), hself _ (by omega)]
  · next h₁ h₂ h₃ =>
    rw [List.cons_append, List.cons_append, List.cons_append, List.cons_append,
      List.nil_append,
      decode_first _ _ (by
        unfold first
        rw [if_neg (by omega), if_neg (by omega), if_neg (by omega),
          if_pos (by omega)]),
      List.nil_append, decode_need_next _ _ _ _ _ _ (by split <;> split <;> omega),
      decode_need_next _ _ _ _ _ _ (by omega),
      decode_need_last _ _ _ _ _ (by omega), hself _ (by omega)]

/-- **A text in front is decoded to itself.** -/
theorem decode_encode_append (s : List Char) (bs : List ℕ) :
    decode (encode s ++ bs) = s ++ decode bs := by
  induction s with
  | nil => rfl
  | cons c s ih =>
    unfold encode at ih ⊢
    rw [List.flatMap_cons, List.append_assoc, decode_encodeChar_append, ih,
      List.cons_append]

/-- **What is encoded is decoded.** -/
theorem decode_encode (s : List Char) : decode (encode s) = s := by
  have h := decode_encode_append s []
  rwa [List.append_nil, show decode [] = [] from rfl, List.append_nil] at h

theorem encode_injective {s t : List Char} (h : encode s = encode t) : s = t := by
  rw [← decode_encode s, h, decode_encode]

theorem encode_append (s t : List Char) :
    encode (s ++ t) = encode s ++ encode t := List.flatMap_append

/-! ## Octets of texts -/

/-- **Octets that a text has**: nothing in them is replaced. -/
def Valid (bs : List ℕ) : Prop := encode (decode bs) = bs

theorem valid_encode (s : List Char) : Valid (encode s) := congrArg encode (decode_encode s)

theorem eq_of_mem_encodeChar {c d : Char} (hc : c.toNat < 0x80) (h : c.toNat ∈ encodeChar d) :
    c = d := by
  unfold encodeChar at h
  dsimp only at h
  have hself : c.toNat = d.toNat := by
    split at h
    · exact List.mem_singleton.mp h
    · split at h
      · simp only [List.mem_cons, List.not_mem_nil, or_false] at h
        omega
      · split at h <;> simp only [List.mem_cons, List.not_mem_nil, or_false] at h <;> omega
  rw [← Char.ofNat_toNat c, hself, Char.ofNat_toNat]

theorem notMem_encode {c : Char} (hc : c.toNat < 0x80) {s : List Char} (h : c ∉ s) :
    c.toNat ∉ encode s := by
  intro hmem
  obtain ⟨d, hd, hmem⟩ := List.mem_flatMap.mp hmem
  exact h (eq_of_mem_encodeChar hc hmem ▸ hd)

theorem encode_intercalate {c : Char} (hc : c.toNat < 0x80) : ∀ ss : List (List Char),
    encode ([c].intercalate ss) = [c.toNat].intercalate (ss.map encode)
  | [] => rfl
  | [s] => by simp
  | s :: t :: ss => by
    have hchar : encode [c] = [c.toNat] := by
      rw [show encode [c] = encodeChar c from List.append_nil _]
      exact if_pos hc
    rw [List.intercalate_cons_cons, encode_append, encode_append, hchar,
      encode_intercalate hc (t :: ss), List.map_cons, List.map_cons, List.map_cons,
      List.intercalate_cons_cons]

/-- **The octets of a text are split** where the text is. -/
theorem splitOn_encode {c : Char} (hc : c.toNat < 0x80) (s : List Char) :
    (encode s).splitOn c.toNat = (s.splitOn c).map encode := by
  have hjoin : encode s = [c.toNat].intercalate ((s.splitOn c).map encode) := by
    rw [← encode_intercalate hc, List.intercalate_splitOn]
  rw [hjoin]
  refine List.splitOn_intercalate _ (fun piece hpiece => ?_) (by simp [List.splitOn_ne_nil])
  obtain ⟨t, ht, rfl⟩ := List.mem_map.mp hpiece
  exact notMem_encode hc (Lines.notMem_of_mem_splitOn c s t ht)

theorem valid_of_lines {c : Char} (hc : c.toNat < 0x80) {bs : List ℕ}
    (h : ∀ line ∈ bs.splitOn c.toNat, Valid line) : Valid bs := by
  have hlines : (bs.splitOn c.toNat).map (fun line => encode (decode line))
      = bs.splitOn c.toNat :=
    (List.map_congr_left h).trans (List.map_id _)
  have hjoin : bs = encode ([c].intercalate ((bs.splitOn c.toNat).map decode)) := by
    rw [encode_intercalate hc, List.map_map]
    exact ((congrArg _ hlines).trans (List.intercalate_splitOn _)).symm
  rw [hjoin]
  exact valid_encode _

/-! ## Parts of characters -/

def Continues (b : ℕ) : Prop := 0x80 ≤ b ∧ b ≤ 0xBF

/-- **Octets from inside a character** are replaced one by one. -/
theorem decode_continues_append {rest : List ℕ} (h : ∀ b ∈ rest, Continues b)
    (bs : List ℕ) : decode (rest ++ bs)
      = List.replicate rest.length replacement ++ decode bs := by
  induction rest with
  | nil => rfl
  | cons b rest ih =>
    obtain ⟨hlow, hhigh⟩ := h b List.mem_cons_self
    have hnone : first b = none := by
      unfold first
      rw [if_neg (by omega), if_neg (by omega), if_neg (by omega),
        if_neg (by omega)]
    have hstep : State.start.step b = ([replacement], .start) := by
      show restart b = _
      unfold restart
      rw [hnone, Option.getD_none]
    rw [List.cons_append, decode, State.decode_cons, hstep, ← decode,
      ih (fun x hx => h x (List.mem_cons_of_mem _ hx))]
    rfl

theorem exists_encodeChar (c : Char) : ∃ b rest, encodeChar c = b :: rest
    ∧ (∀ x ∈ rest, Continues x) ∧ (rest ≠ [] → 0x80 ≤ c.toNat) := by
  unfold encodeChar Continues
  dsimp only
  split
  · exact ⟨_, [], rfl, by simp, fun h => absurd rfl h⟩
  split
  · refine ⟨_, _, rfl, fun x hx => ?_, fun _ => by omega⟩
    simp only [List.mem_singleton] at hx
    omega
  split
  · refine ⟨_, _, rfl, fun x hx => ?_, fun _ => by omega⟩
    simp only [List.mem_cons, List.not_mem_nil, or_false] at hx
    omega
  · refine ⟨_, _, rfl, fun x hx => ?_, fun _ => by omega⟩
    simp only [List.mem_cons, List.not_mem_nil, or_false] at hx
    omega

/-- **The start of a character that is cut off** is replaced once. -/
theorem decode_head {c : Char} {head tail : List ℕ}
    (h : encodeChar c = head ++ tail) (hhead : head ≠ []) (htail : tail ≠ []) :
    decode head = [replacement] := by
  have hc := toNat_bounds c
  obtain ⟨b, bs, rfl⟩ := List.exists_cons_of_ne_nil hhead
  obtain ⟨d, ds, rfl⟩ := List.exists_cons_of_ne_nil htail
  unfold encodeChar at h
  dsimp only at h
  rw [List.cons_append] at h
  split at h
  · obtain ⟨-, hrest⟩ := List.cons.inj h
    exact absurd hrest.symm (by simp)
  split at h
  · next h₁ h₂ =>
    obtain ⟨rfl, hrest⟩ := List.cons.inj h
    -- the cut is behind the first octet
    cases bs with
    | cons b' bs =>
      have := congrArg List.length hrest
      simp at this
    | nil =>
      rw [decode_first _ _ (by
        unfold first
        rw [if_neg (by omega), if_pos (by omega)])]
      rfl
  split at h
  · next h₁ h₂ h₃ =>
    obtain ⟨rfl, hrest⟩ := List.cons.inj h
    rw [decode_first _ _ (by
      unfold first
      rw [if_neg (by omega), if_neg (by omega), if_pos (by omega)]),
      List.nil_append]
    match bs with
    | [] => rfl
    | [b₁] =>
      obtain ⟨rfl, -⟩ := List.cons.inj hrest
      rw [decode_need_next _ _ _ _ _ _ (by split <;> split <;> omega)]
      rfl
    | b₁ :: b₂ :: bs =>
      have := congrArg List.length hrest
      simp at this
  · next h₁ h₂ h₃ =>
    obtain ⟨rfl, hrest⟩ := List.cons.inj h
    rw [decode_first _ _ (by
      unfold first
      rw [if_neg (by omega), if_neg (by omega), if_neg (by omega),
        if_pos (by omega)]), List.nil_append]
    match bs with
    | [] => rfl
    | [b₁] =>
      obtain ⟨rfl, -⟩ := List.cons.inj hrest
      rw [decode_need_next _ _ _ _ _ _ (by split <;> split <;> omega)]
      rfl
    | [b₁, b₂] =>
      obtain ⟨rfl, hlast⟩ := List.cons.inj hrest
      obtain ⟨rfl, -⟩ := List.cons.inj hlast
      rw [decode_need_next _ _ _ _ _ _ (by split <;> split <;> omega),
        decode_need_next _ _ _ _ _ _ (by omega)]
      rfl
    | b₁ :: b₂ :: b₃ :: bs =>
      have := congrArg List.length hrest
      simp at this

/-! ## Cutting a text -/

/-- **What is left of a text whose characters were damaged**: each character
that is not ASCII is kept, or at least two replacement characters stand for
it. -/
inductive Damages : List Char → List Char → Prop where
  | nil : Damages [] []
  | keep {s t : List Char} (c : Char) (h : Damages s t) : Damages (c :: s) (c :: t)
  | damage {s t : List Char} {c : Char} (k : ℕ) (hc : 0x80 ≤ c.toNat)
    (h : Damages s t) :
    Damages (c :: s) (List.replicate (k + 2) replacement ++ t)

theorem Damages.append_left {s t : List Char} (h : Damages s t) :
    ∀ u : List Char, Damages (u ++ s) (u ++ t)
  | [] => h
  | c :: u => .keep c (h.append_left u)

theorem Damages.length_le {s t : List Char} (h : Damages s t) :
    s.length ≤ t.length := by
  induction h with
  | nil => exact Nat.le_refl _
  | keep c _ ih => exact Nat.succ_le_succ ih
  | damage k _ _ ih =>
    rw [List.length_cons, List.length_append, List.length_replicate]
    omega

theorem Damages.of_append {s u : List Char} : ∀ {t : List Char},
    Damages (s ++ u) t → ∃ t₁ t₂, t = t₁ ++ t₂ ∧ Damages s t₁ ∧ Damages u t₂ := by
  induction s with
  | nil => exact fun {t} h => ⟨[], t, rfl, .nil, h⟩
  | cons c s ih =>
    intro t h
    cases h with
    | keep _ h =>
      obtain ⟨t₁, t₂, rfl, h₁, h₂⟩ := ih h
      exact ⟨c :: t₁, t₂, rfl, .keep c h₁, h₂⟩
    | damage k hc h =>
      obtain ⟨t₁, t₂, rfl, h₁, h₂⟩ := ih h
      exact ⟨_, t₂, (List.append_assoc _ _ _).symm, .damage k hc h₁, h₂⟩

def Ascii (s : List Char) : Prop := ∀ c ∈ s, c.toNat < 0x80

instance Ascii.decidable (s : List Char) : Decidable (Ascii s) :=
  List.decidableBAll _ s

theorem Damages.eq_of_ascii {s t : List Char} (h : Damages s t)
    (hs : Ascii s) : t = s := by
  induction h with
  | nil => rfl
  | keep c _ ih => rw [ih (fun d hd => hs d (List.mem_cons_of_mem _ hd))]
  | damage k hc _ _ => exact absurd (hs _ List.mem_cons_self) (by omega)

theorem Damages.of_singleton {c : Char} {t : List Char} (h : Damages [c] t) :
    t = [c] ∨ ∃ k, t = List.replicate k replacement := by
  cases h with
  | keep _ hnil =>
    cases hnil
    exact Or.inl rfl
  | damage k _ hnil =>
    cases hnil
    exact Or.inr ⟨k + 2, List.append_nil _⟩

/-- **Octets of a text, cut in two**: the cut is between two characters, or
inside one. -/
theorem encode_eq_append {text : List Char} :
    ∀ {l more : List ℕ}, encode text = l ++ more →
    (∃ s text', text = s ++ text' ∧ l = encode s ∧ more = encode text')
    ∨ ∃ s c text' head tail, text = s ++ c :: text'
      ∧ encodeChar c = head ++ tail ∧ head ≠ [] ∧ tail ≠ []
      ∧ l = encode s ++ head ∧ more = tail ++ encode text' := by
  induction text with
  | nil =>
    intro l more h
    obtain ⟨rfl, rfl⟩ := List.append_eq_nil_iff.mp h.symm
    exact Or.inl ⟨[], [], rfl, rfl, rfl⟩
  | cons c text ih =>
    intro l more h
    rw [show encode (c :: text) = encodeChar c ++ encode text from rfl,
      List.append_eq_append_iff] at h
    rcases h with ⟨l', rfl, h⟩ | ⟨tail, hchar, rfl⟩
    · rcases ih h with ⟨s, text', rfl, rfl, rfl⟩
        | ⟨s, c', text', head, tail, rfl, hchar, hhead, htail, rfl, rfl⟩
      · exact Or.inl ⟨c :: s, text', rfl, rfl, rfl⟩
      · refine Or.inr ⟨c :: s, c', text', head, tail, rfl, hchar, hhead, htail,
          ?_, rfl⟩
        rw [show encode (c :: s) = encodeChar c ++ encode s from rfl,
          List.append_assoc]
    · by_cases hl : l = []
      · subst hl
        refine Or.inl ⟨[], c :: text, rfl, rfl, ?_⟩
        rw [show encode (c :: text) = encodeChar c ++ encode text from rfl, hchar,
          List.nil_append]
      · by_cases htail : tail = []
        · subst htail
          refine Or.inl ⟨[c], text, rfl, ?_, List.nil_append _⟩
          rw [show encode [c] = encodeChar c from List.append_nil _, hchar,
            List.append_nil]
        · exact Or.inr ⟨[], c, text, l, tail, rfl, hchar, hl, htail, rfl, rfl⟩

theorem continues_of_tail {c : Char} {head tail : List ℕ}
    (h : encodeChar c = head ++ tail) (hhead : head ≠ []) :
    ∀ b ∈ tail, Continues b := by
  obtain ⟨b, rest, hchar, hrest, -⟩ := exists_encodeChar c
  obtain ⟨b', head, rfl⟩ := List.exists_cons_of_ne_nil hhead
  rw [hchar, List.cons_append] at h
  obtain ⟨-, rfl⟩ := List.cons.inj h
  exact fun x hx => hrest x (List.mem_append_right _ hx)

theorem not_ascii_of_cut {c : Char} {head tail : List ℕ}
    (h : encodeChar c = head ++ tail) (hhead : head ≠ []) (htail : tail ≠ []) :
    0x80 ≤ c.toNat := by
  obtain ⟨b, rest, hchar, -, hc⟩ := exists_encodeChar c
  obtain ⟨b', head, rfl⟩ := List.exists_cons_of_ne_nil hhead
  rw [hchar, List.cons_append] at h
  obtain ⟨-, rfl⟩ := List.cons.inj h
  exact hc (List.append_ne_nil_of_right_ne_nil _ htail)

theorem decodeChunks_of_rest (chunks : List (List ℕ)) :
    ∀ {rest : List ℕ} {text : List Char}, (∀ b ∈ rest, Continues b) →
    chunks.flatten = rest ++ encode text →
    ∃ t, decodeChunks chunks = List.replicate rest.length replacement ++ t
      ∧ Damages text t
      ∧ (t.length = text.length → rest = [] →
        ∀ chunk ∈ chunks, ∃ s, chunk = encode s) := by
  induction chunks with
  | nil =>
    intro rest text _ h
    obtain ⟨rfl, htext⟩ := List.append_eq_nil_iff.mp h.symm
    obtain rfl : text = [] := encode_injective htext
    exact ⟨[], rfl, .nil, fun _ _ => by simp⟩
  | cons chunk chunks ih =>
    intro rest text hrest h
    rw [List.flatten_cons, List.append_eq_append_iff] at h
    have hdecode : decodeChunks (chunk :: chunks)
      = decode chunk ++ decodeChunks chunks := rfl
    rw [hdecode]
    rcases h with ⟨rest', rfl, h⟩ | ⟨l, rfl, h⟩
    · -- the chunk ends before the broken character does
      obtain ⟨t, hout, hdamages, hwhole⟩ :=
        ih (fun b hb => hrest b (List.mem_append_right _ hb)) h
      have hchunk := decode_continues_append
        (fun b hb => hrest b (List.mem_append_left rest' hb)) []
      rw [List.append_nil, show decode [] = [] from rfl, List.append_nil] at hchunk
      refine ⟨t, ?_, hdamages, fun hlength hnil => ?_⟩
      · rw [hchunk, hout, List.length_append, List.replicate_add,
          List.append_assoc]
      · obtain ⟨rfl, rfl⟩ := List.append_eq_nil_iff.mp hnil
        intro c hc
        rcases List.mem_cons.mp hc with rfl | hc
        · exact ⟨[], rfl⟩
        · exact hwhole hlength rfl c hc
    · rw [decode_continues_append hrest, List.append_assoc]
      rcases encode_eq_append h with ⟨s, text', rfl, rfl, hmore⟩
        | ⟨s, c, text', head, tail, rfl, hchar, hhead, htail, rfl, hmore⟩
      · -- the chunk ends between two characters
        obtain ⟨t, hout, hdamages, hwhole⟩ := @ih [] text' (by simp) hmore
        refine ⟨s ++ t, ?_, hdamages.append_left s, fun hlength hnil => ?_⟩
        · rw [decode_encode, hout]
          rfl
        · subst hnil
          intro c hc
          rcases List.mem_cons.mp hc with rfl | hc
          · exact ⟨s, rfl⟩
          · refine hwhole ?_ rfl c hc
            rw [List.length_append, List.length_append] at hlength
            omega
      · -- the chunk ends inside a character
        obtain ⟨t, hout, hdamages, -⟩ :=
          ih (continues_of_tail hchar hhead) hmore
        obtain ⟨b, tail, rfl⟩ := List.exists_cons_of_ne_nil htail
        refine ⟨s ++ (List.replicate (tail.length + 2) replacement ++ t), ?_,
          (Damages.damage _ (not_ascii_of_cut hchar hhead htail)
            hdamages).append_left s, fun hlength => ?_⟩
        · rw [decode_encode_append, decode_head hchar hhead htail, hout,
            List.length_cons, List.replicate_succ (n := tail.length + 1)]
          simp only [List.append_assoc, List.cons_append, List.nil_append]
        · have := hdamages.length_le
          simp only [List.length_append, List.length_replicate,
            List.length_cons] at hlength
          omega

/-- **What is left of a text that is decoded chunk by chunk.** -/
theorem decodeChunks_damages {chunks : List (List ℕ)} {text : List Char}
    (h : chunks.flatten = encode text) : Damages text (decodeChunks chunks) := by
  obtain ⟨t, hout, hdamages, -⟩ :=
    @decodeChunks_of_rest chunks [] text (by simp) h
  rw [hout]
  exact hdamages

/-- **Nothing is lost exactly when no cut goes through a character**: each
chunk is the encoding of a text. -/
theorem decodeChunks_eq_iff {chunks : List (List ℕ)} {text : List Char}
    (h : chunks.flatten = encode text) :
    decodeChunks chunks = text ↔ ∀ chunk ∈ chunks, ∃ s, chunk = encode s := by
  refine ⟨fun heq => ?_, fun hwhole => ?_⟩
  · obtain ⟨t, hout, -, hwhole⟩ :=
      @decodeChunks_of_rest chunks [] text (by simp) h
    refine hwhole ?_ rfl
    rw [← heq, hout]
    rfl
  · refine encode_injective ?_
    rw [← h]
    clear h
    induction chunks with
    | nil => rfl
    | cons chunk chunks ih =>
      obtain ⟨s, rfl⟩ := hwhole chunk List.mem_cons_self
      rw [show decodeChunks (encode s :: chunks)
          = decode (encode s) ++ decodeChunks chunks from rfl, decode_encode,
        encode_append, List.flatten_cons,
        ih (fun c hc => hwhole c (List.mem_cons_of_mem _ hc))]

end Utf8
