import Mathlib.Algebra.Group.Nat.Defs
import Mathlib.Algebra.Order.Field.Basic
import Mathlib.Data.Int.Log
import Mathlib.Data.Nat.Log
import Mathlib.Data.Rat.Floor
import Mathlib.Tactic.Common

/-!
# Double-precision numbers

The double nearest to a number: of two that are as near, the one with the even significand.

It is given for natural numbers, with nothing but integers, and for rational numbers.
Natural numbers below `2 ^ 53` are doubles themselves (`Double.nearest_of_lt`), and no other
ones come below it (`Double.le_of_nearest`). A rational number that is a double is its own
nearest double (`Double.IsDouble.round_eq`), and one that is larger than a double is not
rounded to less (`Double.IsDouble.le_of_round`).
-/

namespace Double

/-! ## Natural numbers -/

/-- The distance of the doubles around a number, where these are integers. -/
def ulp (n : ℕ) : ℕ := 2 ^ (n.log2 - 52)

/-- **The nearest double**; none where that is infinite. -/
def nearest (n : ℕ) : Option ℕ :=
  let q := n / ulp n
  let r := n % ulp n
  let q := if 2 * r < ulp n ∨ 2 * r = ulp n ∧ q % 2 = 0 then q else q + 1
  if (q * ulp n).log2 < 1024 then some (q * ulp n) else none

/-- **Small numbers are doubles.** -/
theorem nearest_of_lt {n : ℕ} (h : n < 2 ^ 53) : nearest n = some n := by
  have hlog : n.log2 ≤ 52 := by
    rcases Nat.eq_zero_or_pos n with rfl | hpos
    · exact Nat.zero_le _
    · exact Nat.lt_succ_iff.mp ((Nat.log2_lt hpos.ne').mpr h)
  have hulp : ulp n = 1 := by
    unfold ulp
    rw [Nat.sub_eq_zero_of_le hlog, pow_zero]
  have hround : 2 * 0 < 1 ∨ 2 * 0 = 1 ∧ n % 2 = 0 := .inl (by decide)
  unfold nearest
  dsimp only
  rw [hulp, Nat.mod_one, Nat.div_one, if_pos hround, Nat.mul_one,
    if_pos (hlog.trans_lt (by decide))]

/-- **Large numbers stay large.** -/
theorem le_of_nearest {n m : ℕ} (h : 2 ^ 53 ≤ n) (hm : nearest n = some m) : 2 ^ 53 ≤ m := by
  have hn : n ≠ 0 := (Nat.lt_of_lt_of_le (Nat.two_pow_pos 53) h).ne'
  have hlog : 53 ≤ n.log2 := (Nat.le_log2 hn).mpr h
  have hulp : 2 ^ 52 * ulp n ≤ n := by
    unfold ulp
    rw [← pow_add, Nat.add_sub_cancel' (by omega)]
    exact Nat.log2_self_le hn
  have hpos : 0 < ulp n := Nat.two_pow_pos _
  have hquotient : 2 ^ 52 ≤ n / ulp n := (Nat.le_div_iff_mul_le hpos).mpr hulp
  have htwo : 2 ≤ ulp n := by
    unfold ulp
    exact Nat.le_self_pow (by omega) 2
  have hround : ∀ q, n / ulp n ≤ q → 2 ^ 53 ≤ q * ulp n := fun q hq =>
    (Nat.mul_le_mul (hquotient.trans hq) htwo : 2 ^ 52 * 2 ≤ q * ulp n)
  unfold nearest at hm
  dsimp only at hm
  obtain ⟨-, heq⟩ := Option.ite_none_right_eq_some.mp hm
  rw [← Option.some.inj heq]
  refine hround _ ?_
  split
  · exact Nat.le_refl _
  · exact Nat.le_succ _

example : nearest (2 ^ 53 + 1) = some (2 ^ 53) := by decide +kernel

/-! ## Rational numbers -/

/-- The nearest integer: of two that are as near, the even one. -/
def roundEven (q : ℚ) : ℤ :=
  let r := q - ⌊q⌋
  if r < 1 / 2 ∨ r = 1 / 2 ∧ ⌊q⌋ % 2 = 0 then ⌊q⌋ else ⌊q⌋ + 1

/-- The exponent of the last place of the doubles around a number. -/
def exponent (q : ℚ) : ℤ := max (Int.log 2 |q| - 52) (-1074)

/-- **The nearest double** to a rational number; none where that is infinite. -/
def round (q : ℚ) : Option ℚ :=
  let r := (roundEven (q / 2 ^ exponent q) : ℚ) * 2 ^ exponent q
  if |r| < 2 ^ 1024 then some r else none

/-- **A double**, however large: no more than `2 ^ 53` of a last place. -/
def IsDouble (d : ℚ) : Prop := ∃ m e : ℤ, d = m * 2 ^ e ∧ |m| ≤ 2 ^ 53 ∧ -1074 ≤ e

theorem le_roundEven {z : ℤ} {q : ℚ} (h : z ≤ q) : z ≤ roundEven q := by
  have hfloor : z ≤ ⌊q⌋ := Int.le_floor.mpr h
  unfold roundEven
  dsimp only
  split
  · exact hfloor
  · exact hfloor.trans (Int.lt_succ ⌊q⌋).le

theorem roundEven_le {z : ℤ} {q : ℚ} (h : q ≤ z) : roundEven q ≤ z := by
  unfold roundEven
  dsimp only
  obtain rfl | hlt := h.eq_or_lt
  · have hzero : (z : ℚ) - ⌊(z : ℚ)⌋ < 1 / 2 := by
      rw [Int.floor_intCast, sub_self]
      exact one_half_pos
    rw [if_pos (.inl hzero), Int.floor_intCast]
  · have hfloor : ⌊q⌋ < z := Int.floor_lt.mpr hlt
    split
    · exact hfloor.le
    · exact hfloor

theorem two_zpow_pos (e : ℤ) : (0 : ℚ) < 2 ^ e := zpow_pos two_pos e

theorem lt_exponent {q : ℚ} (hq : 0 ≤ q) : q < 2 ^ 53 * 2 ^ exponent q := by
  have hlog : q < 2 ^ (Int.log 2 q + 1) := Int.lt_zpow_succ_log_self one_lt_two q
  have hle : Int.log 2 q + 1 ≤ 53 + exponent q := by
    unfold exponent
    rw [abs_of_nonneg hq]
    omega
  have hpow : (2 : ℚ) ^ (53 + exponent q) = 2 ^ 53 * 2 ^ exponent q := zpow_add₀ two_ne_zero _ _
  exact hlog.trans_le (hpow ▸ zpow_le_zpow_right₀ one_le_two hle)

/-- What is a number of last places below a number is so of its nearest double. -/
theorem mul_le_of_round {q r : ℚ} (h : round q = some r) {z : ℤ} (hz : z * 2 ^ exponent q ≤ q) :
    z * 2 ^ exponent q ≤ r := by
  obtain ⟨-, heq⟩ := Option.ite_none_right_eq_some.mp h
  rw [← Option.some.inj heq]
  have hle := le_roundEven ((le_div_iff₀ (two_zpow_pos _)).mpr hz)
  exact mul_le_mul_of_nonneg_right (Int.cast_le.mpr hle) (two_zpow_pos _).le

/-- **Between a double and a larger number** there is a number of last places. -/
theorem IsDouble.exists_le {d q : ℚ} (hd : IsDouble d) (h0 : 0 ≤ d) (h : d ≤ q) :
    ∃ z : ℤ, d ≤ z * 2 ^ exponent q ∧ z * 2 ^ exponent q ≤ q := by
  obtain rfl | hpos := h0.eq_or_lt
  · refine ⟨0, ?_, ?_⟩
    · rw [Int.cast_zero, zero_mul]
    · rwa [Int.cast_zero, zero_mul]
  obtain ⟨m, e, rfl, hm, he⟩ := hd
  have hq := hpos.trans_le h
  by_cases hexp : exponent q ≤ e
  · -- the last place of the larger number divides that of the double
    have hpow : (2 : ℚ) ^ e = 2 ^ (e - exponent q).toNat * 2 ^ exponent q := by
      rw [← zpow_natCast, Int.toNat_of_nonneg (sub_nonneg.mpr hexp), ← zpow_add₀ two_ne_zero,
        sub_add_cancel]
    have hsplit : (m : ℚ) * 2 ^ e = (m * 2 ^ (e - exponent q).toNat : ℤ) * 2 ^ exponent q := by
      rw [hpow, Int.cast_mul, Int.cast_pow, Int.cast_ofNat, mul_assoc]
    exact ⟨_, hsplit.le, hsplit ▸ h⟩
  · -- the larger number begins above all places of the double
    have hlog : 52 + exponent q = Int.log 2 q := by
      unfold exponent at hexp ⊢
      rw [abs_of_pos hq] at hexp ⊢
      omega
    have hpow : (2 ^ 52 : ℤ) * (2 : ℚ) ^ exponent q = 2 ^ Int.log 2 q := by
      rw [← hlog, zpow_add₀ two_ne_zero, Int.cast_pow, Int.cast_ofNat]
      rfl
    refine ⟨2 ^ 52, ?_, ?_⟩
    · calc (m : ℚ) * 2 ^ e ≤ (2 ^ 53 : ℤ) * 2 ^ e :=
          mul_le_mul_of_nonneg_right (Int.cast_le.mpr (le_of_abs_le hm)) (two_zpow_pos e).le
        _ = 2 ^ (53 + e) := by
          rw [zpow_add₀ two_ne_zero, Int.cast_pow, Int.cast_ofNat]
          rfl
        _ ≤ 2 ^ Int.log 2 q := zpow_le_zpow_right₀ one_le_two (by omega)
        _ = _ := hpow.symm
    · rw [hpow]
      exact Int.zpow_log_le_self one_lt_two hq

/-- **A double below a number** is no more than its nearest double. -/
theorem IsDouble.le_of_round {d q r : ℚ} (hd : IsDouble d) (h0 : 0 ≤ d) (h : d ≤ q)
    (hr : round q = some r) : d ≤ r := by
  obtain ⟨z, hdz, hzq⟩ := hd.exists_le h0 h
  exact hdz.trans (mul_le_of_round hr hzq)

theorem isDouble_zero : IsDouble 0 :=
  ⟨0, 0, by rw [Int.cast_zero, zero_mul], by decide, by decide⟩

/-- **A number of its own last places** is its nearest double, whatever its sign. -/
theorem round_eq_of_mul {d : ℚ} {z : ℤ} (h : d = z * 2 ^ exponent d) (hlt : |d| < 2 ^ 1024) :
    round d = some d := by
  have hz : d / 2 ^ exponent d = z := (div_eq_iff (two_zpow_pos _).ne').mpr h
  have heven : roundEven (d / 2 ^ exponent d) = z :=
    le_antisymm (roundEven_le hz.le) (le_roundEven hz.ge)
  unfold round
  dsimp only
  rw [heven, ← h, if_pos hlt]

theorem IsDouble.exists_eq {d : ℚ} (hd : IsDouble d) (h0 : 0 ≤ d) :
    ∃ z : ℤ, d = z * 2 ^ exponent d := by
  obtain ⟨z, hdz, hzd⟩ := hd.exists_le h0 (le_refl d)
  exact ⟨z, le_antisymm hdz hzd⟩

/-- **Doubles are their nearest doubles.** -/
theorem IsDouble.round_eq {d : ℚ} (hd : IsDouble d) (h0 : 0 ≤ d) (hlt : d < 2 ^ 1024) :
    round d = some d := by
  obtain ⟨z, hz⟩ := hd.exists_eq h0
  exact round_eq_of_mul hz (by rwa [abs_of_nonneg h0])

/-- **The nearest double is a double.** -/
theorem isDouble_of_round {q r : ℚ} (hq : 0 ≤ q) (h : round q = some r) : IsDouble r := by
  obtain ⟨-, heq⟩ := Option.ite_none_right_eq_some.mp h
  have hnonneg : 0 ≤ roundEven (q / 2 ^ exponent q) :=
    le_roundEven (Int.cast_zero.trans_le (div_nonneg hq (two_zpow_pos _).le))
  refine ⟨_, _, (Option.some.inj heq).symm, ?_, le_max_right _ _⟩
  rw [abs_of_nonneg hnonneg]
  refine roundEven_le ?_
  rw [div_le_iff₀ (two_zpow_pos _), Int.cast_pow, Int.cast_ofNat]
  exact (lt_exponent hq).le

theorem isDouble_natCast {n : ℕ} (h : n ≤ 2 ^ 53) : IsDouble n :=
  ⟨n, 0, by rw [zpow_zero, mul_one, Int.cast_natCast],
    by rw [abs_of_nonneg (Int.natCast_nonneg n)]; exact_mod_cast h, by decide⟩

theorem round_natCast {n : ℕ} (h : n ≤ 2 ^ 53) : round n = some (n : ℚ) := by
  refine (isDouble_natCast h).round_eq (Nat.cast_nonneg n) ?_
  have hle : (n : ℚ) ≤ 2 ^ 53 := by exact_mod_cast h
  exact hle.trans_lt (pow_lt_pow_right₀ one_lt_two (by decide))

/-- **Integers up to `2 ^ 53`**, of either sign: the last places of a number are those of its
absolute value. -/
theorem round_intCast {z : ℤ} (h : z.natAbs ≤ 2 ^ 53) : round z = some (z : ℚ) := by
  obtain ⟨m, hm⟩ := (isDouble_natCast h).exists_eq (Nat.cast_nonneg _)
  have hlt : |(z : ℚ)| < 2 ^ 1024 := by
    rw [← Int.cast_abs, Int.abs_eq_natAbs, Int.cast_natCast]
    have hle : (z.natAbs : ℚ) ≤ 2 ^ 53 := by exact_mod_cast h
    exact hle.trans_lt (pow_lt_pow_right₀ one_lt_two (by decide))
  have habs : exponent (z.natAbs : ℚ) = exponent z := by
    unfold exponent
    rw [Nat.cast_natAbs, Int.cast_abs, abs_abs]
  rcases Int.natAbs_eq z with hz | hz
  · refine round_eq_of_mul (z := m) ?_ hlt
    rw [← habs, ← hm, ← Int.cast_natCast, ← hz]
  · refine round_eq_of_mul (z := -m) ?_ hlt
    rw [← habs, Int.cast_neg, neg_mul, ← hm, ← Int.cast_natCast, ← Int.cast_neg, ← hz]

example : round (1 / 10) = some (3602879701896397 / 36028797018963968) := by decide +kernel

end Double
