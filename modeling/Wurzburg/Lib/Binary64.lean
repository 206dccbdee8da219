import Mathlib.Data.Int.Log
import Mathlib.Data.Rat.Floor
import Mathlib.Tactic.Linarith
import Mathlib.Tactic.FieldSimp

/-!
# Wurzburg.Lib.Binary64

**Rounding to double precision.** `nearest q` is the `binary64` number a
rational rounds to, to nearest with ties to even, for values in the range of the
normal numbers: a multiple of `ulp |q|`, the spacing of the 53-bit significands
around `q`. It is exact on the integers of at most 53 bits (`nearest_natCast`).

A quotient of two such integers that is not an integer keeps a distance from the
integers below it that is larger than the rounding error, so that rounding up the
rounded quotient gives the ceiling of the exact one (`ceil_nearest_div`).
-/

namespace Wurzburg.Lib.Binary64

/-- The nearest integer, ties to even. -/
def roundEven (q : ℚ) : ℤ :=
  if q - ⌊q⌋ < 1 / 2 then ⌊q⌋
  else if 1 / 2 < q - ⌊q⌋ then ⌊q⌋ + 1
  else if ⌊q⌋ % 2 = 0 then ⌊q⌋ else ⌊q⌋ + 1

/-- The spacing of the `binary64` numbers from the power of two below `q` on. -/
def ulp (q : ℚ) : ℚ := 2 ^ (Int.log 2 q - 52)

/-- The `binary64` number nearest to a value in the normal range. -/
def nearest (q : ℚ) : ℚ := if q = 0 then 0 else roundEven (q / ulp |q|) * ulp |q|

/-! ### Rounding to integers -/

@[simp] theorem roundEven_intCast (z : ℤ) : roundEven z = z := by
  unfold roundEven
  rw [Int.floor_intCast, sub_self, if_pos (by norm_num)]

/-- An integer above is not passed. -/
theorem roundEven_le {q : ℚ} {z : ℤ} (h : q ≤ z) : roundEven q ≤ z := by
  have hfloor : ⌊q⌋ ≤ z := by
    have hle : ((⌊q⌋ : ℤ) : ℚ) ≤ z := (Int.floor_le q).trans h
    exact_mod_cast hle
  have hnext : q ≠ ⌊q⌋ → ⌊q⌋ + 1 ≤ z := by
    intro hne
    have hlt : ((⌊q⌋ : ℤ) : ℚ) < z := (lt_of_le_of_ne (Int.floor_le q) (Ne.symm hne)).trans_le h
    exact_mod_cast hlt
  unfold roundEven
  split
  · exact hfloor
  · next hhalf =>
      have hne : q ≠ ⌊q⌋ := by
        intro heq
        exact hhalf (by rw [← heq, sub_self]; norm_num)
      split
      · exact hnext hne
      · split
        · exact hfloor
        · exact hnext hne

/-- Rounding loses half a unit at most. -/
theorem sub_half_le_roundEven (q : ℚ) : q - 1 / 2 ≤ roundEven q := by
  have hlt := Int.lt_floor_add_one q
  unfold roundEven
  split
  · linarith
  · push_cast [apply_ite (fun z : ℤ => (z : ℚ))]
    split
    · linarith
    · split
      · linarith
      · linarith

/-! ### Rounding to double precision -/

theorem ulp_pos (q : ℚ) : 0 < ulp q := zpow_pos (by norm_num) _

/-- The exponent of a value below `2 ^ 53`. -/
theorem log_le {q : ℚ} (hq : 0 < q) (h : q < 2 ^ 53) : Int.log 2 q ≤ 52 := by
  have hlt : q < ((2 : ℕ) : ℚ) ^ (53 : ℤ) := by exact_mod_cast h
  have := (Int.lt_zpow_iff_log_lt (by norm_num) hq).mp hlt
  omega

/-- Below `2 ^ 53` the integers are multiples of the spacing. -/
theorem exists_mul_ulp {q : ℚ} (hq : 0 < q) (h : q < 2 ^ 53) (z : ℤ) :
    ∃ m : ℤ, (z : ℚ) = m * ulp q := by
  obtain ⟨k, hk⟩ := Int.eq_ofNat_of_zero_le (show 0 ≤ 52 - Int.log 2 q by have := log_le hq h; omega)
  refine ⟨z * 2 ^ k, ?_⟩
  have hexp : Int.log 2 q - 52 = -(k : ℤ) := by omega
  unfold ulp
  rw [hexp, zpow_neg, zpow_natCast]
  push_cast
  field_simp

theorem nearest_of_pos {q : ℚ} (hq : 0 < q) : nearest q = roundEven (q / ulp q) * ulp q := by
  unfold nearest
  rw [if_neg hq.ne', abs_of_pos hq]

/-- Integers of at most 53 bits are exact. -/
theorem nearest_natCast {n : ℕ} (h : n < 2 ^ 53) : nearest n = n := by
  by_cases hn : n = 0
  · subst hn
    exact if_pos rfl
  · have hpos : (0 : ℚ) < n := by exact_mod_cast Nat.pos_of_ne_zero hn
    obtain ⟨m, hm⟩ := exists_mul_ulp hpos (by exact_mod_cast h) n
    have hm : (n : ℚ) = m * ulp n := by exact_mod_cast hm
    have hquot : (n : ℚ) / ulp n = m := by
      rw [div_eq_iff (ulp_pos _).ne']
      exact hm
    rw [nearest_of_pos hpos, hquot, roundEven_intCast, ← hm]

/-- An integer above is not passed. -/
theorem nearest_le {q : ℚ} (hq : 0 < q) (h : q < 2 ^ 53) {z : ℤ} (hz : q ≤ z) :
    nearest q ≤ z := by
  obtain ⟨m, hm⟩ := exists_mul_ulp hq h z
  have hle : roundEven (q / ulp q) ≤ m := by
    refine roundEven_le ?_
    rw [div_le_iff₀ (ulp_pos q), ← hm]
    exact hz
  have hle : (roundEven (q / ulp q) : ℚ) ≤ m := by exact_mod_cast hle
  rw [nearest_of_pos hq, hm]
  exact mul_le_mul_of_nonneg_right hle (ulp_pos q).le

/-- Rounding loses half the spacing at most. -/
theorem sub_half_ulp_le_nearest {q : ℚ} (hq : 0 < q) : q - ulp q / 2 ≤ nearest q := by
  have hround := sub_half_le_roundEven (q / ulp q)
  rw [nearest_of_pos hq]
  have hmul := mul_le_mul_of_nonneg_right hround (ulp_pos q).le
  rw [sub_mul, div_mul_cancel₀ _ (ulp_pos q).ne'] at hmul
  linarith

/-- **Rounding up a rounded quotient.** -/
theorem ceil_nearest_div {n d : ℕ} (hd : 0 < d) (hn : n < 2 ^ 53) :
    ⌈nearest ((n : ℚ) / d)⌉ = ⌈(n : ℚ) / d⌉ := by
  by_cases hzero : n = 0
  · subst hzero
    simp [nearest]
  have hd' : (0 : ℚ) < d := by exact_mod_cast hd
  have hn' : (0 : ℚ) < n := by exact_mod_cast Nat.pos_of_ne_zero hzero
  obtain ⟨q, hq⟩ : ∃ q : ℚ, (n : ℚ) / d = q := ⟨_, rfl⟩
  have hpos : 0 < q := hq ▸ div_pos hn' hd'
  have hqd : q * d = n := by rw [← hq, div_mul_cancel₀ _ hd'.ne']
  have hlt : q < 2 ^ 53 := by
    have hone : (1 : ℚ) ≤ d := by exact_mod_cast hd
    have hle : q ≤ n := by nlinarith
    exact hle.trans_lt (by exact_mod_cast hn)
  rw [hq]
  refine Int.ceil_eq_iff.mpr ⟨?_, nearest_le hpos hlt (Int.le_ceil q)⟩
  -- `q` is at least `1 / d` above the integer below it, and half the spacing is less than that
  have hgap : (⌈q⌉ - 1) * d + 1 ≤ (n : ℚ) := by
    have hbelow : ((⌈q⌉ - 1 : ℤ) : ℚ) * d < n := by
      rw [← hqd]
      refine mul_lt_mul_of_pos_right ?_ hd'
      push_cast
      linarith [Int.ceil_lt_add_one q]
    have hint : (⌈q⌉ - 1) * (d : ℤ) + 1 ≤ n := by
      have : (⌈q⌉ - 1) * (d : ℤ) < n := by exact_mod_cast hbelow
      omega
    exact_mod_cast hint
  have hulp : ulp q / 2 * d < 1 := by
    have hpow : ulp q * 2 ^ 52 ≤ q := by
      have hle := Int.zpow_log_le_self (b := 2) (by norm_num) hpos
      have heq : ulp q * 2 ^ 52 = ((2 : ℕ) : ℚ) ^ Int.log 2 q := by
        unfold ulp
        rw [zpow_sub₀ (by norm_num)]
        norm_num
      rw [heq]
      exact hle
    have hbig : ulp q * 2 ^ 52 * d < 2 ^ 53 := by
      have hle := mul_le_mul_of_nonneg_right hpow hd'.le
      rw [hqd] at hle
      exact hle.trans_lt (by exact_mod_cast hn)
    nlinarith
  have hround := sub_half_ulp_le_nearest hpos
  nlinarith

end Wurzburg.Lib.Binary64
