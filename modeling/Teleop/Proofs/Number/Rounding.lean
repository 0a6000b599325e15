import Mathlib.Algebra.Order.Field.Power
import Mathlib.Data.Rat.Cast.Order
import Mathlib.Tactic.FieldSimp
import Mathlib.Tactic.Linarith
import Mathlib.Tactic.Positivity
import Mathlib.Tactic.Ring
import Teleop.Number.Binary

/-!
# Rounding to the nearest number

The finite numbers of a format are `m * 2 ^ e` in one way each. Every fraction that is no farther from
such a number than half-way to its neighbours is rounded to it.
-/

namespace Teleop.Number

variable {num den n d m : Nat} {e : Int} {x : ℚ}

/-! ## Powers of two -/

theorem scale_den_pos (num : Nat) (hden : 0 < den) (e : Int) : 0 < (scale num den e).2 := by
  unfold scale
  split
  · exact hden
  · exact Nat.mul_pos hden (Nat.two_pow_pos _)

theorem scale_value (num den : Nat) (e : Int) :
    ((scale num den e).1 / (scale num den e).2 : ℚ) = num / den * 2 ^ e := by
  unfold scale
  split
  · rename_i he
    obtain ⟨k, rfl⟩ := Int.eq_ofNat_of_zero_le he
    simp only [Int.toNat_natCast, Nat.pow_eq, zpow_natCast]
    push_cast
    ring
  · rename_i he
    obtain ⟨k, rfl⟩ := Int.exists_eq_neg_ofNat (not_le.mp he).le
    simp only [neg_neg, Int.toNat_natCast, Nat.pow_eq, zpow_neg, zpow_natCast]
    push_cast
    rw [div_mul_eq_div_div, div_eq_mul_inv _ ((2 : ℚ) ^ k)]

theorem two_zpow_pos (e : Int) : (0 : ℚ) < 2 ^ e := zpow_pos (by norm_num) e

theorem two_zpow_le {a b : Int} (h : a ≤ b) : (2 : ℚ) ^ a ≤ 2 ^ b :=
  zpow_le_zpow_right₀ (by norm_num) h

theorem lt_of_two_zpow_lt {a b : Int} (h : (2 : ℚ) ^ a < 2 ^ b) : a < b :=
  (zpow_lt_zpow_iff_right₀ (by norm_num)).mp h

theorem log2_bounds (hn : n ≠ 0) :
    (2 : ℚ) ^ (Nat.log2 n : Int) ≤ n ∧ (n : ℚ) < 2 ^ (Nat.log2 n + 1 : Int) := by
  constructor
  · rw [zpow_natCast]
    exact_mod_cast Nat.log2_self_le hn
  · exact_mod_cast (Nat.lt_log2_self (n := n))

theorem log2_sub_bounds (hnum : num ≠ 0) (hden : den ≠ 0) :
    (2 : ℚ) ^ ((Nat.log2 num : Int) - Nat.log2 den - 1) ≤ num / den ∧
      (num / den : ℚ) < 2 ^ ((Nat.log2 num : Int) - Nat.log2 den + 1) := by
  have htwo : (2 : ℚ) ≠ 0 := by norm_num
  have hden' : (0 : ℚ) < den := by exact_mod_cast Nat.pos_of_ne_zero hden
  rw [le_div_iff₀ hden', div_lt_iff₀ hden']
  constructor
  · calc (2 : ℚ) ^ ((Nat.log2 num : Int) - Nat.log2 den - 1) * den
        ≤ 2 ^ ((Nat.log2 num : Int) - Nat.log2 den - 1) * 2 ^ (Nat.log2 den + 1 : Int) :=
          mul_le_mul_of_nonneg_left (log2_bounds hden).2.le (two_zpow_pos _).le
      _ = 2 ^ (Nat.log2 num : Int) := by
          rw [← zpow_add₀ htwo]
          congr 1
          ring
      _ ≤ num := (log2_bounds hnum).1
  · calc (num : ℚ) < 2 ^ (Nat.log2 num + 1 : Int) := (log2_bounds hnum).2
      _ = 2 ^ ((Nat.log2 num : Int) - Nat.log2 den + 1) * 2 ^ (Nat.log2 den : Int) := by
          rw [← zpow_add₀ htwo]
          congr 1
          ring
      _ ≤ 2 ^ ((Nat.log2 num : Int) - Nat.log2 den + 1) * den :=
          mul_le_mul_of_nonneg_left (log2_bounds hden).1 (two_zpow_pos _).le

theorem scale_neg_le_iff (hden : den ≠ 0) (e : Int) :
    (scale num den (-e)).2 ≤ (scale num den (-e)).1 ↔ (2 : ℚ) ^ e ≤ num / den := by
  have hpos : (0 : ℚ) < (scale num den (-e)).2 := by
    exact_mod_cast scale_den_pos num (Nat.pos_of_ne_zero hden) (-e)
  rw [← Nat.cast_le (α := ℚ), ← one_le_div hpos, scale_value, zpow_neg, ← div_eq_mul_inv,
    one_le_div (two_zpow_pos e)]

theorem floorLog2_bounds (hnum : num ≠ 0) (hden : den ≠ 0) :
    (2 : ℚ) ^ floorLog2 num den ≤ num / den ∧ (num / den : ℚ) < 2 ^ (floorLog2 num den + 1) := by
  obtain ⟨hlow, hhigh⟩ := log2_sub_bounds hnum hden
  unfold floorLog2
  simp only
  generalize (Nat.log2 num : Int) - Nat.log2 den = k at hlow hhigh ⊢
  split
  · rename_i h
    exact ⟨(scale_neg_le_iff hden k).mp h, hhigh⟩
  · rename_i h
    rw [scale_neg_le_iff hden, not_le] at h
    exact ⟨hlow, by rwa [sub_add_cancel]⟩

/-! ## Natural numbers -/

/-- Half-way between two numbers the even one is the nearest. -/
theorem divNearest_eq (hd : 0 < d) (hlow : 2 * (m * d) ≤ 2 * n + d) (hhigh : 2 * n ≤ 2 * (m * d) + d)
    (htie : 2 * (m * d) = 2 * n + d ∨ 2 * n = 2 * (m * d) + d → m % 2 = 0) : divNearest n d = m := by
  have hmod := Nat.mod_lt n hd
  have hdiv := Nat.div_add_mod n d
  unfold divNearest
  simp only
  generalize hq : n / d = q at hdiv ⊢
  generalize n % d = r at hmod hdiv ⊢
  rw [Nat.mul_comm] at hdiv
  have hle : q ≤ m := by
    by_contra h
    have := Nat.mul_le_mul_right d (show m + 1 ≤ q by omega)
    rw [Nat.succ_mul] at this
    have htie' := htie (by omega)
    omega
  have hge : m ≤ q + 1 := by
    by_contra h
    have := Nat.mul_le_mul_right d (show q + 1 + 1 ≤ m by omega)
    rw [Nat.succ_mul, Nat.succ_mul] at this
    omega
  obtain rfl | rfl : m = q ∨ m = q + 1 := by omega
  · split_ifs with h1 h2 h3
    · rfl
    · omega
    · rfl
    · have := htie (by omega)
      omega
  · rw [Nat.succ_mul q] at hlow hhigh htie
    split_ifs with h1 h2 h3
    · omega
    · rfl
    · have := htie (by omega)
      omega
    · rfl

theorem divNearest_of_near (hd : 0 < d) (hlow : (m - 1 / 2 : ℚ) ≤ n / d)
    (hhigh : (n / d : ℚ) ≤ m + 1 / 2)
    (htie : (n / d : ℚ) = m - 1 / 2 ∨ (n / d : ℚ) = m + 1 / 2 → m % 2 = 0) : divNearest n d = m := by
  have hd' : (0 : ℚ) < d := by exact_mod_cast hd
  rw [le_div_iff₀ hd'] at hlow
  rw [div_le_iff₀ hd'] at hhigh
  rw [div_eq_iff hd'.ne', div_eq_iff hd'.ne'] at htie
  apply divNearest_eq hd
  · have : (2 * (m * d) : ℚ) ≤ 2 * n + d := by linarith
    exact_mod_cast this
  · have : (2 * n : ℚ) ≤ 2 * (m * d) + d := by linarith
    exact_mod_cast this
  · intro h
    apply htie
    rcases h with h | h
    · left
      have : (2 * (m * d) : ℚ) = 2 * n + d := by exact_mod_cast h
      linarith
    · right
      have : (2 * n : ℚ) = 2 * (m * d) + d := by exact_mod_cast h
      linarith

namespace BinaryFormat

variable {f : BinaryFormat} {negative : Bool} {bits : Nat}

/-! ## The finite numbers -/

/-- `m * 2 ^ e` is a number of the format, and `m` is as large as it can be. -/
structure Legal (f : BinaryFormat) (m : Nat) (e : Int) : Prop where
  mantissa_lt : m < 2 ^ (f.fractionBits + 1)
  least_le : f.leastExponent ≤ e
  full : 2 ^ f.fractionBits ≤ m ∨ e = f.leastExponent

/-- The bits of `m * 2 ^ e`, without a sign. -/
def pack (f : BinaryFormat) (m : Nat) (e : Int) : Nat :=
  (e - f.leastExponent).toNat * 2 ^ f.fractionBits + m

theorem exponent_lt (hfinite : f.pack m e < f.infinity) :
    e < f.leastExponent + 2 ^ f.exponentBits - 1 := by
  unfold pack infinity at hfinite
  simp only [Nat.pow_eq] at hfinite
  have hlt : (e - f.leastExponent).toNat < 2 ^ f.exponentBits - 1 :=
    Nat.lt_of_mul_lt_mul_right (Nat.lt_of_le_of_lt (Nat.le_add_right _ _) hfinite)
  have hcast : ((2 ^ f.exponentBits : Nat) : Int) = 2 ^ f.exponentBits := by push_cast; rfl
  omega

theorem pack_lt_infinity (hlegal : f.Legal m e) (he : e + 2 < f.leastExponent + 2 ^ f.exponentBits) :
    f.pack m e < f.infinity := by
  have hm := hlegal.mantissa_lt
  have hleast := hlegal.least_le
  have hcast : ((2 ^ f.exponentBits : Nat) : Int) = 2 ^ f.exponentBits := by push_cast; rfl
  obtain ⟨j, hj⟩ : ∃ j, 2 ^ f.exponentBits - 1 = (e - f.leastExponent).toNat + 2 + j :=
    Nat.exists_eq_add_of_le (by omega)
  unfold pack infinity
  simp only [Nat.pow_eq]
  rw [hj, Nat.add_mul, Nat.add_mul]
  omega

theorem pack_zero (hlegal : f.Legal 0 e) : f.pack 0 e = 0 := by
  have hfull := hlegal.full
  have := Nat.two_pow_pos f.fractionBits
  have he : e = f.leastExponent := by omega
  simp [pack, he]

theorem legal_zero (f : BinaryFormat) : f.Legal 0 f.leastExponent :=
  ⟨Nat.two_pow_pos _, le_refl _, Or.inr rfl⟩

theorem infinity_lt_signBit (f : BinaryFormat) : f.infinity < f.signBit := by
  unfold infinity signBit
  simp only [Nat.pow_eq]
  rw [Nat.pow_add, Nat.mul_comm]
  have := Nat.two_pow_pos f.exponentBits
  exact Nat.mul_lt_mul_of_pos_left (by omega) (Nat.two_pow_pos _)

theorem isNegative_withSign (h : m < f.signBit) : f.isNegative (f.withSign negative m) = negative := by
  unfold isNegative withSign
  cases negative with
  | false => simpa using h
  | true => simp

theorem magnitude_withSign (h : m < f.signBit) : f.magnitude (f.withSign negative m) = m := by
  unfold magnitude withSign
  cases negative with
  | false => exact Nat.mod_eq_of_lt h
  | true => simp [Nat.mod_eq_of_lt h]

theorem withSign_magnitude (h : bits < 2 * f.signBit) :
    f.withSign (f.isNegative bits) (f.magnitude bits) = bits := by
  unfold withSign isNegative magnitude
  split
  · rename_i hneg
    rw [decide_eq_true_eq] at hneg
    rw [Nat.mod_eq_sub_mod hneg, Nat.mod_eq_of_lt (by omega)]
    omega
  · rename_i hneg
    rw [decide_eq_true_eq] at hneg
    exact Nat.mod_eq_of_lt (by omega)

theorem read_eq_finite (h : f.read bits = .finite negative m e) (hbits : bits < 2 * f.signBit) :
    f.Legal m e ∧ f.pack m e < f.infinity ∧ bits = f.withSign negative (f.pack m e) := by
  have hsplit := Nat.div_add_mod (f.magnitude bits) (2 ^ f.fractionBits)
  have hfraction := Nat.mod_lt (f.magnitude bits) (Nat.two_pow_pos f.fractionBits)
  have hwhole := withSign_magnitude hbits
  have hpow : 2 ^ (f.fractionBits + 1) = 2 * 2 ^ f.fractionBits := by rw [Nat.pow_succ, Nat.mul_comm]
  unfold read at h
  simp only [Nat.pow_eq] at h
  split at h
  · cases h
  · split at h
    · cases h
    · have hlt : f.magnitude bits < f.infinity := by omega
      generalize hq : f.magnitude bits / 2 ^ f.fractionBits = q at h hsplit
      cases q with
      | zero =>
        simp only [BinaryValue.finite.injEq] at h
        obtain ⟨rfl, rfl, rfl⟩ := h
        have hpack : f.pack (f.magnitude bits % 2 ^ f.fractionBits) f.leastExponent =
            f.magnitude bits := by
          simpa [pack] using hsplit
        exact ⟨⟨by omega, le_refl _, Or.inr rfl⟩, by omega, by rw [hpack, hwhole]⟩
      | succ q =>
        simp only [BinaryValue.finite.injEq] at h
        obtain ⟨rfl, rfl, rfl⟩ := h
        have hpack : f.pack (2 ^ f.fractionBits + f.magnitude bits % 2 ^ f.fractionBits)
            (f.leastExponent + q) = f.magnitude bits := by
          unfold pack
          rw [add_sub_cancel_left, Int.toNat_natCast, ← Nat.add_assoc, ← Nat.succ_mul, Nat.mul_comm]
          exact hsplit
        exact ⟨⟨by omega, by omega, Or.inl (by omega)⟩, by omega, by rw [hpack, hwhole]⟩

theorem read_eq_infinite (h : f.read bits = .infinite negative) (hbits : bits < 2 * f.signBit) :
    bits = f.withSign negative f.infinity := by
  have hwhole := withSign_magnitude hbits
  unfold read at h
  simp only at h
  split at h
  · cases h
  · split at h
    · rename_i hinf
      simp only [BinaryValue.infinite.injEq] at h
      rw [← hwhole, hinf, h]
    · split at h <;> cases h

theorem read_pack (negative : Bool) (hlegal : f.Legal m e) (hfinite : f.pack m e < f.infinity) :
    f.read (f.withSign negative (f.pack m e)) = .finite negative m e := by
  have hsign := f.infinity_lt_signBit
  have hpow : 2 ^ (f.fractionBits + 1) = 2 * 2 ^ f.fractionBits := by rw [Nat.pow_succ, Nat.mul_comm]
  obtain ⟨hlt, hleast, hfull⟩ := hlegal
  obtain ⟨k, rfl⟩ : ∃ k : Nat, e = f.leastExponent + k := ⟨(e - f.leastExponent).toNat, by omega⟩
  unfold read
  simp only [Nat.pow_eq]
  rw [isNegative_withSign (by omega), magnitude_withSign (by omega), if_neg (by omega),
    if_neg (by omega)]
  unfold pack
  rw [add_sub_cancel_left, Int.toNat_natCast]
  by_cases hm : 2 ^ f.fractionBits ≤ m
  · have hsplit : k * 2 ^ f.fractionBits + m =
        (m - 2 ^ f.fractionBits) + 2 ^ f.fractionBits * (k + 1) := by
      rw [Nat.mul_succ, Nat.mul_comm]
      omega
    rw [hsplit, Nat.add_mul_div_left _ _ (Nat.two_pow_pos _), Nat.add_mul_mod_self_left,
      Nat.div_eq_of_lt (by omega), Nat.mod_eq_of_lt (by omega), Nat.zero_add]
    simp only [BinaryValue.finite.injEq, and_true, true_and]
    omega
  · have hk : k = 0 := by omega
    subst hk
    rw [Nat.zero_mul, Nat.zero_add, Nat.div_eq_of_lt (by omega), Nat.mod_eq_of_lt (by omega)]
    simp

theorem read_infinity : f.read (f.withSign negative f.infinity) = .infinite negative := by
  have hsign := f.infinity_lt_signBit
  unfold read
  simp only
  rw [isNegative_withSign hsign, magnitude_withSign hsign, if_neg (by omega), if_pos rfl]

/-! ## Half-way to the neighbours -/

/-- How far the lower half-way point is away, in units of `2 ^ e`. Below a power of two the numbers
are twice as dense, if there are any. -/
def lowerGap (f : BinaryFormat) (m : Nat) (e : Int) : ℚ :=
  if m = 2 ^ f.fractionBits ∧ f.leastExponent < e then 1 / 4 else 1 / 2

/-- `x` is not beyond half-way from `m * 2 ^ e` to its neighbours. The half-way points themselves
belong to even numbers. -/
structure Near (f : BinaryFormat) (m : Nat) (e : Int) (x : ℚ) : Prop where
  low : (m - f.lowerGap m e) * 2 ^ e ≤ x
  high : x ≤ (m + 1 / 2) * 2 ^ e
  even : x = (m - f.lowerGap m e) * 2 ^ e ∨ x = (m + 1 / 2) * 2 ^ e → m % 2 = 0

theorem lowerGap_le (f : BinaryFormat) (m : Nat) (e : Int) : f.lowerGap m e ≤ 1 / 2 := by
  unfold lowerGap
  split <;> norm_num

theorem lowerGap_pos (f : BinaryFormat) (m : Nat) (e : Int) : 0 < f.lowerGap m e := by
  unfold lowerGap
  split <;> norm_num

theorem Near.pos (h : f.Near m e x) (hm : 0 < m) : 0 < x := by
  have hgap := f.lowerGap_le m e
  have hm' : (1 : ℚ) ≤ m := by exact_mod_cast hm
  exact lt_of_lt_of_le (mul_pos (by linarith) (two_zpow_pos e)) h.low

theorem near_self (f : BinaryFormat) (m : Nat) (e : Int) : f.Near m e (m * 2 ^ e) := by
  have hgap := f.lowerGap_pos m e
  have hpos := two_zpow_pos e
  refine ⟨?_, ?_, ?_⟩
  · exact mul_le_mul_of_nonneg_right (by linarith) hpos.le
  · exact mul_le_mul_of_nonneg_right (by linarith) hpos.le
  · rintro (h | h)
    · exact absurd (mul_right_cancel₀ hpos.ne' h) (by linarith)
    · exact absurd (mul_right_cancel₀ hpos.ne' h) (by linarith)

theorem two_pow_mul_two_zpow (j : Nat) (e : Int) : (2 : ℚ) ^ j * 2 ^ e = 2 ^ (j + e) := by
  rw [zpow_add₀ (by norm_num), zpow_natCast]

theorem Near.lt_next_power (h : f.Near m e x) (hm : m < 2 ^ (f.fractionBits + 1)) :
    x < 2 ^ ((f.fractionBits : Int) + 1 + e) := by
  have hm' : (m + 1 : ℚ) ≤ 2 ^ (f.fractionBits + 1) := by exact_mod_cast hm
  calc x ≤ (m + 1 / 2) * 2 ^ e := h.high
    _ < 2 ^ (f.fractionBits + 1) * 2 ^ e := mul_lt_mul_of_pos_right (by linarith) (two_zpow_pos e)
    _ = 2 ^ ((f.fractionBits : Int) + 1 + e) := by
        rw [two_pow_mul_two_zpow]
        push_cast
        rfl

theorem Near.eq_two_pow (h : f.Near m e x) (hm : 2 ^ f.fractionBits ≤ m)
    (hbelow : x < 2 ^ f.fractionBits * 2 ^ e) : m = 2 ^ f.fractionBits := by
  have hgap : (m - f.lowerGap m e : ℚ) < 2 ^ f.fractionBits :=
    lt_of_mul_lt_mul_right (lt_of_le_of_lt h.low hbelow) (two_zpow_pos e).le
  have hgap_le := f.lowerGap_le m e
  by_contra hne
  have hmore : 2 ^ f.fractionBits + 1 ≤ m := by omega
  have hmore' : (2 ^ f.fractionBits + 1 : ℚ) ≤ m := by exact_mod_cast hmore
  linarith

/-- The unit that a number near `m * 2 ^ e` is rounded to is `2 ^ e`, or the next smaller one if the
number is below a power of two. -/
theorem unit_of_near (hlegal : f.Legal m e) (h : f.Near m e x) {k : Int} (hlow : (2 : ℚ) ^ k ≤ x)
    (hhigh : x < 2 ^ (k + 1)) :
    max (k - f.fractionBits) f.leastExponent = e ∨
      max (k - f.fractionBits) f.leastExponent = e - 1 ∧ m = 2 ^ f.fractionBits ∧
        (2 ^ f.fractionBits - 1 / 4) * 2 ^ e ≤ x ∧ x < 2 ^ f.fractionBits * 2 ^ e := by
  obtain ⟨hlt, hleast, hfull⟩ := hlegal
  have hk : k < f.fractionBits + 1 + e :=
    lt_of_two_zpow_lt (lt_of_le_of_lt hlow (h.lt_next_power hlt))
  by_cases hk' : f.fractionBits + e ≤ k
  · left
    omega
  by_cases he : e = f.leastExponent
  · left
    omega
  right
  have hbelow : x < 2 ^ f.fractionBits * 2 ^ e := by
    calc x < 2 ^ (k + 1) := hhigh
      _ ≤ 2 ^ ((f.fractionBits : Int) + e) := two_zpow_le (by omega)
      _ = 2 ^ f.fractionBits * 2 ^ e := (two_pow_mul_two_zpow _ _).symm
  have hm : m = 2 ^ f.fractionBits := h.eq_two_pow (by tauto) hbelow
  have hquarter : f.lowerGap m e = 1 / 4 := if_pos ⟨hm, by omega⟩
  have hlow' : (2 ^ f.fractionBits - 1 / 4) * 2 ^ e ≤ x := by
    have := h.low
    rwa [hquarter, hm, Nat.cast_pow, Nat.cast_ofNat] at this
  refine ⟨?_, hm, hlow', hbelow⟩
  -- Three quarters of a power of two are above the next smaller one.
  have hk'' : (f.fractionBits + e - 1 : Int) < k + 1 := by
    apply lt_of_two_zpow_lt
    have hone : (1 : ℚ) ≤ 2 ^ f.fractionBits := one_le_pow₀ (by norm_num)
    calc (2 : ℚ) ^ ((f.fractionBits : Int) + e - 1) = 2 ^ f.fractionBits / 2 * 2 ^ e := by
          rw [zpow_sub_one₀ (by norm_num), ← two_pow_mul_two_zpow]
          ring
      _ < (2 ^ f.fractionBits - 1 / 4) * 2 ^ e :=
          mul_lt_mul_of_pos_right (by linarith) (two_zpow_pos e)
      _ ≤ x := hlow'
      _ < 2 ^ (k + 1) := hhigh
  omega

theorem roundMagnitude_of_near (hlegal : f.Legal m e) (hm : 0 < m)
    (hfinite : f.pack m e < f.infinity) (hden : 0 < den) (h : f.Near m e (num / den)) :
    f.roundMagnitude num den = f.pack m e := by
  have hnum : num ≠ 0 := by
    rintro rfl
    simpa using h.pos hm
  obtain ⟨hlow, hhigh⟩ := floorLog2_bounds hnum hden.ne'
  have hscaled :=
    scale_den_pos num hden (-max (floorLog2 num den - f.fractionBits) f.leastExponent)
  have hvalue := scale_value num den (-max (floorLog2 num den - f.fractionBits) f.leastExponent)
  unfold roundMagnitude
  rw [if_neg hnum]
  simp only [Nat.pow_eq]
  have hunit := unit_of_near hlegal h hlow hhigh
  have hleast := le_max_right (floorLog2 num den - f.fractionBits) f.leastExponent
  generalize max (floorLog2 num den - f.fractionBits) f.leastExponent = unit at *
  generalize scale num den (-unit) = s at *
  rw [zpow_neg, ← div_eq_mul_inv, eq_div_iff (two_zpow_pos unit).ne'] at hvalue
  rw [← hvalue] at h hunit
  have hpos := two_zpow_pos unit
  rcases hunit with rfl | ⟨hunit, hm', hbelow, habove⟩
  · have hgap := f.lowerGap_le m unit
    have hlow := le_of_mul_le_mul_right h.low hpos
    have hhigh := le_of_mul_le_mul_right h.high hpos
    rw [divNearest_of_near hscaled (by linarith) hhigh]
    · exact Nat.min_eq_right hfinite.le
    · intro htie
      apply h.even
      rcases htie with htie | htie
      · left
        rw [show (s.1 / s.2 : ℚ) = m - f.lowerGap m unit by linarith]
      · right
        rw [htie]
  · have hpow : (2 : ℚ) ^ e = 2 * 2 ^ unit := by
      rw [show e = unit + 1 by omega, zpow_add_one₀ (by norm_num), mul_comm]
    rw [hpow, ← mul_assoc] at hbelow habove
    have hbelow := le_of_mul_le_mul_right hbelow hpos
    have habove := lt_of_mul_lt_mul_right habove hpos.le
    rw [divNearest_of_near (m := 2 ^ f.fractionBits * 2) hscaled]
    · have hpack : f.pack m e =
          (unit - f.leastExponent).toNat * 2 ^ f.fractionBits + 2 ^ f.fractionBits * 2 := by
        unfold pack
        rw [hm', show (e - f.leastExponent).toNat = (unit - f.leastExponent).toNat + 1 by omega,
          Nat.succ_mul]
        omega
      rw [← hpack]
      exact Nat.min_eq_right hfinite.le
    · push_cast
      linarith
    · push_cast
      linarith
    · intro _
      exact Nat.mul_mod_left _ _

end BinaryFormat

end Teleop.Number
