import Mathlib.Algebra.Order.Floor.Semifield
import Mathlib.Data.Rat.Floor
import Teleop.Proofs.Number.Digits
import Teleop.Proofs.Number.Rounding

/-!
# Shortest decimals read back

The decimal that is written for a number is near it, so it is read as that number again. Seventeen
digits always hold such a decimal.
-/

namespace Teleop.Number

variable {f : BinaryFormat} {negative : Bool} {b : Basin} {d : Decimal} {m den : Nat} {e g : Int}

/-! ## The value of a decimal -/

def Decimal.value (d : Decimal) : ℚ := d.digits * 10 ^ d.exponent

theorem ten_zpow_pos (e : Int) : (0 : ℚ) < 10 ^ e := zpow_pos (by norm_num) e

namespace Decimal

theorem digits_ne_zero (h : 0 < d.value) : d.digits ≠ 0 := by
  intro hzero
  simp [value, hzero] at h

theorem onDenominator_pos (d : Decimal) (den : Nat) : 0 < (d.onDenominator den).2 := by
  unfold onDenominator
  split
  · exact Nat.one_pos
  · exact Nat.pow_pos (by decide)

theorem onDenominator_value (d : Decimal) (den : Nat) :
    ((d.onDenominator den).1 / (d.onDenominator den).2 : ℚ) = d.value * den := by
  obtain ⟨n, k⟩ := d
  unfold onDenominator value
  simp only
  split
  · rename_i hk
    obtain ⟨j, rfl⟩ := Int.eq_ofNat_of_zero_le hk
    simp
  · rename_i hk
    obtain ⟨j, rfl⟩ := Int.exists_eq_neg_ofNat (not_le.mp hk).le
    simp only [neg_neg, Int.toNat_natCast, Nat.pow_eq, zpow_neg, zpow_natCast]
    push_cast
    field_simp

theorem dropZeros_value (fuel : Nat) (d : Decimal) : (d.dropZeros fuel).value = d.value := by
  induction fuel generalizing d with
  | zero => rfl
  | succ fuel ih =>
    unfold dropZeros
    split
    · rename_i h
      have hdigits : (d.digits : ℚ) = 10 * (d.digits / 10 : Nat) := by
        exact_mod_cast (Nat.mul_div_cancel' (Nat.dvd_of_mod_eq_zero h.2)).symm
      rw [ih, value, value, zpow_add_one₀ (by norm_num), hdigits]
      ring
    · rfl

end Decimal

/-! ## Basins -/

theorem mul_le_of_div_le {a n s den : Nat} {v : ℚ} (hs : 0 < s) (hden : 0 < den)
    (h : (n / s : ℚ) = v * den) : (a * s ≤ n ↔ (a / den : ℚ) ≤ v) ∧ (n ≤ a * s ↔ v ≤ a / den) := by
  have hs' : (0 : ℚ) < s := by exact_mod_cast hs
  have hden' : (0 : ℚ) < den := by exact_mod_cast hden
  rw [div_eq_iff hs'.ne'] at h
  constructor
  · rw [div_le_iff₀ hden', ← Nat.cast_le (α := ℚ), h, Nat.cast_mul]
    exact mul_le_mul_iff_left₀ hs'
  · rw [le_div_iff₀ hden', ← Nat.cast_le (α := ℚ), h, Nat.cast_mul]
    exact mul_le_mul_iff_left₀ hs'

theorem Basin.contains_iff (hden : 0 < b.den) :
    b.contains d ↔ (b.low / b.den : ℚ) ≤ d.value ∧ d.value ≤ b.high / b.den ∧
      (d.value = b.low / b.den ∨ d.value = b.high / b.den → b.closed) := by
  have hs := d.onDenominator_pos b.den
  have hvalue := d.onDenominator_value b.den
  have hlow := mul_le_of_div_le (a := b.low) hs hden hvalue
  have hhigh := mul_le_of_div_le (a := b.high) hs hden hvalue
  unfold Basin.contains
  simp only
  generalize d.onDenominator b.den = p at *
  cases b.closed with
  | true => simp [hlow.1, hhigh.2]
  | false =>
    simp only [Bool.false_eq_true, if_false, Bool.and_eq_true, decide_eq_true_eq, imp_false, not_or]
    rw [← Nat.not_le, ← Nat.not_le, hlow.2, hhigh.1, not_le, not_le, lt_iff_le_and_ne,
      lt_iff_le_and_ne, ne_comm]
    tauto

theorem Basin.den_pos (f : BinaryFormat) (m : Nat) (e : Int) : 0 < (Basin.of f m e).den :=
  scale_den_pos 1 Nat.one_pos (e - 2)

theorem basin_value (f : BinaryFormat) (hm : 0 < m) (e : Int) :
    ((Basin.of f m e).low / (Basin.of f m e).den : ℚ) = (m - f.lowerGap m e) * 2 ^ e ∧
      ((Basin.of f m e).value / (Basin.of f m e).den : ℚ) = m * 2 ^ e ∧
      ((Basin.of f m e).high / (Basin.of f m e).den : ℚ) = (m + 1 / 2) * 2 ^ e := by
  have hunit := scale_value 1 1 (e - 2)
  have hquarter : (2 : ℚ) ^ (e - 2) = 2 ^ e / 4 := by
    rw [zpow_sub₀ (by norm_num)]
    norm_num
  rw [hquarter] at hunit
  have hpart (a : Nat) : ((a * (scale 1 1 (e - 2)).1 : Nat) / (scale 1 1 (e - 2)).2 : ℚ) =
      a / 4 * 2 ^ e := by
    rw [Nat.cast_mul, mul_div_assoc, hunit]
    ring
  have hm' : 2 ≤ 4 * m := by omega
  refine ⟨?_, ?_, ?_⟩
  · refine (hpart _).trans ?_
    unfold BinaryFormat.lowerGap
    simp only [Nat.pow_eq]
    split_ifs
    · rw [Nat.cast_sub (by omega)]
      push_cast
      ring
    · rw [Nat.cast_sub (by omega)]
      push_cast
      ring
  · refine (hpart _).trans ?_
    push_cast
    ring
  · refine (hpart _).trans ?_
    push_cast
    ring

theorem contains_iff_near (hm : 0 < m) : (Basin.of f m e).contains d ↔ f.Near m e d.value := by
  obtain ⟨hlow, -, hhigh⟩ := basin_value f hm e
  rw [Basin.contains_iff (Basin.den_pos f m e), hlow, hhigh]
  have hclosed : (Basin.of f m e).closed = true ↔ m % 2 = 0 := decide_eq_true_iff
  rw [hclosed]
  exact ⟨fun ⟨h1, h2, h3⟩ => ⟨h1, h2, h3⟩, fun ⟨h1, h2, h3⟩ => ⟨h1, h2, h3⟩⟩

/-! ## The search -/

theorem Basin.below_eq (b : Basin) (g : Int) :
    b.below g = ⟨⌊(b.value / b.den / 10 ^ g : ℚ)⌋₊, g⟩ := by
  unfold Basin.below
  split
  · rename_i hg
    obtain ⟨j, rfl⟩ := Int.eq_ofNat_of_zero_le hg
    rw [← Nat.floor_div_eq_div (K := ℚ)]
    simp [div_div]
  · rename_i hg
    obtain ⟨j, rfl⟩ := Int.exists_eq_neg_ofNat (not_le.mp hg).le
    rw [← Nat.floor_div_eq_div (K := ℚ)]
    simp [div_mul_eq_mul_div]

theorem Basin.below_bounds (b : Basin) (g : Int) :
    (b.below g).value ≤ b.value / b.den ∧
      (b.value / b.den : ℚ) < (b.below g).value + 10 ^ g := by
  have hpos := ten_zpow_pos g
  have hx : (0 : ℚ) ≤ b.value / b.den / 10 ^ g := by positivity
  rw [b.below_eq, Decimal.value]
  constructor
  · rw [← le_div_iff₀ hpos]
    exact Nat.floor_le hx
  · have := Nat.lt_floor_add_one (b.value / b.den / 10 ^ g : ℚ)
    rw [div_lt_iff₀ hpos] at this
    linarith

theorem above_value (b : Basin) (g : Int) :
    (⟨(b.below g).digits + 1, g⟩ : Decimal).value = (b.below g).value + 10 ^ g := by
  rw [b.below_eq, Decimal.value, Decimal.value]
  push_cast
  ring

theorem Basin.contains_of_onGrid? (h : b.onGrid? g = some d) : b.contains d := by
  unfold Basin.onGrid? at h
  simp only at h
  split at h
  · split at h
    · cases h
      assumption
    · cases h
      assumption
  · cases h
    assumption
  · cases h
    assumption
  · cases h

theorem Basin.onGrid?_isSome
    (h : b.contains (b.below g) ∨ b.contains ⟨(b.below g).digits + 1, g⟩) : (b.onGrid? g).isSome := by
  unfold Basin.onGrid?
  simp only
  split
  · split <;> rfl
  · rfl
  · rfl
  · rename_i hdown hup
    simp [hdown, hup] at h

theorem toDigits_bounds {n : Nat} (hn : n ≠ 0) :
    (10 : ℚ) ^ ((Nat.toDigits 10 n).length - 1 : Int) ≤ n ∧
      (n : ℚ) < 10 ^ ((Nat.toDigits 10 n).length : Int) := by
  have hpos := Nat.length_toDigits_pos (b := 10) (n := n)
  generalize hlen : (Nat.toDigits 10 n).length = len at hpos
  obtain ⟨j, rfl⟩ : ∃ j, len = j + 1 := ⟨len - 1, by omega⟩
  have hhigh : n < 10 ^ (j + 1) :=
    (Nat.length_toDigits_le_iff (by decide) (by omega)).mp hlen.le
  have hlow : 10 ^ j ≤ n := by
    rcases Nat.eq_zero_or_pos j with rfl | hj
    · rw [pow_zero]
      exact Nat.pos_of_ne_zero hn
    · by_contra h
      have := (Nat.length_toDigits_le_iff (b := 10) (by decide) hj).mpr (not_le.mp h)
      omega
  rw [Nat.cast_succ, add_sub_cancel_right, ← Nat.cast_succ, zpow_natCast, zpow_natCast]
  exact ⟨by exact_mod_cast hlow, by exact_mod_cast hhigh⟩

theorem floorLog10_le {num : Nat} (hnum : num ≠ 0) (hden : den ≠ 0) :
    (10 : ℚ) ^ floorLog10 num den ≤ num / den := by
  have hden' : (0 : ℚ) < den := by exact_mod_cast Nat.pos_of_ne_zero hden
  have hbelow : (10 : ℚ) ^ (((Nat.toDigits 10 num).length : Int) - (Nat.toDigits 10 den).length - 1) ≤
      num / den := by
    rw [le_div_iff₀ hden']
    calc (10 : ℚ) ^ (((Nat.toDigits 10 num).length : Int) - (Nat.toDigits 10 den).length - 1) * den
        ≤ 10 ^ (((Nat.toDigits 10 num).length : Int) - (Nat.toDigits 10 den).length - 1) *
            10 ^ ((Nat.toDigits 10 den).length : Int) :=
          mul_le_mul_of_nonneg_left (toDigits_bounds hden).2.le (ten_zpow_pos _).le
      _ = 10 ^ ((Nat.toDigits 10 num).length - 1 : Int) := by
          rw [← zpow_add₀ (by norm_num)]
          congr 1
          ring
      _ ≤ num := (toDigits_bounds hnum).1
  unfold floorLog10
  simp only
  generalize ((Nat.toDigits 10 num).length : Int) - (Nat.toDigits 10 den).length = k at hbelow ⊢
  split
  · rename_i hk
    obtain ⟨j, rfl⟩ := Int.eq_ofNat_of_zero_le hk
    split
    · rename_i hholds
      rw [le_div_iff₀ hden', zpow_natCast]
      exact_mod_cast hholds
    · exact hbelow
  · rename_i hk
    obtain ⟨j, rfl⟩ := Int.exists_eq_neg_ofNat (not_le.mp hk).le
    rw [neg_neg, Int.toNat_natCast]
    split
    · rename_i hholds
      rw [le_div_iff₀ hden', zpow_neg, zpow_natCast, inv_mul_le_iff₀ (by positivity), mul_comm]
      exact_mod_cast hholds
    · exact hbelow

/-- On the grid of the seventeenth digit one of the two neighbours is near the number. Either the unit
is wider than the grid, or the number has so many bits that it is no power of two. -/
theorem near_on_grid (hbits : f.fractionBits ≤ 52) (hlegal : f.Legal m e) (hm : 0 < m) {down : ℚ}
    (hgrid : (10 : ℚ) ^ (g + 16) ≤ m * 2 ^ e) (hdown : down ≤ m * 2 ^ e)
    (hup : m * 2 ^ e < down + 10 ^ g) : f.Near m e down ∨ f.Near m e (down + 10 ^ g) := by
  have hpos := two_zpow_pos e
  have hten := ten_zpow_pos g
  rw [zpow_add₀ (by norm_num)] at hgrid
  have hgap := f.lowerGap_pos m e
  have hmlt : m < 2 ^ 53 :=
    Nat.lt_of_lt_of_le hlegal.mantissa_lt (Nat.pow_le_pow_right (by decide) (by omega))
  have hmlt' : (m : ℚ) < 2 ^ 53 := by exact_mod_cast hmlt
  have hup_near (h : down + 10 ^ g < (m + 1 / 2) * 2 ^ e) : f.Near m e (down + 10 ^ g) := by
    have hlow : (m - f.lowerGap m e) * 2 ^ e < m * 2 ^ e :=
      mul_lt_mul_of_pos_right (by linarith) hpos
    exact ⟨by linarith, h.le, by rintro (h' | h') <;> linarith⟩
  by_cases hsmall : 2 * m < 10 ^ 16
  · right
    apply hup_near
    have hsmall' : (2 * m : ℚ) < 10 ^ 16 := by exact_mod_cast hsmall
    have : (2 * m * 2 ^ e : ℚ) < 10 ^ 16 * 2 ^ e := mul_lt_mul_of_pos_right hsmall' hpos
    norm_num at hgrid this
    linarith
  · have hwide : f.lowerGap m e = 1 / 2 := by
      apply if_neg
      rintro ⟨h, -⟩
      have := Nat.pow_le_pow_right (n := 2) (by decide) hbits
      omega
    have hunit : (m * 2 ^ e : ℚ) < 2 ^ 53 * 2 ^ e := mul_lt_mul_of_pos_right hmlt' hpos
    norm_num at hgrid hunit
    by_cases hnear : m * 2 ^ e - down < 1 / 2 * 2 ^ e
    · left
      refine ⟨by rw [hwide]; linarith, by linarith, ?_⟩
      rw [hwide]
      rintro (h | h) <;> linarith
    · right
      apply hup_near
      linarith

theorem near_shortest (hbits : f.fractionBits ≤ 52) (hlegal : f.Legal m e) (hm : 0 < m) :
    f.Near m e (Basin.of f m e).shortest.value := by
  obtain ⟨-, hvalue, -⟩ := basin_value f hm e
  have hnum : (Basin.of f m e).value ≠ 0 := by
    intro hzero
    rw [hzero, Nat.cast_zero, zero_div] at hvalue
    have hpos : (0 : ℚ) < m * 2 ^ e := mul_pos (by exact_mod_cast hm) (two_zpow_pos e)
    linarith
  have hlog := floorLog10_le hnum (Basin.den_pos f m e).ne'
  rw [hvalue] at hlog
  unfold Basin.shortest
  simp only
  generalize floorLog10 (Basin.of f m e).value (Basin.of f m e).den = top at hlog ⊢
  obtain ⟨hdown, hup⟩ := (Basin.of f m e).below_bounds (top - 16)
  rw [hvalue] at hdown hup
  have hlast : ((Basin.of f m e).onGrid? (top - 16)).isSome := by
    apply Basin.onGrid?_isSome
    rw [contains_iff_near hm, contains_iff_near hm, above_value]
    exact near_on_grid hbits hlegal hm (by simpa using hlog) hdown hup
  have hsome : ((List.range longestDecimal).findSome? fun (n : Nat) =>
      (Basin.of f m e).onGrid? (top - n)).isSome := by
    rw [List.findSome?_isSome_iff]
    exact ⟨16, by decide, hlast⟩
  obtain ⟨d, hd⟩ := Option.isSome_iff_exists.mp hsome
  obtain ⟨n, -, hn⟩ := List.exists_of_findSome?_eq_some hd
  rw [hd, Option.getD_some, Decimal.dropZeros_value]
  exact (contains_iff_near hm).mp (Basin.contains_of_onGrid? hn)

end Teleop.Number
