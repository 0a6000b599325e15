import Teleop.Proofs.Number.Rounding
import Teleop.Speed

/-!
# Speeds in double precision

Every number in single precision is one in double precision, so a speed that is widened and narrowed
again is the same speed.
-/

namespace Teleop

namespace Number.BinaryFormat

variable {f : BinaryFormat} {negative : Bool} {m n : Nat} {e k : Int}

theorem ofValue_zero : f.ofValue (.finite negative 0 e) = f.withSign negative 0 := by
  have hzero : (scale 0 1 e).1 = 0 := by
    unfold scale
    split
    · exact Nat.zero_mul _
    · rfl
  unfold ofValue round roundMagnitude
  simp only
  rw [if_pos hzero]

theorem withSign_lt (h : m < f.signBit) : f.withSign negative m < 2 * f.signBit := by
  unfold withSign
  split <;> omega

theorem ofValue_isNumber {v : BinaryValue} (h : v ≠ .nan) :
    f.ofValue v < 2 * f.signBit ∧ f.read (f.ofValue v) ≠ .nan := by
  have hsign := f.infinity_lt_signBit
  obtain ⟨negative, n, hn, heq⟩ :
      ∃ negative n, n ≤ f.infinity ∧ f.ofValue v = f.withSign negative n := by
    cases v with
    | nan => exact absurd rfl h
    | infinite negative => exact ⟨negative, f.infinity, Nat.le_refl _, rfl⟩
    | finite negative n k =>
      refine ⟨negative, f.roundMagnitude (scale n 1 k).1 (scale n 1 k).2, ?_, rfl⟩
      unfold roundMagnitude
      split
      · exact Nat.zero_le _
      · exact Nat.min_le_left _ _
  rw [heq]
  refine ⟨withSign_lt (by omega), ?_⟩
  unfold read
  simp only
  rw [magnitude_withSign (by omega), if_neg (by omega)]
  split
  · simp
  · split <;> simp

theorem ofValue_of_eq (hlegal : f.Legal m e) (hm : 0 < m) (hfinite : f.pack m e < f.infinity)
    (h : (n * 2 ^ k : ℚ) = m * 2 ^ e) :
    f.ofValue (.finite negative n k) = f.withSign negative (f.pack m e) := by
  have hvalue := scale_value n 1 k
  rw [Nat.cast_one, div_one, h] at hvalue
  unfold ofValue round
  simp only
  rw [roundMagnitude_of_near hlegal hm hfinite (scale_den_pos n Nat.one_pos k)]
  rw [hvalue]
  exact f.near_self m e

theorem exists_widened (hlegal : single.Legal m e) (hm : 0 < m)
    (hfinite : single.pack m e < single.infinity) :
    ∃ m' e', double.Legal m' e' ∧ 0 < m' ∧ double.pack m' e' < double.infinity ∧
      (m' * 2 ^ e' : ℚ) = m * 2 ^ e := by
  obtain ⟨hlt, hleast, -⟩ := hlegal
  have hexponent := exponent_lt hfinite
  have hleast_single : single.leastExponent = -149 := by decide
  have hleast_double : double.leastExponent = -1074 := by decide
  have hlog_lt : Nat.log2 m < 24 := (Nat.log2_lt hm.ne').mpr hlt
  have hlow := Nat.log2_self_le hm.ne'
  have hhigh := Nat.lt_log2_self (n := m)
  have hpow : 2 ^ Nat.log2 m * 2 ^ (52 - Nat.log2 m) = 2 ^ 52 := by
    rw [← Nat.pow_add]
    congr 1
    omega
  have hlegal' : double.Legal (m * 2 ^ (52 - Nat.log2 m)) (e - (52 - Nat.log2 m : Nat)) := by
    refine ⟨?_, by omega, Or.inl ?_⟩
    · calc m * 2 ^ (52 - Nat.log2 m) < 2 ^ (Nat.log2 m + 1) * 2 ^ (52 - Nat.log2 m) :=
            Nat.mul_lt_mul_of_pos_right hhigh (Nat.two_pow_pos _)
        _ = 2 ^ (double.fractionBits + 1) := by
            rw [Nat.pow_succ, Nat.mul_right_comm, hpow]
            rfl
    · calc 2 ^ double.fractionBits = 2 ^ Nat.log2 m * 2 ^ (52 - Nat.log2 m) := hpow.symm
        _ ≤ m * 2 ^ (52 - Nat.log2 m) := Nat.mul_le_mul_right _ hlow
  refine ⟨_, _, hlegal', Nat.mul_pos hm (Nat.two_pow_pos _), ?_, ?_⟩
  · apply pack_lt_infinity hlegal'
    simp only [single, double] at *
    omega
  · rw [zpow_sub₀ (by norm_num), zpow_natCast]
    push_cast
    field_simp

/-- Widening keeps every number, and narrowing brings it back. -/
theorem ofValue_read_ofValue {bits : Nat} (hbits : bits < 2 * single.signBit)
    (hnan : single.read bits ≠ .nan) :
    single.ofValue (double.read (double.ofValue (single.read bits))) = bits := by
  cases hread : single.read bits with
  | nan => exact absurd hread hnan
  | infinite negative =>
    rw [show double.ofValue (.infinite negative) = double.withSign negative double.infinity from rfl,
      read_infinity]
    exact (read_eq_infinite hread hbits).symm
  | finite negative m e =>
    obtain ⟨hlegal, hfinite, rfl⟩ := read_eq_finite hread hbits
    rcases Nat.eq_zero_or_pos m with rfl | hm
    · have hzero := double.legal_zero
      have hread_zero := read_pack negative hzero (by decide)
      rw [pack_zero hzero] at hread_zero
      rw [ofValue_zero, hread_zero, ofValue_zero, pack_zero hlegal]
    · obtain ⟨m', e', hlegal', hm', hfinite', hvalue⟩ := exists_widened hlegal hm hfinite
      rw [ofValue_of_eq hlegal' hm' hfinite' hvalue.symm, read_pack negative hlegal' hfinite',
        ofValue_of_eq hlegal hm hfinite hvalue]

end Number.BinaryFormat

open Number

namespace Speed

theorem bits_lt (s : Speed) : s.bits.toNat < 2 * BinaryFormat.single.signBit := s.bits.toNat_lt

theorem value_ne_nan {s : Speed} (h : s.isNaN = false) : s.value ≠ .nan := by
  unfold isNaN magnitude at h
  unfold value BinaryFormat.read
  simp only
  rw [decide_eq_false_iff_not] at h
  rw [if_neg h]
  split
  · simp
  · split <;> simp

theorem toDouble_isNumber {s : Speed} (h : s.isNaN = false) :
    s.toDouble < 2 * BinaryFormat.double.signBit ∧ BinaryFormat.double.read s.toDouble ≠ .nan :=
  BinaryFormat.ofValue_isNumber (value_ne_nan h)

theorem ofDouble_toDouble {s : Speed} (h : s.isNaN = false) : ofDouble s.toDouble = s := by
  have hsame := BinaryFormat.ofValue_read_ofValue s.bits_lt (value_ne_nan h)
  unfold ofDouble toDouble ofBits value
  rw [hsame]
  simp

end Speed

end Teleop
