import Teleop.Proofs.Number.Shortest

/-!
# Decimals with a point

A decimal is written with a point between digits. Whoever reads those digits has its value, and with it
the number that it was made from.
-/

namespace Teleop.Number

variable {f : BinaryFormat} {negative : Bool} {d : Decimal} {m n : Nat} {e : Int} {v : ℚ}
  {whole fraction : List Char}

/-- Digits on both sides of a point, without a zero in front that could be left out. -/
structure Spelling (whole fraction : List Char) (v : ℚ) : Prop where
  whole_ne : whole ≠ []
  fraction_ne : fraction ≠ []
  whole_digits : ∀ c ∈ whole, c.isDigit
  fraction_digits : ∀ c ∈ fraction, c.isDigit
  leading : whole.length = 1 ∨ whole.head? ≠ some '0'
  value : (⟨digitsValue (whole ++ fraction), -fraction.length⟩ : Decimal).value = v

/-! ## Writing -/

theorem digitsValue_zeros (k n : Nat) :
    digitsValue (List.replicate k '0' ++ Nat.toDigits 10 n) = n :=
  (numeral_ten_iff.mp ⟨k, rfl⟩).2.2

theorem digitsValue_append_zeros (cs : List Char) (k : Nat) :
    digitsValue (cs ++ List.replicate k '0') = digitsValue cs * 10 ^ k := by
  induction k with
  | zero => simp
  | succ k ih =>
    rw [List.replicate_succ', ← List.append_assoc, digitsValue, List.foldl_append, ← digitsValue, ih,
      Nat.pow_succ]
    simp only [List.foldl_cons, List.foldl_nil, Nat.sub_self, Nat.add_zero]
    ring

theorem head?_toDigits_ne_zero (hn : n ≠ 0) : (Nat.toDigits 10 n).head? ≠ some '0' := by
  by_cases hlen : 1 < (Nat.toDigits 10 n).length
  · exact head?_toDigits (by decide) (by decide) hlen
  · have hlt : n < 10 := by
      simpa using (Nat.length_toDigits_le_iff (b := 10) (by decide) Nat.one_pos).mp (not_lt.mp hlen)
    rw [Nat.toDigits_of_lt_base hlt]
    simpa [Nat.digitChar_eq_zero] using hn

theorem isDigit_toDigits : ∀ c ∈ Nat.toDigits 10 n, c.isDigit := (numeral_toDigits 10 n).isDigit

theorem isDigit_zeros {k : Nat} : ∀ c ∈ List.replicate k '0', c.isDigit := by
  intro c hc
  rw [(List.mem_replicate.mp hc).2]
  decide

variable {ds : List Char} {k : Int}

theorem spelling_small (hds : Nat.toDigits 10 n = ds) (hk : ds.length + k ≤ 0) :
    Spelling ['0'] (List.replicate (-(ds.length + k)).toNat '0' ++ ds)
      (⟨n, k⟩ : Decimal).value := by
  refine ⟨by simp, ?_, by simp, ?_, Or.inl rfl, ?_⟩
  · intro hnil
    exact Nat.toDigits_ne_nil (hds.trans (List.append_eq_nil_iff.mp hnil).2)
  · intro c hc
    rcases List.mem_append.mp hc with hc | hc
    · exact isDigit_zeros c hc
    · exact isDigit_toDigits c (hds ▸ hc)
  · have hvalue := digitsValue_zeros ((-(ds.length + k)).toNat + 1) n
    rw [hds, List.replicate_succ] at hvalue
    congr 1
    simp only [List.singleton_append, Decimal.mk.injEq, List.length_append, List.length_replicate]
    exact ⟨hvalue, by omega⟩

theorem spelling_large (hn : n ≠ 0) (hds : Nat.toDigits 10 n = ds) (j : Nat) :
    Spelling (ds ++ List.replicate j '0') ['0'] (⟨n, j⟩ : Decimal).value := by
  have hne : ds ≠ [] := hds ▸ Nat.toDigits_ne_nil
  refine ⟨by simp [hne], by simp, ?_, by simp, ?_, ?_⟩
  · intro c hc
    rcases List.mem_append.mp hc with hc | hc
    · exact isDigit_toDigits c (hds ▸ hc)
    · exact isDigit_zeros c hc
  · right
    rw [List.head?_append_of_ne_nil _ hne, ← hds]
    exact head?_toDigits_ne_zero hn
  · rw [List.append_assoc,
      show List.replicate j '0' ++ ['0'] = List.replicate (j + 1) '0' from List.replicate_succ'.symm,
      digitsValue_append_zeros, ← hds, digitsValue_toDigits]
    unfold Decimal.value
    simp only [List.length_singleton, Nat.cast_one, zpow_neg, zpow_one, zpow_natCast]
    push_cast
    rw [pow_succ]
    field_simp

theorem spelling_split (hn : n ≠ 0) (hds : Nat.toDigits 10 n = ds) {j : Nat} (hj : 0 < j)
    (hj' : j < ds.length) (hk : (j : Int) = ds.length + k) :
    Spelling (ds.take j) (ds.drop j) (⟨n, k⟩ : Decimal).value := by
  refine ⟨?_, ?_, ?_, ?_, ?_, ?_⟩
  · intro hnil
    have := congrArg List.length hnil
    rw [List.length_take, List.length_nil] at this
    omega
  · intro hnil
    have := congrArg List.length hnil
    rw [List.length_drop, List.length_nil] at this
    omega
  · exact fun c hc => isDigit_toDigits c (hds ▸ List.mem_of_mem_take hc)
  · exact fun c hc => isDigit_toDigits c (hds ▸ List.mem_of_mem_drop hc)
  · right
    rw [List.head?_take, if_neg (by omega), ← hds]
    exact head?_toDigits_ne_zero hn
  · congr 1
    rw [List.take_append_drop, ← hds, digitsValue_toDigits, hds, List.length_drop]
    congr 1
    omega

theorem exists_spelling (h : d.digits ≠ 0) :
    ∃ whole fraction, d.positional = whole ++ '.' :: fraction ∧ Spelling whole fraction d.value := by
  obtain ⟨n, k⟩ := d
  have hlen := Nat.length_toDigits_pos (b := 10) (n := n)
  unfold Decimal.positional decimalDigits
  simp only
  generalize hds : Nat.toDigits 10 n = ds at hlen ⊢
  split_ifs with hsmall hlarge
  · exact ⟨_, _, by simp, spelling_small hds hsmall⟩
  · obtain ⟨j, rfl⟩ := Int.eq_ofNat_of_zero_le (show 0 ≤ k by omega)
    rw [show (ds.length + (j : Int)).toNat - ds.length = j by omega]
    exact ⟨_, _, by simp, spelling_large h hds j⟩
  · have hwhole := Int.toNat_of_nonneg (not_le.mp hsmall).le
    exact ⟨_, _, by simp, spelling_split h hds (by omega) (by omega) hwhole⟩

theorem spelling_zero : Spelling ['0'] ['0'] 0 :=
  ⟨by simp, by simp, by simp, by simp, Or.inl rfl, by simp [Decimal.value, digitsValue]⟩

/-! ## Reading -/

theorem takeWhile_isDigit {cs : List Char} (rest : List Char) (h : ∀ c ∈ cs, c.isDigit)
    (hrest : ∀ c, rest.head? = some c → c.isDigit = false) :
    (cs ++ rest).takeWhile Char.isDigit = cs ∧ (cs ++ rest).dropWhile Char.isDigit = rest := by
  have hdrop : rest.takeWhile Char.isDigit = [] ∧ rest.dropWhile Char.isDigit = rest := by
    cases rest with
    | nil => exact ⟨rfl, rfl⟩
    | cons c rest => simp [hrest c rfl]
  rw [List.takeWhile_append_of_pos h, List.dropWhile_append_of_pos h, hdrop.1, hdrop.2]
  simp

theorem Spelling.readDecimal? (h : Spelling whole fraction v) :
    readDecimal? (whole ++ '.' :: fraction) =
      some ⟨digitsValue (whole ++ fraction), -fraction.length⟩ := by
  have hwhole := takeWhile_isDigit ('.' :: fraction) h.whole_digits
    (by intro c hc; cases hc; decide)
  have hfraction := takeWhile_isDigit [] h.fraction_digits (by simp)
  rw [List.append_nil] at hfraction
  unfold Number.readDecimal?
  simp only [hwhole.1, hwhole.2, hfraction.1, hfraction.2]
  rw [if_neg (by simp [h.whole_ne])]
  simp [readExponent?]

theorem ten_zpow_le_two_zpow {k : Int} (h : k ≤ 0) : (10 : ℚ) ^ k ≤ 2 ^ k := by
  obtain ⟨j, rfl⟩ := Int.exists_eq_neg_ofNat h
  rw [zpow_neg, zpow_neg, zpow_natCast, zpow_natCast]
  exact inv_anti₀ (by positivity) (pow_le_pow_left₀ (by norm_num) (by norm_num) j)

theorem magnitude_bounds (h : d.digits ≠ 0) :
    (10 : ℚ) ^ d.magnitude ≤ d.value ∧ d.value < 10 ^ (d.magnitude + 1) := by
  obtain ⟨hlow, hhigh⟩ := toDigits_bounds h
  have hpos := ten_zpow_pos d.exponent
  unfold Decimal.magnitude decimalDigits Decimal.value
  constructor
  · rw [show ((Nat.toDigits 10 d.digits).length + d.exponent - 1 : Int) =
      ((Nat.toDigits 10 d.digits).length - 1) + d.exponent by ring, zpow_add₀ (by norm_num)]
    exact mul_le_mul_of_nonneg_right hlow hpos.le
  · rw [sub_add_cancel, zpow_add₀ (by norm_num)]
    exact mul_lt_mul_of_pos_right hhigh hpos

namespace BinaryFormat

theorem magnitude_of_near (hlegal : f.Legal m e) (hm : 0 < m) (hfinite : f.pack m e < f.infinity)
    (h : f.Near m e d.value) :
    d.magnitude ≤ 2 ^ f.exponentBits + f.fractionBits ∧
      -(2 ^ f.exponentBits + f.fractionBits : Int) ≤ d.magnitude := by
  obtain ⟨hlow, hhigh⟩ := magnitude_bounds (Decimal.digits_ne_zero (h.pos hm))
  have hpos := two_zpow_pos e
  have hhalf : (1 / 2 : ℚ) ≤ m - f.lowerGap m e := by
    have hgap := f.lowerGap_le m e
    have : (1 : ℚ) ≤ m := by exact_mod_cast hm
    linarith
  have hbelow := h.lt_next_power hlegal.mantissa_lt
  have habove : (2 : ℚ) ^ (e - 1) ≤ d.value := by
    calc (2 : ℚ) ^ (e - 1) = 1 / 2 * 2 ^ e := by
          rw [zpow_sub_one₀ (by norm_num)]
          ring
      _ ≤ (m - f.lowerGap m e) * 2 ^ e := mul_le_mul_of_nonneg_right hhalf hpos.le
      _ ≤ d.value := h.low
  have hrange := exponent_lt hfinite
  have hleast := hlegal.least_le
  unfold leastExponent at hrange hleast
  simp only [Nat.pow_eq, Nat.cast_pow, Nat.cast_ofNat] at hrange hleast
  have hhalf_range : (2 : Int) ^ (f.exponentBits - 1) ≤ 2 ^ f.exponentBits :=
    pow_le_pow_right₀ (by decide) (Nat.sub_le _ _)
  have hone : (1 : Int) ≤ 2 ^ (f.exponentBits - 1) := one_le_pow₀ (by decide)
  constructor
  · by_contra hlarge
    have hmag : d.magnitude < f.fractionBits + 1 + e := by
      apply lt_of_two_zpow_lt
      calc (2 : ℚ) ^ d.magnitude ≤ 10 ^ d.magnitude :=
            zpow_le_zpow_left₀ (by omega) (by norm_num) (by norm_num)
        _ ≤ d.value := hlow
        _ < 2 ^ ((f.fractionBits : Int) + 1 + e) := hbelow
    omega
  · by_contra hsmall
    have hmag : e - 1 < d.magnitude + 1 := by
      apply lt_of_two_zpow_lt
      calc (2 : ℚ) ^ (e - 1) ≤ d.value := habove
        _ < 10 ^ (d.magnitude + 1) := hhigh
        _ ≤ 2 ^ (d.magnitude + 1) := ten_zpow_le_two_zpow (by omega)
    omega

theorem ofDecimal_of_near (hlegal : f.Legal m e) (hm : 0 < m) (hfinite : f.pack m e < f.infinity)
    (h : f.Near m e d.value) : f.ofDecimal negative d = f.withSign negative (f.pack m e) := by
  obtain ⟨hhigh, hlow⟩ := magnitude_of_near hlegal hm hfinite h
  unfold ofDecimal
  simp only [Nat.pow_eq]
  rw [if_neg (Decimal.digits_ne_zero (h.pos hm)), if_neg (by push_cast; omega),
    if_neg (by push_cast; omega)]
  obtain ⟨n, k⟩ := d
  unfold Decimal.value at h
  simp only at h ⊢
  split
  · rename_i hk
    obtain ⟨j, rfl⟩ := Int.eq_ofNat_of_zero_le hk
    unfold round
    rw [roundMagnitude_of_near hlegal hm hfinite Nat.one_pos]
    simpa using h
  · rename_i hk
    obtain ⟨j, rfl⟩ := Int.exists_eq_neg_ofNat (not_le.mp hk).le
    unfold round
    rw [roundMagnitude_of_near hlegal hm hfinite (Nat.pow_pos (by decide))]
    simpa [div_eq_mul_inv] using h

end BinaryFormat

end Teleop.Number
