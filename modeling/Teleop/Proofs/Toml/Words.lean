import Mathlib.Data.List.TakeWhile
import Teleop.Proofs.Number.Positional
import Teleop.Proofs.Text.ReadBack
import Teleop.Toml.Writing

/-!
# Bare words read back

The numbers that are written are no dates and no times, and they are read as what they were.
-/

namespace Teleop.Toml

open Number

variable {negative : Bool} {cs body rest : List Char} {v : ℚ} {whole fraction : List Char}

/-! ## Signed words -/

def signed (negative : Bool) (body : List Char) : List Char :=
  if negative then '-' :: body else body

theorem eq_or_mem_of_signed {c : Char} (h : c ∈ signed negative body) : c = '-' ∨ c ∈ body := by
  unfold signed at h
  split at h
  · exact List.mem_cons.mp h
  · exact Or.inr h

/-- What numbers are written with, behind their sign. -/
def IsNumberChar (c : Char) : Prop := c.isDigit ∨ c ∈ ['.', 'i', 'n', 'f']

theorem isNumberChar_of_isDigit {c : Char} (h : c.isDigit) : IsNumberChar c := Or.inl h

theorem not_isNumberChar {c : Char} (h : c.isDigit = false) (h' : c ∉ ['.', 'i', 'n', 'f']) :
    ¬ IsNumberChar c := by
  rintro (hdigit | hmem)
  · rw [h] at hdigit
    cases hdigit
  · exact h' hmem

theorem not_mem_body (h : ∀ c ∈ body, IsNumberChar c) {c : Char} (hc : c.isDigit = false)
    (hc' : c ∉ ['.', 'i', 'n', 'f']) : c ∉ body :=
  fun hmem => not_isNumberChar hc hc' (h c hmem)

theorem takeSign_signed (negative : Bool) (h : ∀ c ∈ body, IsNumberChar c) :
    takeSign (signed negative body) = (negative, body) := by
  cases negative with
  | true => rfl
  | false =>
    have hminus := not_mem_body h (c := '-') (by decide) (by decide)
    have hplus := not_mem_body h (c := '+') (by decide) (by decide)
    unfold signed takeSign
    simp only [Bool.false_eq_true, if_false]
    split <;> simp_all

theorem isDate_of_count (h : cs.count '-' ≤ 1) : isDate cs = false := by
  unfold isDate
  split
  · rename_i hparts
    have hlength := Text.length_parts '-' cs
    rw [hparts] at hlength
    simp at hlength
    omega
  · rfl

theorem isTime_of_not_mem (h : ':' ∉ cs) : isTime cs = false := by
  have hparts : Text.parts ':' (cs.take 5) = [cs.take 5] :=
    Text.parts_of_free fun hmem => h (List.mem_of_mem_take hmem)
  unfold isTime isClock
  rw [hparts]
  rfl

theorem count_signed (h : ∀ c ∈ body, IsNumberChar c) : (signed negative body).count '-' ≤ 1 := by
  have hminus : body.count '-' = 0 :=
    List.count_eq_zero.mpr (not_mem_body h (by decide) (by decide))
  unfold signed
  split
  · simp [hminus]
  · omega

theorem not_datetime (negative : Bool) (h : ∀ c ∈ body, IsNumberChar c) :
    isDatetime (signed negative body) = false ∧ isTime (signed negative body) = false := by
  constructor
  · have htake : ((signed negative body).take 10).count '-' ≤ 1 :=
      Nat.le_trans ((List.take_sublist _ _).count_le _) (count_signed h)
    unfold isDatetime
    rw [isDate_of_count htake]
    rfl
  · apply isTime_of_not_mem
    intro hmem
    rcases eq_or_mem_of_signed hmem with heq | hmem
    · exact absurd heq (by decide)
    · exact not_mem_body h (by decide) (by decide) hmem

theorem word?_signed (h : ∀ c ∈ body, IsNumberChar c) :
    (∀ bits, float? (signed negative body) = some bits →
      word? (signed negative body) = some (.float bits)) ∧
    ∀ i, float? (signed negative body) = none → integer? (signed negative body) = some i →
      word? (signed negative body) = some (.integer i) := by
  obtain ⟨hdatetime, htime⟩ := not_datetime negative h
  have hletter : 'e' ∉ signed negative body := by
    intro hmem
    rcases eq_or_mem_of_signed hmem with heq | hmem
    · exact absurd heq (by decide)
    · exact not_mem_body h (by decide) (by decide) hmem
  have htrue : signed negative body ≠ ['t', 'r', 'u', 'e'] := fun heq => hletter (by simp [heq])
  have hfalse : signed negative body ≠ ['f', 'a', 'l', 's', 'e'] :=
    fun heq => hletter (by simp [heq])
  unfold word?
  rw [if_neg htrue, if_neg hfalse, hdatetime, htime, if_neg (by simp)]
  constructor
  · intro bits hfloat
    rw [hfloat]
  · intro i hfloat hinteger
    rw [hfloat, hinteger]

/-! ## Bare values -/

/-- A word that stands for a value. -/
structure IsWord (cs : List Char) (v : Value) : Prop where
  chars : ∀ c ∈ cs, isWordChar c
  value : word? cs = some v

theorem IsWord.ne_nil {v : Value} (h : IsWord cs v) : cs ≠ [] := by
  rintro rfl
  have hnone : word? [] = none := by decide
  rw [h.value] at hnone
  cases hnone

theorem IsWord.bare? {v : Value} (h : IsWord cs v) (rest : List Char) :
    bare? (cs ++ '\n' :: rest) = some (v, '\n' :: rest) := by
  have htake : (cs ++ '\n' :: rest).takeWhile isWordChar = cs := by
    rw [List.takeWhile_append_of_pos h.chars, List.takeWhile_cons_of_neg (by decide), List.append_nil]
  unfold Toml.bare?
  simp only
  rw [htake, List.drop_left, if_neg (by simp), h.value]
  rfl

theorem isWordChar_signed (h : ∀ c ∈ body, IsNumberChar c) :
    ∀ c ∈ signed negative body, isWordChar c := by
  have hbody (c : Char) (hc : c ∈ body) : isWordChar c := by
    rcases h c hc with hdigit | hmem
    · simp [isWordChar, Char.isAlphanum, hdigit]
    · have table : ['.', 'i', 'n', 'f'].all isWordChar := by decide
      exact List.all_eq_true.mp table c hmem
  intro c hc
  rcases eq_or_mem_of_signed hc with rfl | hc
  · decide
  · exact hbody c hc

theorem isWord_boolean (b : Bool) : IsWord (Value.boolean b).text.toList (.boolean b) := by
  cases b with
  | true => exact ⟨List.all_eq_true.mp rfl, rfl⟩
  | false => exact ⟨List.all_eq_true.mp rfl, rfl⟩

/-! ## Whole numbers -/

theorem digits?_of_digits (hne : cs ≠ []) (h : ∀ c ∈ cs, c.isDigit) :
    digits? Char.isDigit cs = some cs := by
  have hparts : Text.parts '_' cs = [cs] :=
    Text.parts_of_free fun hmem => absurd (h _ hmem) (by decide)
  unfold digits?
  simp only
  rw [hparts, if_pos]
  · simp
  · simpa [hne] using h

theorem wholeDigits?_of_digits (hne : cs ≠ []) (h : ∀ c ∈ cs, c.isDigit)
    (hleading : cs.length = 1 ∨ cs.head? ≠ some '0') : wholeDigits? cs = some cs := by
  unfold wholeDigits?
  rw [digits?_of_digits hne h, Option.bind_some, if_pos hleading]

theorem toList_toString (i : Int) :
    (toString i).toList = signed (i < 0) (Nat.toDigits 10 i.natAbs) := by
  cases i with
  | ofNat n =>
    show (Nat.repr n).toList = _
    simp [Nat.repr, signed]
  | negSucc n =>
    show ("-" ++ Nat.repr (n + 1)).toList = _
    simp [Nat.repr, signed]

theorem isNumberChar_toDigits {n : Nat} : ∀ c ∈ Nat.toDigits 10 n, IsNumberChar c :=
  fun c hc => isNumberChar_of_isDigit (isDigit_toDigits c hc)

theorem not_isPowerMark {c : Char} (h : c.isDigit) : (!isPowerMark c) = true := by
  have hlower : c ≠ 'e' := by rintro rfl; exact absurd h (by decide)
  have hupper : c ≠ 'E' := by rintro rfl; exact absurd h (by decide)
  simp [isPowerMark, hlower, hupper]

theorem not_point {c : Char} (h : c.isDigit) : (c != '.') = true := by
  have hpoint : c ≠ '.' := by rintro rfl; exact absurd h (by decide)
  simpa using hpoint

theorem decimal?_digits (h : ∀ c ∈ body, c.isDigit) : decimal? (signed negative body) = none := by
  have hpower : body.takeWhile (!isPowerMark ·) = body :=
    List.takeWhile_eq_self_iff.mpr fun c hc => not_isPowerMark (h c hc)
  have hpoint : body.takeWhile (· != '.') = body :=
    List.takeWhile_eq_self_iff.mpr fun c hc => not_point (h c hc)
  unfold decimal?
  rw [takeSign_signed negative fun c hc => isNumberChar_of_isDigit (h c hc)]
  simp only
  rw [hpower, hpoint, if_pos rfl]
  rfl

theorem float?_signed (h : ∀ c ∈ body, IsNumberChar c) (hi : 'i' ∉ body) (hn : 'n' ∉ body) :
    float? (signed negative body) = decimal? (signed negative body) := by
  unfold float?
  rw [takeSign_signed negative h]
  simp only
  rw [if_neg fun heq => hi (by simp [heq]), if_neg fun heq => hn (by simp [heq])]

theorem leading_toDigits (n : Nat) :
    (Nat.toDigits 10 n).length = 1 ∨ (Nat.toDigits 10 n).head? ≠ some '0' := by
  by_cases hn : n = 0
  · left
    rw [hn]
    rfl
  · right
    exact head?_toDigits_ne_zero hn

theorem integerValue?_signed {n : Nat} :
    integerValue? (signed negative (Nat.toDigits 10 n)) =
      some (if negative then -(n : Int) else n) := by
  have hsign := takeSign_signed negative (isNumberChar_toDigits (n := n))
  have hdigits := wholeDigits?_of_digits Nat.toDigits_ne_nil (isDigit_toDigits (n := n))
    (leading_toDigits n)
  -- No digits of another base are announced.
  have hmark (c : Char) (hc : c.isDigit = false) (hc' : c ≠ '-') :
      c ∉ signed negative (Nat.toDigits 10 n) := by
    intro hmem
    rcases eq_or_mem_of_signed hmem with rfl | hmem
    · exact hc' rfl
    · rw [isDigit_toDigits c hmem] at hc
      cases hc
  unfold integerValue?
  split
  · rename_i heq
    exact absurd (by simp [heq]) (hmark 'x' (by decide) (by decide))
  · rename_i heq
    exact absurd (by simp [heq]) (hmark 'o' (by decide) (by decide))
  · rename_i heq
    exact absurd (by simp [heq]) (hmark 'b' (by decide) (by decide))
  · rw [hsign]
    simp only
    rw [hdigits, Option.map_some, digitsValue_toDigits]

theorem isWord_integer {i : Int} (hlow : leastInteger ≤ i) (hhigh : i ≤ greatestInteger) :
    IsWord (Value.integer i).text.toList (.integer i) := by
  have hchars := isNumberChar_toDigits (n := i.natAbs)
  have hdigits := isDigit_toDigits (n := i.natAbs)
  have hvalue : integer? (signed (i < 0) (Nat.toDigits 10 i.natAbs)) = some i := by
    have hi : (if i < 0 then -(i.natAbs : Int) else i.natAbs) = i := by
      split <;> omega
    unfold integer?
    rw [integerValue?_signed, Option.bind_some]
    simp only [decide_eq_true_eq]
    rw [hi, if_pos ⟨hlow, hhigh⟩]
  have hfloat : float? (signed (i < 0) (Nat.toDigits 10 i.natAbs)) = none := by
    rw [float?_signed hchars, decimal?_digits hdigits]
    · exact fun hmem => absurd (hdigits _ hmem) (by decide)
    · exact fun hmem => absurd (hdigits _ hmem) (by decide)
  show IsWord (toString i).toList _
  rw [toList_toString]
  exact ⟨isWordChar_signed hchars, (word?_signed hchars).2 i hfloat hvalue⟩

/-! ## Numbers with a point -/

theorem isNumberChar_spelling (h : Spelling whole fraction v) :
    ∀ c ∈ whole ++ '.' :: fraction, IsNumberChar c := by
  intro c hc
  rcases List.mem_append.mp hc with hc | hc
  · exact isNumberChar_of_isDigit (h.whole_digits c hc)
  · rcases List.mem_cons.mp hc with rfl | hc
    · exact Or.inr (by decide)
    · exact isNumberChar_of_isDigit (h.fraction_digits c hc)

theorem not_mem_spelling (h : Spelling whole fraction v) {c : Char} (hc : c.isDigit = false)
    (hpoint : c ≠ '.') : c ∉ whole ++ '.' :: fraction := by
  intro hmem
  rcases List.mem_append.mp hmem with hmem | hmem
  · simp [h.whole_digits c hmem] at hc
  · rcases List.mem_cons.mp hmem with rfl | hmem
    · exact hpoint rfl
    · simp [h.fraction_digits c hmem] at hc

theorem decimal?_spelling (h : Spelling whole fraction v) {bits : Nat}
    (hbits : BinaryFormat.double.ofDecimal negative
      ⟨digitsValue (whole ++ fraction), -fraction.length⟩ = bits)
    (hfinite : bits ≠ BinaryFormat.double.infinity) :
    decimal? (signed negative (whole ++ '.' :: fraction)) = some bits := by
  have hmark : ∀ c ∈ whole ++ '.' :: fraction, (!isPowerMark c) = true := by
    intro c hc
    have hlower : c ≠ 'e' := by
      rintro rfl
      exact not_mem_spelling h (by decide) (by decide) hc
    have hupper : c ≠ 'E' := by
      rintro rfl
      exact not_mem_spelling h (by decide) (by decide) hc
    simp [isPowerMark, hlower, hupper]
  have hmantissa : (whole ++ '.' :: fraction).takeWhile (!isPowerMark ·) = whole ++ '.' :: fraction :=
    List.takeWhile_eq_self_iff.mpr hmark
  have hpower : (whole ++ '.' :: fraction).dropWhile (!isPowerMark ·) = [] :=
    List.dropWhile_eq_nil_iff.mpr hmark
  have hpoint : ∀ c ∈ whole, (c != '.') = true := fun c hc => not_point (h.whole_digits c hc)
  have hwhole : (whole ++ '.' :: fraction).takeWhile (· != '.') = whole := by
    rw [List.takeWhile_append_of_pos hpoint, List.takeWhile_cons_of_neg (by decide), List.append_nil]
  have hfraction : (whole ++ '.' :: fraction).dropWhile (· != '.') = '.' :: fraction := by
    rw [List.dropWhile_append_of_pos hpoint, List.dropWhile_cons_of_neg (by decide)]
  have hdigits : fraction? ('.' :: fraction) = some ('.' :: fraction) := by
    rw [fraction?, digits?_of_digits h.fraction_ne h.fraction_digits, Option.map_some]
  unfold decimal?
  rw [takeSign_signed negative (isNumberChar_spelling h)]
  simp only
  rw [hmantissa, hpower, hwhole, hfraction, wholeDigits?_of_digits h.whole_ne h.whole_digits h.leading,
    hdigits]
  simp [power?, h.readDecimal?, hbits, hfinite]

theorem isWord_spelling (h : Spelling whole fraction v) {bits : Nat}
    (hbits : BinaryFormat.double.ofDecimal negative
      ⟨digitsValue (whole ++ fraction), -fraction.length⟩ = bits)
    (hfinite : bits ≠ BinaryFormat.double.infinity) :
    IsWord (signed negative (whole ++ '.' :: fraction)) (.float bits) := by
  have hchars := isNumberChar_spelling h
  have hfloat : float? (signed negative (whole ++ '.' :: fraction)) = some bits := by
    rw [float?_signed hchars (not_mem_spelling h (by decide) (by decide))
      (not_mem_spelling h (by decide) (by decide)), decimal?_spelling h hbits hfinite]
  exact ⟨isWordChar_signed hchars, (word?_signed hchars).1 bits hfloat⟩

theorem withSign_ne_infinity {f : BinaryFormat} {n : Nat} (h : n < f.infinity) :
    f.withSign negative n ≠ f.infinity := by
  have hsign := f.infinity_lt_signBit
  unfold BinaryFormat.withSign
  split <;> omega

theorem toList_sign (negative : Bool) (s : String) :
    ((if negative then "-" else "") ++ s).toList = signed negative s.toList := by
  cases negative <;> simp [signed]

theorem isWord_float {bits : Nat} (hbits : bits < 2 * BinaryFormat.double.signBit)
    (hnan : BinaryFormat.double.read bits ≠ .nan) :
    IsWord (Value.float bits).text.toList (.float bits) := by
  show IsWord (floatText bits).toList _
  unfold floatText
  cases hread : BinaryFormat.double.read bits with
  | nan => exact absurd hread hnan
  | infinite negative =>
    have hinf : ∀ c ∈ ['i', 'n', 'f'], IsNumberChar c := fun c hc => Or.inr (by simp_all)
    have hfloat : float? (signed negative ['i', 'n', 'f']) = some bits := by
      unfold float?
      rw [takeSign_signed negative hinf, BinaryFormat.read_eq_infinite hread hbits]
      rfl
    have hword : IsWord (signed negative ['i', 'n', 'f']) (.float bits) :=
      ⟨isWordChar_signed hinf, (word?_signed hinf).1 bits hfloat⟩
    cases negative <;> exact hword
  | finite negative m e =>
    obtain ⟨hlegal, hfinite, rfl⟩ := BinaryFormat.read_eq_finite hread hbits
    simp only
    rw [toList_sign]
    split
    · rename_i hm
      subst hm
      rw [BinaryFormat.pack_zero hlegal] at hfinite ⊢
      exact isWord_spelling spelling_zero rfl (withSign_ne_infinity hfinite)
    · rename_i hm
      have hnear := near_shortest (by decide) hlegal (Nat.pos_of_ne_zero hm)
      obtain ⟨whole, fraction, htext, hspelling⟩ :=
        exists_spelling (Decimal.digits_ne_zero (hnear.pos (Nat.pos_of_ne_zero hm)))
      rw [String.toList_ofList, htext]
      refine isWord_spelling hspelling ?_ (withSign_ne_infinity hfinite)
      apply BinaryFormat.ofDecimal_of_near hlegal (Nat.pos_of_ne_zero hm) hfinite
      rw [hspelling.value]
      exact hnear

end Teleop.Toml
