import Mathlib.Algebra.Ring.Nat
import Mathlib.Data.List.Basic
import Mathlib.Data.List.Induction
import Teleop.Number.Decimal

/-!
# Texts of numbers

A numeral is the digits of a number with any zeros in front. A text of digits is a numeral of one
number, which is the number that is read from it.
-/

namespace Teleop.Number

def Numeral (base : Nat) (cs : List Char) (n : Nat) : Prop :=
  ∃ zeros, cs = List.replicate zeros '0' ++ Nat.toDigits base n

variable {base n m : Nat} {cs : List Char} {ds : List Nat}

/-! ## Digits and values -/

def valueOf (base : Nat) (ds : List Nat) : Nat := ds.foldl (fun v d => base * v + d) 0

theorem valueOf_concat (ds : List Nat) (d : Nat) :
    valueOf base (ds ++ [d]) = base * valueOf base ds + d := by
  simp [valueOf]

theorem valueOf_zeros (k : Nat) (ds : List Nat) :
    valueOf base (List.replicate k 0 ++ ds) = valueOf base ds := by
  unfold valueOf
  rw [List.foldl_append]
  congr 1
  induction k with
  | zero => rfl
  | succ k ih => simpa [List.replicate_succ] using ih

theorem valueOf_lt (h : ∀ d ∈ ds, d < base) : valueOf base ds < base ^ ds.length := by
  induction ds using List.reverseRecOn with
  | nil => simp [valueOf]
  | append_singleton ds d ih =>
    have hd : d < base := h d (by simp)
    have hds := ih fun e he => h e (List.mem_append_left _ he)
    rw [valueOf_concat, List.length_append, List.length_singleton, Nat.pow_succ, Nat.mul_comm]
    have := Nat.mul_le_mul_right base (Nat.succ_le_of_lt hds)
    rw [Nat.succ_mul] at this
    omega

theorem digitChar_inj {d e : Nat} (hd : d < 16) (he : e < 16)
    (h : Nat.digitChar d = Nat.digitChar e) : d = e := by
  have key : ∀ d < 16, ∀ e < 16, Nat.digitChar d = Nat.digitChar e → d = e := by decide
  exact key d hd e he h

theorem map_digitChar_inj {es : List Nat} (hds : ∀ d ∈ ds, d < 16) (hes : ∀ e ∈ es, e < 16)
    (h : ds.map Nat.digitChar = es.map Nat.digitChar) : ds = es := by
  induction ds generalizing es with
  | nil => simpa [eq_comm] using h
  | cons d ds ih =>
    cases es with
    | nil => simp at h
    | cons e es =>
      simp only [List.map_cons, List.cons.injEq] at h
      simp only [List.mem_cons, forall_eq_or_imp] at hds hes
      rw [digitChar_inj hds.1 hes.1 h.1, ih hds.2 hes.2 h.2]

theorem exists_toDigits (hb : 1 < base) (n : Nat) :
    ∃ ds, Nat.toDigits base n = ds.map Nat.digitChar ∧ (∀ d ∈ ds, d < base) ∧
      valueOf base ds = n := by
  induction n using Nat.strongRecOn with
  | _ n ih =>
    by_cases hn : n < base
    · exact ⟨[n], by simp [Nat.toDigits_of_lt_base hn], by simpa using hn, by simp [valueOf]⟩
    · obtain ⟨ds, hds, hlt, hvalue⟩ := ih (n / base) (Nat.div_lt_self (by omega) hb)
      refine ⟨ds ++ [n % base], ?_, ?_, ?_⟩
      · rw [Nat.toDigits_of_base_le hb (by omega), hds]
        simp
      · intro d hd
        rcases List.mem_append.mp hd with hd | hd
        · exact hlt d hd
        · rw [List.mem_singleton.mp hd]
          exact Nat.mod_lt _ (by omega)
      · rw [valueOf_concat, hvalue]
        exact Nat.div_add_mod n base

/-! ## Numerals -/

theorem Numeral.ne_nil (h : Numeral base cs n) : cs ≠ [] := by
  obtain ⟨zeros, rfl⟩ := h
  simp [Nat.toDigits_ne_nil]

theorem numeral_toDigits (base n : Nat) : Numeral base (Nat.toDigits base n) n := ⟨0, rfl⟩

theorem Numeral.concat (hb : 1 < base) (h : Numeral base cs n) {d : Nat} (hd : d < base) :
    Numeral base (cs ++ [Nat.digitChar d]) (base * n + d) := by
  obtain ⟨zeros, rfl⟩ := h
  by_cases hn : n = 0
  · -- The zero itself becomes one of the zeros in front.
    subst hn
    refine ⟨zeros + 1, ?_⟩
    rw [Nat.toDigits_zero, Nat.mul_zero, Nat.zero_add, Nat.toDigits_of_lt_base hd,
      List.replicate_succ']
  · refine ⟨zeros, ?_⟩
    rw [← Nat.toDigits_append_toDigits hb (by omega) hd, Nat.toDigits_of_lt_base hd,
      List.append_assoc]

theorem numeral_map_digitChar (hb : 1 < base) (hne : ds ≠ []) (hlt : ∀ d ∈ ds, d < base) :
    Numeral base (ds.map Nat.digitChar) (valueOf base ds) := by
  induction ds using List.reverseRecOn with
  | nil => contradiction
  | append_singleton ds d ih =>
    rw [valueOf_concat, List.map_append]
    have hd : d < base := hlt d (by simp)
    by_cases hds : ds = []
    · subst hds
      exact ⟨0, by simp [valueOf, Nat.toDigits_of_lt_base hd]⟩
    · exact (ih hds fun e he => hlt e (List.mem_append_left _ he)).concat hb hd

theorem numeral_iff (hb : 1 < base) :
    Numeral base cs n ↔
      ∃ ds, ds ≠ [] ∧ (∀ d ∈ ds, d < base) ∧ cs = ds.map Nat.digitChar ∧ valueOf base ds = n := by
  constructor
  · rintro ⟨zeros, rfl⟩
    obtain ⟨ds, hds, hlt, hvalue⟩ := exists_toDigits hb n
    refine ⟨List.replicate zeros 0 ++ ds, ?_, ?_, ?_, ?_⟩
    · have := Nat.toDigits_ne_nil (b := base) (n := n)
      simp_all
    · intro d hd
      rcases List.mem_append.mp hd with hd | hd
      · rw [(List.mem_replicate.mp hd).2]
        omega
      · exact hlt d hd
    · rw [hds, List.map_append, List.map_replicate]
      rfl
    · rw [valueOf_zeros, hvalue]
  · rintro ⟨ds, hne, hlt, rfl, rfl⟩
    exact numeral_map_digitChar hb hne hlt

theorem Numeral.unique (hb : 1 < base) (hb' : base ≤ 16) (hn : Numeral base cs n)
    (hm : Numeral base cs m) : n = m := by
  obtain ⟨ds, -, hds, rfl, rfl⟩ := (numeral_iff hb).mp hn
  obtain ⟨es, -, hes, heq, rfl⟩ := (numeral_iff hb).mp hm
  have hds' : ∀ d ∈ ds, d < 16 := fun d hd => Nat.lt_of_lt_of_le (hds d hd) hb'
  have hes' : ∀ e ∈ es, e < 16 := fun e he => Nat.lt_of_lt_of_le (hes e he) hb'
  rw [map_digitChar_inj hds' hes' heq]

theorem head?_toDigits (hb : 1 < base) (hb' : base ≤ 16) (h : 1 < (Nat.toDigits base n).length) :
    (Nat.toDigits base n).head? ≠ some '0' := by
  induction n using Nat.strongRecOn with
  | _ n ih =>
    by_cases hn : n < base
    · simp [Nat.toDigits_of_lt_base hn] at h
    · have hne := Nat.toDigits_ne_nil (b := base) (n := n / base)
      rw [Nat.toDigits_of_base_le hb (by omega), List.head?_append_of_ne_nil _ hne]
      by_cases hlen : 1 < (Nat.toDigits base (n / base)).length
      · exact ih (n / base) (Nat.div_lt_self (by omega) hb) hlen
      · -- One digit is left, and it is not zero because the number is no digit.
        have hpos := Nat.length_toDigits_pos (b := base) (n := n / base)
        have hdiv : n / base < base := by
          simpa using (Nat.length_toDigits_le_iff hb Nat.one_pos).mp (by omega)
        have hdiv0 : 0 < n / base := Nat.div_pos (by omega) (by omega)
        rw [Nat.toDigits_of_lt_base hdiv]
        simp only [List.head?_cons, ne_eq, Option.some.injEq, Nat.digitChar_eq_zero]
        omega

theorem Numeral.eq_toDigits (h : Numeral base cs n) (hzero : cs.length = 1 ∨ cs.head? ≠ some '0') :
    cs = Nat.toDigits base n := by
  obtain ⟨zeros, rfl⟩ := h
  cases zeros with
  | zero => rfl
  | succ zeros =>
    exfalso
    rcases hzero with hlen | hhead
    · have := Nat.length_toDigits_pos (b := base) (n := n)
      simp at hlen
      omega
    · simp [List.replicate_succ] at hhead

/-! ## Decimal digits -/

theorem digitChar_sub {c : Char} (h : c.isDigit) :
    c.toNat - '0'.toNat < 10 ∧ Nat.digitChar (c.toNat - '0'.toNat) = c := by
  have hc := Char.isDigit_iff_toNat.mp h
  have hzero : '0'.toNat = 48 := rfl
  have hnine : '9'.toNat = 57 := rfl
  refine ⟨by omega, ?_⟩
  apply Char.toNat_inj.mp
  rw [Nat.toNat_digitChar_of_lt_ten (by omega)]
  omega

theorem digitsValue_eq (cs : List Char) :
    digitsValue cs = valueOf 10 (cs.map fun c => c.toNat - '0'.toNat) := by
  rw [digitsValue, valueOf, List.foldl_map]

theorem numeral_digitsValue (hne : cs ≠ []) (hall : ∀ c ∈ cs, c.isDigit) :
    Numeral 10 cs (digitsValue cs) := by
  have hchars : cs = (cs.map fun c => c.toNat - '0'.toNat).map Nat.digitChar := by
    rw [List.map_map]
    conv_lhs => rw [← List.map_id cs]
    exact List.map_congr_left fun c hc => (digitChar_sub (hall c hc)).2.symm
  refine (numeral_iff (by decide)).mpr ⟨_, by simpa using hne, ?_, hchars, (digitsValue_eq cs).symm⟩
  intro d hd
  obtain ⟨c, hc, rfl⟩ := List.mem_map.mp hd
  exact (digitChar_sub (hall c hc)).1

theorem Numeral.isDigit (h : Numeral 10 cs n) : ∀ c ∈ cs, c.isDigit := by
  obtain ⟨ds, -, hlt, rfl, -⟩ := (numeral_iff (by decide)).mp h
  intro c hc
  obtain ⟨d, hd, rfl⟩ := List.mem_map.mp hc
  simpa [Nat.isDigit_digitChar] using hlt d hd

theorem numeral_ten_iff :
    Numeral 10 cs n ↔ cs ≠ [] ∧ (∀ c ∈ cs, c.isDigit) ∧ digitsValue cs = n := by
  constructor
  · intro h
    have hvalue := numeral_digitsValue h.ne_nil h.isDigit
    exact ⟨h.ne_nil, h.isDigit, hvalue.unique (by decide) (by decide) h⟩
  · rintro ⟨hne, hall, rfl⟩
    exact numeral_digitsValue hne hall

theorem digitsValue_toDigits (n : Nat) : digitsValue (Nat.toDigits 10 n) = n :=
  (numeral_ten_iff.mp (numeral_toDigits 10 n)).2.2

/-! ## Hexadecimal digits, in upper or lower case -/

theorem lt_of_hexDigit? {c : Char} {d : Nat} (h : hexDigit? c = some d) : c.toNat < 128 ∧ d < 16 := by
  have hle : ∀ a b : Char, a ≤ b ↔ a.toNat ≤ b.toNat := fun _ _ => Iff.rfl
  simp only [hexDigit?, hle, Char.reduceToNat] at h
  split at h
  · simp only [Option.some.injEq] at h
    omega
  · split at h
    · simp only [Option.some.injEq] at h
      omega
    · split at h
      · simp only [Option.some.injEq] at h
        omega
      · cases h

theorem lt_of_toLower {c : Char} (h : c.toLower.toNat < 128) : c.toNat < 128 := by
  unfold Char.toLower at h
  split at h
  · rename_i hup
    have hle : c.toNat ≤ 90 := hup.2
    omega
  · exact h

theorem hexDigit?_eq_some {c : Char} {d : Nat} :
    hexDigit? c = some d ↔ d < 16 ∧ c.toLower = Nat.digitChar d := by
  have table : ∀ n < 128, ∀ d < 16,
      hexDigit? (Char.ofNat n) = some d ↔ (Char.ofNat n).toLower = Nat.digitChar d := by
    decide +kernel
  have small : ∀ d < 16, (Nat.digitChar d).toNat < 128 := by decide
  constructor
  · intro h
    obtain ⟨hc, hd⟩ := lt_of_hexDigit? h
    have := (table c.toNat hc d hd).mp (by rwa [Char.ofNat_toNat])
    exact ⟨hd, by rwa [Char.ofNat_toNat] at this⟩
  · rintro ⟨hd, h⟩
    have hc := lt_of_toLower (h ▸ small d hd)
    have := (table c.toNat hc d hd).mpr (by rwa [Char.ofNat_toNat])
    rwa [Char.ofNat_toNat] at this

theorem mapM_hexDigit? :
    cs.mapM hexDigit? = some ds ↔ (∀ d ∈ ds, d < 16) ∧ cs.map Char.toLower = ds.map Nat.digitChar := by
  induction cs generalizing ds with
  | nil =>
    cases ds <;> simp
  | cons c cs ih =>
    rw [List.mapM_cons]
    cases ds with
    | nil => cases hexDigit? c <;> cases cs.mapM hexDigit? <;> simp
    | cons d ds =>
      have hstep : (do let d ← hexDigit? c; let ds ← cs.mapM hexDigit?; pure (d :: ds)) =
          some (d :: ds) ↔ hexDigit? c = some d ∧ cs.mapM hexDigit? = some ds := by
        cases hexDigit? c <;> cases cs.mapM hexDigit? <;> simp
      rw [hstep, hexDigit?_eq_some, ih]
      simp only [List.mem_cons, forall_eq_or_imp, List.map_cons, List.cons.injEq]
      constructor
      · rintro ⟨⟨hd, hc⟩, hds, hcs⟩
        exact ⟨⟨hd, hds⟩, hc, hcs⟩
      · rintro ⟨⟨hd, hds⟩, hc, hcs⟩
        exact ⟨⟨hd, hc⟩, hds, hcs⟩

end Teleop.Number
