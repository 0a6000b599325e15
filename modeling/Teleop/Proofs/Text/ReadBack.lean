import Mathlib.Data.List.Basic
import Teleop.Text.Parts
import Teleop.Text.Utf8

/-!
# Texts that are read back

The parts of a text that was joined are the parts it was joined of, and the bytes of a text stand for
that text.
-/

namespace Teleop.Text

variable {mark : Char} {part cs : List Char} {ps : List (List Char)}

/-! ## Parts -/

theorem joined_cons (h : ps ≠ []) : joined mark (part :: ps) = part ++ mark :: joined mark ps := by
  cases ps with
  | nil => contradiction
  | cons p ps => rfl

theorem parts_of_free (h : mark ∉ part) : parts mark part = [part] := by
  induction part with
  | nil => rfl
  | cons c cs ih =>
    rw [List.mem_cons, not_or] at h
    rw [parts, ih h.2]
    exact if_neg (Ne.symm h.1)

theorem parts_append (h : mark ∉ part) (cs : List Char) :
    parts mark (part ++ mark :: cs) = part :: parts mark cs := by
  induction part with
  | nil =>
    obtain ⟨p, ps, hps⟩ := List.exists_cons_of_ne_nil (parts_ne_nil mark cs)
    rw [List.nil_append, parts, hps]
    exact if_pos rfl
  | cons c part ih =>
    rw [List.mem_cons, not_or] at h
    rw [List.cons_append, parts, ih h.2]
    exact if_neg (Ne.symm h.1)

theorem parts_joined (hne : ps ≠ []) (hfree : ∀ p ∈ ps, mark ∉ p) :
    parts mark (joined mark ps) = ps := by
  induction ps with
  | nil => contradiction
  | cons p ps ih =>
    simp only [List.mem_cons, forall_eq_or_imp] at hfree
    by_cases hps : ps = []
    · subst hps
      exact parts_of_free hfree.1
    · rw [joined_cons hps, parts_append hfree.1, ih hps hfree.2]

theorem mem_of_mem_joined {c : Char} (h : c ∈ joined mark ps) : c = mark ∨ ∃ p ∈ ps, c ∈ p := by
  induction ps with
  | nil => simp [joined] at h
  | cons p ps ih =>
    by_cases hps : ps = []
    · subst hps
      exact Or.inr ⟨p, by simp, h⟩
    · rw [joined_cons hps, List.mem_append, List.mem_cons] at h
      rcases h with h | h | h
      · exact Or.inr ⟨p, by simp, h⟩
      · exact Or.inl h
      · refine (ih h).imp_right ?_
        rintro ⟨q, hq, hc⟩
        exact ⟨q, by simp [hq], hc⟩

theorem length_parts (mark : Char) (cs : List Char) :
    (parts mark cs).length = cs.count mark + 1 := by
  induction cs with
  | nil => rfl
  | cons c cs ih =>
    obtain ⟨p, ps, hps⟩ := List.exists_cons_of_ne_nil (parts_ne_nil mark cs)
    rw [parts, hps, List.count_cons]
    rw [hps, List.length_cons] at ih
    by_cases hc : c = mark
    · simp [hc, ih]
    · simp [hc, ih]

theorem toList_intercalate (mark : Char) (texts : List String) :
    ((String.singleton mark).intercalate texts).toList = joined mark (texts.map String.toList) := by
  rw [String.toList_intercalate, String.toList_singleton]
  induction texts with
  | nil => rfl
  | cons text texts ih =>
    by_cases h : texts = []
    · subst h
      simp [joined]
    · have hmap : texts.map String.toList ≠ [] := by simpa using h
      rw [List.map_cons, joined_cons hmap, ← ih, List.intercalate_cons_of_ne_nil hmap]
      simp

/-! ## Bytes -/

theorem Piece.continue_cons {code taken follow low high n : Nat} (rest : Bytes) (hn : n < 256)
    (hlow : low ≤ n) (hhigh : n ≤ high) :
    Piece.continue code taken (follow + 1) low high (UInt8.ofNat n :: rest) =
      Piece.continue (code * 0x40 + n % 0x40) (taken + 1) follow 0x80 0xBF rest := by
  have hval : (UInt8.ofNat n).toNat = n := by simpa using hn
  rw [Piece.continue, hval, if_pos ⟨hlow, hhigh⟩]

theorem Piece.next_ofNat {n follow low high : Nat} (rest : Bytes) (hn : n < 256)
    (hlead : Lead.of? n = some ⟨follow, low, high⟩) :
    Piece.next (UInt8.ofNat n) rest =
      Piece.continue (Lead.payload n follow) 1 follow low high rest := by
  have hval : (UInt8.ofNat n).toNat = n := by simpa using hn
  rw [Piece.next, hval, hlead]

theorem Lead.of?_two {n : Nat} (h : 0xC2 ≤ n) (h' : n < 0xE0) :
    Lead.of? n = some ⟨1, 0x80, 0xBF⟩ := by
  rw [Lead.of?, if_neg (by omega), if_neg (by omega), if_pos h']

theorem Lead.of?_three {n : Nat} (h : 0xE0 ≤ n) (h' : n < 0xF0) :
    ∃ low high, Lead.of? n = some ⟨2, low, high⟩ ∧
      (low ≤ 0x80 ∨ n = 0xE0 ∧ low ≤ 0xA0) ∧ (0xBF ≤ high ∨ n = 0xED ∧ 0x9F ≤ high) := by
  unfold Lead.of?
  rw [if_neg (by omega), if_neg (by omega), if_neg (by omega)]
  split_ifs with h1 h2
  · exact ⟨_, _, rfl, by omega, by omega⟩
  · exact ⟨_, _, rfl, by omega, by omega⟩
  · exact ⟨_, _, rfl, by omega, by omega⟩

theorem Lead.of?_four {n : Nat} (h : 0xF0 ≤ n) (h' : n ≤ 0xF4) :
    ∃ low high, Lead.of? n = some ⟨3, low, high⟩ ∧
      (low ≤ 0x80 ∨ n = 0xF0 ∧ low ≤ 0x90) ∧ (0xBF ≤ high ∨ n = 0xF4 ∧ 0x8F ≤ high) := by
  unfold Lead.of?
  rw [if_neg (by omega), if_neg (by omega), if_neg (by omega), if_neg (by omega),
    if_neg (by omega), if_neg (by omega)]
  split_ifs with h1 h2 h3
  · exact ⟨_, _, rfl, by omega, by omega⟩
  · exact ⟨_, _, rfl, by omega, by omega⟩
  · exact ⟨_, _, rfl, by omega, by omega⟩
  · omega

theorem next_utf8EncodeChar (c : Char) (rest : Bytes) :
    ∃ b bs, String.utf8EncodeChar c = b :: bs ∧ Piece.next b (bs ++ rest) = (.char c, rest) := by
  have hchar : Char.ofNat c.val.toNat = c := Char.ofNat_toNat c
  have hvalid : c.val.toNat < 0xD800 ∨ 0xDFFF < c.val.toNat ∧ c.val.toNat < 0x110000 := c.valid
  unfold String.utf8EncodeChar
  generalize c.val.toNat = v at hchar hvalid
  dsimp only
  -- One case for each length. The bounds of the second byte leave out what has a shorter form, and
  -- the numbers that no character has.
  split_ifs with h1 h2 h3
  · refine ⟨_, _, rfl, ?_⟩
    rw [Piece.next_ofNat _ (by omega) (if_pos (by omega))]
    simp [Piece.continue, Lead.payload, hchar]
  · refine ⟨_, _, rfl, ?_⟩
    rw [Piece.next_ofNat _ (by omega) (Lead.of?_two (by omega) (by omega)), List.cons_append,
      List.nil_append, Piece.continue_cons _ (by omega) (by omega) (by omega), Piece.continue,
      Lead.payload, show (v / 64 % 32 + 192) % 0x20 * 0x40 + (v % 64 + 128) % 0x40 = v by omega, hchar]
  · obtain ⟨low, high, hlead, hlow, hhigh⟩ :=
      Lead.of?_three (n := v / 4096 % 16 + 224) (by omega) (by omega)
    refine ⟨_, _, rfl, ?_⟩
    rw [Piece.next_ofNat _ (by omega) hlead, List.cons_append, List.cons_append, List.nil_append,
      Piece.continue_cons _ (by omega) (by omega) (by omega),
      Piece.continue_cons _ (by omega) (by omega) (by omega), Piece.continue, Lead.payload,
      show ((v / 4096 % 16 + 224) % 0x10 * 0x40 + (v / 64 % 64 + 128) % 0x40) * 0x40
        + (v % 64 + 128) % 0x40 = v by omega, hchar]
  · obtain ⟨low, high, hlead, hlow, hhigh⟩ :=
      Lead.of?_four (n := v / 262144 % 8 + 240) (by omega) (by omega)
    refine ⟨_, _, rfl, ?_⟩
    rw [Piece.next_ofNat _ (by omega) hlead, List.cons_append, List.cons_append, List.cons_append,
      List.nil_append, Piece.continue_cons _ (by omega) (by omega) (by omega),
      Piece.continue_cons _ (by omega) (by omega) (by omega),
      Piece.continue_cons _ (by omega) (by omega) (by omega), Piece.continue, Lead.payload,
      show (((v / 262144 % 8 + 240) % 0x08 * 0x40 + (v / 4096 % 64 + 128) % 0x40) * 0x40
        + (v / 64 % 64 + 128) % 0x40) * 0x40 + (v % 64 + 128) % 0x40 = v by omega, hchar]
    all_goals omega

theorem pieces_ofText (cs : List Char) :
    pieces (cs.flatMap String.utf8EncodeChar) = cs.map .char := by
  induction cs with
  | nil => rw [List.flatMap_nil, pieces]; rfl
  | cons c cs ih =>
    obtain ⟨b, bs, hbytes, hnext⟩ := next_utf8EncodeChar c (cs.flatMap String.utf8EncodeChar)
    rw [List.flatMap_cons, hbytes, List.cons_append, pieces, hnext, ih]
    rfl

theorem decode?_ofText (s : String) : decode? (.ofText s) = some s := by
  rw [decode?, Bytes.ofText, pieces_ofText]
  have hchars : ∀ cs : List Char, (cs.map Piece.char).mapM Piece.char? = some cs := by
    intro cs
    induction cs with
    | nil => rfl
    | cons c cs ih => simp [ih, Piece.char?]
  rw [hchars]
  simp

end Teleop.Text
