import Teleop.Proofs.Toml.Strings
import Teleop.Proofs.Toml.Words
import Teleop.Toml.Document

/-!
# Lines read back

A line of a key and a value is read as that pair, a header opens its table, and a blank line does
nothing.
-/

namespace Teleop.Toml

open Number

variable {key : String} {v : Value} {cs rest : List Char} {d d' : Draft}

/-! ## Values on their lines -/

/-- A value that is no array, no table and no date, and that TOML has a place for. -/
def Value.IsScalar : Value → Prop
  | .string _ | .boolean _ => True
  | .integer i => leastInteger ≤ i ∧ i ≤ greatestInteger
  | .float bits => bits < 2 * BinaryFormat.double.signBit ∧ BinaryFormat.double.read bits ≠ .nan
  | .datetime _ | .array _ | .table _ => False

theorem isWord_or_string (hv : v.IsScalar) :
    (∃ s, v = .string s) ∨ IsWord v.text.toList v := by
  cases v with
  | string s => exact Or.inl ⟨s, rfl⟩
  | integer i => exact Or.inr (isWord_integer hv.1 hv.2)
  | float bits => exact Or.inr (isWord_float hv.1 hv.2)
  | boolean b => exact Or.inr (isWord_boolean b)
  | datetime text => exact hv.elim
  | array items => exact hv.elim
  | table entries => exact hv.elim

theorem value?_of_head {c : Char} (hlist : c ≠ '[') (htable : c ≠ '\x7b') (depth : Nat) :
    value? depth (c :: cs) = scalar? (c :: cs) := by
  cases depth with
  | zero => rfl
  | succ depth =>
    unfold value?
    split <;> simp_all

theorem scalar?_of_head {c : Char} (hdouble : c ≠ '"') (hsingle : c ≠ '\'') :
    scalar? (c :: cs) = bare? (c :: cs) := by
  unfold scalar?
  split <;> simp_all

theorem scalar?_of_quote {c : Char} (h : IsQuote c) :
    scalar? (c :: cs) = (string? (c :: cs)).map fun (s, cs) => (.string s, cs) := by
  rcases h with rfl | rfl <;> rfl

theorem skipSpaces_cons {c : Char} (h : isSpace c = false) : skipSpaces (c :: cs) = c :: cs :=
  List.dropWhile_cons_of_neg (by simp [h])

theorem skipSpaces_space : skipSpaces (' ' :: cs) = skipSpaces cs :=
  List.dropWhile_cons_of_pos (by decide)

theorem value?_text (hv : v.IsScalar) (depth : Nat) (rest : List Char) :
    skipSpaces (v.text.toList ++ '\n' :: rest) = v.text.toList ++ '\n' :: rest ∧
      value? depth (v.text.toList ++ '\n' :: rest) = some (v, '\n' :: rest) := by
  rcases isWord_or_string hv with ⟨s, rfl⟩ | hword
  · have hread := string?_stringText s ('\n' :: rest) (by simp) (by simp)
    obtain ⟨quote, cs, hquote, htext⟩ := stringText_eq_cons s
    rw [show (Value.string s).text = stringText s from rfl, htext, List.cons_append]
    rw [htext, List.cons_append] at hread
    have hscalar : scalar? (quote :: (cs ++ '\n' :: rest)) = some (.string s, '\n' :: rest) := by
      rw [scalar?_of_quote hquote, hread, Option.map_some]
    have hspace : isSpace quote = false := by rcases hquote with rfl | rfl <;> rfl
    have hlist : quote ≠ '[' := by rcases hquote with rfl | rfl <;> decide
    have htable : quote ≠ '\x7b' := by rcases hquote with rfl | rfl <;> decide
    exact ⟨skipSpaces_cons hspace, by rw [value?_of_head hlist htable, hscalar]⟩
  · have hbare := hword.bare? rest
    obtain ⟨c, cs, htext⟩ := List.exists_cons_of_ne_nil hword.ne_nil
    have hc : isWordChar c := hword.chars c (by simp [htext])
    have hother (c' : Char) (hc' : isWordChar c' = false) : c ≠ c' := by
      rintro rfl
      rw [hc] at hc'
      cases hc'
    have hspace : isSpace c = false := by
      simp [isSpace, hother ' ' (by decide), hother '\t' (by decide)]
    rw [htext, List.cons_append] at hbare ⊢
    refine ⟨skipSpaces_cons hspace, ?_⟩
    rw [value?_of_head (hother '[' (by decide)) (hother '\x7b' (by decide)),
      scalar?_of_head (hother '"' (by decide)) (hother '\'' (by decide)), hbare]

/-! ## Keys -/

/-- A key that is written without quotes. -/
def IsBareKey (key : String) : Prop := key ≠ "" ∧ key.toList.all isBareKeyChar

instance (key : String) : Decidable (IsBareKey key) := inferInstanceAs (Decidable (_ ∧ _))

theorem keyText_of_isBareKey (h : IsBareKey key) : keyText key = key := if_pos h

theorem IsBareKey.chars (h : IsBareKey key) : ∀ c ∈ key.toList, isBareKeyChar c :=
  List.all_eq_true.mp h.2

theorem IsBareKey.toList_eq (h : IsBareKey key) :
    ∃ c cs, key.toList = c :: cs ∧ isBareKeyChar c :=
  match hkey : key.toList with
  | [] => absurd (String.toList_eq_nil_iff.mp hkey) h.1
  | c :: cs => ⟨c, cs, rfl, h.chars c (by simp [hkey])⟩

theorem ne_of_isBareKeyChar {c : Char} (h : isBareKeyChar c) (other : Char)
    (hother : isBareKeyChar other = false) : c ≠ other := by
  rintro rfl
  rw [h] at hother
  cases hother

theorem keyPart?_of_head {c : Char} (h : isBareKeyChar c) :
    keyPart? (c :: cs) =
      if ((c :: cs).takeWhile isBareKeyChar).isEmpty then none
      else some (String.ofList ((c :: cs).takeWhile isBareKeyChar),
        (c :: cs).drop ((c :: cs).takeWhile isBareKeyChar).length) := by
  have hdouble := ne_of_isBareKeyChar h '"' (by decide)
  have hsingle := ne_of_isBareKeyChar h '\'' (by decide)
  unfold keyPart?
  split <;> simp_all

theorem IsBareKey.skipSpaces (h : IsBareKey key) (rest : List Char) :
    skipSpaces (key.toList ++ rest) = key.toList ++ rest := by
  obtain ⟨k, ks, hkey, hk⟩ := h.toList_eq
  rw [hkey, List.cons_append]
  apply skipSpaces_cons
  simp [isSpace, ne_of_isBareKeyChar hk ' ' (by decide),
    ne_of_isBareKeyChar hk '\t' (by decide)]

theorem key?_bare (h : IsBareKey key) (c : Char) (rest : List Char) (hc : isBareKeyChar c = false)
    (hpoint : (skipSpaces (c :: rest)).head? ≠ some '.') :
    key? (key.toList ++ c :: rest) = some (([], key), skipSpaces (c :: rest)) := by
  obtain ⟨k, ks, hkey, hk⟩ := h.toList_eq
  have hword : (key.toList ++ c :: rest).takeWhile isBareKeyChar = key.toList := by
    rw [List.takeWhile_append_of_pos h.chars, List.takeWhile_cons_of_neg (by simp [hc]),
      List.append_nil]
  have hpart : keyPart? (key.toList ++ c :: rest) = some (key, c :: rest) := by
    rw [hkey, List.cons_append] at hword ⊢
    rw [keyPart?_of_head hk, hword, ← List.cons_append, ← hkey, List.drop_left, if_neg (by simp [hkey]),
      String.ofList_toList]
  unfold key? keyParts?
  rw [h.skipSpaces, hpart]
  simp only [Option.bind_eq_bind, Option.bind_some]
  split
  · rename_i heq
    simp [heq] at hpoint
  · rfl

/-! ## Lines -/

namespace Draft

/-- `cs` turns the draft `d` into `d'`, a line at a time. -/
def Reads (d : Draft) (cs : List Char) (d' : Draft) : Prop :=
  ∀ fuel, cs.length ≤ fuel → d.lines? fuel cs = some d'

theorem reads_nil (d : Draft) : d.Reads [] d := fun _ _ => by simp [lines?]

theorem reads_line {d₁ : Draft} (cs : List Char) (hne : cs ≠ [])
    (hline : d.line? (cs ++ rest) = some (d₁, rest)) (h : d₁.Reads rest d') : d.Reads (cs ++ rest) d' := by
  intro fuel hfuel
  obtain ⟨c, cs, rfl⟩ := List.exists_cons_of_ne_nil hne
  rw [List.cons_append, List.length_cons, List.length_append] at hfuel
  obtain ⟨fuel, rfl⟩ : ∃ k, fuel = k + 1 := ⟨fuel - 1, by omega⟩
  rw [List.cons_append] at hline ⊢
  unfold lines?
  rw [hline]
  exact h fuel (by omega)

theorem reads_blank (h : d.Reads rest d') : d.Reads ('\n' :: rest) d' :=
  reads_line ['\n'] (by simp) rfl h

theorem line?_of_head {k : Char} (hk : isBareKeyChar k) (hfront : skipSpaces (k :: cs) = k :: cs) :
    d.line? (k :: cs) = (d.pair? (k :: cs)).bind fun (d, cs) => (nextLine? cs).map (d, ·) := by
  have hcomment := ne_of_isBareKeyChar hk '#' (by decide)
  have hnewline := ne_of_isBareKeyChar hk '\n' (by decide)
  have hreturn := ne_of_isBareKeyChar hk '\r' (by decide)
  have hheader := ne_of_isBareKeyChar hk '[' (by decide)
  unfold line?
  rw [hfront]
  split <;> simp_all

theorem line?_pair (hkey : IsBareKey key) (hv : v.IsScalar) {es : Entries}
    (hadd : d.entries.addAt d.opened [] key v = some es) (rest : List Char) :
    d.line? ((keyText key ++ " = " ++ v.text ++ "\n").toList ++ rest) =
      some ({ d with entries := es }, rest) := by
  obtain ⟨k, ks, hchars, hk⟩ := hkey.toList_eq
  obtain ⟨hspaces, hvalue⟩ := value?_text hv nestingLimit rest
  have htext : (keyText key ++ " = " ++ v.text ++ "\n").toList ++ rest =
      key.toList ++ ' ' :: '=' :: ' ' :: (v.text.toList ++ '\n' :: rest) := by
    rw [keyText_of_isBareKey hkey]
    simp
  have hread := key?_bare hkey ' ' ('=' :: ' ' :: (v.text.toList ++ '\n' :: rest)) (by decide)
    (by simp [skipSpaces_space, skipSpaces_cons (show isSpace '=' = false by decide)])
  rw [skipSpaces_space, skipSpaces_cons (by decide)] at hread
  have hpair : d.pair? (key.toList ++ ' ' :: '=' :: ' ' :: (v.text.toList ++ '\n' :: rest)) =
      some ({ d with entries := es }, '\n' :: rest) := by
    unfold pair?
    rw [hread]
    simp only [Option.bind_eq_bind, Option.bind_some]
    rw [skipSpaces_space, hspaces, hvalue]
    simp only [Option.bind_some]
    rw [hadd]
    rfl
  have hfront := hkey.skipSpaces (' ' :: '=' :: ' ' :: (v.text.toList ++ '\n' :: rest))
  rw [htext]
  rw [hchars, List.cons_append] at hpair hfront ⊢
  rw [line?_of_head hk hfront, hpair]
  rfl

theorem line?_header (hkey : IsBareKey key) {es : Entries}
    (hopen : d.entries.openTable [] key = some es) (rest : List Char) :
    d.line? (("[" ++ keyText key ++ "]\n").toList ++ rest) =
      some ({ entries := es, opened := [key] }, rest) := by
  obtain ⟨k, ks, hchars, hk⟩ := hkey.toList_eq
  have htext : ("[" ++ keyText key ++ "]\n").toList ++ rest =
      '[' :: (key.toList ++ ']' :: '\n' :: rest) := by
    rw [keyText_of_isBareKey hkey]
    simp
  have hbracket : skipSpaces (']' :: '\n' :: rest) = ']' :: '\n' :: rest := skipSpaces_cons (by decide)
  have hread := key?_bare hkey ']' ('\n' :: rest) (by decide) (by simp [hbracket])
  rw [hbracket] at hread
  have hheader : d.header? (key.toList ++ ']' :: '\n' :: rest) =
      some ({ entries := es, opened := [key] }, '\n' :: rest) := by
    unfold header?
    split
    · rename_i heq
      rw [hchars] at heq
      exact absurd (List.cons.inj heq).1 (ne_of_isBareKeyChar hk _ (by decide))
    · rw [hread]
      simp only [Option.bind_eq_bind, Option.bind_some]
      rw [hopen]
      rfl
  unfold line?
  rw [htext, skipSpaces_cons (by decide)]
  simp only
  rw [hheader]
  rfl

end Draft

end Teleop.Toml
