import Teleop.Proofs.Number.Digits
import Teleop.Toml.Writing

/-!
# Strings read back

Whatever a string holds, its written form stands for it.
-/

namespace Teleop.Toml

open Number

variable {quote c : Char} {lines : Bool} {run k : Nat} {cs raw text rest esc : List Char}

/-! ## The inside of a string -/

/-- An escape without its backslash. Its first character begins no line end. -/
structure IsEscape (esc : List Char) (c : Char) : Prop where
  reads : ∀ rest, escape? (esc ++ rest) = some (c, rest)
  marked : ∃ d es, esc = d :: es ∧ isSpace d = false ∧ d ≠ '\n' ∧ d ≠ '\r'

/-- `raw` between quotes means `text`, after `run` quotes that belong to the string. -/
inductive Inside (quote : Char) (lines : Bool) : Nat → List Char → List Char → Prop
  | nil {run : Nat} : Inside quote lines run [] []
  | quote {run : Nat} {raw text : List Char} (hlines : lines = true) (hrun : run < 2)
      (tail : Inside quote lines (run + 1) raw text) :
      Inside quote lines run (quote :: raw) (quote :: text)
  | escape {run : Nat} {esc raw text : List Char} {c : Char} (hquote : quote = '"')
      (hesc : IsEscape esc c) (tail : Inside quote lines 0 raw text) :
      Inside quote lines run ('\\' :: (esc ++ raw)) (c :: text)
  | newline {run : Nat} {raw text : List Char} (hlines : lines = true)
      (tail : Inside quote lines 0 raw text) : Inside quote lines run ('\n' :: raw) ('\n' :: text)
  | plain {run : Nat} {raw text : List Char} {c : Char} (hplain : isPlain c) (hquote : c ≠ quote)
      (hesc : ¬ (c = '\\' ∧ quote = '"')) (tail : Inside quote lines 0 raw text) :
      Inside quote lines run (c :: raw) (c :: text)

/-- The quotes at the end of a string. -/
def fence (quote : Char) (lines : Bool) : List Char := List.replicate (if lines then 3 else 1) quote

/-! ## Reading, a character at a time -/

theorem stringBody_quote (hlines : lines = true) (h : 1 + quotesInFront quote cs < 3) :
    stringBody quote lines false (quote :: cs) =
      (stringBody quote lines false cs).map fun (body, rest) => (quote :: body, rest) := by
  rw [stringBody, if_pos rfl, if_neg (by simp [hlines]), if_neg (by omega)]
  rfl

theorem stringBody_escape (hesc : IsEscape esc c) :
    stringBody '"' lines false ('\\' :: (esc ++ cs)) =
      (stringBody '"' lines false cs).map fun (body, rest) => (c :: body, rest) := by
  obtain ⟨d, es, rfl, hspace, hn, hr⟩ := hesc.marked
  have hend : lineEnd? (skipSpaces (d :: es ++ cs)) = none := by
    rw [List.cons_append, skipSpaces, List.dropWhile_cons_of_neg (by simp [hspace])]
    unfold lineEnd?
    split <;> simp_all
  rw [stringBody, if_neg (by decide), if_pos (by decide), hend, if_neg (by simp)]
  split
  · rename_i h
    rw [hesc.reads] at h
    cases h
  · rename_i h
    rw [hesc.reads] at h
    cases h
    rfl

theorem stringBody_newline (hlines : lines = true) (hquote : quote ≠ '\n') :
    stringBody quote lines false ('\n' :: cs) =
      (stringBody quote lines false cs).map fun (body, rest) => ('\n' :: body, rest) := by
  rw [stringBody, if_neg (Ne.symm hquote), if_neg (by simp), if_pos ⟨hlines, rfl⟩]
  rfl

theorem not_lineEnd_of_isPlain (h : isPlain c) : c ≠ '\n' ∧ c ≠ '\r' := by
  constructor <;> rintro rfl <;> exact absurd h (by decide)

theorem stringBody_plain (hplain : isPlain c) (hquote : c ≠ quote)
    (hesc : ¬ (c = '\\' ∧ quote = '"')) :
    stringBody quote lines false (c :: cs) =
      (stringBody quote lines false cs).map fun (body, rest) => (c :: body, rest) := by
  obtain ⟨hn, hr⟩ := not_lineEnd_of_isPlain hplain
  rw [stringBody, if_neg hquote, if_neg hesc, if_neg (by simp [hn]), if_neg (by simp [hr]),
    if_neg (by simp), if_pos hplain]
  rfl

/-! ## Reading the whole -/

theorem quotesInFront_replicate (hrest : rest.head? ≠ some quote) :
    quotesInFront quote (List.replicate k quote ++ rest) = k := by
  have hstop : rest.takeWhile (· == quote) = [] := by
    cases rest with
    | nil => rfl
    | cons c rest => exact List.takeWhile_cons_of_neg (by simpa using hrest)
  unfold quotesInFront
  rw [List.takeWhile_append_of_pos (by simp), hstop]
  simp

theorem Inside.front (h : Inside quote lines run raw text) (hrun : run ≤ 2) (hn : quote ≠ '\n')
    (hb : quote ≠ '\\') :
    ∃ k, run + k ≤ 2 ∧ (raw = List.replicate k quote ∧ text = List.replicate k quote ∨
      ∃ c cs, c ≠ quote ∧ raw = List.replicate k quote ++ c :: cs) := by
  induction h with
  | nil => exact ⟨0, hrun, Or.inl ⟨rfl, rfl⟩⟩
  | quote hlines hrun' tail ih =>
    obtain ⟨k, hk, ⟨rfl, rfl⟩ | ⟨c, cs, hc, rfl⟩⟩ := ih (by omega)
    · exact ⟨k + 1, by omega, Or.inl ⟨rfl, rfl⟩⟩
    · exact ⟨k + 1, by omega, Or.inr ⟨c, cs, hc, rfl⟩⟩
  | escape hquote hesc tail ih => exact ⟨0, hrun, Or.inr ⟨_, _, hb.symm, rfl⟩⟩
  | newline hlines tail ih => exact ⟨0, hrun, Or.inr ⟨_, _, hn.symm, rfl⟩⟩
  | plain hplain hquote hesc tail ih => exact ⟨0, hrun, Or.inr ⟨_, _, hquote, rfl⟩⟩

/-- Three quotes close a string, and those in front of them belong to it. -/
theorem stringBody_close (hk : k ≤ 2) (hrest : rest.head? ≠ some quote) :
    stringBody quote true false (List.replicate k quote ++ (fence quote true ++ rest)) =
      some (List.replicate k quote, rest) := by
  have hsplit : List.replicate k quote ++ (fence quote true ++ rest) =
      quote :: (List.replicate (k + 2) quote ++ rest) := by
    rw [← List.cons_append, ← List.replicate_succ, ← List.append_assoc]
    congr 1
    exact List.replicate_append_replicate
  rw [hsplit, stringBody, if_pos rfl, if_neg (by simp), quotesInFront_replicate hrest,
    if_pos (by omega)]
  have hextra : min 2 (1 + (k + 2) - 3) = k := by omega
  simp only [hextra]
  rw [List.drop_left' (by simp [Nat.add_comm])]

theorem stringBody_inside (h : Inside quote lines run raw text) (hrun : run ≤ 2) (hn : quote ≠ '\n')
    (hb : quote ≠ '\\') (hrest : rest.head? ≠ some quote) :
    stringBody quote lines false (raw ++ (fence quote lines ++ rest)) = some (text, rest) := by
  induction h with
  | nil =>
    cases lines with
    | true => exact stringBody_close (Nat.zero_le 2) hrest
    | false =>
      show stringBody quote false false (quote :: rest) = _
      rw [stringBody, if_pos rfl, if_pos (by decide)]
  | @quote run raw text hlines hrun' tail ih =>
    subst hlines
    obtain ⟨k, hk, ⟨rfl, rfl⟩ | ⟨c, cs, hc, rfl⟩⟩ := tail.front (by omega) hn hb
    · -- Only quotes are left, which the closing ones take along.
      exact stringBody_close (k := k + 1) (by omega) hrest
    · rw [List.cons_append, stringBody_quote rfl, ih (by omega)]
      · rfl
      · rw [List.append_assoc, quotesInFront_replicate (by simpa using hc)]
        omega
  | escape hquote hesc tail ih =>
    subst hquote
    rw [List.cons_append, List.append_assoc, stringBody_escape hesc, ih (by omega)]
    rfl
  | newline hlines tail ih =>
    rw [List.cons_append, stringBody_newline hlines hn, ih (by omega)]
    rfl
  | plain hplain hquote hesc tail ih =>
    rw [List.cons_append, stringBody_plain hplain hquote hesc, ih (by omega)]
    rfl

/-! ## Writing -/

theorem isPlain_of_not_isControl (h : isControl c = false) (hn : c ≠ '\n') : isPlain c := by
  by_cases ht : c = '\t'
  · rw [ht]
    decide
  · have hcontrol : 0x20 ≤ c.toNat ∧ c.toNat ≠ 0x7F := by simpa [isControl, hn, ht] using h
    simp [isPlain, hcontrol]

theorem isEscape_letter {d : Char} (hd : letterEscape? d = some c) : IsEscape [d] c := by
  unfold letterEscape? at hd
  split at hd <;> cases hd
  all_goals exact ⟨fun _ => rfl, _, _, rfl, by decide, by decide, by decide⟩

theorem isEscape_fourDigits (hc : c.toNat < 128) : IsEscape ('u' :: fourDigits c.toNat) c := by
  have table : ∀ n < 128, fourDigits n =
      ['0', '0', (Nat.digitChar (n / 16)).toUpper, (Nat.digitChar (n % 16)).toUpper] := by
    decide +kernel
  have digit : ∀ d < 16, hexDigit? (Nat.digitChar d).toUpper = some d := by decide
  refine ⟨?_, _, _, rfl, by decide, by decide, by decide⟩
  intro rest
  have hvalue : 16 * (c.toNat / 16) + c.toNat % 16 = c.toNat := Nat.div_add_mod _ _
  have hcharacter : character? c.toNat = some c := by
    rw [character?, if_pos (by omega), Char.ofNat_toNat]
  rw [table _ hc]
  show hexEscape? 0 4 _ = _
  simp [hexEscape?, digit (c.toNat / 16) (by omega), digit (c.toNat % 16) (by omega), hvalue,
    hcharacter, show hexDigit? '0' = some 0 by decide]

theorem inside_letter {d : Char} (hd : letterEscape? d = some c)
    (tail : Inside '"' lines 0 raw text) : Inside '"' lines run ('\\' :: d :: raw) (c :: text) :=
  Inside.escape rfl (isEscape_letter hd) tail

theorem inside_escapedChar (hquote : c ≠ '"') (tail : Inside '"' lines 0 raw text) :
    Inside '"' lines run (escapedChar lines c ++ raw) (c :: text) := by
  unfold escapedChar
  split_ifs with hb ht hf hr hs hn hlines hcontrol
  · exact inside_letter (by rw [hb]; rfl) tail
  · exact inside_letter (by rw [ht]; rfl) tail
  · exact inside_letter (by rw [hf]; rfl) tail
  · exact inside_letter (by rw [hr]; rfl) tail
  · exact inside_letter (by rw [hs]; rfl) tail
  · rw [hn]
    exact Inside.newline hlines tail
  · exact inside_letter (by rw [hn]; rfl) tail
  · apply Inside.escape rfl (isEscape_fourDigits ?_) tail
    simp only [isControl, Bool.or_eq_true, Bool.and_eq_true, decide_eq_true_eq, beq_iff_eq] at hcontrol
    omega
  · exact Inside.plain (isPlain_of_not_isControl (by simpa using hcontrol) hn) hquote (by simp [hs]) tail

theorem inside_escapedChars (run : Nat) (cs : List Char) :
    Inside '"' lines run (escapedChars lines run cs) cs := by
  induction cs generalizing run with
  | nil => exact Inside.nil
  | cons c cs ih =>
    unfold escapedChars
    split_ifs with hc h
    · subst hc
      exact Inside.quote h.1 h.2 (ih _)
    · subst hc
      exact inside_letter rfl (ih _)
    · exact inside_escapedChar hc (ih _)

theorem inside_literal_line (hcontrol : ∀ c ∈ cs, isControl c = false) (hquote : '\'' ∉ cs)
    (hn : '\n' ∉ cs) : Inside '\'' false run cs cs := by
  induction cs generalizing run with
  | nil => exact Inside.nil
  | cons c cs ih =>
    simp only [List.mem_cons, not_or, forall_eq_or_imp] at hcontrol hquote hn
    exact Inside.plain (isPlain_of_not_isControl hcontrol.1 (Ne.symm hn.1)) (Ne.symm hquote.1)
      (by simp) (ih hcontrol.2 hquote.2 hn.2)

/-- Counts the quotes next to each other, beside the most so far. -/
def countRun (quote : Char) : Nat × Nat → Char → Nat × Nat := fun (best, run) c =>
  let run := if c = quote then run + 1 else 0
  (max best run, run)

theorem longestRun_eq (quote : Char) (cs : List Char) :
    longestRun quote cs = (cs.foldl (countRun quote) (0, 0)).1 := rfl

theorem best_le_foldl (cs : List Char) (p : Nat × Nat) : p.1 ≤ (cs.foldl (countRun quote) p).1 := by
  induction cs generalizing p with
  | nil => exact Nat.le_refl _
  | cons c cs ih => exact Nat.le_trans (Nat.le_max_left _ _) (ih (countRun quote p c))

theorem inside_literal {best : Nat} (hcontrol : ∀ c ∈ cs, isControl c = false)
    (hruns : (cs.foldl (countRun '\'') (best, run)).1 ≤ 2) : Inside '\'' true run cs cs := by
  induction cs generalizing best run with
  | nil => exact Inside.nil
  | cons c cs ih =>
    rw [List.foldl_cons] at hruns
    rw [List.forall_mem_cons] at hcontrol
    have hbest : (countRun '\'' (best, run) c).1 ≤ 2 := Nat.le_trans (best_le_foldl cs _) hruns
    have tail := ih hcontrol.2 hruns
    by_cases hc : c = '\''
    · subst hc
      have hrun : run + 1 ≤ 2 := Nat.le_trans (Nat.le_max_right best (run + 1)) hbest
      exact Inside.quote rfl (by omega) tail
    · rw [if_neg hc] at tail
      by_cases hn : c = '\n'
      · subst hn
        exact Inside.newline rfl tail
      · exact Inside.plain (isPlain_of_not_isControl hcontrol.1 hn) hc (by simp) tail

/-! ## The written form -/

theorem lineEnd?_cons (hn : c ≠ '\n') (hr : c ≠ '\r') : lineEnd? (c :: cs) = none := by
  unfold lineEnd?
  split <;> simp_all

theorem Inside.lineEnd? (h : Inside quote lines run raw text) (hn : quote ≠ '\n') (hr : quote ≠ '\r')
    (htext : '\n' ∉ text) : Toml.lineEnd? (raw ++ (fence quote lines ++ rest)) = none := by
  cases h with
  | nil => cases lines <;> exact lineEnd?_cons hn hr
  | quote hlines hrun tail => exact lineEnd?_cons hn hr
  | escape hquote hesc tail => exact lineEnd?_cons (by decide) (by decide)
  | newline hlines tail => simp at htext
  | plain hplain hquote hesc tail =>
    exact lineEnd?_cons (not_lineEnd_of_isPlain hplain).1 (not_lineEnd_of_isPlain hplain).2

def IsQuote (c : Char) : Prop := c = '"' ∨ c = '\''

theorem string?_lines (hquote : IsQuote quote) (cs : List Char) :
    string? (quote :: quote :: quote :: cs) =
      (stringBody quote true false (dropFirstLineEnd cs)).map fun (body, rest) =>
        (String.ofList body, rest) := by
  rcases hquote with rfl | rfl <;> rfl

theorem string?_line (hquote : IsQuote quote) (hcs : ∀ t, cs ≠ quote :: quote :: t) :
    string? (quote :: cs) = lineString? quote cs := by
  rcases hquote with rfl | rfl
  · unfold string?
    split <;> simp_all
  · unfold string?
    split <;> simp_all

theorem string?_of_inside (hquote : IsQuote quote) (h : Inside quote lines 0 raw text)
    (hrest : rest.head? ≠ some quote) :
    string? (fence quote lines ++ ((if lines ∧ text.contains '\n' then ['\n'] else []) ++
      (raw ++ (fence quote lines ++ rest)))) = some (String.ofList text, rest) := by
  have hn : quote ≠ '\n' := by rcases hquote with rfl | rfl <;> decide
  have hb : quote ≠ '\\' := by rcases hquote with rfl | rfl <;> decide
  have hr : quote ≠ '\r' := by rcases hquote with rfl | rfl <;> decide
  have hbody := stringBody_inside h (Nat.zero_le 2) hn hb hrest
  cases lines with
  | true =>
    have hdrop : dropFirstLineEnd ((if true ∧ text.contains '\n' then ['\n'] else []) ++
        (raw ++ (fence quote true ++ rest))) = raw ++ (fence quote true ++ rest) := by
      split_ifs with htext
      · rfl
      · rw [List.nil_append, dropFirstLineEnd, h.lineEnd? hn hr (by simpa using htext)]
        rfl
    generalize (if true ∧ text.contains '\n' then ['\n'] else []) ++
      (raw ++ (fence quote true ++ rest)) = cs at hdrop ⊢
    refine (string?_lines hquote cs).trans ?_
    rw [hdrop, hbody]
    rfl
  | false =>
    rw [if_neg (by simp), List.nil_append]
    refine (string?_line hquote ?_).trans ?_
    · intro t ht
      cases h with
      | nil =>
        have hrest' : rest = quote :: t := (List.cons.inj ht).2
        simp [hrest'] at hrest
      | quote hlines => cases hlines
      | escape => exact hb (List.cons.inj ht).1.symm
      | newline hlines => cases hlines
      | plain hplain hc => exact hc (List.cons.inj ht).1
    · show (stringBody quote false false (raw ++ (fence quote false ++ rest))).map _ = _
      rw [hbody]
      rfl

theorem inside_of_literal (h : stringStyle cs = (.literal, lines)) : Inside '\'' lines 0 cs cs := by
  unfold stringStyle at h
  simp only at h
  split_ifs at h with h1 h2 h3 h4
  · cases h
  · cases h
    simp only [Bool.and_eq_true, Bool.not_eq_true', List.any_eq_false, Bool.not_eq_true,
      List.contains_eq_mem, decide_eq_false_iff_not] at h2
    exact inside_literal_line h2.1.1 h2.1.2 h2.2
  · cases h
  · cases h
    simp only [Bool.and_eq_true, Bool.not_eq_true', List.any_eq_false, Bool.not_eq_true,
      decide_eq_true_eq] at h4
    rw [longestRun_eq] at h4
    exact inside_literal h4.1 h4.2
  · cases h

theorem exists_inside (s : String) :
    ∃ quote lines raw, IsQuote quote ∧ Inside quote lines 0 raw s.toList ∧
      (stringText s).toList = fence quote lines ++
        ((if lines ∧ s.toList.contains '\n' then ['\n'] else []) ++ (raw ++ fence quote lines)) := by
  unfold stringText
  simp only [String.toList_ofList, List.append_assoc]
  generalize hstyle : stringStyle s.toList = style
  obtain ⟨form, lines⟩ := style
  cases form with
  | escaped => exact ⟨'"', lines, _, Or.inl rfl, inside_escapedChars 0 s.toList, rfl⟩
  | literal => exact ⟨'\'', lines, _, Or.inr rfl, inside_of_literal hstyle, rfl⟩

theorem string?_stringText (s : String) (rest : List Char) (hdouble : rest.head? ≠ some '"')
    (hsingle : rest.head? ≠ some '\'') :
    string? ((stringText s).toList ++ rest) = some (s, rest) := by
  obtain ⟨quote, lines, raw, hquote, hinside, htext⟩ := exists_inside s
  rw [htext, List.append_assoc, List.append_assoc, List.append_assoc, string?_of_inside hquote hinside,
    String.ofList_toList]
  rcases hquote with rfl | rfl
  · exact hdouble
  · exact hsingle

theorem stringText_eq_cons (s : String) :
    ∃ quote cs, IsQuote quote ∧ (stringText s).toList = quote :: cs := by
  obtain ⟨quote, lines, raw, hquote, -, htext⟩ := exists_inside s
  cases lines with
  | true => exact ⟨quote, _, hquote, htext⟩
  | false => exact ⟨quote, _, hquote, htext⟩

end Teleop.Toml
