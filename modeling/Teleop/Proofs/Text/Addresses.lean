import Mathlib.Data.List.Basic
import Mathlib.Tactic.SplitIfs
import Teleop.Address
import Teleop.Proofs.Number.Digits
import Teleop.Proofs.Text.ReadBack

/-!
# Texts of addresses

The grammar of addresses as a relation. Reading accepts exactly the texts of the grammar, and the
canonical text of an address is one of them.
-/

namespace Teleop.Address

open Number Text

variable {cs front back : List Char} {gs head tail : List UInt16}

/-! ## The grammar -/

/-- Four decimal numbers with points between them, none with a zero in front. -/
def IsQuad (cs : List Char) (o : Vector UInt8 4) : Prop :=
  cs = joined '.' (o.toList.map fun b => Nat.toDigits 10 b.toNat)

/-- Up to four hexadecimal digits in upper or lower case. -/
def IsGroup (cs : List Char) (g : UInt16) : Prop :=
  cs.length ≤ 4 ∧ Numeral 16 (cs.map Char.toLower) g.toNat

/-- Groups with colons between them. Where `mixed` is set the last two may stand as a quad. -/
inductive Groups (mixed : Bool) : List Char → List UInt16 → Prop
  | last {cs : List Char} {g : UInt16} (hgroup : IsGroup cs g) : Groups mixed cs [g]
  | quad {cs : List Char} {a b c d : UInt8} (hmixed : mixed = true)
      (hquad : IsQuad cs #v[a, b, c, d]) : Groups mixed cs [pair a b, pair c d]
  | more {cs rest : List Char} {g : UInt16} {gs : List UInt16} (hgroup : IsGroup cs g)
      (hrest : Groups mixed rest gs) : Groups mixed (cs ++ ':' :: rest) (g :: gs)

/-- What stands on one side of a double colon. -/
inductive Side (mixed : Bool) : List Char → List UInt16 → Prop
  | nothing : Side mixed [] []
  | groups {cs : List Char} {gs : List UInt16} (hgroups : Groups mixed cs gs) : Side mixed cs gs

/-- The text stands for the address. A double colon stands for at least one group of zeros. -/
inductive Spells (s : String) : Address → Prop
  | four {o : Vector UInt8 4} (hquad : IsQuad s.toList o) : Spells s (.v4 o)
  | six {groups : Vector UInt16 8} (hgroups : Groups true s.toList groups.toList) :
      Spells s (.v6 groups)
  | gap {groups : Vector UInt16 8} {front back : List Char} {head tail : List UInt16}
      (htext : s.toList = front ++ ':' :: ':' :: back) (hfront : Side false front head)
      (hback : Side true back tail) (hlen : head.length + tail.length < 8)
      (hgroups : groups.toList = head ++ List.replicate (8 - head.length - tail.length) 0 ++ tail) :
      Spells s (.v6 groups)

/-! ## Quads -/

theorem octet?_eq_some {b : UInt8} : octet? cs = some b ↔ cs = Nat.toDigits 10 b.toNat := by
  have hb : b.toNat < 256 := b.toNat_lt
  unfold octet?
  constructor
  · intro h
    split_ifs at h with h1 h2 h3
    simp only [Bool.or_eq_true, List.isEmpty_iff, decide_eq_true_eq, Bool.not_eq_true',
      not_or, Bool.not_eq_false, List.all_eq_true] at h1
    have hvalue := numeral_digitsValue h1.1.1 h1.2
    have hbyte : digitsValue cs = b.toNat := by
      rw [← Option.some.inj h]
      simp
      omega
    rw [hbyte] at hvalue
    have hpos := List.length_pos_of_ne_nil h1.1.1
    refine hvalue.eq_toDigits ?_
    by_cases hlen : cs.length = 1
    · exact Or.inl hlen
    · exact Or.inr fun hzero => h2 ⟨by omega, hzero⟩
  · rintro rfl
    have hlen : (Nat.toDigits 10 b.toNat).length ≤ 3 :=
      (Nat.length_toDigits_le_iff (by decide) (by decide)).mpr (by omega)
    have hdigits := (numeral_toDigits 10 b.toNat).isDigit
    have hhead := @head?_toDigits 10 b.toNat (by decide) (by decide)
    have hempty : (Nat.toDigits 10 b.toNat).isEmpty = false := by simp [Nat.toDigits_ne_nil]
    have hall : (Nat.toDigits 10 b.toNat).all Char.isDigit = true := List.all_eq_true.mpr hdigits
    rw [hempty, hall, digitsValue_toDigits, if_neg (by simp; omega), if_neg (fun h => hhead h.1 h.2),
      if_pos (by omega)]
    simp

theorem mapM_eq_some_map {α β : Type} {f : α → Option β} {g : β → α}
    (h : ∀ a b, f a = some b ↔ a = g b) {as : List α} {bs : List β} :
    as.mapM f = some bs ↔ as = bs.map g := by
  induction as generalizing bs with
  | nil => cases bs <;> simp
  | cons a as ih =>
    rw [List.mapM_cons]
    cases bs with
    | nil => cases f a <;> cases as.mapM f <;> simp
    | cons b bs =>
      rw [List.map_cons, List.cons.injEq, ← h, ← ih]
      cases f a <;> cases as.mapM f <;> simp

theorem exactly?_eq_some {α : Type} {n : Nat} {as : List α} {v : Vector α n} :
    exactly? n as = some v ↔ as = v.toList := by
  unfold exactly?
  split_ifs with h
  · rw [Option.some.injEq, ← Vector.toList_inj]
    simp [Vector.toList]
  · simp only [false_iff]
    rintro rfl
    simp at h

theorem digits_free {base : Nat} {n : Nat} {c : Char} (hb : 1 < base) (hb' : base ≤ 16)
    (hc : ∀ d < 16, Nat.digitChar d ≠ c) : c ∉ Nat.toDigits base n := by
  obtain ⟨ds, hds, hlt, -⟩ := exists_toDigits hb n
  rw [hds]
  intro hmem
  obtain ⟨d, hd, rfl⟩ := List.mem_map.mp hmem
  exact hc d (Nat.lt_of_lt_of_le (hlt d hd) hb') rfl

theorem octets?_eq_some {o : Vector UInt8 4} : octets? cs = some o ↔ IsQuad cs o := by
  rw [octets?, IsQuad, Option.bind_eq_some_iff]
  simp only [mapM_eq_some_map fun _ _ => octet?_eq_some, exactly?_eq_some]
  constructor
  · rintro ⟨bs, hparts, rfl⟩
    rw [← hparts, joined_parts]
  · rintro rfl
    refine ⟨_, parts_joined ?_ ?_, rfl⟩
    · intro h
      have := congrArg List.length h
      simp at this
    · intro p hp
      obtain ⟨b, -, rfl⟩ := List.mem_map.mp hp
      exact digits_free (by decide) (by decide) (by decide)

theorem point_mem_of_quad {o : Vector UInt8 4} (h : IsQuad cs o) : '.' ∈ cs := by
  have hparts := octets?_eq_some.mpr h
  have hlen := length_parts '.' cs
  rw [h, parts_joined (by intro h; simpa using congrArg List.length h) ?_] at hlen
  · simp only [List.length_map, Vector.length_toList] at hlen
    rw [h]
    exact List.count_pos_iff.mp (by omega)
  · intro p hp
    obtain ⟨b, -, rfl⟩ := List.mem_map.mp hp
    exact digits_free (by decide) (by decide) (by decide)

theorem quad_free {o : Vector UInt8 4} {c : Char} (h : IsQuad cs o) (hpoint : c ≠ '.')
    (hc : ∀ d < 16, Nat.digitChar d ≠ c) : c ∉ cs := by
  rw [h]
  intro hmem
  rcases mem_of_mem_joined hmem with rfl | ⟨p, hp, hcp⟩
  · exact hpoint rfl
  · obtain ⟨b, -, rfl⟩ := List.mem_map.mp hp
    exact digits_free (by decide) (by decide) hc hcp

/-! ## Groups -/

theorem group?_eq_some {g : UInt16} : group? cs = some g ↔ IsGroup cs g := by
  have hg : g.toNat < 2 ^ 16 := g.toNat_lt
  unfold group? IsGroup
  constructor
  · intro h
    split_ifs at h with h1
    simp only [Bool.or_eq_true, List.isEmpty_iff, decide_eq_true_eq, not_or] at h1
    obtain ⟨ds, hds, hvalue⟩ := Option.map_eq_some_iff.mp h
    obtain ⟨hlt, hchars⟩ := mapM_hexDigit?.mp hds
    have hne : ds ≠ [] := by
      rintro rfl
      simp at hchars
      exact h1.1 hchars
    have hnumeral := numeral_map_digitChar (by decide) hne hlt
    have hlen : ds.length = cs.length := by simpa using (congrArg List.length hchars).symm
    have hbound := valueOf_lt hlt
    have hpow : 16 ^ ds.length ≤ 16 ^ 4 := Nat.pow_le_pow_right (by decide) (by omega)
    have hval : valueOf 16 ds = g.toNat := by
      rw [← hvalue]
      simp [valueOf] at hbound ⊢
      omega
    refine ⟨by omega, ?_⟩
    rwa [hchars, ← hval]
  · rintro ⟨hlen, hnumeral⟩
    obtain ⟨ds, hne, hlt, hchars, hvalue⟩ := (numeral_iff (by decide)).mp hnumeral
    have hcs : cs ≠ [] := by
      rintro rfl
      exact hnumeral.ne_nil rfl
    rw [if_neg (by simp [hcs]; omega), mapM_hexDigit?.mpr ⟨hlt, hchars⟩]
    simp only [Option.map_some, Option.some.injEq]
    rw [← UInt16.toNat_inj]
    simp [valueOf] at hvalue ⊢
    omega

theorem toLower_eq_of_group {g : UInt16} (h : IsGroup cs g) {c : Char} (hc : c ∈ cs) :
    ∃ d < 16, c.toLower = Nat.digitChar d := by
  obtain ⟨ds, -, hlt, hchars, -⟩ := (numeral_iff (by decide)).mp h.2
  have hmem : c.toLower ∈ ds.map Nat.digitChar := hchars ▸ List.mem_map_of_mem hc
  obtain ⟨d, hd, heq⟩ := List.mem_map.mp hmem
  exact ⟨d, hlt d hd, heq.symm⟩

theorem group_free {g : UInt16} (h : IsGroup cs g) {c : Char}
    (hc : ∀ d < 16, c.toLower ≠ Nat.digitChar d) : c ∉ cs := by
  intro hmem
  obtain ⟨d, hd, heq⟩ := toLower_eq_of_group h hmem
  exact hc d hd heq

theorem group_ne_nil {g : UInt16} (h : IsGroup cs g) : cs ≠ [] := by
  rintro rfl
  exact h.2.ne_nil rfl

theorem octets?_of_group {g : UInt16} (h : IsGroup cs g) : octets? cs = none := by
  rw [Option.eq_none_iff_forall_not_mem]
  intro o ho
  exact group_free h (by decide) (point_mem_of_quad (octets?_eq_some.mp ho))

theorem exists_four (o : Vector UInt8 4) : ∃ a b c d, o = #v[a, b, c, d] :=
  match o with
  | ⟨⟨[a, b, c, d]⟩, _⟩ => ⟨a, b, c, d, rfl⟩

theorem groupsOf?_quad {a b c d : UInt8} (h : octets? cs = some #v[a, b, c, d]) :
    groupsOf? [cs] = some [pair a b, pair c d] := by
  conv_lhs => whnf
  rw [h]
  rfl

theorem groupsOf?_group (h : octets? cs = none) : groupsOf? [cs] = (group? cs).map ([·]) := by
  conv_lhs => whnf
  rw [h]

theorem groupsOf?_more {ps : List (List Char)} (h : ps ≠ []) :
    groupsOf? (cs :: ps) = (do let g ← group? cs; let gs ← groupsOf? ps; some (g :: gs)) := by
  cases ps with
  | nil => contradiction
  | cons p ps => rfl

theorem groupsOf?_parts : groupsOf? (parts ':' cs) = some gs ↔ Groups true cs gs := by
  constructor
  · intro h
    rw [← joined_parts ':' cs]
    have hne := parts_ne_nil ':' cs
    revert h hne
    generalize parts ':' cs = ps
    intro h hne
    induction ps generalizing gs with
    | nil => contradiction
    | cons p ps ih =>
      by_cases hps : ps = []
      · subst hps
        cases ho : octets? p with
        | some o =>
          obtain ⟨a, b, c, d, rfl⟩ := exists_four o
          rw [groupsOf?_quad ho] at h
          obtain rfl := Option.some.inj h
          exact .quad rfl (octets?_eq_some.mp ho)
        | none =>
          rw [groupsOf?_group ho] at h
          obtain ⟨g, hg, rfl⟩ := Option.map_eq_some_iff.mp h
          exact .last (group?_eq_some.mp hg)
      · rw [groupsOf?_more hps] at h
        obtain ⟨g, hg, h⟩ := Option.bind_eq_some_iff.mp h
        obtain ⟨rest, hrest, h⟩ := Option.bind_eq_some_iff.mp h
        obtain rfl := Option.some.inj h
        rw [joined_cons hps]
        exact .more (group?_eq_some.mp hg) (ih hrest hps)
  · intro h
    induction h with
    | last hgroup =>
      rw [parts_of_free (group_free hgroup (by decide)), groupsOf?_group (octets?_of_group hgroup),
        group?_eq_some.mpr hgroup]
      rfl
    | quad hmixed hquad =>
      rw [parts_of_free (quad_free hquad (by decide) (by decide)),
        groupsOf?_quad (octets?_eq_some.mpr hquad)]
    | more hgroup _ ih =>
      rw [parts_append (group_free hgroup (by decide)), groupsOf?_more (parts_ne_nil _ _), ih,
        group?_eq_some.mpr hgroup]
      rfl

theorem Groups.ne_nil {mixed : Bool} (h : Groups mixed cs gs) : cs ≠ [] ∧ gs ≠ [] := by
  cases h with
  | last hgroup => exact ⟨group_ne_nil hgroup, by simp⟩
  | quad hmixed hquad => exact ⟨List.ne_nil_of_mem (point_mem_of_quad hquad), by simp⟩
  | more hgroup hrest => simp

theorem groups_false_iff : Groups false cs gs ↔ Groups true cs gs ∧ '.' ∉ cs := by
  constructor
  · intro h
    induction h with
    | last hgroup => exact ⟨.last hgroup, group_free hgroup (by decide)⟩
    | quad hmixed hquad => cases hmixed
    | more hgroup _ ih =>
      refine ⟨.more hgroup ih.1, ?_⟩
      simpa [ih.2] using group_free hgroup (by decide)
  · rintro ⟨h, hpoint⟩
    induction h with
    | last hgroup => exact .last hgroup
    | quad hmixed hquad => exact absurd (point_mem_of_quad hquad) hpoint
    | more hgroup _ ih => exact .more hgroup (ih (by simp_all))

theorem side?_eq_some : side? cs = some gs ↔ Side true cs gs := by
  unfold side?
  by_cases hcs : cs = []
  · subst hcs
    simp only [List.isEmpty_nil, if_true, Option.some.injEq]
    constructor
    · rintro rfl
      exact .nothing
    · intro h
      cases h with
      | nothing => rfl
      | groups h => exact absurd rfl h.ne_nil.1
  · rw [if_neg (by simpa using hcs), groupsOf?_parts]
    constructor
    · exact .groups
    · intro h
      cases h with
      | nothing => contradiction
      | groups h => exact h

theorem Side.groups_of_ne_nil {mixed : Bool} (h : Side mixed cs gs) (hne : gs ≠ []) :
    Groups mixed cs gs := by
  cases h with
  | nothing => contradiction
  | groups h => exact h

theorem side_false_iff : Side false cs gs ↔ Side true cs gs ∧ '.' ∉ cs := by
  constructor
  · intro h
    cases h with
    | nothing => exact ⟨.nothing, by simp⟩
    | groups h => exact ⟨.groups (groups_false_iff.mp h).1, (groups_false_iff.mp h).2⟩
  · rintro ⟨h, hpoint⟩
    cases h with
    | nothing => exact .nothing
    | groups h => exact .groups (groups_false_iff.mpr ⟨h, hpoint⟩)

/-! ## The double colon -/

theorem splitAtGap_append (h : ':' ∉ front) (cs : List Char) :
    splitAtGap (front ++ cs) = (splitAtGap cs).map fun (f, b) => (front ++ f, b) := by
  induction front with
  | nil => simp
  | cons c front ih =>
    rw [List.mem_cons, not_or] at h
    have hstep : splitAtGap (c :: (front ++ cs)) =
        (splitAtGap (front ++ cs)).map fun (f, b) => (c :: f, b) := by
      rw [splitAtGap]
      rintro cs' rfl
      exact absurd rfl h.1
    rw [List.cons_append, hstep, ih h.2, Option.map_map]
    rfl

theorem splitAtGap_colon (h : cs.head? ≠ some ':') :
    splitAtGap (':' :: cs) = (splitAtGap cs).map fun (f, b) => (':' :: f, b) := by
  rw [splitAtGap]
  rintro cs' - rfl
  exact h rfl

theorem eq_of_splitAtGap (h : splitAtGap cs = some (front, back)) :
    cs = front ++ ':' :: ':' :: back := by
  fun_induction splitAtGap cs generalizing front with
  | case1 cs =>
    cases h
    rfl
  | case2 c cs hc ih =>
    obtain ⟨⟨f, b⟩, hsplit, heq⟩ := Option.map_eq_some_iff.mp h
    cases heq
    rw [ih hsplit, List.cons_append]
  | case3 => cases h

theorem Groups.not_colon {mixed : Bool} (h : Groups mixed cs gs) (rest : List Char) :
    (cs ++ rest).head? ≠ some ':' := by
  have key : ∀ cs : List Char, cs ≠ [] → ':' ∉ cs → ∀ rest, (cs ++ rest).head? ≠ some ':' := by
    intro cs hne hfree rest
    cases cs with
    | nil => contradiction
    | cons c cs =>
      rw [List.mem_cons, not_or] at hfree
      simpa using Ne.symm hfree.1
  cases h with
  | last hgroup => exact key _ (group_ne_nil hgroup) (group_free hgroup (by decide)) rest
  | quad hmixed hquad =>
    exact key _ (List.ne_nil_of_mem (point_mem_of_quad hquad))
      (quad_free hquad (by decide) (by decide)) rest
  | more hgroup _ =>
    rw [List.append_assoc]
    exact key _ (group_ne_nil hgroup) (group_free hgroup (by decide)) _

/-- No double colon stands inside groups, so the first one is behind them. -/
theorem Groups.splitAtGap {mixed : Bool} (h : Groups mixed front gs) (cs : List Char) :
    Address.splitAtGap (front ++ cs) =
      (Address.splitAtGap cs).map fun (f, b) => (front ++ f, b) := by
  induction h with
  | last hgroup => exact splitAtGap_append (group_free hgroup (by decide)) cs
  | quad hmixed hquad => exact splitAtGap_append (quad_free hquad (by decide) (by decide)) cs
  | more hgroup hrest ih =>
    rw [List.append_assoc, splitAtGap_append (group_free hgroup (by decide)), List.cons_append,
      splitAtGap_colon (hrest.not_colon cs), ih, Option.map_map, Option.map_map]
    congr 1
    funext ⟨f, b⟩
    simp

theorem Side.splitAtGap {mixed : Bool} (h : Side mixed front gs) (back : List Char) :
    Address.splitAtGap (front ++ ':' :: ':' :: back) = some (front, back) := by
  have hgap : Address.splitAtGap (':' :: ':' :: back) = some ([], back) := rfl
  cases h with
  | nothing => exact hgap
  | groups h =>
    rw [h.splitAtGap, hgap]
    simp

theorem groups?_eq_some {groups : Vector UInt16 8} :
    groups? cs = some groups ↔
      Groups true cs groups.toList ∨
        ∃ front back head tail, cs = front ++ ':' :: ':' :: back ∧ Side false front head ∧
          Side true back tail ∧ head.length + tail.length < 8 ∧
          groups.toList = head ++ List.replicate (8 - head.length - tail.length) 0 ++ tail := by
  constructor
  · intro h
    unfold groups? at h
    split at h
    · obtain ⟨gs, hside, hgs⟩ := Option.bind_eq_some_iff.mp h
      rw [exactly?_eq_some.mp hgs, side?_eq_some] at hside
      refine Or.inl (hside.groups_of_ne_nil ?_)
      intro hnil
      simpa using congrArg List.length hnil
    · rename_i front back hsplit
      dsimp only at h
      split_ifs at h with hpoint
      · cases h
      obtain ⟨head, hhead, h⟩ := Option.bind_eq_some_iff.mp h
      obtain ⟨tail, htail, h⟩ := Option.bind_eq_some_iff.mp h
      split_ifs at h with hlen
      refine Or.inr ⟨front, back, head, tail, eq_of_splitAtGap hsplit, ?_, side?_eq_some.mp htail, hlen,
        (exactly?_eq_some.mp h).symm⟩
      exact side_false_iff.mpr ⟨side?_eq_some.mp hhead, by simpa using hpoint⟩
  · rintro (h | ⟨front, back, head, tail, rfl, hfront, hback, hlen, hgroups⟩)
    · have hsplit : splitAtGap cs = none := by
        have := h.splitAtGap []
        rwa [List.append_nil] at this
      unfold groups?
      rw [hsplit]
      dsimp only
      rw [side?_eq_some.mpr (.groups h), Option.bind_some, exactly?_eq_some.mpr rfl]
    · obtain ⟨hfront', hpoint⟩ := side_false_iff.mp hfront
      unfold groups?
      rw [hfront.splitAtGap]
      dsimp only
      rw [if_neg (by simpa using hpoint), side?_eq_some.mpr hfront', side?_eq_some.mpr hback]
      simp only [Option.bind_eq_bind, Option.bind_some]
      rw [if_pos hlen, exactly?_eq_some.mpr hgroups.symm]

theorem octets?_of_colon (h : ':' ∈ cs) : octets? cs = none := by
  rw [Option.eq_none_iff_forall_not_mem]
  intro o ho
  exact quad_free (octets?_eq_some.mp ho) (by decide) (by decide) h

theorem Groups.colon_mem (h : Groups true cs gs) (hlen : 2 < gs.length) : ':' ∈ cs := by
  cases h with
  | last => simp at hlen
  | quad => simp at hlen
  | more => simp

theorem parse?_iff {s : String} {a : Address} : parse? s = some a ↔ Spells s a := by
  unfold parse?
  constructor
  · intro h
    cases ho : octets? s.toList with
    | some o =>
      rw [ho] at h
      obtain rfl := Option.some.inj h
      exact .four (octets?_eq_some.mp ho)
    | none =>
      rw [ho] at h
      obtain ⟨groups, hgroups, rfl⟩ := Option.map_eq_some_iff.mp h
      rcases groups?_eq_some.mp hgroups with h | ⟨front, back, head, tail, htext, hfront, hback, hlen, h⟩
      · exact .six h
      · exact .gap htext hfront hback hlen h
  · intro h
    cases h with
    | four hquad => rw [octets?_eq_some.mpr hquad]
    | six hgroups =>
      rw [octets?_of_colon (hgroups.colon_mem (by simp)), groups?_eq_some.mpr (Or.inl hgroups)]
      rfl
    | gap htext hfront hback hlen hgroups =>
      have hcolon : ':' ∈ s.toList := by simp [htext]
      rw [octets?_of_colon hcolon,
        groups?_eq_some.mpr (Or.inr ⟨_, _, _, _, htext, hfront, hback, hlen, hgroups⟩)]
      rfl

/-! ## The canonical text -/

theorem toList_octetsText (o : List UInt8) :
    (octetsText o).toList = joined '.' (o.map fun b => Nat.toDigits 10 b.toNat) := by
  rw [octetsText, show "." = String.singleton '.' from rfl, toList_intercalate, List.map_map]
  congr 1
  apply List.map_congr_left
  intro b _
  simp

theorem toList_groupsText (gs : List UInt16) :
    (groupsText gs).toList = joined ':' (gs.map fun g => Nat.toDigits 16 g.toNat) := by
  rw [groupsText, show ":" = String.singleton ':' from rfl, toList_intercalate, List.map_map]
  congr 1
  apply List.map_congr_left
  intro g _
  simp

theorem isGroup_toDigits (g : UInt16) : IsGroup (Nat.toDigits 16 g.toNat) g := by
  have hg : g.toNat < 16 ^ 4 := g.toNat_lt
  refine ⟨(Nat.length_toDigits_le_iff (by decide) (by decide)).mpr hg, ?_⟩
  obtain ⟨ds, hds, hlt, -⟩ := @exists_toDigits 16 (by decide) g.toNat
  have hlower : ∀ d < 16, (Nat.digitChar d).toLower = Nat.digitChar d := by decide
  have hsame : (Nat.toDigits 16 g.toNat).map Char.toLower = Nat.toDigits 16 g.toNat := by
    rw [hds, List.map_map]
    exact List.map_congr_left fun d hd => hlower d (hlt d hd)
  rw [hsame]
  exact numeral_toDigits 16 g.toNat

theorem groups_groupsText {mixed : Bool} (h : gs ≠ []) : Groups mixed (groupsText gs).toList gs := by
  rw [toList_groupsText]
  induction gs with
  | nil => contradiction
  | cons g gs ih =>
    by_cases hgs : gs = []
    · subst hgs
      exact .last (isGroup_toDigits g)
    · rw [List.map_cons, joined_cons (by simpa using hgs)]
      exact .more (isGroup_toDigits g) (ih hgs)

theorem side_groupsText (mixed : Bool) (gs : List UInt16) : Side mixed (groupsText gs).toList gs := by
  by_cases h : gs = []
  · subst h
    exact .nothing
  · exact .groups (groups_groupsText h)

/-- The longer one of a run of zeros and the run from a place on. -/
def widerGap (gs : List UInt16) (best : Nat × Nat) (i : Nat) : Nat × Nat :=
  let run := zerosInFront (gs.drop i)
  if best.2 < run then (i, run) else best

theorem foldl_widerGap_zeros (is : List Nat) {best : Nat × Nat}
    (h : best.2 ≤ zerosInFront (gs.drop best.1)) :
    (is.foldl (widerGap gs) best).2 ≤ zerosInFront (gs.drop (is.foldl (widerGap gs) best).1) := by
  induction is generalizing best with
  | nil => exact h
  | cons i is ih =>
    rw [List.foldl_cons]
    apply ih
    unfold widerGap
    dsimp only
    split_ifs
    · exact Nat.le_refl _
    · exact h

theorem longestGap_zeros (gs : List UInt16) :
    (longestGap gs).2 ≤ zerosInFront (gs.drop (longestGap gs).1) :=
  foldl_widerGap_zeros (List.range gs.length) (Nat.zero_le _)

theorem eq_zeros_append {n : Nat} (h : n ≤ zerosInFront gs) :
    gs = List.replicate n 0 ++ gs.drop n := by
  induction n generalizing gs with
  | zero => rfl
  | succ n ih =>
    cases gs with
    | nil => simp [zerosInFront] at h
    | cons g gs =>
      have hg : g = 0 ∧ n ≤ zerosInFront gs := by
        unfold zerosInFront at h ⊢
        by_cases hg : g = 0
        · subst hg
          simpa using h
        · simp [hg] at h
      rw [List.replicate_succ, List.cons_append, List.drop_succ_cons, ← ih hg.2, hg.1]

theorem pair_split (g : UInt16) :
    pair (UInt8.ofNat (g.toNat / 256)) (UInt8.ofNat (g.toNat % 256)) = g := by
  have hg : g.toNat < 65536 := g.toNat_lt
  rw [pair, ← UInt16.toNat_inj]
  simp
  omega

theorem mapped?_eq_some {octets : List UInt8} (h : mapped? gs = some octets) :
    ∃ a b : UInt16, gs = [0, 0, 0, 0, 0, 0xFFFF, a, b] ∧
      octets = [UInt8.ofNat (a.toNat / 256), UInt8.ofNat (a.toNat % 256),
        UInt8.ofNat (b.toNat / 256), UInt8.ofNat (b.toNat % 256)] := by
  unfold mapped? at h
  split at h
  · rename_i a b
    exact ⟨a, b, rfl, (Option.some.inj h).symm⟩
  · cases h

theorem spells_mapped {groups : Vector UInt16 8} {octets : List UInt8}
    (h : mapped? groups.toList = some octets) : Spells ("::ffff:" ++ octetsText octets) (.v6 groups) := by
  obtain ⟨a, b, hgroups, rfl⟩ := mapped?_eq_some h
  have hquad : Groups true _ _ := .quad rfl (toList_octetsText (Vector.toList
    #v[UInt8.ofNat (a.toNat / 256), UInt8.ofNat (a.toNat % 256), UInt8.ofNat (b.toNat / 256),
      UInt8.ofNat (b.toNat % 256)]))
  have hback := Groups.more (isGroup_toDigits 0xFFFF) hquad
  refine .gap ?_ .nothing (.groups hback) (by simp) ?_
  · simp
    rfl
  · rw [hgroups]
    simp [pair_split]

theorem spells_text (a : Address) : Spells a.text a := by
  cases a with
  | v4 octets => exact .four (toList_octetsText octets.toList)
  | v6 groups =>
    unfold text
    dsimp only
    split
    · rename_i octets hoctets
      exact spells_mapped hoctets
    · split_ifs with hgap
      · -- The gap is a run of zeros, so the groups on its two sides leave it out.
        have hzeros := eq_zeros_append (longestGap_zeros groups.toList)
        set i := (longestGap groups.toList).1
        set n := (longestGap groups.toList).2
        rw [List.drop_drop] at hzeros
        have hall : groups.toList =
            groups.toList.take i ++ List.replicate n 0 ++ groups.toList.drop (i + n) := by
          rw [List.append_assoc, ← hzeros, List.take_append_drop]
        have hlen := congrArg List.length hall
        rw [List.length_append, List.length_append, List.length_replicate, Vector.length_toList] at hlen
        refine .gap ?_ (side_groupsText false (groups.toList.take i))
          (side_groupsText true (groups.toList.drop (i + n))) (by omega) ?_
        · simp
        · rw [show 8 - (groups.toList.take i).length - (groups.toList.drop (i + n)).length = n by omega]
          exact hall
      · refine .six (groups_groupsText ?_)
        intro hnil
        simpa using congrArg List.length hnil

theorem parse?_text (a : Address) : parse? a.text = some a := parse?_iff.mpr (spells_text a)

end Teleop.Address
