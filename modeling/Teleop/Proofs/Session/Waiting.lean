import Mathlib.Data.List.Induction
import Teleop.Session.State

/-!
# Waiting for the end of a session

All handles on a session report the same flags: the last value that was set, and whether anybody
closed the session. A waiter knows of them what it finds when it is polled, and nothing else.
-/

namespace Teleop

/-! ## One waiter and its polls -/

namespace Waiter

/-- The polls of a waiter that finds these flags one after the other, with their answers. -/
def watch : Waiter → List SessionState → List (SessionState × Poll)
  | _, [] => []
  | w, s :: seen => (s, (w.poll s).1) :: (w.poll s).2.watch seen

/-- The waiter behind these polls. -/
def behind (w : Waiter) (seen : List SessionState) : Waiter :=
  seen.foldl (fun w s => (w.poll s).2) w

theorem behind_concat (w : Waiter) (seen : List SessionState) (s : SessionState) :
    w.behind (seen ++ [s]) = ((w.behind seen).poll s).2 := by
  simp [behind]

theorem watch_append (w : Waiter) (seen more : List SessionState) :
    w.watch (seen ++ more) = w.watch seen ++ (w.behind seen).watch more := by
  induction seen generalizing w with
  | nil => rfl
  | cons s seen ih =>
    rw [List.cons_append, watch, ih, watch, List.cons_append]
    rfl

theorem map_fst_watch (w : Waiter) (seen : List SessionState) :
    (w.watch seen).map Prod.fst = seen := by
  induction seen generalizing w with
  | nil => rfl
  | cons s seen ih => rw [watch, List.map_cons, ih]

theorem watch_split {w : Waiter} {seen : List SessionState}
    {before after : List (SessionState × Poll)} {s : SessionState} {a : Poll}
    (h : w.watch seen = before ++ (s, a) :: after) :
    before = w.watch (before.map Prod.fst) ∧ a = ((w.behind (before.map Prod.fst)).poll s).1 := by
  have hseen : seen = before.map Prod.fst ++ s :: after.map Prod.fst := by
    rw [← w.map_fst_watch seen, h]
    simp
  rw [hseen, watch_append, watch] at h
  obtain ⟨hbefore, htail⟩ := List.append_inj h (by
    rw [← List.length_map (f := Prod.fst), map_fst_watch, List.length_map])
  obtain ⟨hpoll, -⟩ := List.cons.inj htail
  exact ⟨hbefore.symm, (congrArg Prod.snd hpoll).symm⟩

end Waiter

/-! ## When a waiter is ready -/

/-- The last poll found the session closed. -/
def ClosedNow (seen : List SessionState) : Prop := ∃ s, seen.getLast? = some s ∧ s.closed = true

/-- One poll found the operator connected, and a later one did not. -/
def Fell (seen : List SessionState) : Prop :=
  ∃ s₁ s₂, [s₁, s₂].Sublist seen ∧ s₁.connected = true ∧ s₂.connected = false

/-- What makes a waiter for the end of a session ready. -/
def EndSeen (seen : List SessionState) : Prop := ClosedNow seen ∨ Fell seen

/-- A waiter with these polls is ready when it is due for the first time, by what its polls have
found up to then. -/
structure ReadyOnce (Due : List SessionState → Prop) (polls : List (SessionState × Poll)) :
    Prop where
  ready : ∀ before s a after, polls = before ++ (s, a) :: after →
    (∀ p ∈ before, p.2 ≠ .ready) → (a = .ready ↔ Due (before.map Prod.fst ++ [s]))
  pending : ∀ before s a after, polls = before ++ (s, a) :: after →
    (∀ p ∈ before, p.2 ≠ .ready) → a ≠ .ready → a = .pending
  done : ∀ before s a after, polls = before ++ (s, a) :: after →
    (∃ p ∈ before, p.2 = .ready) → a = .done

theorem ReadyOnce.ready_unready {Due : List SessionState → Prop}
    {polls before after : List (SessionState × Poll)} {s : SessionState} {a : Poll}
    (h : ReadyOnce Due polls) (hsplit : polls = before ++ (s, a) :: after) (ha : a = .ready) :
    ∀ p ∈ before, p.2 ≠ .ready := by
  intro p hp hready
  rw [h.done before s a after hsplit ⟨p, hp, hready⟩] at ha
  cases ha

theorem closedNow_concat (seen : List SessionState) (s : SessionState) :
    ClosedNow (seen ++ [s]) ↔ s.closed = true := by
  simp [ClosedNow]

theorem ReadyOnce.closed_first {polls before after : List (SessionState × Poll)}
    {s : SessionState} {a : Poll} (h : ReadyOnce ClosedNow polls)
    (hsplit : polls = before ++ (s, a) :: after) :
    a = .ready ↔ s.closed = true ∧ ∀ p ∈ before, p.1.closed = false := by
  constructor
  · intro ha
    have hnone := h.ready_unready hsplit ha
    refine ⟨(closedNow_concat _ s).mp ((h.ready before s a after hsplit hnone).mp ha), ?_⟩
    intro p hp
    obtain ⟨front, back, rfl⟩ := List.append_of_mem hp
    have hearlier : polls = front ++ p :: (back ++ (s, a) :: after) := by simp [hsplit]
    have hunready : p.2 ≠ .ready := hnone p (by simp)
    rw [Ne, h.ready front p.1 p.2 _ hearlier fun q hq => hnone q (List.mem_append_left _ hq),
      closedNow_concat] at hunready
    simpa using hunready
  · rintro ⟨hs, hopen⟩
    have hnone : ∀ p ∈ before, p.2 ≠ .ready := by
      intro p hp hready
      obtain ⟨front, back, rfl⟩ := List.append_of_mem hp
      have hearlier : polls = front ++ p :: (back ++ (s, a) :: after) := by simp [hsplit]
      have hclosed := (h.ready front p.1 p.2 _ hearlier
        (h.ready_unready hearlier hready)).mp hready
      rw [closedNow_concat, hopen p (by simp)] at hclosed
      cases hclosed
    exact (h.ready before s a after hsplit hnone).mpr ((closedNow_concat _ s).mpr hs)

/-- Nothing was due yet. -/
def Quiet (Due : List SessionState → Prop) (seen : List SessionState) : Prop :=
  ∀ front, front ≠ [] → front <+: seen → ¬ Due front

theorem quiet_concat {Due : List SessionState → Prop} {seen : List SessionState} {s : SessionState}
    (h : Quiet Due seen) (hdue : ¬ Due (seen ++ [s])) : Quiet Due (seen ++ [s]) := by
  intro front hne hfront
  rcases List.prefix_concat_iff.mp hfront with rfl | hfront
  · exact hdue
  · exact h front hne hfront

/-- `phase` says where the waiter is as long as nothing was due. -/
structure Awaits (w : Waiter) (Due : List SessionState → Prop)
    (phase : List SessionState → Waiter) : Prop where
  begins : phase [] = w
  due : ∀ seen s, Quiet Due seen → Due (seen ++ [s]) → (phase seen).poll s = (.ready, .resolved)
  goesOn : ∀ seen s, Quiet Due seen → ¬ Due (seen ++ [s]) →
    (phase seen).poll s = (.pending, phase (seen ++ [s]))

namespace Awaits

variable {w : Waiter} {Due : List SessionState → Prop} {phase : List SessionState → Waiter}

theorem cases (h : Awaits w Due phase) (seen : List SessionState) :
    (Quiet Due seen ∧ w.behind seen = phase seen ∧ ∀ p ∈ w.watch seen, p.2 = .pending) ∨
      w.behind seen = .resolved ∧ ∃ p ∈ w.watch seen, p.2 = .ready := by
  induction seen using List.reverseRecOn with
  | nil =>
    refine Or.inl ⟨fun front hne hfront => absurd (List.prefix_nil.mp hfront) hne,
      h.begins.symm, ?_⟩
    simp [Waiter.watch]
  | append_singleton seen s ih =>
    rw [Waiter.behind_concat, Waiter.watch_append]
    rcases ih with ⟨hquiet, hphase, hpending⟩ | ⟨hresolved, p, hp, hready⟩
    · rw [hphase]
      by_cases hdue : Due (seen ++ [s])
      · refine Or.inr ⟨by rw [h.due seen s hquiet hdue], (s, .ready), ?_, rfl⟩
        simp [Waiter.watch, h.due seen s hquiet hdue]
      · refine Or.inl ⟨quiet_concat hquiet hdue, by rw [h.goesOn seen s hquiet hdue], ?_⟩
        intro p hp
        rcases List.mem_append.mp hp with hp | hp
        · exact hpending p hp
        · obtain rfl : p = (s, .pending) := by
            simpa [Waiter.watch, h.goesOn seen s hquiet hdue] using hp
          rfl
    · rw [hresolved]
      exact Or.inr ⟨rfl, p, List.mem_append_left _ hp, hready⟩

theorem unresolved (h : Awaits w Due phase) {seen : List SessionState}
    (hnone : ∀ p ∈ w.watch seen, p.2 ≠ .ready) : Quiet Due seen ∧ w.behind seen = phase seen := by
  rcases h.cases seen with ⟨hquiet, hphase, -⟩ | ⟨-, p, hp, hready⟩
  · exact ⟨hquiet, hphase⟩
  · exact absurd hready (hnone p hp)

theorem ready_next (h : Awaits w Due phase) {seen : List SessionState} {s : SessionState}
    (hnone : ∀ p ∈ w.watch seen, p.2 ≠ .ready) (hdue : Due (seen ++ [s])) :
    ((w.behind seen).poll s).1 = .ready := by
  obtain ⟨hquiet, hphase⟩ := h.unresolved hnone
  rw [hphase, h.due seen s hquiet hdue]

theorem readyOnce (h : Awaits w Due phase) (seen : List SessionState) :
    ReadyOnce Due (w.watch seen) := by
  refine ⟨?_, ?_, ?_⟩
  · intro before s a after hsplit hnone
    obtain ⟨hbefore, ha⟩ := Waiter.watch_split hsplit
    rw [hbefore] at hnone
    obtain ⟨hquiet, hphase⟩ := h.unresolved hnone
    rw [ha, hphase]
    by_cases hdue : Due (before.map Prod.fst ++ [s])
    · simp [h.due _ s hquiet hdue, hdue]
    · simp [h.goesOn _ s hquiet hdue, hdue]
  · intro before s a after hsplit hnone hready
    obtain ⟨hbefore, ha⟩ := Waiter.watch_split hsplit
    rw [hbefore] at hnone
    obtain ⟨hquiet, hphase⟩ := h.unresolved hnone
    rw [ha, hphase] at hready ⊢
    by_cases hdue : Due (before.map Prod.fst ++ [s])
    · simp [h.due _ s hquiet hdue] at hready
    · rw [h.goesOn _ s hquiet hdue]
  · rintro before s a after hsplit ⟨p, hp, hready⟩
    obtain ⟨hbefore, ha⟩ := Waiter.watch_split hsplit
    rw [hbefore] at hp
    rcases h.cases (before.map Prod.fst) with ⟨-, -, hpending⟩ | ⟨hresolved, -⟩
    · rw [hpending p hp] at hready
      cases hready
    · rw [ha, hresolved]
      rfl

end Awaits

/-! ### The two kinds -/

theorem fell_concat (seen : List SessionState) (s : SessionState) :
    Fell (seen ++ [s]) ↔
      Fell seen ∨ (∃ s₁ ∈ seen, s₁.connected = true) ∧ s.connected = false := by
  constructor
  · rintro ⟨s₁, s₂, hsub, hup, hdown⟩
    obtain ⟨front, back, hsplit, hfront, hback⟩ := List.sublist_append_iff.mp hsub
    rcases List.sublist_cons_iff.mp hback with hnil | ⟨rest, rfl, hrest⟩
    · rw [List.sublist_nil.mp hnil, List.append_nil] at hsplit
      exact Or.inl ⟨s₁, s₂, hsplit ▸ hfront, hup, hdown⟩
    · rw [List.sublist_nil.mp hrest] at hsplit
      replace hsplit : [s₁] ++ [s₂] = front ++ [s] := hsplit
      obtain ⟨rfl, hs⟩ := List.append_inj' hsplit rfl
      obtain rfl : s₂ = s := List.singleton_inj.mp hs
      exact Or.inr ⟨⟨s₁, List.singleton_sublist.mp hfront, hup⟩, hdown⟩
  · rintro (⟨s₁, s₂, hsub, hup, hdown⟩ | ⟨⟨s₁, hs₁, hup⟩, hdown⟩)
    · exact ⟨s₁, s₂, hsub.trans (List.sublist_append_left seen [s]), hup, hdown⟩
    · exact ⟨s₁, s, (List.singleton_sublist.mpr hs₁).append (List.Sublist.refl [s]), hup, hdown⟩

theorem not_endSeen_nil : ¬ EndSeen [] := by
  rintro (⟨s, hs, -⟩ | ⟨s₁, s₂, hsub, -⟩)
  · cases hs
  · cases List.sublist_nil.mp hsub

theorem Quiet.not_fell {seen : List SessionState} (h : Quiet EndSeen seen) : ¬ Fell seen := by
  intro hfell
  refine h seen ?_ List.prefix_rfl (Or.inr hfell)
  rintro rfl
  exact not_endSeen_nil (Or.inr hfell)

theorem awaits_ended :
    Awaits (.ended false) EndSeen (fun seen => .ended (seen.any (·.connected))) := by
  have hdue : ∀ seen s, Quiet EndSeen seen → (EndSeen (seen ++ [s]) ↔
      (s.closed || (seen.any (·.connected) && !s.connected)) = true) := by
    intro seen s hquiet
    simp [EndSeen, closedNow_concat, fell_concat, hquiet.not_fell]
  refine ⟨rfl, ?_, ?_⟩
  · intro seen s hquiet h
    rw [Waiter.poll, if_pos ((hdue seen s hquiet).mp h)]
  · intro seen s hquiet h
    rw [Waiter.poll, if_neg (mt (hdue seen s hquiet).mpr h), List.any_append]
    simp

theorem awaits_closing : Awaits .closing ClosedNow (fun _ => .closing) := by
  refine ⟨rfl, ?_, ?_⟩
  · intro seen s _ h
    rw [Waiter.poll, if_pos ((closedNow_concat seen s).mp h)]
  · intro seen s _ h
    rw [Waiter.poll, if_neg (mt (closedNow_concat seen s).mpr h)]

end Teleop
