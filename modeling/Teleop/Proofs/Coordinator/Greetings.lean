import Mathlib.Data.List.Induction
import Mathlib.Data.List.Perm.Basic
import Teleop.Proofs.Coordinator.History

/-!
# Connections that the coordinator takes

A connection is taken to be turned away, or to be greeted if no session is on. Whoever is greeted
becomes a session or is let go.
-/

namespace Teleop

def CoordinatorPhase.guest? : CoordinatorPhase → Option Connection
  | greeting c => some c
  | _ => none

namespace World

variable {w : World} {e : Event} {s : LiveSession}

/-- The connection that an event takes from those that wait. -/
def taken? (w : World) (e : Event) : Option Connection :=
  if (w.step e).control.waiting.length < w.control.waiting.length then w.control.waiting.head?
  else none

/-- The connection that is taken while no session is on. -/
def greeted? (w : World) (e : Event) : Option Connection :=
  if w.phase.session?.isNone then w.taken? e else none

/-! ## Taking a connection -/

/-- How the coordinator takes a connection: to serve it, or to turn it away. -/
inductive Taking (w : World) (c : Connection) : World → Prop where
  | serves {rest : List Connection} (hphase : w.phase = .accepting) (hdown : w.shutdown = false)
      (hwaiting : w.control.waiting = c :: rest) :
    Taking w c { w with control := { w.control with waiting := rest }, phase := .greeting c }
  | turnsAway {s : LiveSession} {rest : List Connection} (hphase : w.phase = .serving s)
      (hdown : w.shutdown = false) (hlive : s.command.isLive = true)
      (hwaiting : w.control.waiting = c :: rest) :
    Taking w c
      { w with
        control := { w.control with waiting := rest }
        phase := .serving { s with rejections := s.rejections ++ [.start (.of c)] }
        summary := { w.summary with busyRejections := w.summary.busyRejections + 1 } }

theorem taking_of_taken {c : Connection} {e : Event} (h : w.taken? e = some c) :
    e = .coordinator ∧ Taking w c (w.step e) := by
  have hmove := move_step w e
  unfold taken? at h
  split at h
  · rename_i hlt
    generalize w.step e = w' at hmove hlt ⊢
    cases hmove with
    | controlArrives =>
      simp only [Listener.arrive, List.length_append] at hlt
      omega
    | task hs hmove hw =>
      rw [hw.waiting] at hlt
      exact absurd hlt (Nat.lt_irrefl _)
    | coordinates hmove =>
      refine ⟨rfl, ?_⟩
      cases hmove with
      | takes hphase hdown hwaiting =>
        rw [hwaiting] at h
        obtain rfl := Option.some.inj h
        exact .serves hphase hdown hwaiting
      | turnsAway hphase hdown hlive hwaiting =>
        rw [hwaiting] at h
        obtain rfl := Option.some.inj h
        exact .turnsAway hphase hdown hlive hwaiting
      | _ => exact absurd hlt (Nat.lt_irrefl _)
    | _ => exact absurd hlt (Nat.lt_irrefl _)
  · cases h

theorem taken_of_rest {c : Connection} {rest : List Connection} {e : Event}
    (hwaiting : w.control.waiting = c :: rest) (hrest : (w.step e).control.waiting = rest) :
    w.taken? e = some c := by
  have hlt : (w.step e).control.waiting.length < w.control.waiting.length := by
    rw [hrest, hwaiting, List.length_cons]
    omega
  rw [taken?, if_pos hlt, hwaiting, List.head?_cons]

theorem greeted_of_takes {c : Connection} {rest : List Connection} (hphase : w.phase = .accepting)
    (hdown : w.shutdown = false) (hwaiting : w.control.waiting = c :: rest) :
    w.greeted? .coordinator = some c := by
  have hstep : (w.step .coordinator).control.waiting = rest := by
    rw [step, coordinate, hphase]
    simp [hdown, hwaiting]
  have hfree : w.phase.session?.isNone = true := by rw [hphase]; rfl
  rw [greeted?, if_pos hfree, taken_of_rest hwaiting hstep]

theorem taken?_of_waiting (h : (w.step e).control.waiting = w.control.waiting) :
    w.taken? e = none := by
  rw [taken?, h, if_neg (Nat.lt_irrefl _)]

/-! ## What becomes of the connection that is greeted -/

/-- The connection that is let go before its session begins: its handshake failed, or the shutdown
signal came first. -/
def dropped? (w : World) (e : Event) : Option Connection :=
  match e, w.phase with
  | .coordinator, .greeting c =>
    if w.shutdown || c.handshake matches .refused _ then some c else none
  | _, _ => none

/-- What an event does to the connection that the coordinator greets: it comes, it becomes a
session, it is let go, or nothing changes. -/
inductive Greeting (w : World) (e : Event) (w' : World) : Prop where
  | stays (hgreeted : w.greeted? e = none) (hopened : w.opened? e = none)
      (hdropped : w.dropped? e = none) (hguest : w'.phase.guest? = w.phase.guest?)
  | comes {c : Connection} (hgreeted : w.greeted? e = some c) (hopened : w.opened? e = none)
      (hdropped : w.dropped? e = none) (hbefore : w.phase.guest? = none)
      (hguest : w'.phase.guest? = some c)
  | opens {c : Connection} (hgreeted : w.greeted? e = none) (hopened : w.opened? e = some c)
      (hdropped : w.dropped? e = none) (hbefore : w.phase.guest? = some c)
      (hguest : w'.phase.guest? = none)
  | goes {c : Connection} (hgreeted : w.greeted? e = none) (hopened : w.opened? e = none)
      (hdropped : w.dropped? e = some c) (hbefore : w.phase.guest? = some c)
      (hguest : w'.phase.guest? = none)

theorem greeted?_of_taken?_none (h : w.taken? e = none) : w.greeted? e = none := by
  rw [greeted?, h, ite_self]

theorem guest?_withSession (p : CoordinatorPhase) (s : LiveSession) :
    (p.withSession s).guest? = p.guest? := by
  cases p <;> rfl

theorem opened?_of_no_guest (h : w.phase.guest? = none) (e : Event) : w.opened? e = none := by
  cases hopened : w.opened? e with
  | none => rfl
  | some c =>
    rw [(opened?_eq_some.mp hopened).2.1] at h
    cases h

theorem dropped?_of_no_guest (h : w.phase.guest? = none) (e : Event) : w.dropped? e = none := by
  unfold dropped?
  split
  · rename_i hphase
    rw [hphase] at h
    cases h
  · rfl

theorem greeted?_of_on (h : w.phase.session? = some s) (e : Event) : w.greeted? e = none := by
  rw [greeted?, h]
  rfl

theorem guest?_of_on {p : CoordinatorPhase} (h : p.session? = some s) : p.guest? = none := by
  cases p with
  | greeting c => cases h
  | _ => rfl

theorem greeting_of_on {w' : World} (h : w.phase.session? = some s)
    (hguest : w'.phase.guest? = none) (e : Event) : Greeting w e w' := by
  have hbefore := guest?_of_on h
  exact .stays (greeted?_of_on h e) (opened?_of_no_guest hbefore e)
    (dropped?_of_no_guest hbefore e) (hguest.trans hbefore.symm)

theorem greeting_coordination {w' : World} (hstep : w.step .coordinator = w')
    (hmove : Coordination w w') : Greeting w .coordinator w' := by
  have hgreeted (hwaiting : w'.control.waiting = w.control.waiting) :
      w.greeted? .coordinator = none :=
    greeted?_of_taken?_none (taken?_of_waiting (by rw [hstep, hwaiting]))
  cases hmove with
  | waits hwaits =>
    refine .stays (hgreeted rfl) ?_ ?_ rfl <;> cases hphase : w.phase with
    | greeting c => simp_all [World.Waits, opened?, dropped?]
    | _ => simp [opened?, dropped?, hphase]
  | stops hphase =>
    have hbefore : w.phase.guest? = none := by rw [hphase]; rfl
    exact .stays (hgreeted rfl) (opened?_of_no_guest hbefore _) (dropped?_of_no_guest hbefore _)
      hbefore.symm
  | takes hphase hdown hwaiting =>
    have hbefore : w.phase.guest? = none := by rw [hphase]; rfl
    exact .comes (greeted_of_takes hphase hdown hwaiting) (opened?_of_no_guest hbefore _)
      (dropped?_of_no_guest hbefore _) hbefore rfl
  | @drops c hphase hlost =>
    have hopened : w.opened? .coordinator = none := by
      cases hopened : w.opened? .coordinator with
      | none => rfl
      | some c' =>
        obtain ⟨-, hphase', hdown, hdone⟩ := opened?_eq_some.mp hopened
        rw [hphase] at hphase'
        obtain rfl := CoordinatorPhase.greeting.inj hphase'
        rw [hdown, hdone] at hlost
        simp at hlost
    have hdropped : w.dropped? .coordinator = some c := by
      simp only [dropped?, hphase]
      rcases hlost with hdown | ⟨error, hrefused⟩
      · rw [hdown]
        rfl
      · rw [hrefused, Bool.or_true]
        rfl
    exact .goes (hgreeted rfl) hopened hdropped (by rw [hphase]; rfl) rfl
  | @opens c hphase hdown hdone =>
    have hdropped : w.dropped? .coordinator = none := by
      simp only [dropped?, hphase, hdown, hdone]
      rfl
    exact .opens (hgreeted rfl) (opened?_eq_some.mpr ⟨rfl, hphase, hdown, hdone⟩) hdropped
      (by rw [hphase]; rfl) rfl
  | joins hphase => exact greeting_of_on (by rw [hphase]; rfl) rfl _
  | dismisses hphase =>
    rcases hphase with hphase | hphase <;> exact greeting_of_on (by rw [hphase]; rfl) rfl _
  | turnsAway hphase => exact greeting_of_on (by rw [hphase]; rfl) rfl _
  | reaps hphase => exact greeting_of_on (by rw [hphase]; rfl) rfl _
  | drains hphase => exact greeting_of_on (by rw [hphase]; rfl) rfl _
  | concludes hphase => exact greeting_of_on (by rw [hphase]; rfl) rfl _

theorem greeting_step (w : World) (e : Event) : Greeting w e (w.step e) := by
  have hmove := move_step w e
  -- Only the coordinator takes, opens and drops connections.
  have hstays {w' : World} (hne : e ≠ .coordinator) (hguest : w'.phase.guest? = w.phase.guest?) :
      Greeting w e w' := by
    refine .stays ?_ ?_ ?_ hguest
    · cases htaken : w.taken? e with
      | none => exact greeted?_of_taken?_none htaken
      | some c => exact absurd (taking_of_taken htaken).1 hne
    · cases hopened : w.opened? e with
      | none => rfl
      | some c => exact absurd (opened?_eq_some.mp hopened).1 hne
    · unfold dropped?
      split
      · exact absurd rfl hne
      · rfl
  generalize hstep : w.step e = w' at hmove ⊢
  cases hmove with
  | coordinates hmove => exact greeting_coordination hstep hmove
  | givesUp hphase => exact hstays (by simp) (by rw [hphase]; rfl)
  | task hs hmove hw =>
    refine hstays (by simp) ?_
    rcases hw.past_or_on hs with ⟨-, -, -, hphase⟩ | ⟨-, -, -, hphase⟩
    · rw [hphase]
    · rw [hphase, guest?_withSession]
  | _ => exact hstays (by simp) rfl

theorem opened_sublist_greeted (w : World) (events : List Event) :
    (w.trace opened? events).Sublist (w.phase.guest?.toList ++ w.trace greeted? events) := by
  induction events generalizing w with
  | nil => exact List.nil_sublist _
  | cons e events ih =>
    have hrest := ih (w.step e)
    rw [trace, trace]
    cases greeting_step w e with
    | stays hgreeted hopened hdropped hguest => rwa [hgreeted, hopened, ← hguest]
    | comes hgreeted hopened hdropped hbefore hguest => rwa [hgreeted, hopened, hbefore, ← hguest]
    | opens hgreeted hopened hdropped hbefore hguest =>
      rw [hgreeted, hopened, hbefore]
      rw [hguest] at hrest
      exact hrest.cons_cons _
    | goes hgreeted hopened hdropped hbefore hguest =>
      rw [hgreeted, hopened]
      rw [hguest] at hrest
      exact hrest.trans (List.sublist_append_right _ _)

/-- Everyone who is greeted becomes a session, is let go, or is still there. -/
theorem greeted_perm (hguest : w.phase.guest? = none) (events : List Event) :
    (w.trace greeted? events).Perm
      (w.trace opened? events ++ w.trace dropped? events ++
        (w.run events).phase.guest?.toList) := by
  rw [List.perm_iff_count]
  intro c
  induction events using List.reverseRecOn with
  | nil => simp [trace, run, hguest]
  | append_singleton events e ih =>
    rw [trace_concat, trace_concat, trace_concat, run_concat]
    cases greeting_step (w.run events) e with
    | stays hgreeted hopened hdropped hguest => simpa [hgreeted, hopened, hdropped, hguest] using ih
    | comes hgreeted hopened hdropped hbefore hguest =>
      simp only [hgreeted, hopened, hdropped, hbefore, hguest, List.count_append,
        Option.toList_none, List.append_nil] at ih ⊢
      omega
    | opens hgreeted hopened hdropped hbefore hguest =>
      simp only [hgreeted, hopened, hdropped, hbefore, hguest, List.count_append,
        Option.toList_none, List.append_nil] at ih ⊢
      omega
    | goes hgreeted hopened hdropped hbefore hguest =>
      simp only [hgreeted, hopened, hdropped, hbefore, hguest, List.count_append,
        Option.toList_none, List.append_nil] at ih ⊢
      omega

end World

end Teleop
