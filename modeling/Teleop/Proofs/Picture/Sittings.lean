import Teleop.Picture.Sitting
import Teleop.Proofs.Picture.Deals

/-!
# The image channel over a whole sitting

Connections arrive, the flags of the session change and the service runs, in any order. The service
deals with one connection after the other, and looks for the end of the session before it takes
another one.
-/

namespace Teleop

/-! ## Occasions -/

namespace Sitting

inductive Occasion where
  | arrives (c : Connection)
  | sets (connected : Bool)
  | closes
  /-- The service goes on to its next wait. -/
  | runs
deriving DecidableEq, Repr

def Occasion.connection? : Occasion → Option Connection
  | .arrives c => some c
  | .sets _ | .closes | .runs => none

/-- The connections that arrive, in order. -/
def arrivals (occasions : List Occasion) : List Connection :=
  occasions.filterMap Occasion.connection?

def occur (x : Sitting) : Occasion → Sitting
  | .arrives c => { x with listener := x.listener.arrive c, connections := x.connections + 1 }
  | .sets connected => { x with session := x.session.setConnected connected }
  | .closes => { x with session := x.session.close }
  | .runs =>
    let (service, listener, session, studio) := x.service.step x.listener x.session x.studio
    { x with service, listener, session, studio }

theorem arrivals_concat (occasions : List Occasion) (o : Occasion) :
    arrivals (occasions ++ [o]) = arrivals occasions ++ o.connection?.toList := by
  rw [arrivals, List.filterMap_append, arrivals]
  cases o <;> rfl

theorem occur_aside (x : Sitting) {o : Occasion} (ho : o ≠ .runs) :
    (x.occur o).service = x.service ∧ (x.occur o).studio = x.studio ∧
      (x.occur o).listener.released = x.listener.released ∧
        (x.occur o).listener.waiting = x.listener.waiting ++ o.connection?.toList := by
  cases o with
  | runs => exact absurd rfl ho
  | arrives c => exact ⟨rfl, rfl, rfl, rfl⟩
  | sets _ | closes => exact ⟨rfl, rfl, rfl, (List.append_nil _).symm⟩

def after (x : Sitting) (occasions : List Occasion) : Sitting := occasions.foldl occur x

/-- The flags that the service finds when it runs in such a phase. -/
def flagsAt (p : ServicePhase → Bool) : Sitting → List Occasion → List SessionState
  | _, [] => []
  | x, o :: rest =>
    (if o = .runs ∧ p x.service.phase = true then [x.session] else [])
      ++ flagsAt p (x.occur o) rest

theorem after_append (x : Sitting) (occasions more : List Occasion) :
    x.after (occasions ++ more) = (x.after occasions).after more :=
  List.foldl_append

theorem after_concat (x : Sitting) (occasions : List Occasion) (o : Occasion) :
    x.after (occasions ++ [o]) = (x.after occasions).occur o :=
  after_append x occasions [o]

theorem flagsAt_concat (p : ServicePhase → Bool) (x : Sitting) (occasions : List Occasion)
    (o : Occasion) :
    x.flagsAt p (occasions ++ [o]) = x.flagsAt p occasions ++
      if o = .runs ∧ p (x.after occasions).service.phase = true then [(x.after occasions).session]
      else [] := by
  induction occasions generalizing x with
  | nil =>
    simp only [List.nil_append, flagsAt, List.append_nil]
    rfl
  | cons first rest ih =>
    rw [List.cons_append, flagsAt, ih, flagsAt, List.append_assoc]
    rfl

section

variable {p : ServicePhase → Bool} {x : Sitting} {occasions : List Occasion}

theorem flagsAt_aside {o : Occasion} (ho : o ≠ .runs) :
    x.flagsAt p (occasions ++ [o]) = x.flagsAt p occasions := by
  rw [flagsAt_concat, if_neg (fun h => ho h.1), List.append_nil]

theorem flagsAt_runs (h : p (x.after occasions).service.phase = true) :
    x.flagsAt p (occasions ++ [.runs]) =
      x.flagsAt p occasions ++ [(x.after occasions).session] := by
  rw [flagsAt_concat, if_pos ⟨rfl, h⟩]

theorem flagsAt_elsewhere (h : p (x.after occasions).service.phase = false) (o : Occasion) :
    x.flagsAt p (occasions ++ [o]) = x.flagsAt p occasions := by
  rw [flagsAt_concat, if_neg (fun hruns => by simp [h] at hruns), List.append_nil]

end

theorem settle_eq_after (fuel : Nat) (x : Sitting) :
    ∃ k, x.settle fuel = x.after (List.replicate k .runs) := by
  induction fuel generalizing x with
  | zero => exact ⟨0, rfl⟩
  | succ fuel ih =>
    rw [settle]
    split
    · obtain ⟨k, hk⟩ := ih (x.occur .runs)
      exact ⟨k + 1, hk⟩
    · exact ⟨0, rfl⟩

end Sitting

namespace ServicePhase

def isWaiting : ServicePhase → Bool
  | waiting => true
  | _ => false

def isServing : ServicePhase → Bool
  | serving .. => true
  | _ => false

def isFinished : ServicePhase → Bool
  | finished => true
  | _ => false

theorem isFinished_iff {p : ServicePhase} : p.isFinished = true ↔ p = finished := by
  cases p <;> simp [isFinished]

/-- The service has no connection in hand. -/
def isIdle : ServicePhase → Bool
  | waiting | finished => true
  | greeting _ | serving .. | closing .. => false

end ServicePhase

namespace Sitting

/-- The flags found at the points where the service may take a connection. -/
def looks (x : Sitting) (occasions : List Occasion) : List SessionState :=
  x.flagsAt ServicePhase.isWaiting occasions

/-- The flags found by the steps of the requests. -/
def glances (x : Sitting) (occasions : List Occasion) : List SessionState :=
  x.flagsAt ServicePhase.isServing occasions

/-! ## What one run does -/

/-- All that a run of the service can do. -/
inductive Move (x : Sitting) : Sitting → Prop where
  | waits {w : Waiter} (hphase : x.service.phase = .waiting)
      (hpoll : x.service.waiter.poll x.session = (.pending, w)) (hnone : x.listener.waiting = []) :
      Move x { x with service := { x.service with waiter := w, phase := .waiting } }
  | takes {w : Waiter} {c : Connection} {rest : List Connection}
      (hphase : x.service.phase = .waiting)
      (hpoll : x.service.waiter.poll x.session = (.pending, w))
      (hwaiting : x.listener.waiting = c :: rest) :
      Move x { x with
        service := { x.service with waiter := w, phase := .greeting c }
        listener := { x.listener with waiting := rest } }
  | ends {a : Poll} {w : Waiter} (hphase : x.service.phase = .waiting)
      (hpoll : x.service.waiter.poll x.session = (a, w)) (ha : a ≠ .pending) :
      Move x { x with service := { x.service with waiter := w, phase := .finished } }
  | stalls {c : Connection} (hphase : x.service.phase = .greeting c)
      (hc : c.handshake = .pending) : Move x x
  | refuses {c : Connection} {e : StreamError} (hphase : x.service.phase = .greeting c)
      (hc : c.handshake = .refused e) :
      Move x { x with
        service := { x.service with
          phase := .waiting
          notices := x.service.notices ++ [.imageHandshakeFailed e] }
        listener := x.listener.release c }
  | opens {c : Connection} (hphase : x.service.phase = .greeting c) (hc : c.handshake = .done) :
      Move x { x with
        service := { x.service with
          phase := .serving c.id { channel := { stream := c.stream } }
          report := { x.service.report with requests := x.service.report.requests + 1 } } }
  | serves {id : Nat} {r : Request} (hphase : x.service.phase = .serving id r)
      (hresult : (r.step x.session x.studio).1.result? = none) :
      Move x { x with
        service := { x.service with phase := .serving id (r.step x.session x.studio).1 }
        session := (r.step x.session x.studio).2.1
        studio := (r.step x.session x.studio).2.2 }
  | concludes {id : Nat} {r : Request} {result : Except PictureError Transfer}
      (hphase : x.service.phase = .serving id r)
      (hresult : (r.step x.session x.studio).1.result? = some result) :
      Move x { x with
        service := x.service.conclude id (r.step x.session x.studio).1.channel result
        session := (r.step x.session x.studio).2.1
        studio := (r.step x.session x.studio).2.2 }
  | releases {id : Nat} {c : Channel} (hphase : x.service.phase = .closing id c) :
      Move x { x with
        service := { x.service with phase := .waiting }
        listener := x.listener.release { id, stream := c.shutdown.2.stream } }
  | rests (hphase : x.service.phase = .finished) : Move x x

theorem move (x : Sitting) : x.Move (x.occur .runs) := by
  rw [occur, Service.step]
  cases hphase : x.service.phase with
  | waiting =>
    rcases hpoll : x.service.waiter.poll x.session with ⟨a, w⟩
    cases a with
    | pending =>
      cases hwaiting : x.listener.waiting with
      | nil => exact .waits hphase hpoll hwaiting
      | cons c rest => exact .takes hphase hpoll hwaiting
    | ready | done => exact .ends hphase hpoll (by simp)
  | greeting c =>
    dsimp only
    cases hc : c.handshake with
    | pending => exact .stalls hphase hc
    | refused e => exact .refuses hphase hc
    | done => exact .opens hphase hc
  | serving id r =>
    dsimp only
    cases hresult : (r.step x.session x.studio).1.result? with
    | none => exact .serves hphase hresult
    | some result => exact .concludes hphase hresult
  | closing id c => exact .releases hphase
  | finished => exact .rests hphase

/-! ## The connection in hand -/

/-- What has come so far of a connection that was taken and not let go yet. -/
structure Hand where
  taken : List Connection := []
  /-- Its handshake is done. -/
  opened : List Connection := []
  found : List SessionState := []
  results : List (Except PictureError Transfer) := []

/-- What the service has in hand in a phase, if it was `begun` with this studio. -/
inductive InHand (begun : Studio) : ServicePhase → Studio → Hand → Prop where
  | waiting : InHand begun .waiting begun {}
  | finished : InHand begun .finished begun {}
  | greeting (c : Connection) : InHand begun (.greeting c) begun { taken := [c] }
  | serving {c : Connection} {found : List SessionState} {r : Request} {studio : Studio}
      (hc : c.handshake = .done) (h : Request.Midway c begun found r studio) :
      InHand begun (.serving c.id r) studio { taken := [c], opened := [c], found }
  | closing {c : Connection} (found : List SessionState) (hc : c.handshake = .done) :
      InHand begun (.closing c.id (c.serve found begun).channel) (c.serve found begun).studio
        { taken := [c], opened := [c], found, results := [(c.serve found begun).result] }

theorem InHand.length_taken {begun studio : Studio} {p : ServicePhase} {hand : Hand}
    (h : InHand begun p studio hand) : hand.taken.length ≤ 1 := by
  cases h <;> simp

theorem InHand.eq_empty {begun studio : Studio} {p : ServicePhase} {hand : Hand}
    (h : InHand begun p studio hand) (hidle : p.isIdle = true) : hand = {} := by
  cases h with
  | waiting | finished => rfl
  | greeting _ | serving _ _ | closing _ _ => cases hidle

/-- What the service has done with the connections: the ones it has dealt with, the one in hand and
the ones that wait are all there were, in order. -/
structure Account (x : Sitting) (occasions : List Occasion) (deals : List Deal) (begun : Studio)
    (hand : Hand) : Prop where
  dealt : Dealt x.studio deals begun
  inHand : InHand begun (x.after occasions).service.phase (x.after occasions).studio hand
  order : x.listener.waiting ++ arrivals occasions =
    deals.map Deal.connection ++ hand.taken ++ (x.after occasions).listener.waiting
  released : (x.after occasions).listener.released =
    x.listener.released ++ deals.map Deal.released
  found : x.glances occasions = deals.flatMap Deal.found ++ hand.found
  requests : (x.after occasions).service.report.requests =
    (deals.map Deal.connection ++ hand.opened).countP (·.handshake == .done)
  counts : (x.after occasions).service.report.Counts
    ((deals.filterMap Deal.result? ++ hand.results).filterMap sentSize?)

namespace Account

variable {x : Sitting} {occasions : List Occasion} {deals : List Deal} {begun : Studio}
  {hand : Hand}

theorem aside (h : x.Account occasions deals begun hand) {o : Occasion} (ho : o ≠ .runs) :
    x.Account (occasions ++ [o]) deals begun hand := by
  obtain ⟨hservice, hstudio, hreleased, hwaiting⟩ := (x.after occasions).occur_aside ho
  rw [← after_concat] at hservice hstudio hreleased hwaiting
  refine ⟨h.dealt, ?_, ?_, ?_, ?_, ?_, ?_⟩
  · rw [hservice, hstudio]
    exact h.inHand
  · rw [hwaiting, arrivals_concat, ← List.append_assoc, ← List.append_assoc, ← h.order]
  · rw [hreleased, h.released]
  · rw [glances, flagsAt_aside ho]
    exact h.found
  · rw [hservice, h.requests]
  · rw [hservice]
    exact h.counts

theorem next (h : x.Account occasions deals begun hand) {y : Sitting} {deals' : List Deal}
    {begun' : Studio} {hand' : Hand} (hy : (x.after occasions).occur .runs = y)
    (hdealt : Dealt x.studio deals' begun') (hin : InHand begun' y.service.phase y.studio hand')
    (horder : deals.map Deal.connection ++ hand.taken ++ (x.after occasions).listener.waiting =
      deals'.map Deal.connection ++ hand'.taken ++ y.listener.waiting)
    (hreleased : y.listener.released = x.listener.released ++ deals'.map Deal.released)
    (hfound : deals.flatMap Deal.found ++ hand.found ++
        (if (x.after occasions).service.phase.isServing = true then [(x.after occasions).session]
          else []) = deals'.flatMap Deal.found ++ hand'.found)
    (hrequests : y.service.report.requests =
      (deals'.map Deal.connection ++ hand'.opened).countP (·.handshake == .done))
    (hcounts : y.service.report.Counts
      ((deals'.filterMap Deal.result? ++ hand'.results).filterMap sentSize?)) :
    x.Account (occasions ++ [.runs]) deals' begun' hand' := by
  rw [← after_concat] at hy
  refine ⟨hdealt, ?_, ?_, ?_, ?_, ?_, ?_⟩
  · rw [hy]
    exact hin
  · rw [hy, ← horder, ← h.order, arrivals_concat]
    exact congrArg _ (List.append_nil _)
  · rw [hy, hreleased]
  · rw [glances, flagsAt_concat, ← hfound, ← h.found]
    simp [glances]
  · rw [hy, hrequests]
  · rw [hy]
    exact hcounts

theorem runs (h : x.Account occasions deals begun hand) :
    ∃ deals' begun' hand', x.Account (occasions ++ [.runs]) deals' begun' hand' := by
  have hin := h.inHand
  have hreleased := h.released
  have hrequests := h.requests
  have hcounts := h.counts
  have hmove := (x.after occasions).move
  generalize hstudio : (x.after occasions).studio = studio at hin
  generalize hy : (x.after occasions).occur .runs = y at hmove
  cases hmove with
  | waits hphase hpoll hnone =>
    rw [hphase] at hin
    cases hin
    exact ⟨_, _, {}, h.next hy h.dealt (hstudio ▸ .waiting) rfl hreleased
      (by simp [hphase, ServicePhase.isServing]) hrequests hcounts⟩
  | takes hphase hpoll hwaiting =>
    rw [hphase] at hin
    cases hin
    rename_i c rest
    exact ⟨_, _, { taken := [c] }, h.next hy h.dealt (hstudio ▸ .greeting _) (by simp [hwaiting])
      hreleased (by simp [hphase, ServicePhase.isServing]) hrequests hcounts⟩
  | ends hphase hpoll ha =>
    rw [hphase] at hin
    cases hin
    exact ⟨_, _, {}, h.next hy h.dealt (hstudio ▸ .finished) rfl hreleased
      (by simp [hphase, ServicePhase.isServing]) hrequests hcounts⟩
  | stalls hphase hc =>
    rw [hphase] at hin
    cases hin
    exact ⟨_, _, _, h.next hy h.dealt (by rw [hphase, hstudio]; exact .greeting _) rfl hreleased
      (by simp [hphase, ServicePhase.isServing]) hrequests hcounts⟩
  | refuses hphase hc =>
    rw [hphase] at hin
    cases hin
    exact ⟨_, _, {}, h.next hy (h.dealt.refused hc) (hstudio ▸ .waiting)
      (by simp [Deal.connection, Listener.release])
      (by simp [Listener.release, hreleased, Deal.released])
      (by simp [hphase, ServicePhase.isServing, Deal.found])
      (by simpa [Deal.connection, hc] using hrequests)
      (by simpa [List.filterMap_cons, Deal.result?] using hcounts)⟩
  | opens hphase hc =>
    rw [hphase] at hin
    cases hin
    rename_i c
    exact ⟨_, _, { taken := [c], opened := [c] },
      h.next hy h.dealt (hstudio ▸ .serving hc (Request.midway_begin _ _)) rfl hreleased
      (by simp [hphase, ServicePhase.isServing])
      (by simp [hc, hrequests]) ⟨hcounts.pictures, hcounts.bytes⟩⟩
  | serves hphase hresult =>
    rw [hphase] at hin
    cases hin with
    | serving hc hmid =>
      subst hstudio
      exact ⟨_, _, _, h.next hy h.dealt (.serving hc (hmid.step hresult)) rfl
        hreleased (by simp [hphase, ServicePhase.isServing])
        (by simpa [hc] using hrequests) hcounts⟩
  | concludes hphase hresult =>
    rw [hphase] at hin
    cases hin with
    | serving hc hmid =>
      subst hstudio
      rename_i result c found
      have hserve := hmid.serve hresult
      have hsizes : [result].filterMap sentSize? = (sentSize? result).toList := by
        cases hsize : sentSize? result <;> simp [hsize]
      have hclosing : InHand begun _ _ _ := .closing (found ++ [(x.after occasions).session]) hc
      rw [hserve] at hclosing
      refine ⟨_, _, _, h.next hy h.dealt hclosing rfl hreleased
        (by simp [hphase, ServicePhase.isServing]) ?_ ?_⟩
      · exact (Service.requests_count _ _).trans hrequests
      · rw [List.append_nil] at hcounts
        rw [List.filterMap_append, hsizes]
        exact ServiceReport.counts_count hcounts result
  | releases hphase =>
    rw [hphase] at hin
    cases hin with
    | closing found hc =>
      rename_i c
      exact ⟨_, _, {}, h.next hy (h.dealt.served found hc) (hstudio ▸ .waiting)
        (by simp [Deal.connection, Listener.release])
        (by simp [Listener.release, hreleased, Deal.released])
        (by simp [hphase, ServicePhase.isServing, Deal.found])
        (by simpa [Deal.connection] using hrequests)
        (by simpa [List.filterMap_cons, Deal.result?] using hcounts)⟩
  | rests hphase =>
    rw [hphase] at hin
    cases hin
    exact ⟨_, _, {}, h.next hy h.dealt (by rw [hphase, hstudio]; exact .finished) rfl hreleased
      (by simp [hphase, ServicePhase.isServing]) hrequests hcounts⟩

end Account

theorem account {x : Sitting} (hx : x.service = {}) (occasions : List Occasion) :
    ∃ deals begun hand, x.Account occasions deals begun hand := by
  induction occasions using List.reverseRecOn with
  | nil =>
    refine ⟨[], x.studio, {}, .start, ?_, ?_, ?_, rfl, ?_, ?_⟩
    · exact (congrArg Service.phase hx) ▸ .waiting
    · exact List.append_nil _
    · exact (List.append_nil _).symm
    · exact congrArg (·.report.requests) hx
    · exact (congrArg Service.report hx) ▸ ⟨rfl, rfl⟩
  | append_singleton occasions o ih =>
    obtain ⟨deals, begun, hand, h⟩ := ih
    by_cases ho : o = .runs
    · subst ho
      exact h.runs
    · exact ⟨deals, begun, hand, h.aside ho⟩

end Sitting

end Teleop
