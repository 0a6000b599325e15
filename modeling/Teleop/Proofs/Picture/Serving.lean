import Mathlib.Algebra.Ring.Nat
import Teleop.Proofs.Session.Flag
import Teleop.Proofs.Session.Marks

/-!
# What the image channel does with its requests

The service counts what its requests sent, and each of them keeps to its course. It leaves the flags
alone if its camera does.
-/

namespace Teleop

/-! ## Counting -/

/-- The size of a picture that was sent in full. -/
def sentSize? : Except PictureError Transfer → Option Nat
  | .ok (.sent bytes _) => some bytes
  | _ => none

namespace ServiceReport

/-- The report counts pictures of these sizes. -/
structure Counts (report : ServiceReport) (sizes : List Nat) : Prop where
  pictures : report.pictures = sizes.length
  bytes : report.bytes = sizes.sum

theorem counts_count {report : ServiceReport} {sizes : List Nat} (h : report.Counts sizes)
    (result : Except PictureError Transfer) :
    (report.count result).Counts (sizes ++ (sentSize? result).toList) := by
  rcases result with e | (_ | ⟨bytes, frames⟩)
  · simpa [count, sentSize?] using h
  · simpa [count, sentSize?] using h
  · constructor
    · simp [count, sentSize?, h.pictures]
    · simp [count, sentSize?, h.bytes]

end ServiceReport

namespace Service

def request? (svc : Service) : Option Request :=
  match svc.phase with
  | .serving _ r => some r
  | _ => none

theorem request?_eq_some {svc : Service} {r : Request} :
    svc.request? = some r ↔ ∃ id, svc.phase = .serving id r := by
  unfold request?
  split
  · rename_i id r' hphase
    simp [hphase]
  · rename_i hnot
    simpa using fun id hphase => hnot id r hphase

/-- The size of the picture whose transfer the next step completes. -/
def sent? (svc : Service) (s : SessionState) (studio : Studio) : Option Nat :=
  svc.request?.bind fun r => (r.step s studio).1.result?.bind sentSize?

/-- What the next step shows of a request. The requests have their numbers from one on. -/
def mark? (svc : Service) (s : SessionState) : Option Mark :=
  svc.request?.bind fun r => (r.mark? s).map (.request svc.report.requests)

variable (svc : Service) (l : Listener) (s : SessionState) (studio : Studio)

theorem counts_step {sizes : List Nat} (h : svc.report.Counts sizes) :
    (svc.step l s studio).1.report.Counts (sizes ++ (svc.sent? s studio).toList) := by
  unfold step sent? request?
  cases hphase : svc.phase with
  | serving id r =>
    dsimp only [Option.bind_some]
    cases hresult : (r.step s studio).1.result? with
    | some result => exact ServiceReport.counts_count h result
    | none => simpa using h
  | waiting =>
    dsimp only
    rw [Option.bind_none, Option.toList_none, List.append_nil]
    split <;> exact h
  | greeting c =>
    dsimp only
    rw [Option.bind_none, Option.toList_none, List.append_nil]
    split
    · exact h
    · exact h
    · exact ⟨h.pictures, h.bytes⟩
  | closing id c => simpa using h
  | finished => simpa using h

/-! ## The courses of the requests -/

/-- All that was shown is of the courses of the requests up to this one. -/
structure OnCourse (svc : Service) (history : List Mark) : Prop where
  current : ∀ r, svc.request? = some r →
    ∃ s, r.OnCourse s (shown svc.report.requests history)
  every : ∀ k, ∃ word connected, shown k history <+: course word connected
  later : ∀ k, svc.report.requests < k → shown k history = []

variable {svc l s studio} {history : List Mark}

theorem onCourse_start : OnCourse {} [] where
  current := by simp [request?]
  every k := ⟨[], false, List.nil_prefix⟩
  later _ _ := rfl

theorem OnCourse.idles {svc' : Service} (h : svc.OnCourse history)
    (hreport : svc'.report = svc.report) (hnone : svc'.request? = none) :
    svc'.OnCourse history where
  current := by simp [hnone]
  every := h.every
  later := hreport ▸ h.later

theorem OnCourse.serves {svc' : Service} {r : Request} (h : svc.OnCourse history)
    (studio : Studio) (hr : svc.request? = some r)
    (hreport : svc'.report.requests = svc.report.requests)
    (hnext : svc'.request? = none ∨ svc'.request? = some (r.step s studio).1) :
    svc'.OnCourse (history ++ ((r.mark? s).map (.request svc.report.requests)).toList) := by
  obtain ⟨stream, hcourse⟩ := h.current r hr
  have hcurrent := Request.onCourse_step hcourse s studio
  rw [← shown_optional, ← shown_append] at hcurrent
  refine ⟨?_, ?_, ?_⟩
  · intro r' hr'
    rcases hnext with hnone | hsome
    · rw [hnone] at hr'
      cases hr'
    · rw [hsome] at hr'
      obtain rfl := Option.some.inj hr'
      rw [hreport]
      exact ⟨stream, hcurrent⟩
  · intro k
    by_cases hk : svc.report.requests = k
    · subst hk
      exact Request.shown_of_onCourse hcurrent
    · rw [shown_append, shown_optional_ne hk, List.append_nil]
      exact h.every k
  · intro k hk
    rw [hreport] at hk
    rw [shown_append, h.later k hk, shown_optional_ne (Nat.ne_of_lt hk)]
    rfl

theorem OnCourse.begins {svc' : Service} {stream : Stream} (h : svc.OnCourse history)
    (hreport : svc'.report.requests = svc.report.requests + 1)
    (hnext : svc'.request? = some { channel := { stream := stream } }) :
    svc'.OnCourse history where
  current r hr := by
    rw [hnext] at hr
    obtain rfl := Option.some.inj hr
    rw [h.later _ (by rw [hreport]; exact Nat.lt_succ_self _)]
    exact ⟨stream, Request.onCourse_begin stream⟩
  every := h.every
  later k hk := h.later k (by omega)

theorem requests_count (report : ServiceReport) (result : Except PictureError Transfer) :
    (report.count result).requests = report.requests := by
  unfold ServiceReport.count
  split <;> rfl

theorem onCourse_step (h : svc.OnCourse history) :
    (svc.step l s studio).1.OnCourse (history ++ (svc.mark? s).toList) := by
  unfold mark?
  cases hr : svc.request? with
  | some r =>
    obtain ⟨id, hphase⟩ := request?_eq_some.mp hr
    rw [Option.bind_some, step, hphase]
    refine h.serves studio hr ?_ ?_
    · dsimp only
      split
      · exact requests_count _ _
      · rfl
    · dsimp only
      split
      · exact Or.inl rfl
      · exact Or.inr rfl
  | none =>
    rw [Option.bind_none, Option.toList_none, List.append_nil]
    cases hphase : svc.phase with
    | serving id r => simp [request?_eq_some.mpr ⟨id, hphase⟩] at hr
    | waiting =>
      rw [step, hphase]
      dsimp only
      split <;> exact h.idles rfl rfl
    | greeting c =>
      rw [step, hphase]
      dsimp only
      split
      · exact h
      · exact h.idles rfl rfl
      · exact h.begins rfl rfl
    | closing id c =>
      rw [step, hphase]
      exact h.idles rfl rfl
    | finished =>
      rw [step, hphase]
      exact h

/-! ## What a step leaves alone -/

variable (svc l s studio)

theorem capture_step :
    (svc.step l s studio).2.2.2.camera.capture = studio.camera.capture := by
  unfold step
  split
  · split <;> rfl
  · split <;> rfl
  · exact Request.capture_step _ s studio
  · rfl
  · rfl

theorem session_step (h : studio.camera.LeavesFlags) : (svc.step l s studio).2.2.1 = s := by
  unfold step
  split
  · split <;> rfl
  · split <;> rfl
  · exact Request.session_step h _ s
  · rfl
  · rfl

end Service

end Teleop
