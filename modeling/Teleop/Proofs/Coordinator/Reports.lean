import Teleop.Proofs.Coordinator.Images

/-!
# The reports of the sessions

A report shows all that the image channel of its session sent, if the image task returned before the
coordinator gave it up. Otherwise it shows no picture, whatever was sent.
-/

namespace Teleop

/-- The report shows pictures of these sizes. -/
structure SessionReport.Shows (r : SessionReport) (sizes : List Nat) : Prop where
  pictures : r.pictures = sizes.length
  pictureBytes : r.pictureBytes = sizes.sum

/-- How the report of session `n` comes about, by the sessions that were given up, by the sizes of
the pictures that the session sent, and by what has become of its image task. -/
inductive Reported (abandoned sizes : List Nat) (n : Nat) (t : Task Service) (r : SessionReport) :
    Prop where
  | returned {svc : Service} (htask : t = .finished svc) (hkept : n ∉ abandoned)
      (hshows : r.Shows sizes)
  | failed {svc : Service} (htask : t = .lost svc) (hkept : n ∉ abandoned) (hshows : r.Shows [])
  | givenUp (hgiven : n ∈ abandoned) (hgone : t.isLive = true → t.isAborted = true)
      (hshows : r.Shows [])

/-! ## What happens to the image task behind the report -/

namespace Task

variable {α : Type}

theorem isLive_arrive_aborted (ended : Bool) (a : α) : (arrive true ended a).isLive = false := by
  cases ended <;> rfl

theorem Rests.aborted {t t' : Task α} (h : t.Rests t')
    (hgone : t.isLive = true → t.isAborted = true) : t'.isLive = true → t'.isAborted = true := by
  intro hlive
  rcases t with ⟨a, aborted⟩ | a | a
  · obtain rfl : aborted = true := hgone rfl
    cases h with
    | same | abort => rfl
    | vanish | crash => cases hlive
  · rw [h.eq_of_over rfl] at hlive
    cases hlive
  · rw [h.eq_of_over rfl] at hlive
    cases hlive

end Task

namespace ImageMove

variable {w : World} {s s' : LiveSession} {running? : Option (Service × SessionState)}

theorem eq_of_over (h : ImageMove w s running? s') (hover : s.image.isLive = false) :
    running? = none ∧ s'.image = s.image := by
  cases h with
  | runs htask =>
    rw [htask] at hover
    cases hover
  | rests himage => exact ⟨rfl, himage.eq_of_over hover⟩

theorem aborted (h : ImageMove w s running? s')
    (hgone : s.image.isLive = true → s.image.isAborted = true) :
    s'.image.isLive = true → s'.image.isAborted = true := by
  cases h with
  | @runs svc aborted htask =>
    rw [htask] at hgone
    obtain rfl : aborted = true := hgone rfl
    intro hlive
    rw [Task.isLive_arrive_aborted] at hlive
    cases hlive
  | rests himage => exact himage.aborted hgone

end ImageMove

namespace World

/-- The session whose image channel is given up in an event. -/
def givenUp? (w : World) (e : Event) : Option Nat :=
  match e, w.phase with
  | .graceExpires, .draining s => if s.image.isLive then some w.past.length else none
  | _, _ => none

variable {w : World} {n : Nat} {e : Event} {s s' : LiveSession}

theorem reported_step {abandoned sizes : List Nat} {r : SessionReport}
    (h : Reported abandoned sizes n s.image r) (hs : w.session? n = some s)
    (hs' : (w.step e).session? n = some s') (hkept : w.givenUp? e ≠ some n) :
    Reported (abandoned ++ (w.givenUp? e).toList) (sizes ++ (w.sent? n e).toList) n s'.image r := by
  have hmove := imageMove_step hs hs'
  have hstays : n ∉ abandoned → n ∉ abandoned ++ (w.givenUp? e).toList := by
    intro hn
    simpa [hn] using hkept
  cases h with
  | returned htask hn hshows =>
    obtain ⟨hrunning, himage⟩ := hmove.eq_of_over (by rw [htask]; rfl)
    rw [sent?, hrunning, Option.bind_none, Option.toList_none, List.append_nil]
    exact .returned (himage.trans htask) (hstays hn) hshows
  | failed htask hn hshows =>
    obtain ⟨-, himage⟩ := hmove.eq_of_over (by rw [htask]; rfl)
    exact .failed (himage.trans htask) (hstays hn) hshows
  | givenUp hgiven hgone hshows =>
    exact .givenUp (List.mem_append_left _ hgiven) (hmove.aborted hgone) hshows

/-! ## What an event does to the reports -/

inductive Reporting (w : World) : Option Nat → World → Prop where
  | none {w' : World} (hreports : w'.reports = w.reports) (hpast : w'.past.length = w.past.length)
      (hpictures : w'.summary.pictures = w.summary.pictures) : Reporting w none w'
  | concludes {s : LiveSession} (hphase : w.phase = .draining s) (hover : s.image.isLive = false) :
    Reporting w none (w.conclude s ((s.image.result?.map Service.report).getD {}))
  | givesUp {s : LiveSession} (hphase : w.phase = .draining s) (hlive : s.image.isLive = true) :
    Reporting w (some w.past.length) (w.conclude { s with image := s.image.abort } {})

theorem givenUp?_of_ne (h : e ≠ .graceExpires) : w.givenUp? e = none := by
  unfold givenUp?
  split
  · contradiction
  · rfl

theorem reporting_step (w : World) (e : Event) : Reporting w (w.givenUp? e) (w.step e) := by
  by_cases he : e = .graceExpires
  · subst he
    rw [step]
    unfold giveUpImage givenUp?
    cases hphase : w.phase with
    | draining s =>
      dsimp only
      split
      · exact .givesUp hphase ‹_›
      · exact .none rfl rfl rfl
    | _ => exact .none rfl rfl rfl
  · rw [givenUp?_of_ne he]
    have hmove := move_step w e
    generalize w.step e = w' at hmove ⊢
    cases hmove with
    | noGrace | givesUp => exact absurd rfl he
    | task hs hmove hw => exact .none hw.reports (hw.length_past hs) (by rw [hw.summary])
    | coordinates hmove =>
      cases hmove with
      | concludes hphase hover => exact .concludes hphase hover
      | _ => exact .none rfl rfl rfl
    | _ => exact .none rfl rfl rfl

end World

/-! ## The law -/

/-- How the reports stand to what the sessions did. -/
structure Audited (w : World) (events : List Event) : Prop where
  length_reports : (w.run events).reports.length = (w.run events).past.length
  /-- Every session that is over has its report. -/
  reported : ∀ (n : Nat) (s : LiveSession) (r : SessionReport),
    (w.run events).session? n = some s → (w.run events).reports[n]? = some r →
      Reported (w.trace World.givenUp? events) (w.transfers n events) n s.image r
  /-- Only a session that is over was given up. -/
  abandoned : ∀ n ∈ w.trace World.givenUp? events, n < (w.run events).past.length
  pictures : (w.run events).summary.pictures =
    ((w.run events).reports.map SessionReport.pictures).sum

namespace World

theorem session?_conclude (w : World) (s : LiveSession) (image : ServiceReport) :
    (w.conclude s image).session? w.past.length = some s := by
  rw [session?_of_lt (by simp [conclude])]
  simp [conclude]

theorem shows_of_counts {report : ServiceReport} {sizes : List Nat} (h : report.Counts sizes)
    (commands : Nat) :
    SessionReport.Shows
      { commands := commands, pictures := report.pictures, pictureBytes := report.bytes } sizes :=
  ⟨h.pictures, h.bytes⟩

variable {w : World} {events : List Event}

theorem reported_concat (h : Audited w events) {e : Event} {n : Nat} {s : LiveSession}
    {r : SessionReport} (hkept : (w.run events).givenUp? e ≠ some n)
    (hs : ((w.run events).step e).session? n = some s)
    (hr : (w.run events).reports[n]? = some r) :
    Reported (w.trace givenUp? (events ++ [e])) (w.transfers n (events ++ [e])) n s.image r := by
  have hlt : n < (w.run events).past.length :=
    h.length_reports ▸ (List.getElem?_eq_some_iff.mp hr).1
  have hs₀ := session?_of_lt hlt
  rw [trace_concat, transfers, trace_concat]
  exact reported_step (h.reported n _ r hs₀ hr) hs₀ hs hkept

theorem audited_conclude (h : Audited w events) {e : Event} {s : LiveSession}
    {image : ServiceReport}
    (hstep : (w.run events).step e = (w.run events).conclude s image)
    (hgiven : ∀ n, (w.run events).givenUp? e = some n → n = (w.run events).past.length)
    (hreported : Reported (w.trace givenUp? (events ++ [e]))
      (w.transfers (w.run events).past.length (events ++ [e])) (w.run events).past.length s.image
      { commands := s.handled, pictures := image.pictures, pictureBytes := image.bytes }) :
    Audited w (events ++ [e]) := by
  have hlength := h.length_reports
  refine ⟨?_, ?_, ?_, ?_⟩
  · rw [run_concat, hstep]
    simp [conclude, hlength]
  · intro n s' r hs hr
    rw [run_concat] at hs hr
    have hlt : n < ((w.run events).conclude s image).reports.length :=
      hstep ▸ (List.getElem?_eq_some_iff.mp hr).1
    -- The report was there before, or it is the one that is made in `e`.
    rcases Nat.lt_or_ge n (w.run events).reports.length with hn | hn
    · refine reported_concat h ?_ hs ?_
      · intro hkept
        have := hgiven n hkept
        omega
      · rwa [hstep, conclude, List.getElem?_append_left hn] at hr
    · obtain rfl : n = (w.run events).past.length := by
        simp only [conclude, List.length_append, List.length_singleton] at hlt
        omega
      rw [hstep, session?_conclude] at hs
      obtain rfl := Option.some.inj hs
      rw [hstep, conclude, ← hlength, List.getElem?_concat_length] at hr
      obtain rfl := Option.some.inj hr
      exact hreported
  · intro n hn
    rw [run_concat, hstep]
    rw [trace_concat, List.mem_append, Option.mem_toList] at hn
    simp only [conclude, List.length_append, List.length_singleton]
    rcases hn with hn | hn
    · exact Nat.lt_succ_of_lt (h.abandoned n hn)
    · rw [hgiven n hn]
      exact Nat.lt_succ_self _
  · rw [run_concat, hstep]
    simp [conclude, Summary.add, h.pictures]

theorem audited_step (hnone : w.sessions = []) (h : Audited w events) (e : Event) :
    Audited w (events ++ [e]) := by
  have hreporting := reporting_step (w.run events) e
  -- Only sessions that are over were given up, so the one that is on was not.
  have hkept : ∀ n, (w.run events).past.length ≤ n → n ∉ w.trace givenUp? events := by
    intro n hn hmem
    exact absurd (h.abandoned n hmem) (Nat.not_lt.mpr hn)
  generalize hgiven : (w.run events).givenUp? e = given at hreporting
  generalize hstep : (w.run events).step e = w' at hreporting
  cases hreporting with
  | none hreports hpast hpictures =>
    refine ⟨?_, ?_, ?_, ?_⟩
    · rw [run_concat, hstep, hreports, hpast, h.length_reports]
    · intro n s r hs hr
      rw [run_concat] at hs hr
      rw [hstep, hreports] at hr
      exact reported_concat h (by simp [hgiven]) hs hr
    · intro n hn
      rw [trace_concat, hgiven, Option.toList_none, List.append_nil] at hn
      rw [run_concat, hstep, hpast]
      exact h.abandoned n hn
    · rw [run_concat, hstep, hpictures, hreports, h.pictures]
  | @concludes s hphase hover =>
    refine audited_conclude h hstep (by simp [hgiven]) ?_
    have hs : (w.run (events ++ [e])).session? (w.run events).past.length = some s := by
      rw [run_concat, hstep, session?_conclude]
    have hcounts := counts_run hnone hs
    have hn : (w.run events).past.length ∉ w.trace givenUp? (events ++ [e]) := by
      rw [trace_concat, hgiven, Option.toList_none, List.append_nil]
      exact hkept _ (Nat.le_refl _)
    cases htask : s.image with
    | running svc aborted =>
      rw [htask] at hover
      cases hover
    | finished svc =>
      rw [htask] at hcounts
      exact .returned rfl hn (shows_of_counts hcounts _)
    | lost svc => exact .failed rfl hn ⟨rfl, rfl⟩
  | @givesUp s hphase hlive =>
    refine audited_conclude h hstep (by simp [hgiven]) (.givenUp ?_ ?_ ⟨rfl, rfl⟩)
    · rw [trace_concat, hgiven]
      exact List.mem_append_right _ (List.mem_singleton_self _)
    · intro
      cases htask : s.image with
      | running svc aborted => rfl
      | _ => simp [htask, Task.isLive] at hlive

theorem audited_run (hnone : w.sessions = []) (hreports : w.reports = [])
    (hpictures : w.summary.pictures = 0) (events : List Event) : Audited w events := by
  induction events using List.reverseRecOn with
  | nil =>
    have hpast : w.past = [] := (List.append_eq_nil_iff.mp hnone).1
    refine ⟨?_, ?_, ?_, ?_⟩
    · simp [run, hreports, hpast]
    · intro n s r hs hr
      simp [run, hreports] at hr
    · simp [trace]
    · simp [run, hreports, hpictures]
  | append_singleton events e ih => exact audited_step hnone ih e

/-- **The reports show what the sessions sent, but for the image channels that were given up.** -/
theorem reports_of_transfers (speed : Speed) (drive : Drive) (studio : Studio)
    (events : List Event) : Audited (opening speed drive studio) events :=
  audited_run rfl rfl rfl events

/-- A picture is sent, and then the operator leaves while a client keeps the image channel waiting. -/
def idleClient : List Event :=
  let operator : Stream := { arrivals := [.chunk (line "CONN"), .chunk (line "DISCONN")] }
  let viewer : Stream := { arrivals := [.chunk (line "PICTURE")] }
  [.controlArrives { id := 0, stream := operator }, .coordinator, .coordinator,
    .task 0 .command .run, .task 0 .command .run, .imageArrives { id := 1, stream := viewer }] ++
  List.replicate 11 (.task 0 .image .run) ++
  [.imageArrives { id := 2 }, .task 0 .image .run, .task 0 .image .run,
    .task 0 .command .run, .task 0 .command .run, .task 0 .command .run,
    .coordinator, .coordinator, .graceExpires]

/-- The picture was sent, and the reports know nothing of it. -/
theorem picture_not_reported :
    bench.transfers 0 idleClient = [2] ∧
      (bench.run idleClient).reports = [{ commands := 2, pictures := 0, pictureBytes := 0 }] ∧
        (bench.run idleClient).summary.pictures = 0 := by
  decide +kernel

end World

end Teleop
