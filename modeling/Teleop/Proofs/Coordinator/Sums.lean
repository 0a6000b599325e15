import Teleop.Proofs.Coordinator.Greetings
import Teleop.Proofs.Coordinator.LinesRead

/-!
# The summary of the coordinator

The summary has one session for every handshake that succeeded, one rejection for every client that
came while a command task was live, and one command for every line that the sessions read. A client
that was let go before its session began is in none of the three.
-/

namespace Teleop

namespace World

variable {w : World} {n : Nat} {e : Event} {s s' : LiveSession}

/-! ## What an event does to the summary -/

/-- The connection that is taken while a command task is live. -/
def busy? (w : World) (e : Event) : Option Connection :=
  if w.sessions.any fun s => s.command.isLive then w.taken? e else none

theorem busy?_of_taken?_none (h : w.taken? e = none) : w.busy? e = none := by
  rw [busy?, h, ite_self]

theorem busy?_of_off (h : w.InOrder) (hoff : w.phase.session? = none) (e : Event) :
    w.busy? e = none := by
  have hnone : w.sessions.any (fun s => s.command.isLive) = false := by
    rw [sessions, hoff, Option.toList_none, List.append_nil, List.any_eq_false]
    intro s hs
    simp [(h.past s hs).command]
  rw [busy?, hnone]
  rfl

/-- The messages that the sessions which are over have received. -/
def handledBefore (w : World) : List Nat := w.past.map LiveSession.handled

theorem handledBefore_of_replaces {w' : World} {name : TaskName} {fate : TaskFate}
    (h : w.InOrder) (hs : w.session? n = some s) (hmove : TaskMove w s name fate s' w'.drive)
    (hw : w.Replaces n s' w') : w'.handledBefore = w.handledBefore := by
  rcases hw.past_or_on hs with ⟨hn, hmem, hpast, -⟩ | ⟨-, -, hpast, -⟩
  · have hself : w.past[n] = s := by
      rw [session?_of_lt hn] at hs
      exact Option.some.inj hs
    have hhandled := hmove.handled_eq (h.past s hmem).command
    rw [handledBefore, hpast, List.map_set, hhandled, ← hself]
    have hn' : n < (w.past.map LiveSession.handled).length := by simpa using hn
    have hset := List.set_getElem_self hn'
    rwa [List.getElem_map] at hset
  · rw [handledBefore, hpast]
    rfl

/-- What an event does to the summary and to the sessions that are over. -/
inductive Summing (w : World) (e : Event) (w' : World) : Prop where
  | waits (hsummary : w'.summary = w.summary) (hpast : w'.handledBefore = w.handledBefore)
      (hbusy : w.busy? e = none)
  | turnsAway {c : Connection} (hon : w.phase.session? ≠ none)
      (hsummary : w'.summary =
        { w.summary with busyRejections := w.summary.busyRejections + 1 })
      (hpast : w'.handledBefore = w.handledBefore) (hbusy : w.busy? e = some c)
  | concludes {s : LiveSession} {r : SessionReport} (hon : w.phase.session? = some s)
      (hcommands : r.commands = s.handled) (hsummary : w'.summary = w.summary.add r)
      (hpast : w'.handledBefore = w.handledBefore ++ [s.handled]) (hbusy : w.busy? e = none)

theorem summing_coordination (h : w.InOrder) {w' : World} (hstep : w.step .coordinator = w')
    (hmove : Coordination w w') : Summing w .coordinator w' := by
  have hbusy (hwaiting : w'.control.waiting = w.control.waiting) : w.busy? .coordinator = none :=
    busy?_of_taken?_none (taken?_of_waiting (by rw [hstep, hwaiting]))
  cases hmove with
  | takes hphase => exact .waits rfl rfl (busy?_of_off h (by rw [hphase]; rfl) _)
  | @turnsAway s c rest hphase hdown hlive hwaiting =>
    have hon : w.phase.session? = some s := by rw [hphase]; rfl
    have hany : w.sessions.any (fun s => s.command.isLive) = true := by
      rw [sessions_of_phase hon]
      simp [hlive]
    refine .turnsAway (c := c) (by simp [hon]) rfl rfl ?_
    rw [busy?, if_pos hany, taken_of_rest hwaiting (by rw [hstep])]
  | concludes hphase =>
    exact .concludes (by rw [hphase]; rfl) rfl rfl (by simp [handledBefore, conclude]) (hbusy rfl)
  | _ => exact .waits rfl rfl (hbusy rfl)

theorem summing_step (h : w.InOrder) (e : Event) : Summing w e (w.step e) := by
  have hmove := move_step w e
  have hbusy (hne : e ≠ .coordinator) : w.busy? e = none := by
    cases htaken : w.taken? e with
    | none => exact busy?_of_taken?_none htaken
    | some c => exact absurd (taking_of_taken htaken).1 hne
  generalize hstep : w.step e = w' at hmove ⊢
  cases hmove with
  | coordinates hmove => exact summing_coordination h hstep hmove
  | givesUp hphase =>
    exact .concludes (by rw [hphase]; rfl) rfl rfl (by simp [handledBefore, conclude])
      (hbusy (by simp))
  | task hs hmove hw =>
    exact .waits hw.summary (handledBefore_of_replaces h hs hmove hw) (hbusy (by simp))
  | _ => exact .waits rfl rfl (hbusy (by simp))

/-- The summary is the account of the sessions that are over and of the clients that were turned
away. -/
structure Booked (w : World) (events : List Event) : Prop where
  sessions : (w.run events).summary.sessions = (w.run events).handledBefore.length
  busyRejections : (w.run events).summary.busyRejections = (w.trace busy? events).length
  commands : (w.run events).summary.commands = (w.run events).handledBefore.sum

variable {events : List Event}

theorem booked_concat (h : Booked w events)
    (hsumming : Summing (w.run events) e ((w.run events).step e)) : Booked w (events ++ [e]) := by
  obtain ⟨hsessions, hbusyRejections, hcommands⟩ := h
  rw [← run_concat] at hsumming
  cases hsumming with
  | waits hsummary hpast hbusy =>
    refine ⟨?_, ?_, ?_⟩
    · rw [hsummary, hpast, hsessions]
    · rw [hsummary, hbusyRejections, trace_concat, hbusy, Option.toList_none, List.append_nil]
    · rw [hsummary, hpast, hcommands]
  | turnsAway hon hsummary hpast hbusy =>
    refine ⟨?_, ?_, ?_⟩
    · rw [hsummary, hpast, hsessions]
    · rw [hsummary, hbusyRejections, trace_concat, hbusy, List.length_append]
      rfl
    · rw [hsummary, hpast, hcommands]
  | concludes hon hreport hsummary hpast hbusy =>
    refine ⟨?_, ?_, ?_⟩
    · rw [hsummary, hpast, List.length_append, ← hsessions]
      rfl
    · rw [hsummary, Summary.add, hbusyRejections, trace_concat, hbusy, Option.toList_none,
        List.append_nil]
    · rw [hsummary, hpast, Summary.add, hreport, hcommands, List.sum_append, List.sum_singleton]

theorem booked_run (h : w.InOrder) (hpast : w.past = []) (hsummary : w.summary = {})
    (events : List Event) : Booked w events := by
  induction events using List.reverseRecOn with
  | nil => refine ⟨?_, ?_, ?_⟩ <;> simp [run, trace, handledBefore, hpast, hsummary]
  | append_singleton events e ih => exact booked_concat ih (summing_step (inOrder_run h events) e)

theorem summary_of_off (h : w.InOrder) (hoff : w.phase.session? = none) (e : Event) :
    (w.step e).summary = w.summary := by
  cases summing_step h e with
  | waits hsummary => exact hsummary
  | turnsAway hon => exact absurd hoff hon
  | concludes hon =>
    rw [hoff] at hon
    cases hon

end World

/-! ## The law -/

/-- How the summary stands to what has happened. -/
structure Summed (w : World) (events : List Event) : Prop where
  /-- One for every session that is over. -/
  sessions : (w.run events).summary.sessions = (w.run events).past.length
  /-- With no session on, as when the coordinator has stopped, these are all the sessions that
  began. -/
  begun : (w.run events).phase.session? = none →
    (w.run events).past.length = (w.trace World.opened? events).length
  /-- One for every connection that was taken while a command task was live. -/
  busyRejections : (w.run events).summary.busyRejections = (w.trace World.busy? events).length
  /-- One for every line that the sessions which are over have read. -/
  commands : (w.run events).summary.commands =
    ((List.range (w.run events).past.length).map fun n => (w.linesRead n events).length).sum
  /-- The lines that a session read are the first that its operator sent. Each of them was counted
  and dispatched once, whatever has become of the command task. -/
  read : ∀ n s, (w.run events).session? n = some s →
    s.handled = (w.linesRead n events).length ∧
      (w.dispatches n events).length = (w.linesRead n events).length ∧
        ∃ c, (w.trace World.opened? events)[n]? = some c ∧
          w.linesRead n events <+: (linesFrom [] c.stream.items).1
  /-- Whoever is taken while no session is on becomes a session, is let go, or is still greeted. -/
  greeted : (w.trace World.greeted? events).Perm
    (w.trace World.opened? events ++ w.trace World.dropped? events ++
      (w.run events).phase.guest?.toList)
  /-- Until then, and when he is let go, the summary stays as it was. -/
  still : (w.run events).phase.session? = none →
    ∀ e, ((w.run events).step e).summary = (w.run events).summary

namespace World

theorem handledBefore_run {w : World} (hnone : w.sessions = []) (events : List Event) :
    (w.run events).handledBefore =
      (List.range (w.run events).past.length).map fun n => (w.linesRead n events).length := by
  refine List.ext_getElem (by simp [handledBefore]) ?_
  intro n hn _
  have hlt : n < (w.run events).past.length := by simpa [handledBefore] using hn
  obtain ⟨c, -, hcounted⟩ := counted_run hnone (session?_of_lt hlt)
  simpa [handledBefore] using hcounted.handled

/-- **The summary adds up.** Whatever happens, it has one session for every handshake that
succeeded, one rejection for every client that came while a command task was live, and one command
for every line that was read; and wherever a run is stopped, it has counted what it dispatched. -/
theorem summary_adds_up (speed : Speed) (drive : Drive) (studio : Studio) (events : List Event) :
    Summed (opening speed drive studio) events ∧
      ∀ (e : Engine) (s : Stream) (k : Nat),
        (CommandRun.advance { channel := { stream := s } } e k).2.handled =
          e.handled + (CommandRun.dispatchesWithin { channel := { stream := s } } e k).length := by
  refine ⟨?_, fun e s k => (CommandRun.counters_advance _ e k).1⟩
  have horder := inOrder_opening speed drive studio
  have hnone : (opening speed drive studio).sessions = [] := rfl
  have hguest : (opening speed drive studio).phase.guest? = none := rfl
  have hbooked := booked_run horder rfl rfl events
  generalize opening speed drive studio = w at horder hnone hguest hbooked ⊢
  have hlength := length_sessions_run w events
  rw [hnone, List.length_nil, Nat.zero_add] at hlength
  refine ⟨?_, ?_, hbooked.busyRejections, ?_, ?_, ?_, ?_⟩
  · rw [hbooked.sessions, handledBefore, List.length_map]
  · intro hoff
    rw [← hlength, length_sessions_of_off hoff]
  · rw [hbooked.commands, handledBefore_run hnone]
  · intro n s hs
    obtain ⟨c, hc, hcounted⟩ := counted_run hnone hs
    exact ⟨hcounted.handled, length_dispatches n w events, c, hc, hcounted.read.within⟩
  · exact greeted_perm hguest events
  · exact fun hoff => summary_of_off (inOrder_run horder events) hoff

end World

end Teleop
