import Teleop.Proofs.Session.Order
import Teleop.Proofs.Wire.Acceptance

/-!
# What a run does not depend on

The course of a run is fixed by what arrives, by the flag that it starts from and by the writes and
flushes that fail. The faults of the drive, the speed of the motions, short writes and the way that
the shutdown goes change nothing but what they are: a notice in the log, an argument of a call, the
bytes that did not get through.
-/

namespace Teleop

def Engine.responses (e : Engine) (s : Stream) : List Response :=
  (e.dispatches s).map Dispatch.response

/-! ## Two engines on the same lines -/

/-- Two accounts of the same course. The motions are those of both drives; each ran them at its own
speed. -/
structure SameCourse (e₁ e₂ : Engine) (a₁ a₂ : Account) : Prop where
  report : a₁.report = a₂.report
  connected : a₁.engine.session.connected = a₂.engine.session.connected
  responses : a₁.dispatches.map Dispatch.response = a₂.dispatches.map Dispatch.response
  motions : ∃ motions : List Motion,
    a₁.dispatches.flatMap Dispatch.calls = motions.map (·.call e₁.speed.normalize) ∧
      a₂.dispatches.flatMap Dispatch.calls = motions.map (·.call e₂.speed.normalize)

namespace Engine

variable {e₁ e₂ : Engine} (hconn : e₁.session.connected = e₂.session.connected)

include hconn in
theorem row_congr (line : Bytes) : e₁.row line = e₂.row line := by
  rw [row, hconn, row]

include hconn in
theorem response_dispatched_congr (line : Bytes) :
    (e₁.dispatched line).response = (e₂.dispatched line).response := by
  rw [response_dispatched, response_dispatched, row_congr hconn]

include hconn in
theorem sameCourse_cons {line : Bytes} {a₁ a₂ : Account}
    (h : SameCourse (e₁.follow line) (e₂.follow line) a₁ a₂) :
    SameCourse e₁ e₂ (a₁.behind [e₁.dispatched line]) (a₂.behind [e₂.dispatched line]) := by
  obtain ⟨motions, hmotions₁, hmotions₂⟩ := h.motions
  refine ⟨h.report, h.connected, ?_, (e₁.row line).motion?.toList ++ motions, ?_, ?_⟩
  · exact congrArg₂ List.cons (response_dispatched_congr hconn line) h.responses
  · simp only [Account.behind, List.singleton_append, List.flatMap_cons, hmotions₁, List.map_append]
    rfl
  · simp only [Account.behind, List.singleton_append, List.flatMap_cons, hmotions₂, List.map_append,
      row_congr hconn]
    rfl

theorem sameCourse_last {line : Bytes} {report : CommandReport} {out₁ out₂ : Stream}
    {final₁ final₂ : Engine} (hconn : e₁.session.connected = e₂.session.connected)
    (hfinal : final₁.session.connected = final₂.session.connected) :
    SameCourse e₁ e₂
      { report, out := out₁, engine := final₁, dispatches := [e₁.dispatched line] }
      { report, out := out₂, engine := final₂, dispatches := [e₂.dispatched line] } := by
  have hover : SameCourse (e₁.follow line) (e₂.follow line)
      { report, out := out₁, engine := final₁, dispatches := [] }
      { report, out := out₂, engine := final₂, dispatches := [] } :=
    ⟨rfl, hfinal, rfl, [], rfl, rfl⟩
  exact sameCourse_cons hconn hover

theorem sameCourse_followLines {e₁ e₂ : Engine} {out₁ out₂ : Stream}
    (hconn : e₁.session.connected = e₂.session.connected) (hout : out₁.FailAlike out₂)
    (count : Nat) (ending : CommandEnd) (lines : List Bytes) :
    SameCourse e₁ e₂ (e₁.followLines out₁ count ending lines)
      (e₂.followLines out₂ count ending lines) := by
  induction lines generalizing e₁ e₂ out₁ out₂ count with
  | nil => exact ⟨rfl, rfl, rfl, [], rfl, rfl⟩
  | cons line lines ih =>
    have hfollow : (e₁.follow line).session.connected = (e₂.follow line).session.connected :=
      congrArg TableRow.connected (row_congr hconn line)
    obtain ⟨hfault, halike⟩ := Stream.failAlike_answer hout (e₁.row line).response
    rw [followLines, followLines, ← row_congr hconn line]
    rcases h₁ : out₁.answer (e₁.row line).response with ⟨fault, out₁'⟩
    rcases h₂ : out₂.answer (e₁.row line).response with ⟨fault', out₂'⟩
    rw [h₁, h₂] at hfault halike
    obtain rfl : fault = fault' := hfault
    -- The same fault comes up in both, so they stop here together or go on together.
    cases fault with
    | some error => exact sameCourse_last hconn rfl
    | none =>
      by_cases hcloses : (e₁.row line).closes = true
      · simp only [hcloses, if_true]
        exact sameCourse_last hconn hfollow
      · simp only [hcloses, Bool.false_eq_true, if_false]
        exact sameCourse_cons hconn (ih hfollow halike (count + 1))

/-! ## What the peer gets -/

variable (e : Engine) (out : Stream) (count : Nat) (ending : CommandEnd) (lines : List Bytes)

theorem answer_dispatched {out out' : Stream} {line : Bytes} {fault : Option StreamError}
    (h : out.answer (e.row line).response = (fault, out')) :
    out'.sent = out.sent ++ [(out.acceptance 0).event (e.dispatched line).response.framed] ∧
      ∀ k, out'.acceptance k = out.acceptance (k + 1) := by
  obtain ⟨-, -, -, hsent⟩ := Stream.answer_eq (e.row line).response out
  have hacceptance := Stream.acceptance_answer (e.row line).response out
  rw [h] at hsent hacceptance
  exact ⟨by rw [hsent, response_dispatched], hacceptance⟩

/-- Every answer is one write call, and the script has the say how it goes. -/
theorem sent_followLines :
    let account := e.followLines out count ending lines
    account.out.sent = out.sent ++
      (account.dispatches.map Dispatch.response).mapIdx
        fun k r => (out.acceptance k).event r.framed := by
  fun_induction followLines e out count ending lines with
  | case1 e out count => simp
  | case2 e out count line rest error out' h => exact (e.answer_dispatched h).1
  | case3 e out count line rest out' h hcloses =>
    exact (Stream.sent_shutdown out').trans (e.answer_dispatched h).1
  | case4 e out count line rest out' h hopen ih =>
    obtain ⟨hsent, hacceptance⟩ := e.answer_dispatched h
    -- The script of the stream behind this answer is one write shorter, as `mapIdx_cons` counts.
    simp only [Account.behind, List.singleton_append, List.map_cons, List.mapIdx_cons]
    rw [ih, hsent]
    simp only [hacceptance, List.append_assoc, List.singleton_append]

theorem commands_followLines :
    let account := e.followLines out count ending lines
    account.dispatches.map Dispatch.command? =
      (lines.take account.dispatches.length).map Command.parse? := by
  fun_induction followLines e out count ending lines with
  | case1 e out count => rfl
  | case2 e out count line rest error out' h => rfl
  | case3 e out count line rest out' h hcloses => rfl
  | case4 e out count line rest out' h hopen ih => exact congrArg (Command.parse? line :: ·) ih

theorem kept_followLines :
    let account := e.followLines out count ending lines
    account.engine.session.closed = e.session.closed ∧ account.engine.speed = e.speed ∧
      account.engine.handled + count = e.handled + account.report.commands := by
  fun_induction followLines e out count ending lines with
  | case1 e out count => exact ⟨rfl, rfl, rfl⟩
  | case2 e out count line rest error out' h =>
    refine ⟨rfl, rfl, ?_⟩
    simp only [follow, setConnected]
    omega
  | case3 e out count line rest out' h hcloses =>
    refine ⟨rfl, rfl, ?_⟩
    simp only [follow]
    omega
  | case4 e out count line rest out' h hopen ih =>
    obtain ⟨hclosed, hspeed, hhandled⟩ := ih
    refine ⟨hclosed, hspeed, ?_⟩
    simp only [follow, Account.behind] at hhandled ⊢
    omega

/-! ## Serving -/

/-- What a run sends: one write call for each command, in the order of the commands. Each hands over
the first bytes of the framed response, as many as the stream takes, and is not made again. -/
structure SendsAnswers (s : Stream) : Prop where
  dispatches : (e.dispatches s).map Dispatch.command? =
    ((linesFrom [] s.items).1.take (e.serve s).1.commands).map Command.parse?
  responses : (e.responses s).length = (e.serve s).1.commands
  writes : (e.serve s).2.1.stream.sent = s.sent ++
    (e.responses s).mapIdx fun k r => (s.acceptance k).event r.framed
  received : (e.serve s).2.1.stream.received = s.received ++
    ((e.responses s).mapIdx fun k r => (s.acceptance k).taken r.framed).flatten
  first_bytes : ∀ k r, (e.responses s)[k]? = some r →
    (s.acceptance k).taken r.framed <+: r.framed ∧
      ((s.acceptance k).Fits r.framed → (s.acceptance k).taken r.framed = r.framed)
  whole : (∀ k r, (e.responses s)[k]? = some r → (s.acceptance k).Fits r.framed) →
    (e.serve s).2.1.stream.received = s.received ++ (e.responses s).flatMap Response.framed

theorem tally_serve (s : Stream) :
    (e.serve s).1.commands = (e.dispatches s).length ∧
      (e.serve s).2.2.drive.calls =
        e.drive.calls ++ (e.dispatches s).flatMap Dispatch.calls := by
  obtain ⟨hcount, -, hcalls⟩ :=
    e.tally_followLines s.outgoing 0 (linesFrom [] s.items).2 (linesFrom [] s.items).1
  rw [← account_eq_followLines] at hcount hcalls
  exact ⟨hcount.trans (Nat.zero_add _), hcalls⟩

theorem sent_serve (s : Stream) :
    (e.serve s).2.1.stream.sent = s.sent ++
      (e.responses s).mapIdx fun k r => (s.acceptance k).event r.framed := by
  have h := e.sent_followLines s.outgoing 0 (linesFrom [] s.items).2 (linesFrom [] s.items).1
  rw [← account_eq_followLines, Stream.sent_outgoing s] at h
  rw [← Stream.sent_outgoing]
  exact h

theorem received_serve (s : Stream) :
    (e.serve s).2.1.stream.received = s.received ++
      ((e.responses s).mapIdx fun k r => (s.acceptance k).taken r.framed).flatten := by
  rw [Stream.received_of_sent (e.sent_serve s), List.flatMap_def, List.mapIdx_eq_zipIdx_map,
    List.mapIdx_eq_zipIdx_map, List.map_map]
  simp only [Function.comp_def, Acceptance.bytes_event]

theorem sendsAnswers (s : Stream) : e.SendsAnswers s where
  dispatches := by
    have h := e.commands_followLines s.outgoing 0 (linesFrom [] s.items).2 (linesFrom [] s.items).1
    rw [← account_eq_followLines] at h
    rw [(e.tally_serve s).1]
    exact h
  responses := by rw [responses, List.length_map, (e.tally_serve s).1]
  writes := e.sent_serve s
  received := e.received_serve s
  first_bytes k r _ :=
    ⟨(s.acceptance k).taken_isPrefix r.framed, (s.acceptance k).taken_of_fits⟩
  whole h := by
    have hwhole : (e.responses s).mapIdx (fun k r => (s.acceptance k).taken r.framed) =
        (e.responses s).map Response.framed := by
      apply List.ext_getElem?
      intro k
      rw [List.getElem?_mapIdx, List.getElem?_map]
      cases hr : (e.responses s)[k]? with
      | none => rfl
      | some r => exact congrArg some ((s.acceptance k).taken_of_fits (h k r hr))
    rw [e.received_serve s, hwhole, List.flatMap_def]

theorem kept_serve (s : Stream) :
    (e.serve s).2.2.session = { connected := false, closed := e.session.closed } ∧
      (e.serve s).2.2.speed = e.speed ∧
      (e.serve s).2.2.handled = e.handled + (e.serve s).1.commands := by
  have hconn :=
    e.disconnected_followLines s.outgoing 0 (linesFrom [] s.items).2 (linesFrom [] s.items).1
  obtain ⟨hclosed, hspeed, hhandled⟩ :=
    e.kept_followLines s.outgoing 0 (linesFrom [] s.items).2 (linesFrom [] s.items).1
  rw [← account_eq_followLines] at hconn hclosed hspeed hhandled
  exact ⟨congrArg₂ SessionState.mk hconn hclosed, hspeed, hhandled⟩

structure GoesAlike (e₁ e₂ : Engine) (s₁ s₂ : Stream) : Prop where
  report : (e₁.serve s₁).1 = (e₂.serve s₂).1
  connected : (e₁.serve s₁).2.2.session.connected = (e₂.serve s₂).2.2.session.connected
  /-- Neither touches the other flag. -/
  closed : (e₁.serve s₁).2.2.session.closed = e₁.session.closed ∧
    (e₂.serve s₂).2.2.session.closed = e₂.session.closed
  responses : e₁.responses s₁ = e₂.responses s₂
  motions : ∃ motions : List Motion,
    (e₁.serve s₁).2.2.drive.calls =
        e₁.drive.calls ++ motions.map (·.call e₁.speed.normalize) ∧
      (e₂.serve s₂).2.2.drive.calls =
        e₂.drive.calls ++ motions.map (·.call e₂.speed.normalize)

theorem goesAlike {e₁ e₂ : Engine} {s₁ s₂ : Stream}
    (hconn : e₁.session.connected = e₂.session.connected)
    (harrivals : s₁.arrivals = s₂.arrivals) (hfail : s₁.FailAlike s₂) :
    GoesAlike e₁ e₂ s₁ s₂ := by
  have hitems : s₁.items = s₂.items := congrArg (List.flatMap Arrival.items) harrivals
  have hcourse : SameCourse e₁ e₂ (e₁.account s₁) (e₂.account s₂) := by
    rw [account_eq_followLines, account_eq_followLines, hitems]
    exact sameCourse_followLines hconn hfail.outgoing _ _ _
  obtain ⟨motions, hmotions₁, hmotions₂⟩ := hcourse.motions
  refine ⟨hcourse.report, hcourse.connected, ⟨?_, ?_⟩, hcourse.responses, motions, ?_, ?_⟩
  · rw [(e₁.kept_serve s₁).1]
  · rw [(e₂.kept_serve s₂).1]
  · rw [(e₁.tally_serve s₁).2]
    exact congrArg (e₁.drive.calls ++ ·) hmotions₁
  · rw [(e₂.tally_serve s₂).2]
    exact congrArg (e₂.drive.calls ++ ·) hmotions₂

/-- **Two runs on the same arrivals go alike if the same flag stands at their start and their writes
and flushes fail at the same calls.** Each sends one write for each command. -/
theorem serve_goes_alike {e₁ e₂ : Engine} {s₁ s₂ : Stream}
    (hconn : e₁.session.connected = e₂.session.connected)
    (harrivals : s₁.arrivals = s₂.arrivals) (hfail : s₁.FailAlike s₂) :
    GoesAlike e₁ e₂ s₁ s₂ ∧ e₁.SendsAnswers s₁ ∧ e₂.SendsAnswers s₂ :=
  ⟨goesAlike hconn harrivals hfail, e₁.sendsAnswers s₁, e₂.sendsAnswers s₂⟩

/-- The operator drives and leaves. On one side all goes well; on the other the stream takes three
bytes and then none, the drive is broken and the shutdown fails. -/
theorem serve_goes_alike_short :
    let arrivals : List Arrival := [.chunk (line "CONN" ++ line "FWD"), .chunk (line "DISCONN")]
    let well : Engine := { drive := .simulated "drive" false }
    let ill : Engine := { drive := .simulated "drive" true, speed := .one }
    let wide : Stream := { arrivals }
    let narrow : Stream :=
      { arrivals, writes := [.upTo 3, .upTo 0], shutdowns := [some ⟨.brokenPipe, "gone"⟩] }
    wide.FailAlike narrow ∧ GoesAlike well ill wide narrow ∧
      well.SendsAnswers wide ∧ ill.SendsAnswers narrow := by
  intro arrivals well ill wide narrow
  have hfail : wide.FailAlike narrow :=
    ⟨fun k => match k with
      | 0 | 1 | _ + 2 => rfl, rfl⟩
  exact ⟨hfail, serve_goes_alike rfl rfl hfail⟩

end Engine

end Teleop
