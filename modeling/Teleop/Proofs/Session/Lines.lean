import Teleop.Proofs.Session.Dispatches
import Teleop.Proofs.Wire.Directions

/-!
# A run of the command channel on whole lines

The run without a channel: the lines of the input, each at its full length, go through the table one
after the other. A run of the engine on a stream does the same, whatever the buffer and the chunks
make of the lines.
-/

namespace Teleop

/-- The complete lines before the first item that is no byte, and how a run ends that follows all
of them. The first line goes on from `line`. -/
def linesFrom (line : Bytes) : List Item → List Bytes × CommandEnd
  | [] => ([], .peerDisconnected)
  | .nothing :: _ => ([], .peerDisconnected)
  | .failure e :: _ =>
    ([], if e.kind = .unexpectedEof then .peerDisconnected else .transportFailed e)
  | .byte b :: rest =>
    if b = terminator then (line :: (linesFrom [] rest).1, (linesFrom [] rest).2)
    else linesFrom (line ++ [b]) rest

/-- All that a run can be told apart by, but for its reads. -/
structure Account where
  report : CommandReport
  /-- The side of the stream that was written to. -/
  out : Stream
  engine : Engine
  dispatches : List Dispatch

def Account.behind (a : Account) (ds : List Dispatch) : Account :=
  { a with dispatches := ds ++ a.dispatches }

/-- Follows the lines until an answer closes the channel, an answer cannot be sent, or the lines
are used up. `count` is the number of lines before them and `out` the stream that is written to. -/
def Engine.followLines (e : Engine) (out : Stream) (count : Nat) (ending : CommandEnd) :
    List Bytes → Account
  | [] =>
    { report := { commands := count, ending }, out, engine := e.setConnected false, dispatches := [] }
  | line :: rest =>
    match out.answer (e.row line).response with
    | (some error, out) =>
      { report := { commands := count + 1, ending := .transportFailed error }
        out
        engine := (e.follow line).setConnected false
        dispatches := [e.dispatched line] }
    | (none, out) =>
      if (e.row line).closes then
        { report := { commands := count + 1, ending := .closed (e.row line).response }
          out := out.shutdown.2
          engine := e.follow line
          dispatches := [e.dispatched line] }
      else ((e.follow line).followLines out (count + 1) ending rest).behind [e.dispatched line]

/-! ## Lines one at a time -/

theorem linesFrom_of_ok {line l : Bytes} {items rest : List Item}
    (h : takeLine line items = (.ok l, rest)) :
    linesFrom line items = (l :: (linesFrom [] rest).1, (linesFrom [] rest).2) := by
  fun_induction takeLine line items with
  | case1 => simp at h
  | case2 => simp at h
  | case3 => simp at h
  | case4 line rest' =>
    obtain ⟨hl, rfl⟩ := Prod.mk.inj h
    obtain rfl := Except.ok.inj hl
    simp [linesFrom]
  | case5 line b rest' hb ih => rw [linesFrom, if_neg hb, ih h]

theorem linesFrom_of_error {line : Bytes} {items rest : List Item} {error : ChannelError}
    (h : takeLine line items = (.error error, rest)) :
    linesFrom line items = ([], error.ending) := by
  fun_induction takeLine line items with
  | case1 =>
    obtain ⟨he, -⟩ := Prod.mk.inj h
    obtain rfl := Except.error.inj he
    rfl
  | case2 =>
    obtain ⟨he, -⟩ := Prod.mk.inj h
    obtain rfl := Except.error.inj he
    rfl
  | case3 line e rest' =>
    obtain ⟨he, -⟩ := Prod.mk.inj h
    obtain rfl := Except.error.inj he
    rw [linesFrom, Channel.readError]
    split <;> rfl
  | case4 => simp at h
  | case5 line b rest' hb ih => rw [linesFrom, if_neg hb, ih h]

/-! ## The account of a run -/

namespace CommandRun

theorem finish_of_ending {r : CommandRun} {ending : CommandEnd}
    (h : r.ending? = some ending) (e : Engine) : r.finish e = (ending, r, e) := by
  rw [finish]
  split
  · rename_i h'
    rw [h] at h'
    obtain rfl := Option.some.inj h'
    rfl
  · rename_i h'
    rw [h] at h'
    cases h'

theorem finish_of_none {r : CommandRun} (h : r.ending? = none) (e : Engine) :
    r.finish e = (r.step e).1.finish (r.step e).2 := by
  rw [finish]
  split
  · rename_i h'
    rw [h] at h'
    cases h'
  · rfl

def account (r : CommandRun) (e : Engine) : Account where
  report := { commands := (r.finish e).2.1.commands, ending := (r.finish e).1 }
  out := (r.finish e).2.1.channel.stream.outgoing
  engine := (r.finish e).2.2
  dispatches := r.dispatches e

theorem account_of_ending {r : CommandRun} {ending : CommandEnd} (h : r.ending? = some ending)
    (e : Engine) :
    r.account e =
      { report := { commands := r.commands, ending }
        out := r.channel.stream.outgoing
        engine := e
        dispatches := [] } := by
  rw [account, finish_of_ending h, dispatches_of_ending h]

theorem account_of_none {r : CommandRun} (h : r.ending? = none) (e : Engine) :
    r.account e = ((r.step e).1.account (r.step e).2).behind (r.dispatch? e).toList := by
  rw [account, finish_of_none h, dispatches_of_none h]
  rfl

theorem account_lose (r : CommandRun) (error : ChannelError) (e : Engine) :
    (r.lose error e).1.account (r.lose error e).2 =
      { report := { commands := r.commands, ending := error.ending }
        out := r.channel.stream.outgoing
        engine := e.setConnected false
        dispatches := [] } := by
  rw [account_of_ending (ending?_lose r error e), commands_lose, stream_lose, engine_lose]

/-! ## One round: a message and its answer -/

theorem account_of_unsent {r : CommandRun} {reply : Reply} {error : StreamError}
    (hphase : r.phase = .answering reply)
    (h : (r.channel.respond reply.response).1 = .error (.stream error)) (e : Engine) :
    r.account e =
      { report := { commands := r.commands, ending := .transportFailed error }
        out := (r.channel.respond reply.response).2.stream.outgoing
        engine := e.setConnected false
        dispatches := [] } := by
  have hend : r.ending? = none := by rw [ending?, hphase]
  rw [account_of_none hend, dispatch?_of_ne (by simp [hphase]),
    step_unsent hphase (Prod.ext h rfl), account_lose]
  rfl

theorem account_of_sent {r : CommandRun} {reply : Reply} {n : Nat}
    (hphase : r.phase = .answering reply)
    (h : (r.channel.respond reply.response).1 = .ok n) (e : Engine) :
    r.account e =
      if reply.close then
        { report := { commands := r.commands, ending := .closed reply.response }
          out := (r.channel.respond reply.response).2.stream.outgoing.shutdown.2
          engine := e
          dispatches := [] }
      else
        account { channel := (r.channel.respond reply.response).2, commands := r.commands } e := by
  have hend : r.ending? = none := by rw [ending?, hphase]
  rw [account_of_none hend, dispatch?_of_ne (by simp [hphase]), step_sent hphase (Prod.ext h rfl)]
  cases reply.close with
  | true =>
    rw [if_pos rfl, if_pos rfl, account_of_none rfl, dispatch?_of_ne (by simp), step_closing rfl,
      account_of_ending rfl, Channel.outgoing_shutdown]
    rfl
  | false =>
    rw [if_neg (by simp), if_neg (by simp)]
    rfl

theorem account_of_takeLine_error {r : CommandRun} {error : ChannelError} {rest : List Item}
    (hphase : r.phase = .reading) (h : takeLine [] r.channel.items = (.error error, rest))
    (e : Engine) :
    r.account e =
      { report := { commands := r.commands, ending := error.ending }
        out := r.channel.stream.outgoing
        engine := e.setConnected false
        dispatches := [] } := by
  have hend : r.ending? = none := by rw [ending?, hphase]
  have hread := (readMessage_items messageCapacity r.channel).1
  rw [h] at hread
  have hmessage : r.channel.readMessage messageCapacity =
      (.error error, (r.channel.readMessage messageCapacity).2) := Prod.ext hread rfl
  rw [account_of_none hend, dispatch?_reading_error hphase hmessage,
    step_reading_error hphase hmessage, account_lose, Channel.outgoing_readMessage]
  rfl

theorem account_of_takeLine_ok {r : CommandRun} {line : Bytes} {rest : List Item}
    (hphase : r.phase = .reading) (h : takeLine [] r.channel.items = (.ok line, rest))
    (e : Engine) :
    ∃ c reply, reply.response = (e.row line).response ∧ reply.close = (e.row line).closes ∧
      c.items = rest ∧ c.stream.outgoing = r.channel.stream.outgoing ∧
      r.account e =
        (account { channel := c, phase := .answering reply, commands := r.commands + 1 }
          (e.follow line)).behind [e.dispatched line] := by
  have hend : r.ending? = none := by rw [ending?, hphase]
  obtain ⟨hread, hitems⟩ := readMessage_items messageCapacity r.channel
  rw [h] at hread hitems
  have hmessage : r.channel.readMessage messageCapacity =
      (.ok (.cut messageCapacity line), (r.channel.readMessage messageCapacity).2) :=
    Prod.ext hread rfl
  obtain ⟨reply, hresponse, hclose, hstep⟩ := step_reading_ok hphase hmessage e
  rw [Message.cut, e.row_take] at hresponse hclose
  refine ⟨(r.channel.readMessage messageCapacity).2.warn reply.notices, reply, hresponse, hclose,
    hitems, Channel.outgoing_readMessage _ _, ?_⟩
  rw [account_of_none hend, dispatch?_reading_ok hphase hmessage, hstep, Message.cut,
    e.dispatched_take, e.follow_take]
  rfl

theorem account_reading (r : CommandRun) (e : Engine) (hphase : r.phase = .reading) :
    r.account e =
      e.followLines r.channel.stream.outgoing r.commands (linesFrom [] r.channel.items).2
        (linesFrom [] r.channel.items).1 := by
  -- Every round uses up a line, so the induction is on the lines that are left.
  induction hlines : (linesFrom [] r.channel.items).1 generalizing r e with
  | nil =>
    rcases htake : takeLine [] r.channel.items with ⟨error | line, rest⟩
    · rw [account_of_takeLine_error hphase htake, linesFrom_of_error htake]
      rfl
    · rw [linesFrom_of_ok htake] at hlines
      cases hlines
  | cons line lines ih =>
    rcases htake : takeLine [] r.channel.items with ⟨error | line', rest⟩
    · rw [linesFrom_of_error htake] at hlines
      cases hlines
    · rw [linesFrom_of_ok htake] at hlines ⊢
      obtain ⟨rfl, hrest⟩ := List.cons.inj hlines
      obtain ⟨c, reply, hresponse, hclose, hitems, hout, haccount⟩ :=
        account_of_takeLine_ok hphase htake e
      rw [haccount, Engine.followLines, ← hout, ← hresponse, ← hclose]
      rcases Channel.respond_answer reply.response c with ⟨error, hfail, hanswer⟩ | ⟨⟨n, hok⟩, hanswer⟩
      · rw [account_of_unsent rfl hfail, hanswer]
        rfl
      · rw [account_of_sent rfl hok, hanswer]
        simp only
        split
        · rfl
        · have hitems' : (c.respond reply.response).2.items = rest :=
            (Channel.items_respond reply.response c).trans hitems
          have := ih { channel := (c.respond reply.response).2, commands := r.commands + 1 }
            (e.follow line') rfl (by rw [hitems', hrest])
          rw [this, hitems']

end CommandRun

/-! ## Serving a stream -/

namespace Engine

def dispatches (e : Engine) (s : Stream) : List Dispatch :=
  CommandRun.dispatches { channel := { stream := s } } e

def account (e : Engine) (s : Stream) : Account :=
  CommandRun.account { channel := { stream := s } } e

theorem account_eq_followLines (e : Engine) (s : Stream) :
    e.account s =
      e.followLines s.outgoing 0 (linesFrom [] s.items).2 (linesFrom [] s.items).1 :=
  CommandRun.account_reading _ e rfl

/-- **Serving a stream is following its lines at their full length.** -/
theorem serve_follows_lines (e : Engine) (s : Stream) :
    let lines := linesFrom [] s.items
    let account := e.followLines s.outgoing 0 lines.2 lines.1
    (e.serve s).1 = account.report ∧
      (e.serve s).2.1.stream.outgoing = account.out ∧
      (e.serve s).2.2 = account.engine ∧
      e.dispatches s = account.dispatches := by
  have h := e.account_eq_followLines s
  exact ⟨congrArg Account.report h, congrArg Account.out h, congrArg Account.engine h,
    congrArg Account.dispatches h⟩

end Engine

end Teleop
