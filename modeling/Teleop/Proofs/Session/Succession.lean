import Mathlib.Algebra.Ring.Nat
import Teleop.Proofs.Session.Indifference

/-!
# Runs one after the other

An engine serves one channel after the other, each with a buffer of its own. However a run ends, it
leaves the operator disconnected, so the next one goes as on an engine that was never used. Only the
count of the messages goes on.
-/

namespace Teleop

/-! ## The log has no say

Two runs on the same stream may differ in what they log, and they do where the drive faults in one
of them only. -/

namespace Channel

/-- The same channel but for what went to the log. -/
structure SameWire (c₁ c₂ : Channel) : Prop where
  stream : c₁.stream = c₂.stream
  buffer : c₁.buffer = c₂.buffer

end Channel

namespace Channel.SameWire

variable {c₁ c₂ : Channel}

theorem warn (h : SameWire c₁ c₂) (ns₁ ns₂ : List Notice) :
    SameWire (c₁.warn ns₁) (c₂.warn ns₂) :=
  ⟨h.stream, h.buffer⟩

theorem readFrom (h : SameWire c₁ c₂) (capacity : Nat) (m : Message) :
    (c₁.readFrom capacity m).1 = (c₂.readFrom capacity m).1 ∧
      SameWire (c₁.readFrom capacity m).2 (c₂.readFrom capacity m).2 := by
  -- The induction is on the reads of one channel; the other takes the same branch each time.
  fun_induction Channel.readFrom capacity m c₁ generalizing c₂ with
  | case1 m c payload rest hline =>
    rw [h.buffer] at hline
    rw [readFrom_of_some hline]
    exact ⟨rfl, h.stream, rfl⟩
  | case2 m c payload hline e s hread =>
    rw [h.buffer] at hline
    rw [h.stream] at hread
    rw [readFrom_of_none hline, hread]
    exact ⟨rfl, rfl, rfl⟩
  | case3 m c payload hline s hread =>
    rw [h.buffer] at hline
    rw [h.stream] at hread
    rw [readFrom_of_none hline, hread]
    exact ⟨rfl, rfl, rfl⟩
  | case4 m c payload hline b bs s hread ih =>
    rw [h.buffer] at hline
    rw [h.stream] at hread
    rw [readFrom_of_none hline, hread]
    exact ih ⟨rfl, rfl⟩

theorem respond (h : SameWire c₁ c₂) (r : Response) :
    (c₁.respond r).1 = (c₂.respond r).1 ∧ SameWire (c₁.respond r).2 (c₂.respond r).2 := by
  unfold Channel.respond send
  rw [h.stream]
  rcases c₂.stream.write r.framed with ⟨e | n, s⟩
  · exact ⟨rfl, rfl, h.buffer⟩
  · dsimp only
    rcases s.flush with ⟨e | _, s'⟩
    · exact ⟨rfl, rfl, h.buffer⟩
    · exact ⟨rfl, rfl, h.buffer⟩

theorem shutdown (h : SameWire c₁ c₂) : SameWire c₁.shutdown.2 c₂.shutdown.2 := by
  unfold Channel.shutdown
  rw [h.stream]
  rcases c₂.stream.shutdown with ⟨e | _, s⟩
  · exact ⟨rfl, h.buffer⟩
  · exact ⟨rfl, h.buffer⟩

end Channel.SameWire

/-! ## Two runs on the same stream -/

/-- The same phase but for the notices of an answer. -/
inductive CommandPhase.Alike : CommandPhase → CommandPhase → Prop
  | reading : Alike .reading .reading
  | answering {a b : Reply} (response : a.response = b.response) (close : a.close = b.close) :
    Alike (.answering a) (.answering b)
  | closing (r : Response) : Alike (.closing r) (.closing r)
  | finished (ending : CommandEnd) : Alike (.finished ending) (.finished ending)

namespace CommandRun

structure Twins (r₁ r₂ : CommandRun) (e₁ e₂ : Engine) : Prop where
  channel : r₁.channel.SameWire r₂.channel
  phase : r₁.phase.Alike r₂.phase
  connected : e₁.session.connected = e₂.session.connected

namespace Twins

variable {r₁ r₂ : CommandRun} {e₁ e₂ : Engine}

theorem ending? (h : Twins r₁ r₂ e₁ e₂) : r₁.ending? = r₂.ending? := by
  have hphase := h.phase
  unfold CommandRun.ending?
  generalize r₁.phase = phase₁ at hphase ⊢
  generalize r₂.phase = phase₂ at hphase ⊢
  cases hphase <;> rfl

theorem lose {c₁ c₂ : Channel} (h : c₁.SameWire c₂) (r₁ r₂ : CommandRun) (e₁ e₂ : Engine)
    (error : ChannelError) :
    Twins ({ r₁ with channel := c₁ }.lose error e₁).1 ({ r₂ with channel := c₂ }.lose error e₂).1
      ({ r₁ with channel := c₁ }.lose error e₁).2 ({ r₂ with channel := c₂ }.lose error e₂).2 := by
  cases error with
  | disconnected => exact ⟨h, .finished _, rfl⟩
  | stream e => exact ⟨h.warn _ _, .finished _, rfl⟩

theorem step (h : Twins r₁ r₂ e₁ e₂) :
    Twins (r₁.step e₁).1 (r₂.step e₂).1 (r₁.step e₁).2 (r₂.step e₂).2 := by
  obtain ⟨hchannel, hphase, hconn⟩ := h
  generalize hphase₁ : r₁.phase = phase₁ at hphase
  generalize hphase₂ : r₂.phase = phase₂ at hphase
  cases hphase with
  | reading =>
    obtain ⟨hread, hchannel'⟩ := hchannel.readFrom messageCapacity {}
    rcases h₁ : r₁.channel.readMessage messageCapacity with ⟨result, c₁⟩
    rcases h₂ : r₂.channel.readMessage messageCapacity with ⟨result', c₂⟩
    simp only [Channel.readMessage] at h₁ h₂
    rw [h₁, h₂] at hread hchannel'
    obtain rfl : result = result' := hread
    cases result with
    | error error =>
      rw [step_reading_error hphase₁ h₁, step_reading_error hphase₂ h₂]
      exact lose hchannel' _ _ _ _ _
    | ok m =>
      obtain ⟨reply₁, hresponse₁, hclose₁, hstep₁⟩ := step_reading_ok hphase₁ h₁ e₁
      obtain ⟨reply₂, hresponse₂, hclose₂, hstep₂⟩ := step_reading_ok hphase₂ h₂ e₂
      have hrow := Engine.row_congr hconn m.bytes
      rw [hstep₁, hstep₂]
      exact ⟨hchannel'.warn _ _, .answering (by rw [hresponse₁, hresponse₂, hrow])
        (by rw [hclose₁, hclose₂, hrow]), congrArg TableRow.connected hrow⟩
  | @answering reply₁ reply₂ hresponse hclose =>
    obtain ⟨hsent, hchannel'⟩ := hchannel.respond reply₁.response
    rcases h₁ : r₁.channel.respond reply₁.response with ⟨result, c₁⟩
    rcases h₂ : r₂.channel.respond reply₁.response with ⟨result', c₂⟩
    rw [h₁, h₂] at hsent hchannel'
    obtain rfl : result = result' := hsent
    rw [hresponse] at h₂
    cases result with
    | error error =>
      rw [step_unsent hphase₁ h₁, step_unsent hphase₂ h₂]
      exact lose hchannel' _ _ _ _ _
    | ok n =>
      rw [step_sent hphase₁ h₁, step_sent hphase₂ h₂, hclose, hresponse]
      refine ⟨hchannel', ?_, hconn⟩
      split
      · exact .closing _
      · exact .reading
  | closing response =>
    rw [step_closing hphase₁, step_closing hphase₂]
    exact ⟨hchannel.shutdown, .finished _, hconn⟩
  | finished ending =>
    rw [step_finished hphase₁, step_finished hphase₂]
    exact ⟨hchannel, by rw [hphase₁, hphase₂]; exact .finished _, hconn⟩

theorem finish (h : Twins r₁ r₂ e₁ e₂) :
    (r₁.finish e₁).2.1.channel.SameWire (r₂.finish e₂).2.1.channel := by
  fun_induction CommandRun.finish r₁ e₁ generalizing r₂ e₂ with
  | case1 r₁ e₁ ending hending =>
    rw [finish_of_ending (h.ending?.symm.trans hending)]
    exact h.channel
  | case2 r₁ e₁ hgoing ih =>
    rw [finish_of_none (h.ending?.symm.trans hgoing)]
    exact ih h.step

end Twins

end CommandRun

/-! ## What a run leaves to the next -/

namespace Engine

variable (e : Engine)

/-- The engine behind the streams that it served, each to its end. -/
def after (e : Engine) (served : List Stream) : Engine :=
  served.foldl (fun e s => (e.serve s).2.2) e

def reports (e : Engine) : List Stream → List CommandReport
  | [] => []
  | s :: served => (e.serve s).1 :: (e.serve s).2.2.reports served

theorem after_cons (s : Stream) (served : List Stream) :
    e.after (s :: served) = (e.serve s).2.2.after served :=
  rfl

theorem speed_after (served : List Stream) : (e.after served).speed = e.speed := by
  induction served generalizing e with
  | nil => rfl
  | cons s served ih => rw [after_cons, ih, (e.kept_serve s).2.1]

theorem connected_after (h : e.session.connected = false) (served : List Stream) :
    (e.after served).session.connected = false := by
  induction served generalizing e with
  | nil => exact h
  | cons s served ih => exact ih _ (congrArg SessionState.connected (e.kept_serve s).1)

theorem handled_after (served : List Stream) :
    (e.after served).handled = e.handled + ((e.reports served).map (·.commands)).sum := by
  induction served generalizing e with
  | nil => rfl
  | cons s served ih =>
    rw [after_cons, ih, (e.kept_serve s).2.2, reports, List.map_cons, List.sum_cons, Nat.add_assoc]

structure ServesAlike (e₁ e₂ : Engine) (s : Stream) : Prop where
  report : (e₁.serve s).1 = (e₂.serve s).1
  stream : (e₁.serve s).2.1.stream = (e₂.serve s).2.1.stream
  calls : ∃ calls, (e₁.serve s).2.2.drive.calls = e₁.drive.calls ++ calls ∧
    (e₂.serve s).2.2.drive.calls = e₂.drive.calls ++ calls
  connected : (e₁.serve s).2.2.session.connected = (e₂.serve s).2.2.session.connected

theorem servesAlike {e₁ e₂ : Engine} (s : Stream)
    (hconn : e₁.session.connected = e₂.session.connected) (hspeed : e₁.speed = e₂.speed) :
    ServesAlike e₁ e₂ s where
  report := (goesAlike hconn rfl (.refl s)).report
  stream := (CommandRun.Twins.finish ⟨⟨rfl, rfl⟩, .reading, hconn⟩).stream
  calls := by
    obtain ⟨motions, hcalls₁, hcalls₂⟩ := (goesAlike hconn rfl (.refl s)).motions
    rw [← hspeed] at hcalls₂
    exact ⟨_, hcalls₁, hcalls₂⟩
  connected := (goesAlike hconn rfl (.refl s)).connected

/-- **Every run but the first goes as on a fresh engine.** Whatever the runs before it were served
and however they ended, it ends with the same report, leaves the same stream and tells the drive the
same. The count of the messages is the sum of the reports. -/
theorem serve_after_others (first : Stream) (others : List Stream) (s : Stream) (drive : Drive) :
    ServesAlike (e.after (first :: others)) { drive, speed := e.speed } s ∧
      ∀ served, (e.after served).handled =
        e.handled + ((e.reports served).map (·.commands)).sum := by
  have hconn : (e.after (first :: others)).session.connected = false :=
    connected_after _ (congrArg SessionState.connected (e.kept_serve first).1) others
  exact ⟨servesAlike s hconn (e.speed_after (first :: others)), e.handled_after⟩

end Engine

end Teleop
