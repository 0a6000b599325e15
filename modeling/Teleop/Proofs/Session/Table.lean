import Teleop.Session.Dispatch

/-!
# The table of the command channel

What a line does before and after the operator has connected, row by row. Dispatching a message
follows the table, and a message that was cut short follows the same row as its whole line.
-/

namespace Teleop

/-- What a line does: the answer to it, whether the channel closes behind the answer, whether the
operator is connected from then on, and the motion that the drive makes. -/
structure TableRow where
  response : Response
  closes : Bool := false
  connected : Bool
  motion? : Option Motion := none
deriving DecidableEq, Repr

/-- The row for a command, or for a line that is no command. -/
def table : (connected : Bool) → Option Command → TableRow
  | false, some .conn => { response := .connOk, connected := true }
  | false, some .disconn => { response := .disconnErr, connected := false }
  | false, _ => { response := .cmdErr, closes := true, connected := false }
  | true, some .conn => { response := .connErr, closes := true, connected := false }
  | true, some .disconn => { response := .disconnOk, closes := true, connected := false }
  | true, some .ping => { response := .ping, connected := true }
  | true, some .picture => { response := .pictureErr, connected := true }
  | true, some (.motion m) => { response := .ack m, connected := true, motion? := some m }
  | true, none => { response := .cmdErr, connected := true }

theorem connected_of_closes {connected : Bool} {c : Option Command}
    (h : (table connected c).closes = true) : (table connected c).connected = false := by
  unfold table at h ⊢
  split <;> first | rfl | simp at h

namespace Engine

def row (e : Engine) (line : Bytes) : TableRow := table e.session.connected (Command.parse? line)

def callsFor (e : Engine) (line : Bytes) : List DriveCall :=
  (e.row line).motion?.toList.map fun m => m.call e.speed.normalize

def follow (e : Engine) (line : Bytes) : Engine :=
  { e with
    session := e.session.setConnected (e.row line).connected
    drive := match (e.row line).motion? with
      | some m => (e.drive.execute m e.speed).2
      | none => e.drive
    handled := e.handled + 1 }

theorem calls_follow (e : Engine) (line : Bytes) :
    (e.follow line).drive.calls = e.drive.calls ++ e.callsFor line := by
  simp only [follow, callsFor]
  cases (e.row line).motion? <;> simp

theorem setConnected_self (s : SessionState) {value : Bool} (h : s.connected = value) :
    s.setConnected value = s := by
  cases s
  simp_all [SessionState.setConnected]

theorem move_eq (e : Engine) (m : Motion) :
    (e.move m).1.response = .ack m ∧ (e.move m).1.close = false ∧
      (e.move m).2 = { e with drive := (e.drive.execute m e.speed).2 } := by
  unfold move
  split <;> rename_i h <;> rw [h] <;> exact ⟨rfl, rfl, rfl⟩

theorem dispatch_row (e : Engine) (word : Bytes) :
    (e.dispatch word).1.response = (e.row word).response ∧
      (e.dispatch word).1.close = (e.row word).closes ∧
      ({ e with handled := e.handled + 1 }.dispatch word).2 = e.follow word := by
  have hself : ∀ {value}, e.session.connected = value → e.session.setConnected value = e.session :=
    setConnected_self e.session
  unfold dispatch row follow row table
  cases hconn : e.session.connected with
  | false =>
    rcases Command.parse? word with _ | c
    · simp [hself hconn]
    · cases c <;> simp [setConnected, hself hconn]
  | true =>
    rcases Command.parse? word with _ | c
    · simp [hself hconn]
    · cases c with
      | motion m =>
        obtain ⟨hresponse, hclose, -⟩ := e.move_eq m
        obtain ⟨-, -, hengine⟩ := { e with handled := e.handled + 1 }.move_eq m
        exact ⟨hresponse, hclose, by rw [hengine, hself hconn]⟩
      | _ => simp [setConnected, hself hconn]

end Engine

/-! ## Long lines -/

theorem length_bytes_le (c : Command) : c.bytes.length ≤ 12 := by
  cases c with
  | motion m => cases m <;> decide
  | _ => decide

/-- Cutting a line makes no command of it and takes none away if more is kept than any token
has. -/
theorem parse?_take_of_lt {n : Nat} (h : ∀ c : Command, c.bytes.length < n) (line : Bytes) :
    Command.parse? (line.take n) = Command.parse? line := by
  unfold Command.parse?
  congr 1
  funext c
  rcases Nat.lt_or_ge n line.length with hlong | hshort
  · have hc := h c
    have hcut : c.bytes ≠ line.take n := fun h => by
      have := congrArg List.length h
      rw [List.length_take] at this
      omega
    have hline : c.bytes ≠ line := fun h => by
      have := congrArg List.length h
      omega
    rw [beq_eq_false_iff_ne.mpr hcut, beq_eq_false_iff_ne.mpr hline]
  · rw [List.take_of_length_le hshort]

theorem parse?_take (line : Bytes) :
    Command.parse? (line.take messageCapacity) = Command.parse? line :=
  parse?_take_of_lt (fun c => Nat.lt_of_le_of_lt (length_bytes_le c) (by decide)) line

namespace Engine

theorem row_take (e : Engine) (line : Bytes) :
    e.row (line.take messageCapacity) = e.row line := by
  rw [row, row, parse?_take]

theorem follow_take (e : Engine) (line : Bytes) :
    e.follow (line.take messageCapacity) = e.follow line := by
  rw [follow, follow, row_take]

end Engine

end Teleop
