import Mathlib.Algebra.Ring.Nat
import Teleop.Proofs.Session.Lines

/-!
# What the drive is told

An engine answers single messages and serves whole streams, in any order. The drive is told to move
by the motion tokens that find the operator connected and by nothing else, at a speed from zero to
one.
-/

namespace Teleop

/-! ## Speeds -/

namespace Speed

theorem magnitude_eq (s : Speed) : s.magnitude = s.bits.toNat % 0x80000000 := rfl

theorem isNegative_eq (s : Speed) : s.isNegative = decide (0x80000000 ≤ s.bits.toNat) := rfl

theorem isNaN_eq (s : Speed) : s.isNaN = decide (0x7F800000 < s.magnitude) := rfl

/-- The bits of the speeds from zero to one: those of `0.0` up to those of `1.0`, and `-0.0`. -/
theorem inUnit_iff_bits (s : Speed) :
    s.InUnit ↔ s.bits.toNat ≤ 0x3F800000 ∨ s.bits.toNat = 0x80000000 := by
  have hbits := s.bits.toNat_lt
  have hone : one.rank = 0x3F800000 := by decide
  rw [InUnit, hone, rank, isNaN_eq, isNegative_eq, magnitude_eq]
  by_cases hnegative : 0x80000000 ≤ s.bits.toNat
  · simp only [hnegative, decide_true, if_true, decide_eq_false_iff_not]
    omega
  · simp only [hnegative, decide_false, Bool.false_eq_true, if_false, decide_eq_false_iff_not]
    omega

theorem value_of_inUnit {s : Speed} (h : s.InUnit) :
    ∃ (negative : Bool) (mantissa k : Nat), s.value = .finite negative mantissa (k - 149) ∧
      mantissa * 2 ^ k ≤ 2 ^ 149 ∧ (negative = true → mantissa = 0) := by
  rcases s.inUnit_iff_bits.mp h with hbits | hbits
  · have hnegative : Number.BinaryFormat.single.isNegative s.bits.toNat = false := by
      rw [← isNegative, isNegative_eq]
      exact decide_eq_false (by omega)
    have hmagnitude : Number.BinaryFormat.single.magnitude s.bits.toNat = s.bits.toNat := by
      rw [← magnitude, magnitude_eq, Nat.mod_eq_of_lt (by omega)]
    have hinfinity : Number.BinaryFormat.single.infinity = 0x7F800000 := rfl
    rw [value, Number.BinaryFormat.read, hnegative, hmagnitude, hinfinity, if_neg (by omega),
      if_neg (by omega)]
    have hunit : Nat.pow 2 Number.BinaryFormat.single.fractionBits = 2 ^ 23 := rfl
    rw [hunit]
    have hdiv := Nat.div_add_mod s.bits.toNat (2 ^ 23)
    have hmod := Nat.mod_lt s.bits.toNat (show 0 < 2 ^ 23 by decide)
    cases hexp : s.bits.toNat / 2 ^ 23 with
    | zero =>
      refine ⟨false, _, 0, rfl, ?_, by simp⟩
      rw [Nat.pow_zero, Nat.mul_one]
      exact Nat.le_trans (Nat.le_of_lt hmod) (by decide)
    | succ e =>
      refine ⟨false, 2 ^ 23 + s.bits.toNat % 2 ^ 23, e, ?_, ?_, by simp⟩
      · exact congrArg _ (Int.add_comm _ _)
      · rw [hexp] at hdiv
        generalize s.bits.toNat % 2 ^ 23 = r at hdiv hmod
        by_cases htop : e = 126
        · obtain rfl : r = 0 := by omega
          subst htop
          decide
        · calc (2 ^ 23 + r) * 2 ^ e
              ≤ 2 ^ 24 * 2 ^ 125 :=
                Nat.mul_le_mul (by omega) (Nat.pow_le_pow_right (by decide) (by omega))
            _ = 2 ^ 149 := by decide
  · refine ⟨true, 0, 0, ?_, by simp, fun _ => rfl⟩
    rw [value, hbits]
    rfl

theorem normalize_normalize (s : Speed) : s.normalize.normalize = s.normalize :=
  normalize_of_inUnit (normalize_inUnit s)

end Speed

/-! ## Primitives -/

/-- The primitives of the motion tokens. A stop takes no speed. -/
def primitives : List (String × (Speed → DriveCall)) :=
  [("FWD", .forward), ("BKWD", .backward), ("STOP", fun _ => .idle),
   ("ROTATE_LEFT", .rotateLeft), ("ROTATE_RIGHT", .rotateRight),
   ("FRONT_L", .turnLeftFront), ("FRONT_R", .turnRightFront),
   ("BCK_L", .turnLeftBack), ("BCK_R", .turnRightBack)]

/-- The primitive that a word is the token of, byte for byte. -/
def primitive? (word : Bytes) : Option (Speed → DriveCall) :=
  (primitives.find? fun p => Bytes.ofText p.1 == word).map Prod.snd

theorem primitive?_bytes (c : Command) :
    primitive? c.bytes = match c with
      | .motion m => some m.call
      | _ => none := by
  cases c with
  | motion m => cases m <;> rfl
  | _ => rfl

theorem primitives_tokens :
    primitives.map Prod.fst = Motion.all.map Motion.token := rfl

theorem primitive?_eq (word : Bytes) :
    primitive? word = match Command.parse? word with
      | some (.motion m) => some m.call
      | _ => none := by
  cases hparse : Command.parse? word with
  | some c =>
    rw [← Command.bytes_of_parse? hparse, primitive?_bytes]
    cases c <;> rfl
  | none =>
    have hnone : primitives.find? (fun p => Bytes.ofText p.1 == word) = none := by
      rw [List.find?_eq_none]
      rintro p hp hword
      have htoken : p.1 ∈ Motion.all.map Motion.token := by
        rw [← primitives_tokens]
        exact List.mem_map_of_mem hp
      obtain ⟨m, -, hm⟩ := List.mem_map.mp htoken
      have hbytes : (Command.motion m).bytes = word := by
        rw [Command.bytes, Command.token, hm]
        simpa using hword
      rw [← hbytes, Command.parse?_bytes] at hparse
      cases hparse
    rw [primitive?, hnone]
    rfl

/-! ## What an engine hears -/

/-- A message as it is dispatched, and whether it finds the operator connected. -/
structure Heard where
  word : Bytes
  connected : Bool
deriving DecidableEq, Repr

/-- What the drive is told then. -/
def Heard.call? (speed : Speed) (h : Heard) : Option DriveCall :=
  if h.connected = true then (primitive? h.word).map (· speed.normalize) else none

namespace CommandRun

/-- The message that the next step of a run dispatches. -/
def word? (r : CommandRun) : Option Bytes :=
  match r.phase with
  | .reading => (r.channel.readMessage messageCapacity).1.toOption.map Message.bytes
  | _ => none

theorem dispatch?_eq_word? (r : CommandRun) (e : Engine) :
    r.dispatch? e = r.word?.map e.dispatched := by
  unfold dispatch? word?
  cases r.phase with
  | reading =>
    rw [Option.map_map]
    rfl
  | answering _ | closing _ | finished _ => rfl

/-- All that a run dispatches to its end. -/
def heard (r : CommandRun) (e : Engine) : List Heard :=
  match _ : r.ending? with
  | some _ => []
  | none =>
    (r.word?.map (⟨·, e.session.connected⟩)).toList ++ (r.step e).1.heard (r.step e).2
termination_by r.stepsLeft
decreasing_by exact stepsLeft_step ‹_›

end CommandRun

namespace Engine

/-- What happens to an engine: others may change the flags of its session at any time. -/
inductive Doing where
  | dispatch (word : Bytes)
  | serve (s : Stream)
  | sets (connected : Bool)
  | closes
deriving DecidableEq, Repr

def undergo (e : Engine) : Doing → Engine
  | .dispatch word => (e.dispatch word).2
  | .serve s => (e.serve s).2.2
  | .sets connected => e.setConnected connected
  | .closes => { e with session := e.session.close }

def through (e : Engine) (doings : List Doing) : Engine := doings.foldl undergo e

def heardIn (e : Engine) : Doing → List Heard
  | .dispatch word => [⟨word, e.session.connected⟩]
  | .serve s => CommandRun.heard { channel := { stream := s } } e
  | .sets _ | .closes => []

/-- All that is dispatched, in order. -/
def heard : Engine → List Doing → List Heard
  | _, [] => []
  | e, d :: rest => e.heardIn d ++ (e.undergo d).heard rest

theorem callsFor_eq (e : Engine) (word : Bytes) :
    e.callsFor word = (Heard.call? e.speed ⟨word, e.session.connected⟩).toList := by
  rw [callsFor, row, Heard.call?, primitive?_eq]
  cases e.session.connected with
  | false =>
    rcases Command.parse? word with _ | c
    · rfl
    · cases c <;> rfl
  | true =>
    rcases Command.parse? word with _ | c
    · rfl
    · cases c <;> rfl

theorem dispatch_tells (e : Engine) (word : Bytes) :
    (e.dispatch word).2.speed = e.speed ∧
      (e.dispatch word).2.drive.calls = e.drive.calls ++ e.callsFor word := by
  unfold dispatch callsFor row table
  cases e.session.connected with
  | false =>
    rcases Command.parse? word with _ | c
    · exact ⟨rfl, (List.append_nil _).symm⟩
    · cases c <;> exact ⟨rfl, (List.append_nil _).symm⟩
  | true =>
    rcases Command.parse? word with _ | c
    · exact ⟨rfl, (List.append_nil _).symm⟩
    · cases c with
      | motion m =>
        obtain ⟨-, -, hmove⟩ := e.move_eq m
        simp [hmove]
      | _ => exact ⟨rfl, (List.append_nil _).symm⟩

end Engine

namespace CommandRun

theorem speed_step (r : CommandRun) (e : Engine) : (r.step e).2.speed = e.speed := by
  unfold step
  split
  · split
    · rw [engine_lose]
      rfl
    · exact (Engine.dispatch_tells _ _).1
  · split
    · rw [engine_lose]
      rfl
    · rfl
  · rfl
  · rfl

theorem step_tells (r : CommandRun) (e : Engine) :
    (r.step e).2.drive.calls = e.drive.calls ++
      (r.word?.map (Heard.mk · e.session.connected)).toList.filterMap (Heard.call? e.speed) := by
  rw [calls_step, dispatch?_eq_word?]
  cases r.word? with
  | none => rfl
  | some word =>
    have hcalls := e.callsFor_eq word
    simp only [Option.map_some, Option.toList_some, List.flatMap_singleton, Engine.dispatched,
      hcalls]
    cases hcall : Heard.call? e.speed ⟨word, e.session.connected⟩ <;> simp [hcall]

theorem heard_of_ending {r : CommandRun} {ending : CommandEnd} (h : r.ending? = some ending)
    (e : Engine) : r.heard e = [] := by
  rw [heard]
  split
  · rfl
  · rename_i h'
    rw [h] at h'
    cases h'

theorem heard_of_none {r : CommandRun} (h : r.ending? = none) (e : Engine) :
    r.heard e = (r.word?.map (Heard.mk · e.session.connected)).toList ++
      (r.step e).1.heard (r.step e).2 := by
  rw [heard]
  split
  · rename_i h'
    rw [h] at h'
    cases h'
  · rfl

theorem finish_tells (r : CommandRun) (e : Engine) :
    (r.finish e).2.2.speed = e.speed ∧
      (r.finish e).2.2.drive.calls =
        e.drive.calls ++ (r.heard e).filterMap (Heard.call? e.speed) := by
  fun_induction finish r e with
  | case1 r e ending h =>
    rw [heard_of_ending h]
    exact ⟨rfl, (List.append_nil _).symm⟩
  | case2 r e h ih =>
    rw [speed_step] at ih
    obtain ⟨hspeed, hcalls⟩ := ih
    refine ⟨hspeed, ?_⟩
    rw [hcalls, step_tells, heard_of_none h, List.filterMap_append, List.append_assoc]

end CommandRun

namespace Engine

theorem undergo_tells (e : Engine) (d : Doing) :
    (e.undergo d).speed = e.speed ∧
      (e.undergo d).drive.calls =
        e.drive.calls ++ (e.heardIn d).filterMap (Heard.call? e.speed) := by
  cases d with
  | dispatch word =>
    obtain ⟨hspeed, hcalls⟩ := e.dispatch_tells word
    refine ⟨hspeed, ?_⟩
    rw [undergo, hcalls, callsFor_eq, heardIn]
    cases hcall : Heard.call? e.speed ⟨word, e.session.connected⟩ <;> simp [hcall]
  | serve s => exact CommandRun.finish_tells { channel := { stream := s } } e
  | sets _ | closes => exact ⟨rfl, (List.append_nil _).symm⟩

theorem through_tells (e : Engine) (doings : List Doing) :
    (e.through doings).drive.calls =
      e.drive.calls ++ (e.heard doings).filterMap (Heard.call? e.speed) := by
  induction doings generalizing e with
  | nil => exact (List.append_nil _).symm
  | cons d rest ih =>
    obtain ⟨hspeed, hcalls⟩ := e.undergo_tells d
    change ((e.undergo d).through rest).drive.calls = _
    rw [ih, hspeed, hcalls, heard, List.filterMap_append, List.append_assoc]

/-! ## A speed that is normalised in advance -/

/-- The engine of a server that normalises its speed before. -/
def preset (e : Engine) : Engine := { e with speed := e.speed.normalize }

theorem dispatch_preset (e : Engine) (word : Bytes) :
    e.preset.dispatch word = ((e.dispatch word).1, (e.dispatch word).2.preset) := by
  have hexecute : ∀ m, e.drive.execute m e.speed.normalize = e.drive.execute m e.speed := by
    intro m
    rw [Drive.execute, Drive.execute, Speed.normalize_normalize]
  have hmove : ∀ m, e.preset.move m = ((e.move m).1, (e.move m).2.preset) := by
    intro m
    rw [move, move, preset, hexecute]
    split <;> rfl
  rw [dispatch, dispatch, show e.preset.session = e.session from rfl]
  split <;> first | exact hmove _ | rfl

theorem lose_preset (r : CommandRun) (error : ChannelError) (e : Engine) :
    r.lose error e.preset = ((r.lose error e).1, (r.lose error e).2.preset) := by
  cases error <;> rfl

theorem step_preset (r : CommandRun) (e : Engine) :
    r.step e.preset = ((r.step e).1, (r.step e).2.preset) := by
  cases hphase : r.phase with
  | reading =>
    rcases hread : r.channel.readMessage messageCapacity with ⟨error | m, c⟩
    · simp only [CommandRun.step, hphase, hread, lose_preset]
    · have hdispatch : { e.preset with handled := e.preset.handled + 1 }.dispatch m.bytes = _ :=
        dispatch_preset { e with handled := e.handled + 1 } m.bytes
      simp only [CommandRun.step, hphase, hread, hdispatch]
  | answering reply =>
    rcases hanswer : r.channel.respond reply.response with ⟨error | n, c⟩
    · simp only [CommandRun.step, hphase, hanswer, lose_preset]
    · simp only [CommandRun.step, hphase, hanswer]
  | closing response => simp only [CommandRun.step, hphase]
  | finished ending => simp only [CommandRun.step, hphase]

theorem finish_preset (r : CommandRun) (e : Engine) :
    r.finish e.preset = ((r.finish e).1, (r.finish e).2.1, (r.finish e).2.2.preset) := by
  fun_induction CommandRun.finish r e with
  | case1 r e ending h => rw [CommandRun.finish_of_ending h]
  | case2 r e h ih => rw [CommandRun.finish_of_none h, step_preset, ih]

theorem undergo_preset (e : Engine) (d : Doing) : e.preset.undergo d = (e.undergo d).preset := by
  cases d with
  | dispatch word => rw [undergo, dispatch_preset, undergo]
  | serve s =>
    rw [undergo, serve, finish_preset]
    rfl
  | sets _ | closes => rfl

theorem through_preset (e : Engine) (doings : List Doing) :
    e.preset.through doings = (e.through doings).preset := by
  induction doings generalizing e with
  | nil => rfl
  | cons d rest ih =>
    change (e.preset.undergo d).through rest = _
    rw [undergo_preset, ih]
    rfl

/-! ## The laws -/

theorem speed_of_call? {speed s : Speed} {h : Heard} {c : DriveCall}
    (hcall : h.call? speed = some c) (hs : c.speed? = some s) : s = speed.normalize := by
  rw [Heard.call?, primitive?_eq] at hcall
  split at hcall
  · split at hcall
    · next m _ =>
      obtain rfl : m.call speed.normalize = c := Option.some.inj hcall
      cases m <;> cases hs <;> rfl
    · cases hcall
  · cases hcall

/-- What the drive was told while this was done. -/
structure TellsDrive (e : Engine) (doings : List Doing) : Prop where
  /-- One call for every motion token that found the operator connected, and no other call. -/
  log : (e.through doings).drive.calls =
    e.drive.calls ++ (e.heard doings).filterMap (Heard.call? e.speed)
  /-- Every speed is a number from zero to one: the one that was set, if that is such a number. -/
  speeds : ∀ c ∈ (e.heard doings).filterMap (Heard.call? e.speed), ∀ s, c.speed? = some s →
    s.isNaN = false ∧ s.InUnit ∧ (e.speed.InUnit → s = e.speed) ∧ s.normalize = s
  values : ∀ c ∈ (e.heard doings).filterMap (Heard.call? e.speed), ∀ s, c.speed? = some s →
    ∃ (negative : Bool) (mantissa k : Nat), s.value = .finite negative mantissa (k - 149) ∧
      mantissa * 2 ^ k ≤ 2 ^ 149 ∧ (negative = true → mantissa = 0)
  preset : (e.preset.through doings).drive = (e.through doings).drive

theorem tellsDrive (e : Engine) (doings : List Doing) : TellsDrive e doings := by
  have hspeed : ∀ c ∈ (e.heard doings).filterMap (Heard.call? e.speed), ∀ s,
      c.speed? = some s → s = e.speed.normalize := by
    intro c hc s hs
    obtain ⟨h, -, hcall⟩ := List.mem_filterMap.mp hc
    exact speed_of_call? hcall hs
  refine ⟨e.through_tells doings, ?_, ?_, ?_⟩
  · intro c hc s hs
    rw [hspeed c hc s hs]
    have hunit := e.speed.normalize_inUnit
    exact ⟨hunit.1, hunit, Speed.normalize_of_inUnit, Speed.normalize_normalize _⟩
  · intro c hc s hs
    rw [hspeed c hc s hs]
    exact Speed.value_of_inUnit e.speed.normalize_inUnit
  · rw [through_preset]
    rfl

end Engine

end Teleop
