import Mathlib.Data.List.Forall2
import Teleop.Proofs.Session.Table
import Teleop.Proofs.Wire.Messages

/-!
# Which lines are commands

A line is the command whose token it is, byte for byte, and a line that is no token is no command.
A reader that gets only the first bytes of each line finds the same commands just if it gets more of
them than the longest token has. A message keeps that many.
-/

namespace Teleop.Command

/-! ## Tokens -/

def vocabulary : List String :=
  ["CONN", "DISCONN", "PING", "PICTURE", "FWD", "BKWD", "STOP", "ROTATE_LEFT", "ROTATE_RIGHT",
   "FRONT_L", "FRONT_R", "BCK_L", "BCK_R"]

theorem vocabulary_eq : vocabulary = all.map token := rfl

/-- What a line stands for: the command whose token it is, or nothing. -/
def Denotes (line : Bytes) : Option Command → Prop
  | some c => line = .ofText c.token
  | none => ∀ c : Command, line ≠ .ofText c.token

theorem parse?_eq_iff {word : Bytes} {answer : Option Command} :
    parse? word = answer ↔ Denotes word answer := by
  cases answer with
  | some c => exact parse?_eq_some_iff
  | none =>
    rw [Option.eq_none_iff_forall_ne_some]
    exact forall_congr' fun c => not_congr parse?_eq_some_iff

theorem isSome_parse?_iff {word : Bytes} :
    (parse? word).isSome = true ↔ word ∈ vocabulary.map .ofText := by
  rw [Option.isSome_iff_exists, vocabulary_eq, List.map_map, List.mem_map]
  constructor
  · rintro ⟨c, hc⟩
    exact ⟨c, c.mem_all, bytes_of_parse? hc⟩
  · rintro ⟨c, -, hc⟩
    exact ⟨c, parse?_eq_some_iff.mpr hc.symm⟩

theorem isPartialInv_parse? : Function.IsPartialInv bytes parse? :=
  fun _ _ => parse?_eq_some_iff.trans eq_comm

theorem token_injective : Function.Injective token := by
  have hbytes : Function.Injective (Bytes.ofText ∘ token) := isPartialInv_parse?.injective
  exact hbytes.of_comp

theorem motionToken_injective : Function.Injective Motion.token := by
  intro m m' h
  exact Command.motion.inj (token_injective h)

/-! ## Lines that are cut -/

theorem parse?_of_long {line : Bytes} (h : 12 < line.length) : parse? line = none := by
  rw [parse?_eq_iff]
  rintro c rfl
  exact Nat.not_lt_of_le (length_bytes_le c) h

theorem terminator_not_mem_bytes (c : Command) : terminator ∉ c.bytes := by
  cases c with
  | motion m => cases m <;> decide
  | _ => decide

/-- A token as long as what is kept could not be told from a line that goes on behind it. -/
theorem length_lt_of_take {n : Nat}
    (h : ∀ line, terminator ∉ line → parse? (line.take n) = parse? line) (c : Command) :
    c.bytes.length < n := by
  have hkept := h c.bytes c.terminator_not_mem_bytes
  rw [parse?_bytes, parse?_eq_some_iff] at hkept
  have hle : c.bytes.length ≤ n := by
    have hlength := congrArg List.length hkept
    rw [List.length_take] at hlength
    omega
  -- Were it just as long, the token with one byte more would be cut to the token.
  refine Nat.lt_of_le_of_ne hle fun hn => ?_
  have hfree : terminator ∉ c.bytes ++ [0] := by
    rw [List.mem_append, not_or]
    exact ⟨c.terminator_not_mem_bytes, by decide⟩
  have hlonger := h (c.bytes ++ [0]) hfree
  rw [← hn, List.take_left, parse?_bytes] at hlonger
  have hlength := congrArg List.length (bytes_of_parse? hlonger.symm)
  simp at hlength

theorem parse?_take_iff {n : Nat} :
    (∀ line, terminator ∉ line → parse? (line.take n) = parse? line) ↔ 12 < n := by
  constructor
  · intro h
    exact length_lt_of_take h (.motion .rotateRight)
  · intro h line _
    exact parse?_take_of_lt (fun c => Nat.lt_of_le_of_lt (length_bytes_le c) h) line

/-- Twelve bytes do not show that the line goes on. -/
example : parse? (.ofText "ROTATE_RIGHT!") = none ∧
    parse? ((Bytes.ofText "ROTATE_RIGHT!").take 12) = some (.motion .rotateRight) := by
  decide

/-! ## Lines that are read -/

/-- The message is the command that the whole line stands for, and no command if it lost some of the
line. -/
def Recognised (line : Bytes) : Except ChannelError Message → Prop
  | .ok m =>
    (∀ answer, parse? m.bytes = answer ↔ Denotes line answer) ∧
      (m.isTruncated = true → parse? m.bytes = none)
  | .error _ => False

theorem recognised_cut (line : Bytes) : Recognised line (.ok (.cut messageCapacity line)) := by
  rw [Recognised, Message.isTruncated_cut, Message.cut, parse?_take]
  refine ⟨fun answer => parse?_eq_iff, fun hcut => parse?_of_long ?_⟩
  exact Nat.lt_trans (by decide) hcut

theorem recognised_lines {c : Channel} {lines : List Bytes} {rest : List Item}
    (hlines : ∀ line ∈ lines, terminator ∉ line)
    (hitems : c.items = (lines.flatMap (· ++ [terminator])).map .byte ++ rest) :
    List.Forall₂ Recognised lines (c.readMessages (lines.map fun _ => messageCapacity)).1 := by
  obtain ⟨hmessages, -⟩ := Channel.readMessages_lines messageCapacity hlines hitems
  rw [hmessages, List.forall₂_map_right_iff, List.forall₂_same]
  exact fun line _ => recognised_cut line

/-- **A line is a command just if it is one of the thirteen tokens, byte for byte, also where only
its first bytes are looked at.** -/
theorem known_by_token :
    (∀ line answer, parse? (line.take messageCapacity) = answer ↔ Denotes line answer) ∧
      (∀ word, (parse? word).isSome = true ↔ word ∈ vocabulary.map .ofText) ∧
      vocabulary.length = 13 ∧ vocabulary.Nodup ∧
      (∀ c : Command, parse? (.ofText c.token) = some c) ∧
      (∀ word c, parse? word = some c → .ofText c.token = word) ∧
      Function.Injective token ∧ Function.Injective Motion.token ∧
      (∀ n, (∀ line, terminator ∉ line → parse? (line.take n) = parse? line) ↔ 12 < n) ∧
      ∀ (channel : Channel) (lines : List Bytes) (rest : List Item),
        (∀ line ∈ lines, terminator ∉ line) →
        channel.items = (lines.flatMap (· ++ [terminator])).map .byte ++ rest →
        List.Forall₂ Recognised lines
          (channel.readMessages (lines.map fun _ => messageCapacity)).1 := by
  refine ⟨fun line answer => ?_, fun _ => isSome_parse?_iff, rfl, by decide, parse?_bytes,
    fun _ _ => bytes_of_parse?, token_injective, motionToken_injective, fun _ => parse?_take_iff,
    fun _ _ _ => recognised_lines⟩
  rw [parse?_take, parse?_eq_iff]

/-- The first line begins with a token and goes on behind what a message keeps. -/
theorem known_by_token_behind_long_line :
    let channel : Channel :=
      { stream := { arrivals := [.chunk (.ofText "ROTATE_RIGHTXX"), .chunk (.ofText "XXFWD\nST"),
          .chunk (.ofText "OP\n"), .failure ⟨.timedOut, "late"⟩] } }
    let lines := [Bytes.ofText "ROTATE_RIGHTXXXXFWD", Bytes.ofText "STOP"]
    let rest : List Item := [.failure ⟨.timedOut, "late"⟩]
    (∀ line ∈ lines, terminator ∉ line) ∧
      channel.items = (lines.flatMap (· ++ [terminator])).map .byte ++ rest ∧
      List.Forall₂ Recognised lines
        (channel.readMessages (lines.map fun _ => messageCapacity)).1 := by
  intro channel lines rest
  have hlines : ∀ line ∈ lines, terminator ∉ line := by decide
  have hitems : channel.items = (lines.flatMap (· ++ [terminator])).map .byte ++ rest := by decide
  obtain ⟨-, -, -, -, -, -, -, -, -, hread⟩ := known_by_token
  exact ⟨hlines, hitems, hread channel lines rest hlines hitems⟩

end Teleop.Command
