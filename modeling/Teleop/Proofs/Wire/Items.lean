import Mathlib.Data.List.TakeWhile
import Teleop.Wire.Channel

/-!
# What a reader meets

All that arrives on a stream, as one sequence of single items. A channel reads the lines of this
sequence: neither the chunks nor the buffer can be told from them.
-/

namespace Teleop

/-- One thing that a reader can meet. -/
inductive Item where
  | byte (b : UInt8)
  /-- A read of nothing. -/
  | nothing
  | failure (e : StreamError)
deriving DecidableEq, Repr

def Arrival.items : Arrival → List Item
  | .chunk [] => [.nothing]
  | .chunk (b :: bs) => (b :: bs).map .byte
  | .failure e => [.failure e]

def Stream.items (s : Stream) : List Item := s.arrivals.flatMap Arrival.items

/-- What was read and not yet used comes first. -/
def Channel.items (c : Channel) : List Item := c.buffer.map .byte ++ c.stream.items

/-- Takes the next line at its full length, with `line` the part of it that is there already. -/
def takeLine (line : Bytes) : List Item → Except ChannelError Bytes × List Item
  | [] => (.error .disconnected, [])
  | .nothing :: rest => (.error .disconnected, rest)
  | .failure e :: rest => (.error (Channel.readError e), rest)
  | .byte b :: rest => if b = terminator then (.ok line, rest) else takeLine (line ++ [b]) rest

/-! ## One read -/

theorem items_of_drop (bytes : Bytes) (room : Nat) (rest : List Arrival) :
    (if (bytes.drop room).isEmpty then rest else .chunk (bytes.drop room) :: rest).flatMap
        Arrival.items =
      (bytes.drop room).map .byte ++ rest.flatMap Arrival.items := by
  cases bytes.drop room with
  | nil => rfl
  | cons b bs => rfl

theorem items_read {room : Nat} {s s' : Stream} {r : Except StreamError Bytes} (hroom : 0 < room)
    (h : s.read room = (r, s')) :
    (∃ e, r = .error e ∧ s.items = .failure e :: s'.items) ∨
      (r = .ok [] ∧ (s.items = .nothing :: s'.items ∨ (s.items = [] ∧ s'.items = []))) ∨
      ∃ b bs, r = .ok (b :: bs) ∧ s.items = (b :: bs).map .byte ++ s'.items := by
  unfold Stream.read at h
  split at h
  · rename_i harr
    obtain ⟨rfl, rfl⟩ := Prod.mk.inj h
    refine Or.inr (Or.inl ⟨rfl, Or.inr ?_⟩)
    simp [Stream.items, Stream.note, harr]
  · rename_i e rest harr
    obtain ⟨rfl, rfl⟩ := Prod.mk.inj h
    refine Or.inl ⟨e, rfl, ?_⟩
    simp [Stream.items, Stream.note, harr, Arrival.items]
  · rename_i bytes rest harr
    obtain ⟨rfl, rfl⟩ := Prod.mk.inj h
    cases bytes with
    | nil =>
      refine Or.inr (Or.inl ⟨by simp, Or.inl ?_⟩)
      simp [Stream.items, Stream.note, harr, Arrival.items]
    | cons b bs =>
      obtain ⟨k, rfl⟩ : ∃ k, room = k + 1 := ⟨room - 1, by omega⟩
      refine Or.inr (Or.inr ⟨b, bs.take k, rfl, ?_⟩)
      simp only [Stream.items, Stream.note, harr, List.flatMap_cons, Arrival.items,
        items_of_drop (b :: bs) (k + 1) rest]
      rw [← List.append_assoc, ← List.map_append, ← List.take_succ_cons, List.take_append_drop]

theorem items_read_error {room : Nat} {s s' : Stream} {e : StreamError} (hroom : 0 < room)
    (h : s.read room = (.error e, s')) : s.items = .failure e :: s'.items := by
  simpa using items_read hroom h

theorem items_read_nothing {room : Nat} {s s' : Stream} (hroom : 0 < room)
    (h : s.read room = (.ok [], s')) :
    s.items = .nothing :: s'.items ∨ (s.items = [] ∧ s'.items = []) := by
  simpa using items_read hroom h

theorem items_read_bytes {room : Nat} {s s' : Stream} {b : UInt8} {bs : Bytes} (hroom : 0 < room)
    (h : s.read room = (.ok (b :: bs), s')) : s.items = (b :: bs).map .byte ++ s'.items := by
  obtain ⟨_, he, -⟩ | ⟨he, -⟩ | ⟨_, _, he, hitems⟩ := items_read hroom h
  · cases he
  · cases he
  · cases he
    exact hitems

/-! ## Lines -/

theorem splitLine_some {bytes payload rest : Bytes} (h : splitLine bytes = (payload, some rest)) :
    bytes = payload ++ terminator :: rest ∧ terminator ∉ payload := by
  unfold splitLine at h
  split at h
  · simp at h
  · rename_i b tail hdrop
    obtain ⟨rfl, h2⟩ := Prod.mk.inj h
    obtain rfl := Option.some.inj h2
    have hb : b = terminator := by
      have := List.head?_dropWhile_not (· != terminator) bytes
      simpa [hdrop] using this
    refine ⟨?_, ?_⟩
    · conv => lhs; rw [← List.takeWhile_append_dropWhile (p := (· != terminator)) (l := bytes)]
      rw [hdrop, hb]
    · intro hmem
      simpa using List.mem_takeWhile_imp hmem

theorem splitLine_none {bytes payload : Bytes} (h : splitLine bytes = (payload, none)) :
    payload = bytes ∧ terminator ∉ bytes := by
  unfold splitLine at h
  split at h
  · rename_i hdrop
    obtain ⟨rfl, -⟩ := Prod.mk.inj h
    refine ⟨rfl, fun hmem => ?_⟩
    have := List.dropWhile_eq_nil_iff.mp hdrop terminator hmem
    simp at this
  · simp at h

theorem takeLine_bytes (line payload : Bytes) (rest : List Item) (h : terminator ∉ payload) :
    takeLine line (payload.map .byte ++ rest) = takeLine (line ++ payload) rest := by
  induction payload generalizing line with
  | nil => simp
  | cons b bs ih =>
    have hb : b ≠ terminator := fun he => h (by simp [he])
    have hbs : terminator ∉ bs := fun he => h (List.mem_cons_of_mem _ he)
    rw [List.map_cons, List.cons_append, takeLine, if_neg hb, ih _ hbs]
    simp

theorem takeLine_terminated {line : Bytes} (h : terminator ∉ line) (rest : List Item) :
    takeLine [] ((line ++ [terminator]).map .byte ++ rest) = (.ok line, rest) := by
  rw [List.map_append, List.append_assoc, takeLine_bytes _ _ _ h]
  simp [takeLine]

/-! ## One round of a message -/

namespace Channel

theorem readFrom_of_some {capacity : Nat} {m : Message} {c : Channel} {payload rest : Bytes}
    (hline : splitLine c.buffer = (payload, some rest)) :
    c.readFrom capacity m =
      (.ok (m.add capacity payload),
        { c with buffer := rest }.warn ((m.add capacity payload).notices capacity)) := by
  rw [readFrom]
  simp only [hline]

theorem readFrom_of_none {capacity : Nat} {m : Message} {c : Channel} {payload : Bytes}
    (hline : splitLine c.buffer = (payload, none)) :
    c.readFrom capacity m =
      match c.stream.read frameSize with
      | (.error e, s) => (.error (readError e), { c with stream := s, buffer := [] })
      | (.ok [], s) => (.error .disconnected, { c with stream := s, buffer := [] })
      | (.ok (b :: bs), s) =>
        readFrom capacity (m.add capacity payload) { c with stream := s, buffer := b :: bs } := by
  rw [readFrom]
  simp only [hline]
  split <;> rename_i hread <;> rw [hread]

end Channel

/-! ## Messages are lines cut to the capacity -/

/-- What a reader keeps of a line. -/
def Message.cut (capacity : Nat) (line : Bytes) : Message :=
  { bytes := line.take capacity, dropped := line.length - capacity }

theorem Message.cut_nil (capacity : Nat) : Message.cut capacity [] = {} := by
  simp [Message.cut]

theorem Message.isTruncated_cut {capacity : Nat} {line : Bytes} :
    (Message.cut capacity line).isTruncated = true ↔ capacity < line.length := by
  rw [isTruncated, cut, decide_eq_true_iff]
  exact Nat.sub_pos_iff_lt

theorem Message.add_cut (capacity : Nat) (line payload : Bytes) :
    (Message.cut capacity line).add capacity payload = .cut capacity (line ++ payload) := by
  simp only [Message.add, Message.cut, Message.mk.injEq, List.length_take, List.length_append,
    List.take_append]
  refine ⟨?_, by omega⟩
  congr 2
  omega

/-- A channel takes the same line as a reader without a buffer does, cut to the capacity, and leaves
the same items. -/
theorem readFrom_cut (capacity : Nat) (line : Bytes) (c : Channel) :
    (c.readFrom capacity (.cut capacity line)).1 =
        (takeLine line c.items).1.map (.cut capacity) ∧
      (c.readFrom capacity (.cut capacity line)).2.items = (takeLine line c.items).2 := by
  generalize hm : Message.cut capacity line = m
  fun_induction Channel.readFrom capacity m c generalizing line with
  | case1 m c payload rest hline m' =>
    obtain ⟨hbuf, hnot⟩ := splitLine_some hline
    subst hm
    have htake : takeLine line c.items = (.ok (line ++ payload), rest.map .byte ++ c.stream.items) := by
      rw [Channel.items, hbuf, List.map_append, List.append_assoc, takeLine_bytes _ _ _ hnot]
      simp [takeLine]
    rw [htake]
    exact ⟨congrArg Except.ok (Message.add_cut capacity line payload), rfl⟩
  | case2 m c payload hline e s hread =>
    obtain ⟨-, hnot⟩ := splitLine_none hline
    have hitems : c.stream.items = .failure e :: s.items := items_read_error (by decide) hread
    rw [Channel.items, takeLine_bytes _ _ _ hnot, hitems]
    exact ⟨rfl, rfl⟩
  | case3 m c payload hline s hread =>
    obtain ⟨-, hnot⟩ := splitLine_none hline
    rw [Channel.items, takeLine_bytes _ _ _ hnot]
    rcases items_read_nothing (by decide) hread with hitems | ⟨hitems, hrest⟩
    · rw [hitems]
      exact ⟨rfl, rfl⟩
    · rw [hitems]
      exact ⟨rfl, hrest⟩
  | case4 m c payload hline b bs s hread ih =>
    obtain ⟨rfl, hnot⟩ := splitLine_none hline
    have hitems : c.stream.items = (b :: bs).map .byte ++ s.items :=
      items_read_bytes (by decide) hread
    subst hm
    have htake : takeLine line c.items =
        takeLine (line ++ c.buffer) { c with stream := s, buffer := b :: bs }.items := by
      rw [Channel.items, takeLine_bytes _ _ _ hnot, hitems]
      rfl
    rw [htake]
    exact ih (line ++ c.buffer) (Message.add_cut capacity line c.buffer).symm

theorem readMessage_items (capacity : Nat) (c : Channel) :
    (c.readMessage capacity).1 = (takeLine [] c.items).1.map (.cut capacity) ∧
      (c.readMessage capacity).2.items = (takeLine [] c.items).2 := by
  have := readFrom_cut capacity [] c
  rwa [Message.cut_nil] at this

end Teleop
