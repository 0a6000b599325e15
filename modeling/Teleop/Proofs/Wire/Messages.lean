import Teleop.Proofs.Wire.Items

/-!
# One message after the other

A reader without a buffer takes its messages straight from the items, each up to the first item that
ends a message. A channel gives the same messages, whatever the chunks are and however much it was
asked to keep of the messages before.
-/

namespace Teleop

namespace Item

/-- A message ends with this item, well or badly. -/
def endsMessage : Item → Bool
  | .byte b => b == terminator
  | .nothing | .failure _ => true

def byte? : Item → Option UInt8
  | .byte b => some b
  | .nothing | .failure _ => none

end Item

/-- The bytes in front of the first item that ends a message. -/
def lineBefore (items : List Item) : Bytes :=
  (items.takeWhile fun item => !item.endsMessage).filterMap Item.byte?

/-- The next message for a reader without a buffer, and the items behind it. Once the items are used
up there is nothing to read but the end of the stream. -/
def nextMessage (capacity : Nat) (items : List Item) : Except ChannelError Message × List Item :=
  let line := lineBefore items
  match items.dropWhile fun item => !item.endsMessage with
  | [] => (.error .disconnected, [])
  | .byte _ :: rest =>
    let kept := min capacity line.length
    (.ok { bytes := line.take kept, dropped := line.length - kept }, rest)
  | .nothing :: rest => (.error .disconnected, rest)
  | .failure e :: rest =>
    (.error (if e.kind = .unexpectedEof then .disconnected else .stream e), rest)

def nextMessages : List Item → List Nat → List (Except ChannelError Message) × List Item
  | items, [] => ([], items)
  | items, capacity :: capacities =>
    let (result, items) := nextMessage capacity items
    let (results, items) := nextMessages items capacities
    (result :: results, items)

/-- Reads a message for each capacity, one after the other. -/
def Channel.readMessages :
    Channel → List Nat → List (Except ChannelError Message) × Channel
  | c, [] => ([], c)
  | c, capacity :: capacities =>
    let (result, c) := c.readMessage capacity
    let (results, c) := c.readMessages capacities
    (result :: results, c)

/-- What the log says of a message that was asked for: that not all of it was kept. -/
def Channel.warnings (capacity : Nat) : Except ChannelError Message → List Notice
  | .ok m => if 0 < m.dropped then [.messageTooLong capacity m.dropped] else []
  | .error _ => []

/-! ## One message -/

theorem lineBefore_cons {b : UInt8} (h : b ≠ terminator) (items : List Item) :
    lineBefore (.byte b :: items) = b :: lineBefore items := by
  simp [lineBefore, Item.endsMessage, Item.byte?, h]

theorem terminator_not_mem_lineBefore (items : List Item) : terminator ∉ lineBefore items := by
  intro hmem
  obtain ⟨item, hitem, hbyte⟩ := List.mem_filterMap.mp hmem
  have hends := List.mem_takeWhile_imp hitem
  cases item with
  | byte b =>
    obtain rfl : b = terminator := by simpa [Item.byte?] using hbyte
    simp [Item.endsMessage] at hends
  | nothing => simp [Item.byte?] at hbyte
  | failure e => simp [Item.byte?] at hbyte

theorem takeLine_eq (line : Bytes) (items : List Item) :
    takeLine line items =
      match items.dropWhile fun item => !item.endsMessage with
      | [] => (.error .disconnected, [])
      | .byte _ :: rest => (.ok (line ++ lineBefore items), rest)
      | .nothing :: rest => (.error .disconnected, rest)
      | .failure e :: rest => (.error (Channel.readError e), rest) := by
  fun_induction takeLine line items with
  | case1 line => rfl
  | case2 line rest => rfl
  | case3 line e rest => rfl
  | case4 line rest => simp [Item.endsMessage, lineBefore]
  | case5 line b rest hb ih =>
    rw [ih, lineBefore_cons hb, List.append_cons]
    simp [Item.endsMessage, hb]

theorem Message.cut_eq (capacity : Nat) (line : Bytes) :
    Message.cut capacity line =
      { bytes := line.take (min capacity line.length)
        dropped := line.length - min capacity line.length } := by
  rw [Message.cut, ← List.take_eq_take_min]
  congr 1
  omega

theorem nextMessage_eq (capacity : Nat) (items : List Item) :
    nextMessage capacity items =
      ((takeLine [] items).1.map (.cut capacity), (takeLine [] items).2) := by
  rw [takeLine_eq, nextMessage]
  split
  · rfl
  · rw [List.nil_append]
    dsimp only [Except.map]
    rw [Message.cut_eq]
  · rfl
  · rfl

namespace Channel

theorem readMessage_eq_nextMessage (capacity : Nat) (c : Channel) :
    nextMessage capacity c.items =
      ((c.readMessage capacity).1, (c.readMessage capacity).2.items) := by
  obtain ⟨hresult, hitems⟩ := readMessage_items capacity c
  rw [nextMessage_eq, hresult, hitems]

theorem notices_readFrom (capacity : Nat) (m : Message) (c : Channel) :
    (c.readFrom capacity m).2.notices =
      c.notices ++ warnings capacity (c.readFrom capacity m).1 := by
  fun_induction readFrom capacity m c with
  | case1 m c payload rest hline m' =>
    simp [warn, warnings, Message.notices, Message.isTruncated]
  | case2 m c payload hline e s hread => simp [warnings]
  | case3 m c payload hline s hread => simp [warnings]
  | case4 m c payload hline b bs s hread ih => exact ih

end Channel

theorem nextMessage_bounds {capacity : Nat} {items : List Item} {m : Message}
    (h : (nextMessage capacity items).1 = .ok m) :
    terminator ∉ m.bytes ∧ (0 < m.dropped → m.bytes.length = capacity) := by
  have hline := terminator_not_mem_lineBefore items
  unfold nextMessage at h
  split at h
  · cases h
  · obtain rfl := Except.ok.inj h
    refine ⟨fun hmem => hline (List.mem_of_mem_take hmem), fun hdropped => ?_⟩
    simp only [List.length_take] at hdropped ⊢
    omega
  · cases h
  · cases h

/-! ## All messages -/

namespace Channel

theorem readMessages_cons (c : Channel) (capacity : Nat) (capacities : List Nat) :
    c.readMessages (capacity :: capacities) =
      ((c.readMessage capacity).1 :: ((c.readMessage capacity).2.readMessages capacities).1,
        ((c.readMessage capacity).2.readMessages capacities).2) :=
  rfl

theorem readMessages_lines (capacity : Nat) {c : Channel} {lines : List Bytes} {rest : List Item}
    (hlines : ∀ line ∈ lines, terminator ∉ line)
    (hitems : c.items = (lines.flatMap (· ++ [terminator])).map .byte ++ rest) :
    (c.readMessages (lines.map fun _ => capacity)).1 =
        lines.map (fun line => .ok (.cut capacity line)) ∧
      (c.readMessages (lines.map fun _ => capacity)).2.items = rest := by
  induction lines generalizing c with
  | nil => exact ⟨rfl, hitems⟩
  | cons line lines ih =>
    obtain ⟨hmessage, hrest⟩ := readMessage_items capacity c
    rw [hitems, List.flatMap_cons, List.map_append, List.append_assoc,
      takeLine_terminated (hlines line List.mem_cons_self)] at hmessage hrest
    obtain ⟨hmessages, hused⟩ := ih (fun l hl => hlines l (List.mem_cons_of_mem _ hl)) hrest
    rw [List.map_cons, List.map_cons, readMessages_cons]
    refine ⟨?_, hused⟩
    rw [hmessage, hmessages]
    rfl

theorem nextMessages_items (c : Channel) (capacities : List Nat) :
    nextMessages c.items capacities =
      ((c.readMessages capacities).1, (c.readMessages capacities).2.items) := by
  induction capacities generalizing c with
  | nil => rfl
  | cons capacity capacities ih =>
    rw [nextMessages, readMessage_eq_nextMessage, readMessages_cons]
    simp only [ih]

theorem notices_readMessages (c : Channel) (capacities : List Nat) :
    (c.readMessages capacities).2.notices =
      c.notices ++ (capacities.zip (c.readMessages capacities).1).flatMap fun call =>
        warnings call.1 call.2 := by
  induction capacities generalizing c with
  | nil => simp [readMessages]
  | cons capacity capacities ih =>
    have hfirst := notices_readFrom capacity {} c
    rw [readMessages_cons, List.zip_cons_cons, List.flatMap_cons]
    dsimp only
    rw [ih, readMessage, hfirst, List.append_assoc]

theorem bounds_readMessages (c : Channel) (capacities : List Nat) {capacity : Nat} {m : Message}
    (h : (capacity, .ok m) ∈ capacities.zip (c.readMessages capacities).1) :
    terminator ∉ m.bytes ∧ (0 < m.dropped → m.bytes.length = capacity) := by
  induction capacities generalizing c with
  | nil => simp [readMessages] at h
  | cons first capacities ih =>
    rw [readMessages_cons, List.zip_cons_cons, List.mem_cons, Prod.mk.injEq] at h
    rcases h with ⟨rfl, hresult⟩ | hlater
    · have hnext : (nextMessage capacity c.items).1 = .ok m := by
        rw [readMessage_eq_nextMessage]
        exact hresult.symm
      exact nextMessage_bounds hnext
    · exact ih _ hlater

/-- **The messages of a channel are those of a reader without a buffer.** They hold no terminator,
and the log warns of just those that were cut, which are as long as they may be. -/
theorem readMessages_from_items (s : Stream) (capacities : List Nat) :
    let read := readMessages { stream := s } capacities
    (read.1, read.2.items) = nextMessages s.items capacities ∧
      read.2.notices =
        (capacities.zip read.1).flatMap (fun call => warnings call.1 call.2) ∧
      ∀ capacity m, (capacity, .ok m) ∈ capacities.zip read.1 →
        terminator ∉ m.bytes ∧ (0 < m.dropped → m.bytes.length = capacity) := by
  refine ⟨?_, ?_, ?_⟩
  · exact (nextMessages_items { stream := s } capacities).symm
  · exact notices_readMessages { stream := s } capacities
  · intro capacity m h
    exact bounds_readMessages _ capacities h

end Channel

end Teleop
