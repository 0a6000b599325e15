import Teleop.Proofs.Wire.Acceptance
import Teleop.Proofs.Wire.Messages

/-!
# Lines that are written and read

Texts without line breaks come back as they were written, however their lines are cut on the way.
The responses are such texts, no two of them the same and all of them short enough, so a peer gets
back every list of responses.
-/

namespace Teleop

/-! ## Texts without line breaks -/

theorem terminator_not_mem_utf8EncodeChar {c : Char} (h : c ≠ '\n') :
    terminator ∉ String.utf8EncodeChar c := by
  have hc : c.val.toNat ≠ 10 := fun hval => h (Char.ext (UInt32.toNat_inj.mp hval))
  intro hmem
  unfold String.utf8EncodeChar at hmem
  generalize c.val.toNat = v at hc hmem
  dsimp only at hmem
  -- One byte stands for the character itself; in a longer form every byte is 128 or more.
  split_ifs at hmem <;> simp [terminator, ← UInt8.toNat_inj] at hmem <;> omega

theorem terminator_not_mem_ofText {text : String} (h : '\n' ∉ text.toList) :
    terminator ∉ Bytes.ofText text := by
  intro hmem
  obtain ⟨c, hc, hbyte⟩ := List.mem_flatMap.mp hmem
  exact terminator_not_mem_utf8EncodeChar (fun he => h (he ▸ hc)) hbyte

theorem takeLine_line {text : String} (h : '\n' ∉ text.toList) (rest : List Item) :
    takeLine [] ((line text).map .byte ++ rest) = (.ok (.ofText text), rest) :=
  takeLine_terminated (terminator_not_mem_ofText h) rest

theorem Message.cut_of_le {capacity : Nat} {line : Bytes} (h : line.length ≤ capacity) :
    Message.cut capacity line = { bytes := line, dropped := 0 } := by
  rw [Message.cut, List.take_of_length_le h, Nat.sub_eq_zero_of_le h]

/-! ## What arrives -/

theorem map_byte_inj {a b : Bytes} : a.map Item.byte = b.map Item.byte ↔ a = b :=
  List.map_inj_right fun _ _ h => Item.byte.inj h

/-- These bytes arrive and nothing else, in chunks that are cut in any way. -/
def Stream.Brings (s : Stream) (wire : Bytes) : Prop :=
  ∃ chunks : List Bytes, s.arrivals = chunks.map .chunk ∧ chunks.flatten = wire ∧ [] ∉ chunks

theorem Arrival.items_chunk {bytes : Bytes} (h : bytes ≠ []) :
    (Arrival.chunk bytes).items = bytes.map .byte := by
  cases bytes with
  | nil => contradiction
  | cons b bs => rfl

theorem Stream.Brings.items {s : Stream} {wire : Bytes} (h : s.Brings wire) :
    s.items = wire.map .byte := by
  obtain ⟨chunks, harrivals, rfl, hchunks⟩ := h
  rw [Stream.items, harrivals]
  clear harrivals
  induction chunks with
  | nil => rfl
  | cons chunk chunks ih =>
    rw [List.mem_cons, not_or] at hchunks
    rw [List.map_cons, List.flatMap_cons, Arrival.items_chunk (Ne.symm hchunks.1), ih hchunks.2,
      List.flatten_cons, List.map_append]

theorem Channel.all_used {c : Channel} (h : c.items = []) :
    c.buffer = [] ∧ c.stream.arrivals = [] := by
  obtain ⟨hbuffer, hitems⟩ := List.append_eq_nil_iff.mp h
  refine ⟨List.map_eq_nil_iff.mp hbuffer, ?_⟩
  cases harrivals : c.stream.arrivals with
  | nil => rfl
  | cons a arrivals =>
    rw [Stream.items, harrivals, List.flatMap_cons] at hitems
    rcases a with (_ | ⟨b, bs⟩) | e <;> cases hitems

/-! ## Reading texts back -/

/-- One read for each text gives the texts, none of them cut, and uses up all that arrives. -/
structure Stream.ReadsBack (s : Stream) (capacity : Nat) (texts : List String) : Prop where
  messages : (Channel.readMessages { stream := s } (texts.map fun _ => capacity)).1 =
    texts.map fun text => .ok { bytes := .ofText text, dropped := 0 }
  buffer : (Channel.readMessages { stream := s } (texts.map fun _ => capacity)).2.buffer = []
  arrivals :
    (Channel.readMessages { stream := s } (texts.map fun _ => capacity)).2.stream.arrivals = []

theorem Channel.readMessages_texts {c : Channel} {capacity : Nat} {texts : List String}
    (hitems : c.items = (texts.flatMap line).map .byte)
    (htexts : ∀ t ∈ texts, '\n' ∉ t.toList ∧ (Bytes.ofText t).length ≤ capacity) :
    (c.readMessages (texts.map fun _ => capacity)).1 =
        texts.map (fun text => .ok { bytes := .ofText text, dropped := 0 }) ∧
      (c.readMessages (texts.map fun _ => capacity)).2.items = [] := by
  have hlines : ∀ line ∈ texts.map Bytes.ofText, terminator ∉ line := by
    intro line hline
    obtain ⟨text, htext, rfl⟩ := List.mem_map.mp hline
    exact terminator_not_mem_ofText (htexts text htext).1
  have hbytes : c.items =
      ((texts.map Bytes.ofText).flatMap (· ++ [terminator])).map .byte ++ [] := by
    rw [hitems, List.flatMap_map, List.append_nil]
    rfl
  obtain ⟨hmessages, hrest⟩ := readMessages_lines capacity hlines hbytes
  rw [List.map_map] at hmessages hrest
  refine ⟨hmessages.trans ?_, hrest⟩
  rw [List.map_map]
  exact List.map_congr_left fun text htext =>
    congrArg Except.ok (Message.cut_of_le (htexts text htext).2)

theorem Stream.Brings.readsBack {s : Stream} {capacity : Nat} {texts : List String}
    (h : s.Brings (texts.flatMap line))
    (htexts : ∀ t ∈ texts, '\n' ∉ t.toList ∧ (Bytes.ofText t).length ≤ capacity) :
    s.ReadsBack capacity texts := by
  obtain ⟨hmessages, hitems⟩ := Channel.readMessages_texts (c := { stream := s }) h.items htexts
  obtain ⟨hbuffer, harrivals⟩ := Channel.all_used hitems
  exact ⟨hmessages, hbuffer, harrivals⟩

/-! ## Responses -/

namespace Response

/-- The response that `word` is the mnemonic of. -/
def parse? (word : Bytes) : Option Response := all.find? fun r => Bytes.ofText r.mnemonic == word

theorem parse?_mnemonic (r : Response) : parse? (.ofText r.mnemonic) = some r := by
  cases r with
  | ack m => cases m <;> decide
  | _ => decide

theorem mnemonic_injective : Function.Injective mnemonic := by
  intro r r' h
  have hparse := congrArg (fun text => parse? (.ofText text)) h
  simpa only [parse?_mnemonic, Option.some.injEq] using hparse

theorem mnemonic_fits (r : Response) :
    '\n' ∉ r.mnemonic.toList ∧ (Bytes.ofText r.mnemonic).length < messageCapacity := by
  cases r with
  | ack m => cases m <;> decide
  | _ => decide

/-- The response that was read, if it is one. -/
def read? : Except ChannelError Message → Option Response
  | .ok m => parse? m.bytes
  | .error _ => none

theorem framed_injective {codes others : List Response}
    (h : codes.flatMap framed = others.flatMap framed) : codes = others := by
  induction codes generalizing others with
  | nil =>
    cases others with
    | nil => rfl
    | cons r others => simp [framed, line] at h
  | cons r codes ih =>
    cases others with
    | nil => simp [framed, line] at h
    | cons r' others =>
      have htake := congrArg (fun wire : Bytes => takeLine [] (wire.map .byte)) h
      simp only [List.flatMap_cons, List.map_append, framed, takeLine_line (mnemonic_fits _).1,
        Prod.mk.injEq, Except.ok.injEq] at htake
      obtain ⟨hword, hrest⟩ := htake
      have hparse := congrArg parse? hword
      rw [parse?_mnemonic, parse?_mnemonic, Option.some.injEq] at hparse
      rw [hparse, ih (map_byte_inj.mp hrest)]

end Response

/-- A stream that has taken nothing yet and takes all that is written to it. -/
structure Stream.TakesAll (s : Stream) : Prop where
  fresh : s.received = []
  writes : ∀ a ∈ s.writes, a = .all

namespace Channel

def respondAll (c : Channel) (codes : List Response) : Channel :=
  codes.foldl (fun c r => (c.respond r).2) c

theorem answer_outgoing (r : Response) (c : Channel) :
    (c.stream.outgoing.answer r).2 = (c.respond r).2.stream.outgoing := by
  rcases respond_answer r c with ⟨e, -, hanswer⟩ | ⟨-, hanswer⟩ <;> rw [hanswer]

theorem received_respond {r : Response} {c : Channel} (h : ∀ a ∈ c.stream.writes, a = .all) :
    (c.respond r).2.stream.received = c.stream.received ++ r.framed ∧
      ∀ a ∈ (c.respond r).2.stream.writes, a = .all := by
  obtain ⟨-, hwrites, -, hsent⟩ := Stream.answer_eq r c.stream.outgoing
  rw [answer_outgoing] at hwrites hsent
  rw [Stream.sent_outgoing, Stream.sent_outgoing] at hsent
  have hall : c.stream.outgoing.acceptance 0 = .all := by
    rw [Stream.acceptance, Stream.outgoing]
    cases hscript : c.stream.writes with
    | nil => rfl
    | cons a writes => exact h a (hscript ▸ List.mem_cons_self)
  refine ⟨?_, fun a ha => ?_⟩
  · rw [Stream.received_of_sent hsent, hall]
    simp [Acceptance.event, StreamEvent.bytes]
  · rw [show (c.respond r).2.stream.writes = c.stream.writes.drop 1 from hwrites] at ha
    exact h a (List.mem_of_mem_drop ha)

theorem received_respondAll {c : Channel} (h : ∀ a ∈ c.stream.writes, a = .all)
    (codes : List Response) :
    (c.respondAll codes).stream.received = c.stream.received ++ codes.flatMap Response.framed := by
  induction codes generalizing c with
  | nil => simp [respondAll]
  | cons r codes ih =>
    obtain ⟨hreceived, hwrites⟩ := received_respond (r := r) h
    rw [respondAll, List.foldl_cons, ← respondAll, ih hwrites, hreceived, List.flatMap_cons,
      List.append_assoc]

end Channel

theorem Stream.TakesAll.received {out : Stream} (h : out.TakesAll) (codes : List Response) :
    (Channel.respondAll { stream := out } codes).stream.received =
      codes.flatMap Response.framed := by
  rw [Channel.received_respondAll h.writes, h.fresh, List.nil_append]

/-- The peer that reads `s` gets the responses back, and no other list of responses arrives so. -/
structure Stream.Recovers (s out : Stream) (codes : List Response) : Prop where
  readsBack : s.ReadsBack messageCapacity (codes.map Response.mnemonic)
  heard : (Channel.readMessages { stream := s } (codes.map fun _ => messageCapacity)).1.map
    Response.read? = codes.map some
  unique : ∀ others : List Response,
    s.Brings (Channel.respondAll { stream := out } others).stream.received → others = codes

theorem Stream.TakesAll.recovers {s out : Stream} {codes : List Response} (h : out.TakesAll)
    (hs : s.Brings (Channel.respondAll { stream := out } codes).stream.received) :
    s.Recovers out codes := by
  rw [h.received] at hs
  have hback : s.ReadsBack messageCapacity (codes.map Response.mnemonic) := by
    refine Stream.Brings.readsBack ?_ ?_
    · rw [List.flatMap_map]
      exact hs
    · intro text htext
      obtain ⟨r, -, rfl⟩ := List.mem_map.mp htext
      exact ⟨r.mnemonic_fits.1, Nat.le_of_lt r.mnemonic_fits.2⟩
  refine ⟨hback, ?_, ?_⟩
  · have hmessages := hback.messages
    rw [List.map_map, List.map_map] at hmessages
    have hread : Response.read? ∘
        ((fun text => .ok { bytes := .ofText text, dropped := 0 }) ∘ Response.mnemonic) = some :=
      funext Response.parse?_mnemonic
    rw [show (fun _ : Response => messageCapacity) =
      (fun _ : String => messageCapacity) ∘ Response.mnemonic from rfl, hmessages, List.map_map,
      hread]
  · intro others hothers
    rw [h.received] at hothers
    have hwires : (others.flatMap Response.framed).map Item.byte =
        (codes.flatMap Response.framed).map Item.byte := hothers.items.symm.trans hs.items
    exact Response.framed_injective (map_byte_inj.mp hwires)

/-- **Texts without line breaks are read back as they were written, and so is every list of
responses.** -/
theorem lines_read_back :
    (∀ (s : Stream) (texts : List String) (capacity : Nat), s.Brings (texts.flatMap line) →
        (∀ t ∈ texts, '\n' ∉ t.toList ∧ (Bytes.ofText t).length ≤ capacity) →
        s.ReadsBack capacity texts) ∧
      (∀ (s out : Stream) (codes : List Response), out.TakesAll →
        s.Brings (Channel.respondAll { stream := out } codes).stream.received →
        s.Recovers out codes) ∧
      (∀ r : Response,
        '\n' ∉ r.mnemonic.toList ∧ (Bytes.ofText r.mnemonic).length < messageCapacity) ∧
      Function.Injective Response.mnemonic :=
  ⟨fun _ _ _ hs htexts => hs.readsBack htexts, fun _ _ _ hout hs => hout.recovers hs,
    Response.mnemonic_fits, Response.mnemonic_injective⟩

/-- The lines of three texts are cut inside a text and inside a character. Two responses arrive
although the flush of the first one fails. -/
theorem lines_read_back_in_pieces :
    let s : Stream :=
      { arrivals := [.chunk [80, 73], .chunk [78, 71, 10, 195], .chunk [169, 10, 10]] }
    let out : Stream := { flushes := [some ⟨.timedOut, "late"⟩] }
    let peer : Stream :=
      { arrivals := [.chunk (.ofText "CONN"), .chunk (.ofText "_OK\nCMD_ERR"), .chunk [10]] }
    s.Brings (["PING", "é", ""].flatMap line) ∧ s.ReadsBack 4 ["PING", "é", ""] ∧
      out.TakesAll ∧ peer.Recovers out [.connOk, .cmdErr] := by
  intro s out peer
  have hs : s.Brings (["PING", "é", ""].flatMap line) :=
    ⟨[[80, 73], [78, 71, 10, 195], [169, 10, 10]], rfl, by decide, by decide⟩
  have hout : out.TakesAll := ⟨rfl, by decide⟩
  have hpeer : peer.Brings
      (Channel.respondAll { stream := out } [.connOk, .cmdErr]).stream.received :=
    ⟨[.ofText "CONN", .ofText "_OK\nCMD_ERR", [10]], rfl, by decide, by decide⟩
  obtain ⟨htexts, hresponses, -⟩ := lines_read_back
  exact ⟨hs, htexts s _ 4 hs (by decide), hout, hresponses peer out _ hout hpeer⟩

end Teleop
