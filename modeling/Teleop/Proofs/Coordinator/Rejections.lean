import Teleop.Coordinator.Task
import Teleop.Proofs.Wire.Directions

/-!
# Clients that are turned away

Whatever such a client sends, it gets one `CONN_ERR` line at most, and nothing before it has sent a
complete line.
-/

namespace Teleop

/-- The client sends a complete line before the stream ends or fails. -/
def Connection.SendsLine (c : Connection) : Prop :=
  ∃ line, (takeLine [] c.stream.items).1 = .ok line

namespace Rejection

/-- What can become of a connection that is turned away. -/
inductive Follows (c : Connection) : Rejection → Prop where
  | taken : Follows c (.of c)
  | steps {r : Rejection} (h : Follows c r) : Follows c r.step

/-- The client was sent one answer, or the first of it, after a complete line. -/
def Answered (c : Connection) (r : Rejection) : Prop :=
  c.handshake = .done ∧ c.SendsLine ∧ ∃ e : StreamEvent, e.IsPartOf Response.connErr.framed ∧
    r.channel.stream.sent = c.stream.sent ++ [e]

/-- How far a rejection can be, phase by phase. -/
def Stage (c : Connection) (r : Rejection) : Prop :=
  match r.phase with
  | .greeting h => h = c.handshake ∧ r.channel = { stream := c.stream }
  | .reading => c.handshake = .done ∧ r.channel = { stream := c.stream }
  | .answering =>
    c.handshake = .done ∧ c.SendsLine ∧ r.channel.stream.sent = c.stream.sent
  | .closing => Answered c r
  | .gone => r.channel.stream.sent = c.stream.sent ∨ Answered c r

variable {c : Connection} {r : Rejection}

theorem id_step (r : Rejection) : r.step.id = r.id := by
  unfold step
  split <;> first | rfl | split <;> rfl

theorem stage_step (h : r.Stage c) : r.step.Stage c := by
  unfold Stage at h
  unfold step
  split <;> rename_i hphase <;> simp only [hphase] at h
  · simpa [Stage, hphase] using h
  · exact Or.inl (by rw [h.2])
  · exact ⟨h.1.symm, h.2⟩
  · obtain ⟨hdone, hchannel⟩ := h
    have hread := (readMessage_items messageCapacity r.channel).1
    have hsent := Channel.sent_readMessage messageCapacity r.channel
    rw [hchannel] at hread hsent ⊢
    split <;> rename_i hmessage <;> rw [hmessage] at hread hsent
    · exact Or.inl hsent
    · refine ⟨hdone, ?_, hsent⟩
      rcases htake : (takeLine [] (Channel.items { stream := c.stream })).1 with error | line
      · rw [htake] at hread
        cases hread
      · exact ⟨line, htake⟩
  · obtain ⟨hdone, hline, hbefore⟩ := h
    obtain ⟨e, he, hsent⟩ := Channel.sent_respond .connErr r.channel
    rw [hbefore] at hsent
    split <;> rename_i hanswer <;> rw [hanswer] at hsent
    · exact Or.inr ⟨hdone, hline, e, he, hsent⟩
    · exact ⟨hdone, hline, e, he, hsent⟩
  · obtain ⟨hdone, hline, e, he, hsent⟩ := h
    exact Or.inr ⟨hdone, hline, e, he, (Channel.sent_shutdown _).trans hsent⟩
  · simpa [Stage, hphase] using h

theorem stage_of_follows (h : Follows c r) : r.Stage c := by
  induction h with
  | taken => exact ⟨rfl, rfl⟩
  | steps _ ih => exact stage_step ih

theorem sent_of_follows (h : Follows c r) :
    r.channel.stream.sent = c.stream.sent ∨ Answered c r := by
  have hstage := stage_of_follows h
  unfold Stage at hstage
  split at hstage
  · exact Or.inl (by rw [hstage.2])
  · exact Or.inl (by rw [hstage.2])
  · exact Or.inl hstage.2.2
  · exact Or.inr hstage
  · exact hstage

theorem id_of_follows (h : Follows c r) : r.id = c.id := by
  induction h with
  | taken => rfl
  | steps _ ih => rw [id_step, ih]

end Rejection

end Teleop
