import Mathlib.Tactic.ByContra
import Teleop.Proofs.Session.Lines

/-!
# What comes after what in a run

The operator connects at most once, nothing is done for anybody else, and behind an answer that
closes the channel there is nothing more. However a run ends, the operator is disconnected then.
-/

namespace Teleop

namespace Dispatch

/-- Only a connected operator gets this done. -/
def NeedsOperator (d : Dispatch) : Prop :=
  d.calls ≠ [] ∨ d.response = .ping ∨ d.response = .pictureErr ∨ ∃ m, d.response = .ack m

def Closing (d : Dispatch) : Prop :=
  d.response = .connErr ∨ d.response = .disconnOk ∨ (d.response = .cmdErr ∧ d.connected = false)

end Dispatch

/-- The law of the dispatches of one run. `connected` is the flag at its start. -/
structure Orderly (connected : Bool) (ds : List Dispatch) : Prop where
  /-- The operator connects at most once, and not at all if connected from the start. -/
  connects_once : (ds.filter fun d => d.response = .connOk).length ≤ if connected then 0 else 1
  /-- The flag that a dispatch finds is set by the dispatch that connected the operator. -/
  found_connected : ∀ before d behind, ds = before ++ d :: behind →
    (d.connected = true ↔ connected = true ∨ ∃ d' ∈ before, d'.response = .connOk)
  /-- Nothing is done for the operator before. -/
  connects_first : ∀ before d behind, ds = before ++ d :: behind → d.NeedsOperator →
    connected = true ∨ ∃ d' ∈ before, d'.response = .connOk
  /-- Nothing comes behind an answer that closes the channel. -/
  closes_last : ∀ before d behind, ds = before ++ d :: behind → d.Closing → behind = []

theorem orderly_nil (connected : Bool) : Orderly connected [] where
  connects_once := by simp
  found_connected := by simp
  connects_first := by simp
  closes_last := by simp

/-! ## Facts of the table -/

theorem table_connOk (connected : Bool) (c : Option Command) :
    (table connected c).response = .connOk ↔
      connected = false ∧ (table connected c).connected = true := by
  unfold table
  split <;> simp

theorem table_stays {connected : Bool} (h : connected = true) (c : Option Command) :
    (table connected c).closes = true ∨ (table connected c).connected = true := by
  subst h
  rcases c with _ | c
  · exact Or.inr rfl
  · cases c <;> simp [table]

theorem table_false (c : Option Command) :
    (table false c).motion? = none ∧
      ((table false c).response = .connOk ∨ (table false c).response = .disconnErr ∨
        (table false c).response = .cmdErr) := by
  rcases c with _ | c
  · simp [table]
  · cases c <;> simp [table]

theorem table_closing {connected : Bool} {c : Option Command}
    (h : (table connected c).response = .connErr ∨ (table connected c).response = .disconnOk ∨
      ((table connected c).response = .cmdErr ∧ connected = false)) :
    (table connected c).closes = true := by
  unfold table at h ⊢
  split at h <;> simp_all

namespace Engine

variable (e : Engine) (line : Bytes)

theorem response_dispatched : (e.dispatched line).response = (e.row line).response :=
  (e.dispatch_row line).1

theorem connected_of_needsOperator (h : (e.dispatched line).NeedsOperator) :
    e.session.connected = true := by
  by_contra hconn
  obtain ⟨hmotion, hresponse⟩ := table_false (Command.parse? line)
  have hrow : e.row line = table false (Command.parse? line) := by
    rw [row, eq_false_of_ne_true hconn]
  rw [← hrow] at hmotion hresponse
  rw [Dispatch.NeedsOperator, response_dispatched] at h
  simp only [dispatched, callsFor, hmotion] at h
  rcases hresponse with h' | h' | h' <;> simp [h'] at h

theorem closes_of_closing (h : (e.dispatched line).Closing) : (e.row line).closes = true := by
  rw [Dispatch.Closing, response_dispatched] at h
  exact table_closing h

/-- A dispatch keeps the law in front of dispatches that keep it from the flag that it leaves. -/
theorem orderly_cons {ds : List Dispatch} (hds : Orderly (e.row line).connected ds)
    (hlast : (e.row line).closes = true → ds = []) :
    Orderly e.session.connected (e.dispatched line :: ds) := by
  have hconnOk : (e.dispatched line).response = .connOk ↔
      e.session.connected = false ∧ (e.row line).connected = true := by
    rw [response_dispatched]
    exact table_connOk _ _
  have hstays : e.session.connected = true → ds ≠ [] → (e.row line).connected = true := by
    intro hconn hne
    exact (table_stays hconn _).resolve_left fun hcloses => hne (hlast hcloses)
  -- The flag that the rest starts from is the flag found here, or it was set here.
  have hflag : ds ≠ [] → ((e.row line).connected = true ↔
      e.session.connected = true ∨ (e.dispatched line).response = .connOk) := by
    intro hne
    rw [hconnOk]
    cases hconn : e.session.connected with
    | true => simp [hstays hconn hne]
    | false => simp
  refine ⟨?_, ?_, ?_, ?_⟩
  · have hrest := hds.connects_once
    by_cases hhead : (e.dispatched line).response = .connOk
    · obtain ⟨hconn, hrow⟩ := hconnOk.mp hhead
      rw [hrow] at hrest
      simpa [hhead, hconn] using hrest
    · rw [List.filter_cons_of_neg (by simpa using hhead)]
      rcases ds with _ | ⟨d, ds⟩
      · simp
      · have := hflag (by simp)
        simp only [hhead, or_false] at this
        rwa [Bool.eq_iff_iff.mpr this] at hrest
  · intro before d behind hsplit
    rcases before with _ | ⟨d', before⟩
    · obtain ⟨rfl, -⟩ := List.cons.inj hsplit
      simp [dispatched]
    · obtain ⟨rfl, hrest⟩ := List.cons.inj hsplit
      rw [hds.found_connected before d behind hrest, hflag (by simp [hrest])]
      simp [or_assoc]
  · intro before d behind hsplit hneeds
    rcases before with _ | ⟨d', before⟩
    · obtain ⟨rfl, -⟩ := List.cons.inj hsplit
      exact Or.inl (e.connected_of_needsOperator line hneeds)
    · obtain ⟨rfl, hrest⟩ := List.cons.inj hsplit
      have := hds.connects_first before d behind hrest hneeds
      rw [hflag (by simp [hrest])] at this
      simpa [or_assoc] using this
  · intro before d behind hsplit hclosing
    rcases before with _ | ⟨d', before⟩
    · obtain ⟨rfl, rfl⟩ := List.cons.inj hsplit
      exact hlast (e.closes_of_closing line hclosing)
    · obtain ⟨rfl, hrest⟩ := List.cons.inj hsplit
      exact hds.closes_last before d behind hrest hclosing

/-! ## Whole runs -/

variable (out : Stream) (count : Nat) (ending : CommandEnd) (lines : List Bytes)

theorem orderly_followLines :
    Orderly e.session.connected (e.followLines out count ending lines).dispatches := by
  induction lines generalizing e out count with
  | nil => exact orderly_nil _
  | cons line lines ih =>
    rw [followLines]
    split
    · exact e.orderly_cons line (orderly_nil _) fun _ => rfl
    · split
      · exact e.orderly_cons line (orderly_nil _) fun _ => rfl
      · rename_i hopen
        exact e.orderly_cons line (ih (e.follow line) _ _) fun hcloses => absurd hcloses hopen

theorem disconnected_followLines :
    (e.followLines out count ending lines).engine.session.connected = false := by
  induction lines generalizing e out count with
  | nil => rfl
  | cons line lines ih =>
    rw [followLines]
    split
    · rfl
    · split
      · rename_i hcloses
        exact connected_of_closes hcloses
      · exact ih (e.follow line) _ _

theorem tally_followLines :
    let account := e.followLines out count ending lines
    account.report.commands = count + account.dispatches.length ∧
      account.out.writeCalls = out.writeCalls + account.dispatches.length ∧
      account.engine.drive.calls =
        e.drive.calls ++ account.dispatches.flatMap Dispatch.calls := by
  induction lines generalizing e out count with
  | nil => simp [followLines, setConnected]
  | cons line lines ih =>
    have hwrite := Stream.writeCalls_answer (e.row line).response out
    have hcalls := e.calls_follow line
    simp only [followLines]
    split
    · rename_i h
      rw [h] at hwrite
      exact ⟨rfl, hwrite, by simpa [setConnected, dispatched] using hcalls⟩
    · rename_i out' h
      rw [h] at hwrite
      split
      · exact ⟨rfl, by rw [Stream.writeCalls_shutdown, hwrite]; rfl,
          by simpa [dispatched] using hcalls⟩
      · obtain ⟨hcount, hout, hdrive⟩ := ih (e.follow line) out' (count + 1)
        refine ⟨?_, ?_, ?_⟩
        · simp only [Account.behind, hcount, List.length_append, List.length_singleton]
          omega
        · simp only [Account.behind, hout, hwrite, List.length_append, List.length_singleton]
          omega
        · simp only [Account.behind, hdrive, hcalls, List.flatMap_append, List.flatMap_singleton,
            List.append_assoc]
          rfl

/-- **A run keeps the law of its dispatches, does what they say and nothing else, and leaves the
operator disconnected.** -/
theorem serve_is_orderly (s : Stream) :
    Orderly e.session.connected (e.dispatches s) ∧
      (e.serve s).1.commands = (e.dispatches s).length ∧
      (e.serve s).2.1.stream.writeCalls = s.writeCalls + (e.dispatches s).length ∧
      (e.serve s).2.2.drive.calls = e.drive.calls ++ (e.dispatches s).flatMap Dispatch.calls ∧
      (e.serve s).2.2.session.connected = false := by
  rw [← Stream.writeCalls_outgoing (e.serve s).2.1.stream, ← Stream.writeCalls_outgoing s]
  change Orderly _ (e.account s).dispatches ∧
    (e.account s).report.commands = (e.account s).dispatches.length ∧
    (e.account s).out.writeCalls = _ + (e.account s).dispatches.length ∧
    (e.account s).engine.drive.calls = _ ++ (e.account s).dispatches.flatMap Dispatch.calls ∧
    (e.account s).engine.session.connected = false
  rw [account_eq_followLines]
  obtain ⟨hcount, hwrites, hcalls⟩ := e.tally_followLines s.outgoing 0 (linesFrom [] s.items).2
    (linesFrom [] s.items).1
  exact ⟨e.orderly_followLines _ _ _ _, hcount.trans (Nat.zero_add _), hwrites, hcalls,
    e.disconnected_followLines _ _ _ _⟩

end Engine

end Teleop
