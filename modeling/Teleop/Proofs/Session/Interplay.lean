import Mathlib.Data.List.Induction
import Mathlib.Data.List.Nodup
import Teleop.Proofs.Session.Flag
import Teleop.Proofs.Session.Marks

/-!
# The two channels of a session

The command engine of a session and its picture requests take turns in any order, each of them from
one wait to the next. They share the flags, and the gate of a request looks at them once.
-/

namespace Teleop

/-! ## Turns -/

/-- The command engine with the channel that it serves, and the picture requests in the order in
which they came. -/
structure Interplay where
  engine : Engine
  command : CommandRun
  studio : Studio
  requests : List Request := []

inductive Turn where
  /-- The command engine gets a channel to serve. The one that it had is dropped. -/
  | serve (s : Stream)
  | command
  | close
  /-- A picture request comes. -/
  | ask (s : Stream)
  | image (i : Nat)
deriving DecidableEq, Repr

namespace Interplay

/-- A session as it begins. -/
def start (drive : Drive) (speed : Speed) (studio : Studio) (s : Stream) : Interplay where
  engine := { drive, speed }
  command := { channel := { stream := s } }
  studio := studio

def turn (x : Interplay) : Turn → Interplay
  | .serve s => { x with command := { channel := { stream := s } } }
  | .command =>
    { x with command := (x.command.step x.engine).1, engine := (x.command.step x.engine).2 }
  | .close => { x with engine := { x.engine with session := x.engine.session.close } }
  | .ask s => { x with requests := x.requests ++ [{ channel := { stream := s } }] }
  | .image i =>
    match x.requests[i]? with
    | none => x
    | some r =>
      let (r, session, studio) := r.step x.engine.session x.studio
      { x with
        engine := { x.engine with session := session }
        studio := studio
        requests := x.requests.set i r }

/-- What a turn shows. -/
def mark? (x : Interplay) : Turn → Option Mark
  | .command =>
    match x.command.dispatch? x.engine with
    | some d => some (.dispatched d)
    | none =>
      if x.command.ending? = none ∧ (x.command.step x.engine).1.ending? ≠ none then some .exited
      else none
  | .image i => x.requests[i]?.bind fun r => (r.mark? x.engine.session).map (.request i)
  | .serve _ | .close | .ask _ => none

theorem turn_image_some {x : Interplay} {i : Nat} {r : Request} (h : x.requests[i]? = some r) :
    x.turn (.image i) =
      { x with
        engine := { x.engine with session := (r.step x.engine.session x.studio).2.1 }
        studio := (r.step x.engine.session x.studio).2.2
        requests := x.requests.set i (r.step x.engine.session x.studio).1 } := by
  simp only [turn, h]

theorem turn_image_none {x : Interplay} {i : Nat} (h : x.requests[i]? = none) :
    x.turn (.image i) = x := by
  simp only [turn, h]

theorem mark?_image (x : Interplay) (i : Nat) :
    x.mark? (.image i) =
      x.requests[i]?.bind fun r => (r.mark? x.engine.session).map (.request i) :=
  rfl

def run (x : Interplay) (turns : List Turn) : Interplay := turns.foldl turn x

def history (x : Interplay) : List Turn → List Mark
  | [] => []
  | t :: turns => (x.mark? t).toList ++ (x.turn t).history turns

theorem run_concat (x : Interplay) (turns : List Turn) (t : Turn) :
    x.run (turns ++ [t]) = (x.run turns).turn t := by
  simp [run]

theorem history_concat (x : Interplay) (turns : List Turn) (t : Turn) :
    x.history (turns ++ [t]) = x.history turns ++ ((x.run turns).mark? t).toList := by
  induction turns generalizing x with
  | nil => simp [history, run]
  | cons t' turns ih =>
    rw [List.cons_append, history, history, ih, List.append_assoc]
    rfl

end Interplay

/-- The streams that picture requests came on. -/
def asked (turns : List Turn) : List Stream :=
  turns.filterMap fun
    | .ask s => some s
    | _ => none

theorem asked_concat (turns : List Turn) (t : Turn) :
    asked (turns ++ [t]) = asked turns ++ asked [t] :=
  List.filterMap_append

/-! ## One turn -/

/-- How a session stands to what it has shown. `captures` is what its camera had taken before. -/
structure InStep (captures : Nat) (streams : List Stream) (history : List Mark) (x : Interplay) :
    Prop where
  camera : x.studio.camera.LeavesFlags
  tidy : x.command.Tidy x.engine.session
  flag : x.engine.session.connected = true ↔ IsOpen history
  truthful : Truthful history
  length_requests : x.requests.length = streams.length
  onCourse : ∀ (i : Nat) (s : Stream) (r : Request), streams[i]? = some s →
    x.requests[i]? = some r → r.OnCourse s (shown i history)
  unasked : ∀ i, streams.length ≤ i → shown i history = []
  captured : x.studio.camera.captures =
    captures + history.countP fun m => m matches .request _ .captured

variable {captures : Nat} {streams : List Stream} {history : List Mark} {x : Interplay}

namespace InStep

theorem start (drive : Drive) (speed : Speed) {studio : Studio}
    (hcamera : studio.camera.LeavesFlags) (s : Stream) :
    InStep studio.camera.captures [] [] (.start drive speed studio s) where
  camera := hcamera
  tidy := by simp [CommandRun.Tidy, CommandRun.isLeaving, Interplay.start]
  flag := by simp [Interplay.start, not_isOpen_nil]
  truthful := by simp [Truthful]
  length_requests := rfl
  onCourse := by simp
  unasked := by simp [shown]
  captured := rfl

theorem concat {x' : Interplay} {m : Mark} (h : InStep captures streams history x)
    (hm : ∀ i m', m ≠ .request i m') (hstudio : x'.studio = x.studio)
    (hrequests : x'.requests = x.requests) (htidy : x'.command.Tidy x'.engine.session)
    (hflag : x'.engine.session.connected = true ↔ IsOpen (history ++ [m])) :
    InStep captures streams (history ++ [m]) x' where
  camera := hstudio ▸ h.camera
  tidy := htidy
  flag := hflag
  truthful := truthful_concat h.truthful fun i word connected hchecked =>
    absurd hchecked (hm i _)
  length_requests := hrequests ▸ h.length_requests
  onCourse i s r hs hr := by
    rw [shown_append, shown_of_not_request hm, List.append_nil]
    exact h.onCourse i s r hs (hrequests ▸ hr)
  unasked i hi := by
    rw [shown_append, shown_of_not_request hm, h.unasked i hi]
    rfl
  captured := by
    rw [hstudio, h.captured, List.countP_append]
    rcases m with d | _ | ⟨i, m'⟩
    · rfl
    · rfl
    · exact absurd rfl (hm i m')

theorem command (h : InStep captures streams history x) :
    InStep captures streams (history ++ (x.mark? .command).toList) (x.turn .command) := by
  have htidy := CommandRun.tidy_step h.tidy
  have hconnected := CommandRun.connected_step h.tidy
  unfold Interplay.mark?
  cases hdispatch : x.command.dispatch? x.engine with
  | some d =>
    rw [hdispatch] at hconnected
    refine h.concat (by simp) rfl rfl htidy ?_
    rw [isOpen_concat, ← h.flag]
    exact hconnected
  | none =>
    rw [hdispatch] at hconnected
    dsimp only at hconnected ⊢
    split
    · rename_i hexit
      refine h.concat (by simp) rfl rfl htidy ?_
      rw [isOpen_concat]
      change (x.command.step x.engine).2.session.connected = true ↔ _
      simpa [Mark.Opens, Mark.Closes, hexit.2] using hconnected
    · rename_i hstays
      -- The run goes on, or it was over before and had put the flag down by then.
      have hflag : (x.command.step x.engine).2.session.connected = true ↔ IsOpen history := by
        rw [hconnected, ← h.flag, and_iff_left_iff_imp]
        intro hopen
        by_contra hover
        refine hstays ⟨?_, hover⟩
        by_contra hending
        simp [h.tidy.connected_of_ending hending] at hopen
      rw [Option.toList_none, List.append_nil]
      exact { h with tidy := htidy, flag := hflag }

theorem close (h : InStep captures streams history x) :
    InStep captures streams history (x.turn .close) :=
  { h with tidy := h.tidy, flag := h.flag }

theorem serve (h : InStep captures streams history x) (s : Stream) :
    InStep captures streams history (x.turn (.serve s)) :=
  { h with tidy := fun hleaving => absurd hleaving Bool.false_ne_true }

theorem ask (h : InStep captures streams history x) (s : Stream) :
    InStep captures (streams ++ [s]) history (x.turn (.ask s)) :=
  { h with
    length_requests := by simp [Interplay.turn, h.length_requests]
    unasked := fun i hi => h.unasked i (Nat.le_trans (by simp) hi)
    onCourse := by
      intro i s' r hs hr
      rcases Nat.lt_trichotomy i streams.length with hi | rfl | hi
      · rw [List.getElem?_append_left hi] at hs
        rw [Interplay.turn, List.getElem?_append_left (h.length_requests ▸ hi)] at hr
        exact h.onCourse i s' r hs hr
      · obtain rfl : s = s' := by simpa using hs
        rw [Interplay.turn, ← h.length_requests, List.getElem?_concat_length] at hr
        obtain rfl := Option.some.inj hr
        rw [h.unasked _ (Nat.le_refl _)]
        exact Request.onCourse_begin s
      · have hlt := (List.getElem?_eq_some_iff.mp hs).1
        rw [List.length_append, List.length_singleton] at hlt
        omega }

theorem image (h : InStep captures streams history x) (i : Nat) :
    InStep captures streams (history ++ (x.mark? (.image i)).toList) (x.turn (.image i)) := by
  cases hr : x.requests[i]? with
  | none =>
    rw [Interplay.turn_image_none hr, Interplay.mark?_image, hr, Option.bind_none,
      Option.toList_none, List.append_nil]
    exact h
  | some r =>
    have hsession := Request.session_step h.camera r x.engine.session
    rw [Interplay.turn_image_some hr, Interplay.mark?_image, hr, Option.bind_some]
    refine ⟨?_, ?_, ?_, ?_, ?_, ?_, ?_, ?_⟩
    · unfold Camera.LeavesFlags
      rw [r.capture_step]
      exact h.camera
    · rw [hsession]
      exact h.tidy
    · rw [hsession, isOpen_optional]
      exact h.flag
    · cases hm : r.mark? x.engine.session with
      | none => simpa using h.truthful
      | some m =>
        refine truthful_concat h.truthful fun j word connected hchecked => ?_
        obtain ⟨-, rfl⟩ : i = j ∧ m = .checked word connected := by simpa using hchecked
        rw [Request.mark?_eq_checked hm]
        exact h.flag
    · rw [List.length_set]
      exact h.length_requests
    · intro j s r' hs hr'
      rw [shown_append]
      by_cases hj : i = j
      · subst hj
        have hlt := (List.getElem?_eq_some_iff.mp hr).1
        rw [List.getElem?_set_self hlt] at hr'
        obtain rfl := Option.some.inj hr'
        rw [shown_optional]
        exact Request.onCourse_step (h.onCourse i s r hs hr) _ _
      · rw [List.getElem?_set_ne hj] at hr'
        rw [shown_optional_ne hj, List.append_nil]
        exact h.onCourse j s r' hs hr'
    · intro j hj
      have hlt := (List.getElem?_eq_some_iff.mp hr).1
      have hne : i ≠ j := by
        rw [h.length_requests] at hlt
        omega
      rw [shown_append, h.unasked j hj, shown_optional_ne hne]
      rfl
    · rw [r.captures_step, h.captured, List.countP_append, Nat.add_assoc]
      congr 2
      rcases r.mark? x.engine.session with _ | m
      · rfl
      · cases m <;> simp

theorem turn (h : InStep captures streams history x) (t : Turn) :
    InStep captures (streams ++ asked [t]) (history ++ (x.mark? t).toList) (x.turn t) := by
  cases t with
  | serve s => simpa [asked, Interplay.mark?] using h.serve s
  | command => simpa [asked] using h.command
  | close => simpa [asked, Interplay.mark?] using h.close
  | ask s => simpa [asked, Interplay.mark?] using h.ask s
  | image i => simpa [asked] using h.image i

theorem run (h : InStep captures [] [] x) (turns : List Turn) :
    InStep captures (asked turns) (x.history turns) (x.run turns) := by
  induction turns using List.reverseRecOn with
  | nil => exact h
  | append_singleton turns t ih =>
    rw [asked_concat, Interplay.history_concat, Interplay.run_concat]
    exact ih.turn t

end InStep

/-! ## The gate -/

/-- What the gate makes sure of in a session that took these turns. -/
structure Guarded (x : Interplay) (turns : List Turn) : Prop where
  /-- A `PICTURE_OK` goes to a request whose gate was passed in an open session. -/
  accepted : ∀ before i after,
    x.history turns = before ++ .request i (.answered .pictureOk) :: after →
      ∃ early late, before = early ++ .request i (.checked Command.picture.bytes true) :: late ∧
        IsOpen early
  /-- Any other request is refused, with no more than that, and takes no picture. -/
  refused : ∀ before i word connected after,
    x.history turns = before ++ .request i (.checked word connected) :: after →
      (word = Command.picture.bytes → ¬ IsOpen before) →
        .request i (.answered .pictureOk) ∉ x.history turns ∧
          .request i .captured ∉ x.history turns ∧
            ∃ s r, (asked turns)[i]? = some s ∧ (x.run turns).requests[i]? = some r ∧
              r.Refused s ∧ ∀ state studio, (r.step state studio).1.result?.isSome
  /-- A picture is taken for one `PICTURE_OK`, once. -/
  captured : ∀ before i after, x.history turns = before ++ .request i .captured :: after →
    .request i (.answered .pictureOk) ∈ before ∧
      (x.history turns).count (.request i (.answered .pictureOk)) = 1 ∧
        (x.history turns).count (.request i .captured) = 1
  /-- The camera took the pictures that the history shows. -/
  captures : (x.run turns).studio.camera.captures =
    x.studio.camera.captures + (x.history turns).countP fun m => m matches .request _ .captured
  /-- The clients were sent the answers that the history shows, before anything else. -/
  said : ∀ (i : Nat) (s : Stream) (r : Request), (asked turns)[i]? = some s →
    (x.run turns).requests[i]? = some r →
      ((∀ a, .request i (.answered a) ∉ x.history turns) → r.channel.stream.sent = s.sent) ∧
        ∀ a, .request i (.answered a) ∈ x.history turns → r.Said s a

namespace InStep

theorem onCourse_of_mem (h : InStep captures streams history x) {i : Nat} {m : RequestMark}
    (hm : .request i m ∈ history) :
    ∃ s r, streams[i]? = some s ∧ x.requests[i]? = some r ∧ r.OnCourse s (shown i history) := by
  have hlt : i < streams.length := by
    by_contra hge
    have hnone := h.unasked i (by omega)
    rw [← mem_shown, hnone] at hm
    simp at hm
  have hlt' : i < x.requests.length := h.length_requests ▸ hlt
  exact ⟨_, _, List.getElem?_eq_getElem hlt, List.getElem?_eq_getElem hlt',
    h.onCourse i _ _ (List.getElem?_eq_getElem hlt) (List.getElem?_eq_getElem hlt')⟩

theorem shown_prefix (h : InStep captures streams history x) {i : Nat} {m : RequestMark}
    {before after : List Mark} (hsplit : history = before ++ .request i m :: after) :
    ∃ word connected, shown i before ++ m :: shown i after <+: course word connected := by
  obtain ⟨s, r, -, -, hcourse⟩ := h.onCourse_of_mem (i := i) (m := m) (by simp [hsplit])
  rw [hsplit, shown_append, shown_request] at hcourse
  exact Request.shown_of_onCourse hcourse

theorem count_eq_one (h : InStep captures streams history x) {i : Nat} {m : RequestMark}
    (hm : .request i m ∈ history) : history.count (.request i m) = 1 := by
  obtain ⟨s, r, -, -, hcourse⟩ := h.onCourse_of_mem hm
  obtain ⟨word, connected, hprefix⟩ := Request.shown_of_onCourse hcourse
  rw [← count_shown]
  exact List.count_eq_one_of_mem ((Request.nodup_course word connected).sublist hprefix.sublist)
    (mem_shown.mpr hm)

theorem accepted (h : InStep captures streams history x) {before after : List Mark} {i : Nat}
    (hsplit : history = before ++ .request i (.answered .pictureOk) :: after) :
    ∃ early late, before = early ++ .request i (.checked Command.picture.bytes true) :: late ∧
      IsOpen early := by
  obtain ⟨word, connected, hprefix⟩ := h.shown_prefix hsplit
  obtain ⟨hbefore, hverdict⟩ := Request.before_answered hprefix
  obtain ⟨rfl, rfl⟩ := verdict_eq_pictureOk.mp hverdict.symm
  have hmem : .checked Command.picture.bytes true ∈ shown i before := by simp [hbefore]
  obtain ⟨early, late, rfl⟩ := List.append_of_mem (mem_shown.mp hmem)
  refine ⟨early, late, rfl, ?_⟩
  rw [List.append_assoc] at hsplit
  exact (h.truthful early i _ _ _ hsplit).mp rfl

theorem refused (h : InStep captures streams history x) {before after : List Mark} {i : Nat}
    {word : Bytes} {connected : Bool}
    (hsplit : history = before ++ .request i (.checked word connected) :: after)
    (houtside : word = Command.picture.bytes → ¬ IsOpen before) :
    .request i (.answered .pictureOk) ∉ history ∧ .request i .captured ∉ history ∧
      ∃ s r, streams[i]? = some s ∧ x.requests[i]? = some r ∧ r.Refused s ∧
        ∀ state studio, (r.step state studio).1.result?.isSome := by
  have hmem : .request i (.checked word connected) ∈ history := by simp [hsplit]
  obtain ⟨s, r, hs, hr, hcourse⟩ := h.onCourse_of_mem hmem
  have herr : verdict word connected = .pictureErr := by
    refine (verdict_cases word connected).resolve_left fun hok => ?_
    obtain ⟨hword, hconnected⟩ := verdict_eq_pictureOk.mp hok
    exact houtside hword ((h.truthful before i _ _ _ hsplit).mp hconnected)
  obtain ⟨hrefused, hok, hcaptured⟩ :=
    Request.refused_of_onCourse hcourse (mem_shown.mpr hmem) herr
  rw [mem_shown] at hok hcaptured
  exact ⟨hok, hcaptured, s, r, hs, hr, hrefused, Request.result?_step_of_refused hrefused⟩

theorem answered_of_captured (h : InStep captures streams history x) {before after : List Mark}
    {i : Nat} (hsplit : history = before ++ .request i .captured :: after) :
    .request i (.answered .pictureOk) ∈ before := by
  obtain ⟨word, connected, hprefix⟩ := h.shown_prefix hsplit
  rw [← mem_shown, Request.before_captured hprefix]
  simp

end InStep

/-- **Pictures are for an operator who was let in.** However the command engine and the picture
requests of a session take turns, a request gets its `PICTURE_OK` only if its gate was passed behind
a `CONN_OK` and before the session ended, any other is refused, and every picture is taken for one
`PICTURE_OK`. -/
theorem Interplay.guarded (drive : Drive) (speed : Speed) (studio : Studio) (s : Stream)
    (turns : List Turn) (hcamera : studio.camera.LeavesFlags) :
    Guarded (start drive speed studio s) turns := by
  have h := (InStep.start drive speed hcamera s).run turns
  refine ⟨fun _ _ _ => h.accepted, fun _ _ _ _ _ => h.refused, ?_, h.captured, ?_⟩
  · intro before i after hsplit
    have hok := h.answered_of_captured hsplit
    exact ⟨hok, h.count_eq_one (by simp [hsplit, hok]), h.count_eq_one (by simp [hsplit])⟩
  · intro i s r hs hr
    obtain ⟨hsilent, hsaid⟩ := Request.sent_of_onCourse (h.onCourse i s r hs hr)
    simp only [mem_shown] at hsilent hsaid
    exact ⟨hsilent, hsaid⟩

/-- The operator connects and leaves again. -/
def briefSession : Interplay :=
  .start (.simulated "drive" false) .standard
    { camera := .simulated "camera" 2, target := { dir := "pictures", name := "view" } }
    { arrivals := [.chunk (line "CONN"), .chunk (line "DISCONN")] }

/-- One picture is asked for before the operator leaves and taken behind it, one is asked for too
late. -/
def lateTurns : List Turn :=
  let s : Stream := { arrivals := [.chunk (line "PICTURE")] }
  [.ask s, .command, .image 0, .image 0, .image 0, .command, .command, .image 0,
    .ask s, .image 1, .image 1, .image 1]

theorem guarded_late :
    briefSession.studio.camera.LeavesFlags ∧ Guarded briefSession lateTurns ∧
      .request 0 .captured ∈ briefSession.history lateTurns ∧
        .request 1 (.answered .pictureErr) ∈ briefSession.history lateTurns :=
  ⟨Camera.leavesFlags_onFiles _ _ _,
    Interplay.guarded _ _ _ _ _ (Camera.leavesFlags_onFiles _ _ _),
    by decide +kernel, by decide +kernel⟩

end Teleop
