import Teleop.Proofs.Files.Writing
import Teleop.Proofs.Picture.Outcome

/-!
# Test pictures on demand

A simulated camera whose file can be written delivers its test picture to every caller that asks for
it in a connected session. What was at the path before does not show, and the pictures are the same
each time.
-/

namespace Teleop

/-- A request with the session that it comes to, and what others do there meanwhile. -/
structure Caller where
  channel : Channel
  session : SessionState
  others : Nat → SessionState → SessionState := fun _ s => s

def Caller.visit (caller : Caller) (studio : Studio) : Visit :=
  Teleop.visit caller.others caller.channel caller.session studio

def visits : List Caller → Studio → List Visit
  | [], _ => []
  | caller :: callers, studio =>
    let v := caller.visit studio
    v :: visits callers v.studio

/-- The caller asks for a picture in a connected session, and its stream takes all that is sent. The
request comes in pieces of any size, and more can come behind it. -/
structure Caller.IsWelcome (caller : Caller) : Prop where
  request : ∃ rest, caller.channel.items = (line "PICTURE").map .byte ++ rest
  connected : (caller.session.amid caller.others 0 2).connected = true
  writes : ∀ a ∈ caller.channel.stream.writes, a = .all
  flushes : ∀ e ∈ caller.channel.stream.flushes, e = none

/-- The camera writes test pictures of `size` bytes, and can write one to this path. -/
structure Studio.Simulates (studio : Studio) (size : Nat) (path : Path) : Prop where
  camera : studio.camera.capture = Camera.onFiles (Camera.capturePattern size)
  succeeds :
    (Camera.capturePattern size studio.target.dir studio.target.name studio.files).1 = .ok path

structure Delivered (size captures : Nat) (path : Path) (caller : Caller) (v : Visit) : Prop where
  result : v.result = .ok (.sent size (frameCount size))
  received : v.channel.stream.received =
    caller.channel.stream.received ++ (line "PICTURE_OK" ++ Bytes.pattern size)
  captures : v.studio.camera.captures = captures
  stored : v.studio.files.read path = .ok (.pattern size)

variable {caller : Caller} {studio : Studio} {size : Nat} {path : Path}

namespace Caller.IsWelcome

theorem not_canFail (h : caller.IsWelcome) (e : StreamError) : ¬ caller.channel.CanFail e := by
  rintro (⟨a, ha, call, hrefuses⟩ | hflush)
  · rw [h.writes a ha] at hrefuses
    cases hrefuses
  · cases h.flushes _ hflush

theorem answer (h : caller.IsWelcome) :
    caller.channel.answerFault? = none ∧
      caller.channel.answerEvent .pictureOk = .wrote (line "PICTURE_OK") := by
  have hall : caller.channel.stream.acceptance 0 = .all := by
    unfold Stream.acceptance
    cases hscript : caller.channel.stream.writes with
    | nil => rfl
    | cons a writes => exact h.writes a (hscript ▸ List.mem_cons_self)
  have hflush : caller.channel.stream.flushes.head?.join = none := by
    cases hscript : caller.channel.stream.flushes with
    | nil => rfl
    | cons e flushes =>
      rw [h.flushes e (hscript ▸ List.mem_cons_self)]
      rfl
  rw [Channel.answerFault?, Channel.answerEvent, hall, hflush]
  exact ⟨rfl, rfl⟩

theorem letThrough (h : caller.IsWelcome) :
    LetThrough caller.others caller.channel caller.session := by
  obtain ⟨rest, hitems⟩ := h.request
  have hfree : '\n' ∉ "PICTURE".toList := by decide
  refine ⟨?_, h.connected, h.answer.1⟩
  rw [Channel.nextLine, hitems, takeLine_line hfree]
  rfl

end Caller.IsWelcome

theorem Studio.Simulates.shoot (h : studio.Simulates size path) (s : SessionState) :
    (studio.shoot s).1 = .ok path ∧ (studio.shoot s).2.2.files.read path = .ok (.pattern size) ∧
      (studio.shoot s).2.2.Simulates size path := by
  have hsucceeds := h.succeeds
  rcases hcapture : Camera.capturePattern size studio.target.dir studio.target.name studio.files
    with ⟨result, left⟩
  rw [hcapture] at hsucceeds
  obtain rfl : result = .ok path := hsucceeds
  obtain ⟨hread, hagain⟩ := Camera.capturePattern_eq_ok hcapture
  have hshoot : studio.shoot s = (.ok path, s,
      { studio with
        camera := { studio.camera with captures := studio.camera.captures + 1 }
        files := left }) := by
    simp only [Studio.shoot, Camera.take, h.camera, Camera.onFiles, hcapture]
    rfl
  rw [hshoot]
  exact ⟨rfl, hread, h.camera, congrArg Prod.fst hagain⟩

theorem PictureSent.whole_of_read {c : Channel} {files : FileTree} {file sent : Bytes}
    {result : Except PictureError Transfer} (h : PictureSent c files (.ok path) result sent)
    (hread : files.read path = .ok file) (hfail : ∀ e, ¬ c.CanFail e) :
    result = .ok (.sent file.length (frameCount file.length)) ∧ sent = file := by
  cases h with
  | notOpened hlookup => simp [FileTree.read, hlookup] at hread
  | notRead hlookup => simp [FileTree.read, hlookup] at hread
  | broken _ _ he => exact absurd he (hfail _)
  | whole hfile =>
    obtain rfl := Except.ok.inj (hfile.symm.trans hread)
    exact ⟨rfl, rfl⟩

theorem Caller.IsWelcome.delivered (hcaller : caller.IsWelcome) (h : studio.Simulates size path) :
    Delivered size (studio.camera.captures + 1) path caller (caller.visit studio) ∧
      (caller.visit studio).studio.Simulates size path := by
  obtain ⟨calls, hsent, hstudio, hpicture, -⟩ := visit_letThrough hcaller.letThrough studio
  obtain ⟨hcaptured, hread, hagain⟩ := h.shoot (caller.session.amid caller.others 0 4)
  rw [hcaptured] at hpicture
  obtain ⟨hresult, hcalls⟩ := hpicture.whole_of_read hread hcaller.not_canFail
  have hreceived := Stream.received_of_sent hsent
  rw [List.flatMap_cons, hcalls, hcaller.answer.2] at hreceived
  rw [Bytes.length_pattern] at hresult
  refine ⟨⟨hresult, hreceived, ?_, ?_⟩, ?_⟩
  · exact (congrArg (·.camera.captures) hstudio).trans (studio.captures_shoot _)
  · exact (congrArg (·.files.read path) hstudio).trans hread
  · exact hstudio ▸ hagain

end Teleop
