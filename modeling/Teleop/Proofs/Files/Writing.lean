import Teleop.Camera.Basic
import Teleop.Proofs.Files.Users

/-!
# Files that are written

A file that was written is read back, whatever was at its path before, and no directory is lost by
it. Writing the same again changes nothing, and neither does making a directory that is there.
-/

namespace Teleop

namespace FileTree

variable {t t' : FileTree} {l l' : Location} {p : Path} {content : Bytes} {mode : Nat}
  {access access' : Access} {user user' : User}

/-! ## Putting a node where no directory is -/

def IsFree (t : FileTree) (l : Location) : Prop := ∀ access, t.get? l ≠ some (.directory access)

theorem IsFree.ne_nil (h : t.IsFree l) : l ≠ [] := by
  rintro rfl
  exact h 0o755 rfl

theorem isFree_of_none (h : t.get? l = none) : t.IsFree l := fun access => by simp [h]

theorem get?_put_of_directory (h : t.IsFree l) (n : Node)
    (hl' : t.get? l' = some (.directory access)) :
    (t.put l n).get? l' = some (.directory access) := by
  have hne : l' ≠ l := by
    rintro rfl
    exact h access hl'
  rw [get?_put_ne _ _ hne, hl']

theorem put_put (t : FileTree) (l : Location) (n n' : Node) :
    (t.put l n).put l n' = t.put l n' := by
  simp [put]

/-! ## Ways that stay open -/

/-- Wherever the user may go on in one tree he may go on in the other. -/
structure KeepsOpen (t t' : FileTree) (user : User) : Prop where
  workingDirectory : t'.workingDirectory = t.workingDirectory
  search : ∀ l access, t.get? l = some (.directory access) → access.allows user .search = true →
    ∃ access', t'.get? l = some (.directory access') ∧ access'.allows user .search = true

theorem IsFree.keepsOpen (h : t.IsFree l) (n : Node) (user : User) : t.KeepsOpen (t.put l n) user :=
  ⟨rfl, fun _ access hl' hsearch => ⟨access, get?_put_of_directory h n hl', hsearch⟩⟩

theorem KeepsOpen.follow (h : t.KeepsOpen t' user) {here : Location} {names : List String}
    (hfollow : t.follow user here names = .ok l) : t'.follow user here names = .ok l := by
  induction names generalizing here with
  | nil => exact hfollow
  | cons name names ih =>
    rw [FileTree.follow] at hfollow ⊢
    cases hhere : t.get? here with
    | none => simp [hhere] at hfollow
    | some node =>
      cases node with
      | file content access => simp [hhere] at hfollow
      | directory access =>
        simp only [hhere, Bool.not_eq_true'] at hfollow
        split_ifs at hfollow with hsearch hlong hpoint htwo
        all_goals
          obtain ⟨access', hhere', hsearch'⟩ := h.search here access hhere (by simpa using hsearch)
          simp only [hhere', hsearch', Bool.not_true, Bool.false_eq_true, if_false, if_neg hlong]
        · rw [if_pos hpoint]
          exact ih hfollow
        · rw [if_neg hpoint, if_pos htwo]
          exact ih hfollow
        · rw [if_neg hpoint, if_neg htwo]
          exact ih hfollow

theorem KeepsOpen.locate (h : t.KeepsOpen t' user) (hlocate : t.locate p user = .ok l) :
    t'.locate p user = .ok l := by
  unfold FileTree.locate at hlocate ⊢
  rw [h.workingDirectory]
  split_ifs at hlocate ⊢ <;> exact h.follow hlocate

/-! ## Directories -/

theorem isDirectory_iff :
    t.isDirectory p user = true ↔
      ∃ l access, t.locate p user = .ok l ∧ t.get? l = some (.directory access) := by
  unfold isDirectory
  constructor
  · intro h
    split at h
    · rename_i n hlookup
      obtain ⟨l, hlocate, hnode, -⟩ := lookup_eq_ok.mp hlookup
      cases n with
      | file content access => cases h
      | directory access => exact ⟨l, access, hlocate, hnode⟩
    · cases h
  · rintro ⟨l, access, hlocate, hnode⟩
    rw [lookup_eq_ok.mpr ⟨l, hlocate, hnode, fun _ => rfl⟩]
    rfl

theorem isDirectory_put (h : t.IsFree l) (n : Node) (hdir : t.isDirectory p user = true) :
    (t.put l n).isDirectory p user = true := by
  obtain ⟨l', access, hlocate, hnode⟩ := isDirectory_iff.mp hdir
  exact isDirectory_iff.mpr
    ⟨l', access, (h.keepsOpen n user).locate hlocate, get?_put_of_directory h n hnode⟩

theorem setMode_of_directory (hlocate : t.locate p user = .ok l)
    (hnode : t.get? l = some (.directory access)) (mode : Nat) :
    t.setMode p mode user =
      if access.isChangeableBy user then
        .ok (if l = [] then t else t.put l (.directory { access with mode }))
      else .error .notPermitted := by
  have hlookup := lookup_eq_ok.mpr ⟨l, hlocate, hnode, fun _ => rfl⟩
  simp only [setMode, hlocate, hlookup]

theorem makeDirectory_eq_ok (h : t.makeDirectory p user = .ok t') :
    ∃ l, t.locate p user = .ok l ∧ t.get? l = none ∧
      t' = t.put l (.directory (user.owning 0o755)) := by
  unfold makeDirectory at h
  split at h
  · cases h
  · rename_i l hlocate
    split at h
    · cases h
    · rename_i hnone
      split at h
      · split at h <;> cases h
        exact ⟨l, hlocate, hnone, rfl⟩
      · cases h
      · cases h

theorem isDirectory_makeDirectory (h : t.makeDirectory p user = .ok t') :
    t'.isDirectory p user = true := by
  obtain ⟨l, hlocate, hnone, rfl⟩ := makeDirectory_eq_ok h
  have hfree := isFree_of_none hnone
  exact isDirectory_iff.mpr
    ⟨l, _, (hfree.keepsOpen _ user).locate hlocate, get?_put_self t _ hfree.ne_nil⟩

theorem makeDirectory_of_isDirectory (h : t.isDirectory p user = true) :
    t.makeDirectory p user = .error .alreadyExists := by
  obtain ⟨l, access, hlocate, hnode⟩ := isDirectory_iff.mp h
  simp only [makeDirectory, hlocate, hnode]

theorem selfAndAbove_eq (p : Path) : ∃ above, Path.selfAndAbove p = p :: above := ⟨_, rfl⟩

theorem isDirectory_makeDirectories (h : t.makeDirectories p user = (none, t')) :
    p = "" ∨ t'.isDirectory p user = true := by
  obtain ⟨above, habove⟩ := selfAndAbove_eq p
  rw [makeDirectories, habove, makeDirectoryChain] at h
  split at h
  · rename_i hempty
    exact Or.inl hempty
  · refine Or.inr ?_
    split at h
    · rename_i hmade
      cases h
      exact isDirectory_makeDirectory hmade
    · split at h
      · cases h
      · split at h
        · rename_i hmade
          cases h
          exact isDirectory_makeDirectory hmade
        · obtain ⟨hdir, rfl⟩ := Prod.mk.inj h
          simpa using hdir
    · obtain ⟨hdir, rfl⟩ := Prod.mk.inj h
      simpa using hdir

theorem makeDirectories_of_isDirectory (h : p = "" ∨ t.isDirectory p user = true) :
    t.makeDirectories p user = (none, t) := by
  obtain ⟨above, habove⟩ := selfAndAbove_eq p
  rw [makeDirectories, habove, makeDirectoryChain]
  split
  · rfl
  · rename_i hempty
    have hdir := h.resolve_left hempty
    simp only [makeDirectory_of_isDirectory hdir, hdir, if_true]

/-! ## What becomes of files -/

theorem file_of_put_directory {access : Access}
    (h : (t.put l (.directory access)).get? l' = some (.file content access')) :
    t.get? l' = some (.file content access') := by
  by_cases hroot : l' = []
  · subst hroot
    cases h
  · by_cases hl : l' = l
    · subst hl
      rw [get?_put_self t _ hroot] at h
      cases h
    · rwa [get?_put_ne t _ hl] at h

theorem file_of_makeDirectory (hmade : t.makeDirectory p user = .ok t')
    (h : t'.get? l = some (.file content access)) : t.get? l = some (.file content access) := by
  obtain ⟨_, -, -, rfl⟩ := makeDirectory_eq_ok hmade
  exact file_of_put_directory h

theorem file_of_makeDirectoryChain {failure : Option SystemError} {paths : List Path}
    (hmade : t.makeDirectoryChain user paths = (failure, t'))
    (h : t'.get? l = some (.file content access)) : t.get? l = some (.file content access) := by
  induction paths generalizing failure t' with
  | nil =>
    cases hmade
    exact h
  | cons p above ih =>
    rw [makeDirectoryChain] at hmade
    split at hmade
    · cases hmade
      exact h
    · split at hmade
      · rename_i hfirst
        cases hmade
        exact file_of_makeDirectory hfirst h
      · split at hmade
        · rename_i habove
          cases hmade
          exact ih habove h
        · rename_i made habove
          split at hmade
          · rename_i hlast
            cases hmade
            exact ih habove (file_of_makeDirectory hlast h)
          · cases hmade
            exact ih habove h
      · cases hmade
        exact h

theorem file_of_makeDirectories {failure : Option SystemError}
    (hmade : t.makeDirectories p user = (failure, t'))
    (h : t'.get? l = some (.file content access)) : t.get? l = some (.file content access) :=
  file_of_makeDirectoryChain hmade h

theorem file_of_setMode (h : t.isDirectory p user = true) (hset : t.setMode p mode user = .ok t')
    (hfile : t'.get? l = some (.file content access)) : t.get? l = some (.file content access) := by
  obtain ⟨place, kept, hlocate, hnode⟩ := isDirectory_iff.mp h
  rw [setMode_of_directory hlocate hnode] at hset
  split_ifs at hset
  · cases hset
    exact hfile
  · cases hset
    exact file_of_put_directory hfile

/-! ## Files -/

/-- What a write comes to that succeeds. -/
structure Written (t : FileTree) (p : Path) (content : Bytes) (mode : Nat) (user : User)
    (l : Location) (access : Access) : Prop where
  located : t.locate p user = .ok l
  slash : Path.endsInSlash p = false
  /-- An old file stays whose it is, and a new one belongs to the user. -/
  node : (∃ old, t.get? l = some (.file old access) ∧ access.allows user .write = true) ∨
    t.get? l = none ∧ access = user.owning mode

theorem write_eq_ok (h : t.write p content mode user = .ok t') :
    ∃ l access, t.Written p content mode user l access ∧ t' = t.put l (.file content access) := by
  unfold write at h
  split at h
  · cases h
  · rename_i l hlocate
    split at h
    · cases h
    · rename_i old access hold
      split_ifs at h with hslash hallows
      cases h
      exact ⟨l, access, ⟨hlocate, by simpa using hslash, Or.inl ⟨old, hold, hallows⟩⟩, rfl⟩
    · rename_i hnone
      split at h
      · split_ifs at h with hslash hallows
        cases h
        exact ⟨l, _, ⟨hlocate, by simpa using hslash, Or.inr ⟨hnone, rfl⟩⟩, rfl⟩
      · cases h
      · cases h

namespace Written

variable (h : t.Written p content mode user l access)
include h

theorem free : t.IsFree l := by
  rcases h.node with ⟨old, hold, -⟩ | ⟨hnone, -⟩
  · exact fun other => by simp [hold]
  · exact isFree_of_none hnone

theorem relocated : (t.put l (.file content access)).locate p = .ok l :=
  (h.free.keepsOpen _ _).locate (FileTree.locate_root h.located)

theorem get? : (t.put l (.file content access)).get? l = some (.file content access) :=
  get?_put_self t _ h.free.ne_nil

theorem lookup (hlocate : t.locate p user' = .ok l) :
    (t.put l (.file content access)).lookup p user' = .ok (.file content access) :=
  lookup_eq_ok.mpr ⟨l, (h.free.keepsOpen _ user').locate hlocate, h.get?, by simp [h.slash]⟩

theorem holds : (t.put l (.file content access)).holds p user = true :=
  holds_iff.mpr ⟨_, h.lookup h.located⟩

theorem read (hread : access.allows user .read = true) :
    (t.put l (.file content access)).read p user = .ok content := by
  rw [FileTree.read, h.lookup h.located]
  simp only [hread, if_true]

theorem read_root : (t.put l (.file content access)).read p = .ok content := by
  rw [FileTree.read, h.lookup (locate_root h.located)]
  simp only [Access.allows_root, if_true]

end Written

theorem read_write (h : t.write p content mode user = .ok t') : t'.read p = .ok content := by
  obtain ⟨l, access, hwritten, rfl⟩ := write_eq_ok h
  exact hwritten.read_root

theorem write_again (h : t.write p content mode = .ok t') (mode' : Nat) :
    t'.write p content mode' = .ok t' := by
  obtain ⟨l, access, hwritten, rfl⟩ := write_eq_ok h
  simp only [write, hwritten.relocated, hwritten.get?, hwritten.slash, Bool.false_eq_true, if_false,
    Access.allows_root, if_true, put_put]

theorem isDirectory_write {dir : Path} (h : t.write p content mode user = .ok t')
    (hdir : t.isDirectory dir user = true) : t'.isDirectory dir user = true := by
  obtain ⟨l, access, hwritten, rfl⟩ := write_eq_ok h
  exact isDirectory_put hwritten.free _ hdir

end FileTree

/-! ## Test pictures -/

theorem Camera.capturePattern_eq_ok {size : Nat} {dir path : Path} {name : String}
    {files left : FileTree} (h : capturePattern size dir name files = (.ok path, left)) :
    left.read path = .ok (.pattern size) ∧
      capturePattern size dir name left = (.ok path, left) := by
  unfold capturePattern at h ⊢
  dsimp only at h ⊢
  split at h
  · cases h
  · rename_i made hmade
    split at h
    · cases h
    · rename_i written hwritten
      cases h
      have hdir : dir = "" ∨ left.isDirectory dir = true :=
        (FileTree.isDirectory_makeDirectories hmade).imp_right (FileTree.isDirectory_write hwritten)
      refine ⟨FileTree.read_write hwritten, ?_⟩
      rw [FileTree.makeDirectories_of_isDirectory hdir]
      dsimp only
      rw [FileTree.write_again hwritten]

end Teleop
