import Teleop.Proofs.Files.Writing
import Teleop.Proofs.Text.ReadBack

/-!
# Places for files

Whether a user can write a file at a path depends on the directories that are there, and not on the
mode of one that is his.
-/

namespace Teleop

namespace FileTree

variable {t t' : FileTree} {l l' : Location} {p dir : Path} {mode : Nat} {kept access : Access}
  {user : User}

/-- The user can have a file at the path: no directory is there, a file that is there is open to
him, and if nothing is there then he may write to the directory of the place. -/
structure Takes (t : FileTree) (p : Path) (user : User := .root) : Prop where
  slash : Path.endsInSlash p = false
  place : ∃ l, t.locate p user = .ok l ∧ t.IsFree l ∧
    (∀ content access, t.get? l = some (.file content access) →
      access.allows user .read = true ∧ access.allows user .write = true) ∧
    (t.get? l = none → ∃ access, t.get? l.dropLast = some (.directory access) ∧
      access.allows user .write = true)

theorem Takes.write (h : t.Takes p user) (content : Bytes) (mode : Nat) :
    ∃ left, t.write p content mode user = .ok left := by
  obtain ⟨hslash, l, hlocate, hfree, hfile, hdir⟩ := h
  unfold FileTree.write
  rw [hlocate]
  simp only [hslash, Bool.false_eq_true, if_false]
  split
  · rename_i kept hnode
    exact absurd hnode (hfree kept)
  · rename_i old access hnode
    exact ⟨_, if_pos (hfile old access hnode).2⟩
  · rename_i hnone
    obtain ⟨above, habove, hwrite⟩ := hdir hnone
    simp only [habove, hwrite, if_true]
    exact ⟨_, rfl⟩

theorem Takes.read_of_written {content : Bytes} (h : t.Takes p user)
    (hmode : mode.testBit (6 + Permission.read.bit) = true)
    (hwritten : t.Written p content mode user l access) : access.allows user .read = true := by
  obtain ⟨-, place, hlocate, -, hfile, -⟩ := h
  obtain rfl : place = l := Except.ok.inj (hlocate.symm.trans hwritten.located)
  rcases hwritten.node with ⟨old, hold, -⟩ | ⟨-, rfl⟩
  · exact (hfile old access hold).1
  · exact Access.allows_owning user hmode

/-! ## The mode of a directory -/

theorem get?_put_directory (h : t.get? l = some (.directory kept)) (access : Access)
    (l' : Location) :
    (t.put l (.directory access)).get? l' = t.get? l' ∨
      t.get? l' = some (.directory kept) ∧
        (t.put l (.directory access)).get? l' = some (.directory access) := by
  by_cases hl' : l' = l
  · subst hl'
    by_cases hroot : l' = []
    · subst hroot
      exact Or.inl rfl
    · exact Or.inr ⟨h, get?_put_self t _ hroot⟩
  · exact Or.inl (get?_put_ne t _ hl')

theorem keepsOpen_put_directory (h : t.get? l = some (.directory kept))
    (hsearch : access.allows user .search = true) :
    t.KeepsOpen (t.put l (.directory access)) user := by
  refine ⟨rfl, fun l' other hother hsearch' => ?_⟩
  rcases get?_put_directory h access l' with hsame | ⟨-, hnew⟩
  · exact ⟨other, by rw [hsame, hother], hsearch'⟩
  · exact ⟨access, hnew, hsearch⟩

theorem Takes.put_directory (h : t.Takes p user) (hnode : t.get? l = some (.directory kept))
    (hall : ∀ permission, access.allows user permission = true) :
    (t.put l (.directory access)).Takes p user := by
  obtain ⟨hslash, place, hlocate, hfree, hfile, hdir⟩ := h
  refine ⟨hslash, place, (keepsOpen_put_directory hnode (hall .search)).locate hlocate, ?_, ?_, ?_⟩
  · rcases get?_put_directory hnode access place with hsame | ⟨hold, -⟩
    · intro other
      rw [hsame]
      exact hfree other
    · exact absurd hold (hfree kept)
  · intro content other hother
    exact hfile content other (file_of_put_directory hother)
  · intro hnone
    have hold : t.get? place = none := by
      rcases get?_put_directory hnode access place with hsame | ⟨-, hnew⟩
      · rwa [hsame] at hnone
      · rw [hnew] at hnone
        cases hnone
    obtain ⟨above, habove, hwrite⟩ := hdir hold
    rcases get?_put_directory hnode access place.dropLast with hsame | ⟨-, hnew⟩
    · exact ⟨above, by rw [hsame, habove], hwrite⟩
    · exact ⟨access, hnew, hall .write⟩

/-- The user may change the mode of the directory at the path. -/
def IsChangeable (t : FileTree) (p : Path) (user : User) : Prop :=
  ∃ l access, t.locate p user = .ok l ∧ t.get? l = some (.directory access) ∧
    access.isChangeableBy user = true

/-- Whoever gives himself all rights to a directory can still write every file that he could. -/
theorem IsChangeable.setMode (h : t.IsChangeable dir user)
    (hmode : ∀ permission : Permission, mode.testBit (6 + permission.bit) = true) :
    ∃ t', t.setMode dir mode user = .ok t' ∧ ∀ p, t.Takes p user → t'.Takes p user := by
  obtain ⟨l, kept, hlocate, hnode, hchange⟩ := h
  rw [setMode_of_directory hlocate hnode, if_pos hchange]
  by_cases hroot : l = []
  · exact ⟨t, by rw [if_pos hroot], fun p hp => hp⟩
  · refine ⟨_, by rw [if_neg hroot], fun p hp => hp.put_directory hnode fun permission => ?_⟩
    exact Access.allows_of_isChangeableBy hchange (hmode permission)

/-! ## Making room -/

/-- The user can make the missing directories above a path and change the mode of the last of them,
and then he can have a file at the path. -/
def MakesRoom (t : FileTree) (p : Path) (user : User := .root) : Prop :=
  ∃ made, made.Takes p user ∧
    match Path.parent? p with
    | none => made = t
    | some dir =>
      t.makeDirectories dir user = (none, made) ∧ (dir = "" ∨ made.IsChangeable dir user)

theorem not_takes_empty (t : FileTree) (user : User) : ¬ t.Takes "" user := by
  rintro ⟨-, l, hlocate, -⟩
  cases hlocate

end FileTree

theorem Path.parent?_of_bare {p : Path} (hne : p ≠ "") (hbare : '/' ∉ p.toList) :
    parent? p = some "" := by
  have hchars : p.toList ≠ [] := fun h => hne (String.toList_eq_nil_iff.mp h)
  unfold parent?
  simp only
  generalize p.toList = cs at hbare hchars
  by_cases hpoint : cs = ['.']
  · subst hpoint
    rfl
  · have hfront : front cs = [] := by
      unfold front
      split
      · simp at hbare
      · contradiction
      · simp at hbare
      · rfl
    rw [hfront, List.length_nil, List.drop_zero, Text.parts_of_free hbare]
    simp [isVoid, hchars, hpoint, Text.joined]

end Teleop
