import Mathlib.Tactic.SplitIfs
import Teleop.Files.Tree

/-!
# What users find

A user finds what root finds, or he is not root and is denied on the way.
-/

namespace Teleop

namespace FileTree

variable {t : FileTree} {user : User} {l : Location} {p : Path}

/-! ## Finding a place -/

theorem follow_root_or_denied (t : FileTree) (user : User) (here : Location) (names : List String) :
    t.follow user here names = t.follow .root here names ∨
      user.isRoot = false ∧ t.follow user here names = .error .denied := by
  induction names generalizing here with
  | nil => exact Or.inl rfl
  | cons name names ih =>
    unfold follow
    split
    · exact Or.inl rfl
    · exact Or.inl rfl
    · rename_i access _
      cases hsearch : access.allows user .search with
      | false =>
        refine Or.inr ⟨?_, rfl⟩
        cases hroot : user.isRoot with
        | true =>
          rw [Access.allows_of_isRoot hroot] at hsearch
          cases hsearch
        | false => rfl
      | true =>
        simp only [Access.allows_root, Bool.not_true, Bool.false_eq_true, if_false]
        split_ifs
        · exact Or.inl rfl
        · exact ih here
        · exact ih here.dropLast
        · exact ih (here ++ [name])

theorem locate_root_or_denied (t : FileTree) (p : Path) (user : User) :
    t.locate p user = t.locate p ∨ user.isRoot = false ∧ t.locate p user = .error .denied := by
  unfold locate
  split_ifs
  · exact Or.inl rfl
  · exact Or.inl rfl
  · exact Or.inl rfl
  · exact follow_root_or_denied t user _ _
  · exact follow_root_or_denied t user _ _

theorem locate_root (h : t.locate p user = .ok l) : t.locate p = .ok l := by
  rcases locate_root_or_denied t p user with hsame | ⟨-, hdenied⟩
  · rw [← hsame, h]
  · rw [h] at hdenied
    cases hdenied

theorem lookup_of_denied (h : t.locate p user = .error .denied) :
    t.lookup p user = .error .denied := by
  unfold lookup
  rw [h]

/-! ## What is there and what is seen -/

/-- Something is at the place that the path names, whoever may see it. -/
def Stands (t : FileTree) (p : Path) : Prop := ∃ l n, t.locate p = .ok l ∧ t.get? l = some n

theorem stands_of_holds (h : t.holds p user = true) : t.Stands p := by
  obtain ⟨n, hlookup⟩ := holds_iff.mp h
  obtain ⟨l, hlocate, hnode, -⟩ := lookup_eq_ok.mp hlookup
  exact ⟨l, n, locate_root hlocate, hnode⟩

/-- A user does not see what is there if he may not go there, or if the path says that it is a
directory and it is none. -/
theorem Stands.of_unseen (h : t.Stands p) (hunseen : t.holds p user = false) :
    Path.endsInSlash p = true ∨ user.isRoot = false ∧ t.lookup p user = .error .denied := by
  obtain ⟨l, n, hlocate, hnode⟩ := h
  rcases locate_root_or_denied t p user with hsame | ⟨hroot, hdenied⟩
  · refine Or.inl ?_
    cases hslash : Path.endsInSlash p with
    | true => rfl
    | false =>
      have hlookup := lookup_eq_ok.mpr ⟨l, hsame.trans hlocate, hnode, by simp [hslash]⟩
      rw [holds_iff.mpr ⟨n, hlookup⟩] at hunseen
      cases hunseen
  · exact Or.inr ⟨hroot, lookup_of_denied hdenied⟩

end FileTree

end Teleop
