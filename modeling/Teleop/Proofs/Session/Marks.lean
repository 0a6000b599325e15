import Teleop.Proofs.Picture.Course
import Teleop.Proofs.Session.Order

/-!
# What a session shows

The dispatches and the end of the command channel, and the course of every picture request, in one
history.
-/

namespace Teleop

inductive Mark where
  | dispatched (d : Dispatch)
  /-- The command channel is over. -/
  | exited
  | request (i : Nat) (m : RequestMark)
deriving DecidableEq, Repr

/-! ## The requests in a history -/

/-- What the request `i` has shown. -/
def shown (i : Nat) (history : List Mark) : List RequestMark :=
  history.filterMap fun
    | .request j m => if j = i then some m else none
    | _ => none

theorem shown_append (i : Nat) (before after : List Mark) :
    shown i (before ++ after) = shown i before ++ shown i after :=
  List.filterMap_append

@[simp] theorem shown_request (i : Nat) (m : RequestMark) (history : List Mark) :
    shown i (.request i m :: history) = m :: shown i history := by
  simp [shown]

theorem shown_request_ne {i j : Nat} (h : j ≠ i) (m : RequestMark) :
    shown i [.request j m] = [] := by
  simp [shown, h]

theorem mem_shown {i : Nat} {m : RequestMark} {history : List Mark} :
    m ∈ shown i history ↔ .request i m ∈ history := by
  unfold shown
  rw [List.mem_filterMap]
  constructor
  · rintro ⟨d | _ | ⟨j, m'⟩, hmem, h⟩
    · cases h
    · cases h
    · obtain ⟨rfl, rfl⟩ : j = i ∧ m' = m := by simpa using h
      exact hmem
  · intro hmem
    exact ⟨_, hmem, by simp⟩

theorem count_shown (i : Nat) (m : RequestMark) (history : List Mark) :
    (shown i history).count m = history.count (.request i m) := by
  induction history with
  | nil => rfl
  | cons mark history ih =>
    rw [← List.singleton_append, shown_append, List.count_append, List.count_append, ih]
    congr 1
    rcases mark with d | _ | ⟨j, m'⟩
    · rfl
    · rfl
    · by_cases hj : j = i
      · subst hj
        rw [shown_request]
        simp [shown, List.count_singleton]
      · rw [shown_request_ne hj]
        simp [hj]

theorem shown_optional (i : Nat) (m? : Option RequestMark) :
    shown i (m?.map (.request i)).toList = m?.toList := by
  cases m? <;> simp [shown]

theorem shown_optional_ne {i j : Nat} (h : j ≠ i) (m? : Option RequestMark) :
    shown i (m?.map (.request j)).toList = [] := by
  cases m? <;> simp [shown, h]

theorem shown_of_not_request {m : Mark} (h : ∀ i m', m ≠ .request i m') (i : Nat) :
    shown i [m] = [] := by
  rcases m with d | _ | ⟨j, m'⟩
  · rfl
  · rfl
  · exact absurd rfl (h j m')

/-! ## Whether the session is open -/

def Mark.Opens : Mark → Prop
  | dispatched d => d.response = .connOk
  | exited | request .. => False

def Mark.Closes : Mark → Prop
  | dispatched d => d.Closing
  | exited => True
  | request .. => False

/-- The operator was let in, and nothing has put him out since. -/
def IsOpen (history : List Mark) : Prop :=
  ∃ before m since, history = before ++ m :: since ∧ m.Opens ∧ ∀ m' ∈ since, ¬ m'.Closes

theorem not_isOpen_nil : ¬ IsOpen [] := by
  rintro ⟨before, m, since, h, -⟩
  simp at h

theorem isOpen_concat {history : List Mark} {m : Mark} :
    IsOpen (history ++ [m]) ↔ m.Opens ∨ IsOpen history ∧ ¬ m.Closes := by
  constructor
  · rintro ⟨before, m', since, h, hopens, hsince⟩
    rcases List.eq_nil_or_concat since with rfl | ⟨since, m'', rfl⟩
    · obtain ⟨-, hm⟩ := List.append_inj' h rfl
      obtain rfl : m = m' := by simpa using hm
      exact Or.inl hopens
    · rw [List.concat_eq_append, ← List.cons_append, ← List.append_assoc] at h
      obtain ⟨rfl, hm⟩ := List.append_inj' h rfl
      obtain rfl : m = m'' := by simpa using hm
      refine Or.inr ⟨⟨before, m', since, rfl, hopens, ?_⟩, ?_⟩
      · intro x hx
        exact hsince x (by simp [hx])
      · exact hsince m (by simp)
  · rintro (hopens | ⟨⟨before, m', since, rfl, hopens, hsince⟩, hstays⟩)
    · exact ⟨history, m, [], rfl, hopens, by simp⟩
    · refine ⟨before, m', since ++ [m], by simp, hopens, ?_⟩
      intro x hx
      rcases List.mem_append.mp hx with hx | hx
      · exact hsince x hx
      · obtain rfl := List.mem_singleton.mp hx
        exact hstays

theorem isOpen_optional {history : List Mark} {i : Nat} {m? : Option RequestMark} :
    IsOpen (history ++ (m?.map (.request i)).toList) ↔ IsOpen history := by
  cases m? with
  | none => simp
  | some m => simp [isOpen_concat, Mark.Opens, Mark.Closes]

/-! ## The gates in a history -/

/-- Every gate found the flag as the history tells it. -/
def Truthful (history : List Mark) : Prop :=
  ∀ before i word connected after,
    history = before ++ .request i (.checked word connected) :: after →
      (connected = true ↔ IsOpen before)

theorem truthful_concat {history : List Mark} {m : Mark} (h : Truthful history)
    (hm : ∀ i word connected, m = .request i (.checked word connected) →
      (connected = true ↔ IsOpen history)) : Truthful (history ++ [m]) := by
  intro before i word connected after hsplit
  rcases List.eq_nil_or_concat after with rfl | ⟨after, m', rfl⟩
  · obtain ⟨rfl, hlast⟩ := List.append_inj' hsplit rfl
    exact hm i word connected (by simpa using hlast)
  · rw [List.concat_eq_append, ← List.cons_append, ← List.append_assoc] at hsplit
    obtain ⟨hsplit, -⟩ := List.append_inj' hsplit rfl
    exact h before i word connected after hsplit

end Teleop
