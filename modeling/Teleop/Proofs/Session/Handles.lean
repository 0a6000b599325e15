import Teleop.Proofs.Session.Waiting

/-!
# The handles on a session and their waiters

Anything that happens to the handles on one session and to the waiters made from them, in any
order. The history alone says what every handle reports and which waiters there are.
-/

namespace Teleop

namespace Board

/-! ## Histories -/

namespace Action

/-- The handle that an action uses. -/
def handle? : Action → Option Nat
  | .setConnected h _ | .close h | .clone h | .awaitEnd h | .awaitClose h => some h
  | .poll _ => none

def value? : Action → Option Bool
  | .setConnected _ value => some value
  | _ => none

def isClose : Action → Bool
  | .close _ => true
  | _ => false

def isClone : Action → Bool
  | .clone _ => true
  | _ => false

/-- The waiter that an action makes. -/
def waiter? : Action → Option Waiter
  | .awaitEnd _ => some (.ended false)
  | .awaitClose _ => some .closing
  | _ => none

end Action

/-- The handles there are: the first one and its clones. -/
def handlesOf (done : List Action) : Nat := done.countP Action.isClone + 1

/-- The action uses no handle but one that there is. -/
def usable (done : List Action) (a : Action) : Bool := a.handle?.all fun h => h < handlesOf done

/-- The actions without the ones on handles that were not there. -/
def taken (actions : List Action) : List Action :=
  actions.foldl (fun done a => if usable done a then done ++ [a] else done) []

/-- The last value that was set, and whether anybody closed. -/
def flags (actions : List Action) : SessionState where
  connected := ((taken actions).filterMap Action.value?).getLast?.getD false
  closed := (taken actions).any Action.isClose

/-- The waiters that were made, in order. -/
def made (actions : List Action) : List Waiter := (taken actions).filterMap Action.waiter?

theorem taken_concat (actions : List Action) (a : Action) :
    taken (actions ++ [a]) =
      if usable (taken actions) a then taken actions ++ [a] else taken actions := by
  rw [taken, List.foldl_append]
  rfl

/-! ## Boards -/

def after (b : Board) (actions : List Action) : Board :=
  actions.foldl (fun b a => (b.act a).2) b

/-- The polls of a waiter, with the flags at that moment and the answers. -/
def polls (n : Nat) : Board → List Action → List (SessionState × Poll)
  | _, [] => []
  | b, a :: rest =>
    (if a = .poll n then (b.act a).1.toList.map (b.state, ·) else [])
      ++ polls n (b.act a).2 rest

theorem after_append (b : Board) (actions more : List Action) :
    b.after (actions ++ more) = (b.after actions).after more :=
  List.foldl_append

theorem polls_append (n : Nat) (b : Board) (actions more : List Action) :
    b.polls n (actions ++ more) = b.polls n actions ++ (b.after actions).polls n more := by
  induction actions generalizing b with
  | nil => rfl
  | cons a rest ih =>
    rw [List.cons_append, polls, ih, polls, List.append_assoc]
    rfl

theorem act_poll (b : Board) (m : Nat) :
    b.act (.poll m) =
      (b.waiters[m]?.map fun w => (w.poll b.state).1,
        { b with waiters := b.waiters.modify m fun w => (w.poll b.state).2 }) := by
  cases h : b.waiters[m]? with
  | none =>
    have hlength := List.getElem?_eq_none_iff.mp h
    simp only [act, h, Option.map_none, List.modify_eq_self hlength]
  | some w =>
    have hset : b.waiters.set m (w.poll b.state).2 =
        b.waiters.modify m fun w => (w.poll b.state).2 := by
      apply List.ext_getElem?
      intro n
      rw [List.getElem?_set', List.getElem?_modify]
      split
      · next hn => simp [← hn, h]
      · simp
    simp only [act, h, Option.map_some, hset]

theorem act_present {b : Board} {a : Action} {k : Nat} (h : a.handle? = some k)
    (hk : k < b.handles) :
    b.act a = (none,
      { state := ⟨a.value?.getD b.state.connected, b.state.closed || a.isClose⟩
        handles := b.handles + a.isClone.toNat
        waiters := b.waiters ++ a.waiter?.toList }) := by
  cases a <;> cases h <;>
    simp [act, hk, Action.value?, Action.isClose, Action.isClone, Action.waiter?,
      SessionState.setConnected, SessionState.close]

theorem act_absent {b : Board} {a : Action} {k : Nat} (h : a.handle? = some k)
    (hk : ¬ k < b.handles) : b.act a = (none, b) := by
  cases a <;> cases h <;> simp [act, hk]

/-! ## What the history says of a board -/

/-- The flags that the polls of a waiter found. -/
def seenBy (n : Nat) (actions : List Action) : List SessionState :=
  (polls n {} actions).map Prod.fst

theorem polls_concat (n : Nat) (b : Board) (actions : List Action) (a : Action) :
    b.polls n (actions ++ [a]) = b.polls n actions ++
      if a = .poll n then ((b.after actions).act a).1.toList.map ((b.after actions).state, ·)
      else [] := by
  rw [polls_append, polls, polls, List.append_nil]

theorem polls_concat_of_handle {n k : Nat} {b : Board} {actions : List Action} {a : Action}
    (h : a.handle? = some k) : b.polls n (actions ++ [a]) = b.polls n actions := by
  have hne : a ≠ .poll n := by
    rintro rfl
    cases h
  rw [polls_concat, if_neg hne, List.append_nil]

theorem after_concat (b : Board) (actions : List Action) (a : Action) :
    b.after (actions ++ [a]) = ((b.after actions).act a).2 :=
  after_append b actions [a]

/-- The board after a history: its cell and its handles are what the history says, and every waiter
has polled exactly what its answers show. -/
structure Follows (actions : List Action) : Prop where
  state : (after {} actions).state = flags actions
  handles : (after {} actions).handles = handlesOf (taken actions)
  waiters : ∀ n, (after {} actions).waiters[n]? =
    (made actions)[n]?.map fun w : Waiter => w.behind (seenBy n actions)
  polled : ∀ n, polls n {} actions =
    ((made actions)[n]?.map fun w : Waiter => w.watch (seenBy n actions)).getD []

namespace Follows

variable {actions : List Action} {a : Action}

theorem start : Follows [] := ⟨rfl, rfl, fun _ => rfl, fun _ => rfl⟩

theorem length (h : Follows actions) :
    (after {} actions).waiters.length = (made actions).length := by
  refine Nat.le_antisymm (List.getElem?_eq_none_iff.mp ?_) (List.getElem?_eq_none_iff.mp ?_)
  · simp [h.waiters]
  · simpa using (h.waiters (after {} actions).waiters.length).symm

theorem seenBy_of_unmade (h : Follows actions) {n : Nat}
    (hn : (made actions)[n]? = none) : seenBy n actions = [] := by
  rw [seenBy, h.polled, hn]
  rfl

theorem unanswered (h : Follows actions) (new : List Waiter)
    (hpolls : ∀ n, polls n {} (actions ++ [a]) = polls n {} actions)
    (hmade : made (actions ++ [a]) = made actions ++ new)
    (hwaiters : ((after {} actions).act a).2.waiters = (after {} actions).waiters ++ new)
    (hstate : ((after {} actions).act a).2.state = flags (actions ++ [a]))
    (hhandles : ((after {} actions).act a).2.handles = handlesOf (taken (actions ++ [a]))) :
    Follows (actions ++ [a]) := by
  have hseen : ∀ n, seenBy n (actions ++ [a]) = seenBy n actions := by
    intro n
    rw [seenBy, hpolls, seenBy]
  rw [← after_concat] at hwaiters hstate hhandles
  refine ⟨hstate, hhandles, ?_, ?_⟩
  · intro n
    rw [hwaiters, hmade, hseen, List.getElem?_append, List.getElem?_append, h.length]
    split
    · exact h.waiters n
    · next hn =>
      -- A new waiter has polled nothing yet.
      rw [h.seenBy_of_unmade (List.getElem?_eq_none (Nat.le_of_not_lt hn))]
      simp [Waiter.behind]
  · intro n
    rw [hpolls, hmade, hseen, h.polled, List.getElem?_append]
    split
    · rfl
    · next hn =>
      have hunmade := List.getElem?_eq_none (Nat.le_of_not_lt hn)
      rw [h.seenBy_of_unmade hunmade, hunmade]
      cases new[n - (made actions).length]? <;> rfl

theorem poll (h : Follows actions) (m : Nat) :
    Follows (actions ++ [.poll m]) := by
  have htaken : taken (actions ++ [.poll m]) = taken actions ++ [.poll m] := by
    rw [taken_concat, if_pos (by simp [usable, Action.handle?])]
  have hmade : made (actions ++ [.poll m]) = made actions := by
    simp [made, htaken, Action.waiter?]
  have hother : ∀ n, n ≠ m → polls n {} (actions ++ [.poll m]) = polls n {} actions := by
    intro n hn
    rw [polls_concat, if_neg (by simpa using hn.symm), List.append_nil]
  have hpolls : polls m {} (actions ++ [.poll m]) = polls m {} actions ++
      (((made actions)[m]?.map fun w => ((w.behind (seenBy m actions)).poll
        (after {} actions).state).1).toList.map ((after {} actions).state, ·)) := by
    rw [polls_concat, if_pos rfl, act_poll, h.waiters, Option.map_map]
    rfl
  have hseen : ∀ w, (made actions)[m]? = some w →
      seenBy m (actions ++ [.poll m]) = seenBy m actions ++ [(after {} actions).state] := by
    intro w hw
    simp [seenBy, hpolls, hw]
  have hafter : after {} (actions ++ [.poll m]) = _ :=
    (after_concat {} actions (.poll m)).trans (congrArg Prod.snd (act_poll _ m))
  refine ⟨?_, ?_, ?_, ?_⟩
  · simp [hafter, h.state, flags, htaken, Action.value?, Action.isClose]
  · simp [hafter, h.handles, htaken, handlesOf, Action.isClone]
  · intro n
    rw [hafter, hmade, List.getElem?_modify, h.waiters]
    by_cases hn : n = m
    · subst hn
      cases hw : (made actions)[n]? with
      | none => rfl
      | some w => simp [hseen w hw, Waiter.behind_concat]
    · simp [seenBy, hother n hn, Ne.symm hn]
  · intro n
    rw [hmade]
    by_cases hn : n = m
    · subst hn
      cases hw : (made actions)[n]? with
      | none => simp [hpolls, h.polled, hw]
      | some w => simp [hseen w hw, hpolls, h.polled, hw, Waiter.watch_append, Waiter.watch]
    · simp only [seenBy, hother n hn]
      exact h.polled n

theorem present (h : Follows actions) {k : Nat} (hk : a.handle? = some k)
    (hthere : k < (after {} actions).handles) :
    Follows (actions ++ [a]) := by
  have htaken : taken (actions ++ [a]) = taken actions ++ [a] := by
    rw [taken_concat, if_pos (by simpa [usable, hk, h.handles] using hthere)]
  refine h.unanswered a.waiter?.toList (fun n => polls_concat_of_handle hk) ?_ ?_ ?_ ?_
  · rw [made, htaken, List.filterMap_append, made]
    cases a <;> rfl
  · rw [act_present hk hthere]
  · rw [act_present hk hthere, h.state, flags, flags, htaken]
    cases a <;> simp [Action.value?, Action.isClose]
  · rw [act_present hk hthere, h.handles, htaken, handlesOf, handlesOf, List.countP_append]
    cases hclone : a.isClone <;> simp [hclone]

theorem absent (h : Follows actions) {k : Nat} (hk : a.handle? = some k)
    (hthere : ¬ k < (after {} actions).handles) :
    Follows (actions ++ [a]) := by
  have htaken : taken (actions ++ [a]) = taken actions := by
    rw [taken_concat, if_neg (by simpa [usable, hk, h.handles] using hthere)]
  refine h.unanswered [] (fun n => polls_concat_of_handle hk) ?_ ?_ ?_ ?_
  · rw [made, htaken, List.append_nil, made]
  · rw [act_absent hk hthere, List.append_nil]
  · rw [act_absent hk hthere, h.state, flags, flags, htaken]
  · rw [act_absent hk hthere, h.handles, htaken]

theorem step (h : Follows actions) (a : Action) :
    Follows (actions ++ [a]) := by
  cases hk : a.handle? with
  | none =>
    cases a with
    | poll m => exact h.poll m
    | _ => cases hk
  | some k =>
    by_cases hthere : k < (after {} actions).handles
    · exact h.present hk hthere
    · exact h.absent hk hthere

end Follows

theorem follows (actions : List Action) : Follows actions := by
  induction actions using List.reverseRecOn with
  | nil => exact Follows.start
  | append_singleton actions a ih => exact ih.step a

/-! ## Two boards that differ in one waiter -/

/-- The boards differ in the waiter `m` at most. -/
structure SameBut (m : Nat) (b c : Board) : Prop where
  state : b.state = c.state
  handles : b.handles = c.handles
  length : b.waiters.length = c.waiters.length
  waiters : ∀ n, n ≠ m → b.waiters[n]? = c.waiters[n]?

namespace SameBut

variable {m : Nat} {b c : Board}

theorem poll (b : Board) (m : Nat) : SameBut m (b.act (.poll m)).2 b := by
  rw [act_poll]
  refine ⟨rfl, rfl, List.length_modify _ _ _, ?_⟩
  intro n hn
  exact List.getElem?_modify_ne _ _ hn.symm

theorem act (h : SameBut m b c) (a : Action) : SameBut m (b.act a).2 (c.act a).2 := by
  cases hk : a.handle? with
  | none =>
    cases a with
    | poll i =>
      rw [act_poll, act_poll]
      refine ⟨h.state, h.handles, ?_, ?_⟩
      · simp [h.length]
      · intro n hn
        rw [List.getElem?_modify, List.getElem?_modify, h.waiters n hn, h.state]
    | _ => cases hk
  | some k =>
    by_cases hthere : k < b.handles
    · rw [act_present hk hthere, act_present hk (h.handles ▸ hthere)]
      refine ⟨?_, ?_, ?_, ?_⟩
      · rw [h.state]
      · rw [h.handles]
      · simp [h.length]
      · intro n hn
        rw [List.getElem?_append, List.getElem?_append, h.length, h.waiters n hn]
    · rw [act_absent hk hthere, act_absent hk (h.handles ▸ hthere)]
      exact h

theorem answer (h : SameBut m b c) {n : Nat} (hn : n ≠ m) :
    (b.act (.poll n)).1 = (c.act (.poll n)).1 := by
  rw [act_poll, act_poll, h.waiters n hn, h.state]

theorem run (h : SameBut m b c) (actions : List Action) :
    SameBut m (b.after actions) (c.after actions) ∧
      ∀ n, n ≠ m → b.polls n actions = c.polls n actions := by
  induction actions generalizing b c with
  | nil => exact ⟨h, fun _ _ => rfl⟩
  | cons a rest ih =>
    obtain ⟨hafter, hpolls⟩ := ih (h.act a)
    refine ⟨hafter, ?_⟩
    intro n hn
    rw [polls, polls, hpolls n hn, h.state]
    split
    · next ha => rw [ha, h.answer hn]
    · rfl

end SameBut

/-! ## The laws -/

/-- What holds after any history. `polls n` shows the flags that the polls of a waiter found with
their answers. -/
structure Watched (actions : List Action) : Prop where
  /-- All handles report the same. -/
  reports : ∀ k, (after {} actions).report? k =
    if k < handlesOf (taken actions) then some (flags actions) else none
  /-- A poll finds the flags as the history before it left them, and is answered. -/
  found : ∀ before n more, actions = before ++ .poll n :: more → n < (made before).length →
    ∃ answer later, ((after {} before).act (.poll n)).1 = some answer ∧
      polls n {} actions = polls n {} before ++ (flags before, answer) :: later
  ended : ∀ n, (made actions)[n]? = some (.ended false) → ReadyOnce EndSeen (polls n {} actions)
  closing : ∀ n, (made actions)[n]? = some .closing → ReadyOnce ClosedNow (polls n {} actions)
  /-- A waiter for the close is ready at the first poll that finds the session closed. -/
  first : ∀ n, (made actions)[n]? = some .closing → ∀ before s a more,
    polls n {} actions = before ++ (s, a) :: more →
    (a = .ready ↔ s.closed = true ∧ ∀ p ∈ before, p.1.closed = false)
  /-- What happens between two polls or before the first one does not matter. -/
  unobserved : ∀ others n, (made actions)[n]? = (made others)[n]? →
    seenBy n actions = seenBy n others → polls n {} actions = polls n {} others
  /-- The polls of one waiter do not matter to the handles and to the others. -/
  undisturbed : ∀ before m more, actions = before ++ .poll m :: more →
    (∀ k, (after {} actions).report? k = (after {} (before ++ more)).report? k) ∧
      ∀ n, n ≠ m → polls n {} actions = polls n {} (before ++ more)
  /-- After a close every waiter that was not ready yet is ready at its next poll. -/
  closed : (flags actions).closed = true → ∀ n, n < (made actions).length →
    (∀ p ∈ polls n {} actions, p.2 ≠ .ready) →
    ((after {} actions).act (.poll n)).1 = some .ready

theorem made_kind {actions : List Action} {w : Waiter} (h : w ∈ made actions) :
    w = .ended false ∨ w = .closing := by
  obtain ⟨a, -, ha⟩ := List.mem_filterMap.mp h
  cases a <;> simp_all [Action.waiter?]

theorem polls_of_made {actions : List Action} {n : Nat} {w : Waiter}
    (h : (made actions)[n]? = some w) : polls n {} actions = w.watch (seenBy n actions) := by
  rw [(follows actions).polled, h]
  rfl

theorem act_poll_of_made {actions : List Action} {n : Nat} {w : Waiter}
    (h : (made actions)[n]? = some w) :
    ((after {} actions).act (.poll n)).1 =
      some ((w.behind (seenBy n actions)).poll (flags actions)).1 := by
  rw [act_poll, (follows actions).waiters, h, (follows actions).state]
  rfl

theorem watched (actions : List Action) : Watched actions where
  reports k := by rw [report?, (follows actions).handles, (follows actions).state]
  found := by
    rintro before n more rfl hn
    have hw := List.getElem?_eq_getElem hn
    refine ⟨_, (((after {} before).act (.poll n)).2).polls n more, act_poll_of_made hw, ?_⟩
    rw [polls_append, polls, if_pos rfl, act_poll_of_made hw, (follows before).state]
    rfl
  ended n hn := polls_of_made hn ▸ awaits_ended.readyOnce _
  closing n hn := polls_of_made hn ▸ awaits_closing.readyOnce _
  first n hn := by
    intro before s a more hsplit
    have honce : ReadyOnce ClosedNow (polls n {} actions) :=
      polls_of_made hn ▸ awaits_closing.readyOnce _
    exact honce.closed_first hsplit
  unobserved others n hmade hseen := by
    rw [(follows actions).polled, (follows others).polled, hmade, hseen]
  undisturbed := by
    rintro before m more rfl
    obtain ⟨hafter, hpolls⟩ := (SameBut.poll (after {} before) m).run more
    refine ⟨?_, ?_⟩
    · intro k
      rw [after_append, after_append]
      change ((((after {} before).act (.poll m)).2.after more).report? k) = _
      rw [report?, report?, hafter.handles, hafter.state]
    · intro n hn
      rw [polls_append, polls_append, polls, if_neg (by simpa using hn.symm), List.nil_append,
        hpolls n hn]
  closed := by
    intro hclosed n hn hnone
    have hw := List.getElem?_eq_getElem hn
    have hnow := (closedNow_concat (seenBy n actions) (flags actions)).mpr hclosed
    rw [polls_of_made hw] at hnone
    rw [act_poll_of_made hw]
    rcases made_kind (List.getElem_mem hn) with hkind | hkind
    · rw [hkind] at hnone ⊢
      rw [awaits_ended.ready_next hnone (Or.inl hnow)]
    · rw [hkind] at hnone ⊢
      rw [awaits_closing.ready_next hnone hnow]

/-- A rise and a fall before the first poll go unseen. -/
example : polls 0 {} [.awaitEnd 0, .setConnected 0 true, .setConnected 0 false, .poll 0,
      .setConnected 0 true, .poll 0, .setConnected 0 false, .poll 0, .poll 0] =
    [({}, .pending), ({ connected := true }, .pending), ({}, .ready), ({}, .done)] := by
  decide

end Board

end Teleop
