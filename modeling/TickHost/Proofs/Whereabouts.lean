import Mathlib.Algebra.GroupWithZero.Nat
import Mathlib.Data.List.Perm.Subperm
import TickHost.Proofs.Fate

/-!
# Where a task is

Between its acceptance and its end a task is in one place: it is pending, or a pass under way has
taken it and has yet to fire it.

* `Ledger.Distinct`: no two tasks have one handle, wherever they are.
* `Ledger.Whereabouts`: the invariant.  The fate of a task tells where it is.
* `Ledger.whereabouts_of_replay`: the invariant holds after every trace that follows the rules.

Handles are numbers of 64 bits, so all this is about traces with at most `2 ^ 64` acceptances.
-/

namespace TickHost

/-! ## 1. Every task is in one place -/

namespace Handle

theorem id_ofNat {i : Nat} (h : i < 2 ^ 64) : (ofNat i).id.toNat = i :=
  UInt64.toNat_ofNat_of_lt' h

theorem ofNat_injective {i j : Nat} (hi : i < 2 ^ 64) (hj : j < 2 ^ 64) (h : ofNat i = ofNat j) :
    i = j := by
  rw [← id_ofNat hi, h, id_ofNat hj]

end Handle

namespace Ledger

variable {l l' : Ledger} {e : Event} {events : List Event}

/-- The handles of all tasks that have not begun to run: those pending, and those that passes under
way have taken. -/
def handles (l : Ledger) : List Handle :=
  l.queue.map Task.handle ++ l.underway.flatMap fun pass => pass.due.map Task.handle

theorem mem_handles_of_due {pass : OpenPass} {t : Task Action} (hpass : pass ∈ l.underway)
    (h : t ∈ pass.due) : t.handle ∈ l.handles :=
  List.mem_append_right _ (List.mem_flatMap.mpr ⟨pass, hpass, List.mem_map_of_mem h⟩)

/-- What an event makes of the handles of waiting tasks: one comes or one goes, or some go. -/
inductive HandlesStep (l : Ledger) (e : Event) (l' : Ledger) : Prop
  /-- A task was accepted. -/
  | came (delay : Nat) (action : Action) (he : e = .accepted (.ofNat l.accepted) delay action)
      (hhandles : l'.handles.Perm (.ofNat l.accepted :: l.handles))
      (haccepted : l'.accepted = l.accepted + 1)
  /-- A task was cancelled, or its action began to run. -/
  | went (h : Handle) (he : e = .cancelled h ∨ ∃ action, e = .fired h action)
      (hhandles : l.handles.Perm (h :: l'.handles)) (haccepted : l'.accepted = l.accepted)
  /-- No task has come. -/
  | stayed (hcancelled : ∀ h, e ≠ .cancelled h) (hfired : ∀ h action, e ≠ .fired h action)
      (hhandles : l'.handles.Subperm l.handles) (haccepted : l'.accepted = l.accepted)

theorem Posts.handlesStep (h : Posts l e l') : HandlesStep l e l' := by
  cases h with
  | accepted delay action =>
    refine .came delay action rfl ?_ rfl
    simp only [handles, List.map_append, List.map_cons, List.map_nil, List.append_assoc,
      List.singleton_append]
    exact List.perm_middle
  | drained =>
    refine .stayed (by simp) (by simp) (List.Perm.subperm ?_) rfl
    simp only [handles, List.map_map, List.flatMap_cons]
    have hcount : Task.handle ∘ Task.countDown = Task.handle (α := Action) := rfl
    rw [hcount, ← List.append_assoc, ← List.map_append]
    refine List.Perm.append_right _ (List.Perm.map _ ?_)
    exact List.perm_append_comm.trans (List.filter_append_perm _ _)
  | fired number task due k passes h =>
    refine .went task.handle (Or.inr ⟨task.action, rfl⟩) ?_ rfl
    simp only [handles, h, List.flatMap_cons, List.map_cons, List.cons_append]
    exact List.perm_middle
  | passEnded number k passes h =>
    refine .stayed (by simp) (by simp) (List.Perm.subperm ?_) rfl
    simp [handles, h]
  | cancelled task before after h =>
    refine .went task.handle (Or.inl rfl) ?_ rfl
    simp only [handles, h, List.map_append, List.map_cons, List.append_assoc, List.cons_append]
    exact List.perm_middle
  | discarded =>
    exact .stayed (by simp) (by simp) (List.sublist_append_right _ _).subperm rfl
  | other h =>
    refine .stayed ?_ ?_ (List.Subperm.refl _) rfl
    · rintro h rfl; cases ‹Event.isPosted _ = false›
    · rintro h action rfl; cases ‹Event.isPosted _ = false›

/-- **No two tasks have one handle**, and all handles are among those given out. -/
structure Distinct (l : Ledger) : Prop where
  nodup : l.handles.Nodup
  issued : ∀ h ∈ l.handles, ∃ i < l.accepted, h = .ofNat i

theorem Distinct.empty : Distinct {} := ⟨List.nodup_nil, by simp [handles]⟩

theorem Posts.distinct (hpost : Posts l e l') (hfew : l'.accepted ≤ 2 ^ 64) (hl : l.Distinct) :
    l'.Distinct := by
  cases hpost.handlesStep with
  | came delay action _ hhandles haccepted =>
    have hnew : .ofNat l.accepted ∉ l.handles := by
      intro hmem
      obtain ⟨i, hi, heq⟩ := hl.issued _ hmem
      have := Handle.ofNat_injective (by omega) (by omega) heq
      omega
    constructor
    · exact hhandles.nodup_iff.mpr (List.nodup_cons.mpr ⟨hnew, hl.nodup⟩)
    · intro h hmem
      rcases List.mem_cons.mp (hhandles.mem_iff.mp hmem) with rfl | hmem
      · exact ⟨l.accepted, by omega, rfl⟩
      · obtain ⟨i, hi, heq⟩ := hl.issued h hmem
        exact ⟨i, by omega, heq⟩
  | went h _ hhandles haccepted =>
    constructor
    · exact (List.nodup_cons.mp (hhandles.nodup_iff.mp hl.nodup)).2
    · intro h' hmem
      rw [haccepted]
      exact hl.issued h' (hhandles.mem_iff.mpr (List.mem_cons_of_mem _ hmem))
  | stayed _ _ hhandles haccepted =>
    constructor
    · obtain ⟨handles, hperm, hsublist⟩ := hhandles
      exact hperm.nodup_iff.mp (hl.nodup.sublist hsublist)
    · intro h hmem
      rw [haccepted]
      exact hl.issued h (hhandles.subset hmem)

theorem Posts.accepted_le (hpost : Posts l e l') : l.accepted ≤ l'.accepted := by
  rcases hpost.handlesStep with ⟨_, _, _, _, h⟩ | ⟨_, _, _, h⟩ | ⟨_, _, _, h⟩ <;> omega

theorem accepted_le_of_replay (hreplay : Replay l events l') : l.accepted ≤ l'.accepted := by
  induction hreplay with
  | nil => exact Nat.le_refl _
  | snoc _ hpost ih => exact Nat.le_trans ih hpost.accepted_le

theorem Replay.distinct (hreplay : Replay l events l') (hfew : l'.accepted ≤ 2 ^ 64)
    (hl : l.Distinct) : l'.Distinct := by
  induction hreplay with
  | nil => exact hl
  | snoc _ hpost ih => exact hpost.distinct hfew (ih (by have := hpost.accepted_le; omega))

/-- What is cancelled or has begun to run was among the tasks, and is no more. -/
theorem Posts.went (hpost : Posts l e l') (hl : l.Distinct) {h : Handle}
    (he : e = .cancelled h ∨ ∃ action, e = .fired h action) :
    h ∈ l.handles ∧ h ∉ l'.handles := by
  cases hpost.handlesStep with
  | came delay action he' =>
    rw [he'] at he
    rcases he with he | ⟨_, he⟩ <;> cases he
  | went h' he' hhandles =>
    have heq : h = h' := by
      rcases he with rfl | ⟨_, rfl⟩ <;> rcases he' with he' | ⟨_, he'⟩ <;> cases he' <;> rfl
    subst heq
    exact ⟨hhandles.mem_iff.mpr List.mem_cons_self,
      (List.nodup_cons.mp (hhandles.nodup_iff.mp hl.nodup)).1⟩
  | stayed hcancelled hfired =>
    rcases he with rfl | ⟨action, rfl⟩
    · exact absurd rfl (hcancelled h)
    · exact absurd rfl (hfired h action)

/-- Only an acceptance brings a handle. -/
theorem Posts.mem_of_mem (hpost : Posts l e l') {h : Handle} (hmem : h ∈ l'.handles) :
    h ∈ l.handles ∨
      h = .ofNat l.accepted ∧ l'.accepted = l.accepted + 1 ∧
        ∃ delay action, e = .accepted h delay action := by
  cases hpost.handlesStep with
  | came delay action he hhandles haccepted =>
    rcases List.mem_cons.mp (hhandles.mem_iff.mp hmem) with rfl | hmem
    · exact Or.inr ⟨rfl, haccepted, delay, action, he⟩
    · exact Or.inl hmem
  | went h' _ hhandles => exact Or.inl (hhandles.mem_iff.mpr (List.mem_cons_of_mem _ hmem))
  | stayed _ _ hhandles => exact Or.inl (hhandles.subset hmem)

/-- What passes have taken is not pending any more. -/
theorem Distinct.not_queued (hl : l.Distinct) {pass : OpenPass} {task : Task Action}
    (hpass : pass ∈ l.underway) (hdue : task ∈ pass.due) :
    task.handle ∉ l.queue.map Task.handle := by
  intro hqueue
  refine (List.nodup_append.mp hl.nodup).2.2 _ hqueue _ ?_ rfl
  exact List.mem_flatMap.mpr ⟨pass, hpass, List.mem_map_of_mem hdue⟩

/-- What is pending is not taken, so it is gone for good once it is not pending any more. -/
theorem Distinct.not_due (hl : l.Distinct) {task : Task Action} (hqueue : task ∈ l.queue) :
    task.handle ∉ l.underway.flatMap fun pass => pass.due.map Task.handle := by
  intro hdue
  exact (List.nodup_append.mp hl.nodup).2.2 _ (List.mem_map_of_mem hqueue) _ hdue rfl

/-! ## 2. The invariant -/

/-- **Where a task is**, given its fate, the number of the pass that is to take it, and how often
its action began to run. -/
inductive Whereabouts (l : Ledger) (h : Handle) (action : Action) (number : Nat) :
    Fate → Nat → Prop
  /-- It is pending, and its counter tells how many passes are to go. -/
  | queued (left : Nat) (hqueue : ⟨h, left, action⟩ ∈ l.queue)
      (hnumber : number = l.begun + left + 1) : Whereabouts l h action number (.waiting left) 0
  /-- Its pass is under way and has yet to fire it. -/
  | due (pass : OpenPass) (hpass : pass ∈ l.underway) (hnumber : pass.number = number)
      (hdue : ⟨h, 0, action⟩ ∈ pass.due) : Whereabouts l h action number .taken 0
  /-- It was fired. -/
  | done (hnot : h ∉ l.handles) : Whereabouts l h action number .taken 1
  /-- It was cancelled or discarded. -/
  | gone (hnot : h ∉ l.handles) : Whereabouts l h action number .gone 0

variable {h : Handle} {action : Action} {number : Nat} {fate : Fate} {fired : Nat}

/-- A task that is nowhere stays so: its handle is not given out again. -/
theorem Posts.nowhere (hpost : Posts l e l') (hl : l.Distinct) (hfew : l'.accepted ≤ 2 ^ 64)
    (hissued : ∃ i < l.accepted, h = .ofNat i) (hnot : h ∉ l.handles) :
    h ∉ l'.handles ∧ e.fires h = false := by
  constructor
  · intro hmem
    rcases hpost.mem_of_mem hmem with hmem | ⟨heq, haccepted, -⟩
    · exact hnot hmem
    · obtain ⟨i, hi, rfl⟩ := hissued
      have := Handle.ofNat_injective (by omega) (by omega) heq
      omega
  · cases e with
    | fired h' action =>
      refine beq_eq_false_iff_ne.mpr ?_
      intro heq
      exact hnot (hpost.went hl (Or.inr ⟨action, by rw [heq]⟩)).1
    | _ => rfl

/-- One event moves a pending task as its fate says. -/
theorem Posts.queued (hpost : Posts l e l') (hl : l.Distinct) {left : Nat}
    (hqueue : ⟨h, left, action⟩ ∈ l.queue) (hnumber : number = l.begun + left + 1) :
    Whereabouts l' h action number ((Fate.waiting left).after h e)
      (if e.fires h then 1 else 0) := by
  have hother (h₁ : e ≠ .cancelled h) (h₂ : ∀ n, e ≠ .discarded n) (h₃ : e ≠ .drained)
      (hfires : e.fires h = false) (hqueue' : ⟨h, left, action⟩ ∈ l'.queue)
      (hbegun : l'.begun = l.begun) :
      Whereabouts l' h action number ((Fate.waiting left).after h e)
        (if e.fires h then 1 else 0) := by
    rw [Fate.after_other h₁ h₂ h₃, hfires]
    exact .queued left hqueue' (hbegun ▸ hnumber)
  have hwent := hpost.went hl (h := h)
  cases hpost with
  | accepted delay action' =>
    exact hother (by simp) (by simp) (by simp) rfl (List.mem_append_left _ hqueue) rfl
  | drained =>
    cases left with
    | zero =>
      exact .due _ List.mem_cons_self hnumber.symm (List.mem_filter.mpr ⟨hqueue, rfl⟩)
    | succ left =>
      refine .queued left (List.mem_map.mpr ⟨_, List.mem_filter.mpr ⟨hqueue, rfl⟩, rfl⟩) ?_
      rw [hnumber]
      simp only
      omega
  | fired number' task due k passes hpasses =>
    refine hother (by simp) (by simp) (by simp) (beq_eq_false_iff_ne.mpr ?_) hqueue rfl
    intro heq
    exact (hwent (Or.inr ⟨task.action, by rw [heq]⟩)).2
      (List.mem_append_left _ (List.mem_map_of_mem (f := Task.handle) hqueue))
  | passEnded number' k passes hpasses =>
    exact hother (by simp) (by simp) (by simp) rfl hqueue rfl
  | cancelled task before after hsplit =>
    by_cases heq : task.handle = h
    · have hafter : (Fate.waiting left).after h (.cancelled task.handle) = .gone := if_pos heq
      rw [hafter]
      exact .gone (hwent (Or.inl (by rw [heq]))).2
    · refine hother (by simpa using heq) (by simp) (by simp) rfl ?_ rfl
      rw [hsplit] at hqueue
      rcases List.mem_append.mp hqueue with hmem | hmem
      · exact List.mem_append_left _ hmem
      · rcases List.mem_cons.mp hmem with rfl | hmem
        · exact absurd rfl heq
        · exact List.mem_append_right _ hmem
  | discarded => exact .gone (hl.not_due hqueue)
  | other _ hposted =>
    refine hother ?_ ?_ ?_ (Event.fires_eq_false hposted) hqueue rfl
    · rintro rfl; cases hposted
    · rintro n rfl; cases hposted
    · rintro rfl; cases hposted

/-- One event leaves a task with the pass that has taken it, or fires it. -/
theorem Posts.due (hpost : Posts l e l') (hl : l.Distinct) {pass : OpenPass}
    (hpass : pass ∈ l.underway) (hnumber : pass.number = number)
    (hdue : ⟨h, 0, action⟩ ∈ pass.due) :
    Whereabouts l' h action number .taken (if e.fires h then 1 else 0) := by
  have hwent := hpost.went hl (h := h)
  cases hpost with
  | accepted | cancelled | discarded => exact .due pass hpass hnumber hdue
  | drained => exact .due pass (List.mem_cons_of_mem _ hpass) hnumber hdue
  | fired number' task due k passes hpasses =>
    by_cases heq : task.handle = h
    · rw [if_pos (by simpa [Event.fires] using heq)]
      exact .done (hwent (Or.inr ⟨task.action, by rw [heq]⟩)).2
    · rw [if_neg (by simpa [Event.fires] using heq)]
      rw [hpasses] at hpass
      rcases List.mem_cons.mp hpass with rfl | hpass
      · rcases List.mem_cons.mp hdue with rfl | hdue
        · exact absurd rfl heq
        · exact .due ⟨number', due, k + 1⟩ List.mem_cons_self hnumber hdue
      · exact .due pass (List.mem_cons_of_mem _ hpass) hnumber hdue
  | passEnded number' k passes hpasses =>
    rw [hpasses] at hpass
    rcases List.mem_cons.mp hpass with rfl | hpass
    · cases hdue
    · exact .due pass hpass hnumber hdue
  | other _ hposted =>
    rw [Event.fires_eq_false hposted]
    exact .due pass hpass hnumber hdue

/-- **An event moves a task as its fate says.** -/
theorem Whereabouts.step (hw : Whereabouts l h action number fate fired) (hpost : Posts l e l')
    (hl : l.Distinct) (hfew : l'.accepted ≤ 2 ^ 64) (hissued : ∃ i < l.accepted, h = .ofNat i) :
    Whereabouts l' h action number (fate.after h e) (fired + if e.fires h then 1 else 0) := by
  cases hw with
  | queued left hqueue hnumber =>
    rw [Nat.zero_add]
    exact hpost.queued hl hqueue hnumber
  | due pass hpass hnumber hdue =>
    rw [Nat.zero_add]
    exact hpost.due hl hpass hnumber hdue
  | done hnot =>
    obtain ⟨hnot', hfires⟩ := hpost.nowhere hl hfew hissued hnot
    rw [hfires]
    exact .done hnot'
  | gone hnot =>
    obtain ⟨hnot', hfires⟩ := hpost.nowhere hl hfew hissued hnot
    rw [hfires]
    exact .gone hnot'

/-- The same for any number of events. -/
theorem Whereabouts.replay (hreplay : Replay l events l')
    (hw : Whereabouts l h action number fate fired) (hl : l.Distinct)
    (hfew : l'.accepted ≤ 2 ^ 64) (hissued : ∃ i < l.accepted, h = .ofNat i) :
    Whereabouts l' h action number (events.foldl (Fate.after h) fate)
      (fired + firingsOf h events) := by
  induction hreplay with
  | nil => exact hw
  | snoc hreplay hpost ih =>
    have hfew' := Nat.le_trans hpost.accepted_le hfew
    obtain ⟨i, hi, heq⟩ := hissued
    have hstep := (ih hfew').step hpost (Replay.distinct hreplay hfew' hl) hfew
      ⟨i, Nat.lt_of_lt_of_le hi (accepted_le_of_replay hreplay), heq⟩
    rw [List.foldl_append, firingsOf, List.countP_append, ← Nat.add_assoc, List.countP_singleton]
    exact hstep

/-! ## 3. Whole traces -/

variable {pre post : List Event} {delay : Nat}

theorem log_of_replay (hreplay : Replay {} events l) :
    passLog events = ⟨l.begun, l.underway.map OpenPass.number⟩ := by
  induction hreplay with
  | nil => rfl
  | snoc _ hpost ih =>
    rw [passLog, List.foldl_append, ← passLog, ih]
    cases hpost with
    | fired number task due k passes h | passEnded number k passes h =>
      simp [PassLog.after, h]
    | other _ h => exact PassLog.after_of_not_posted h _
    | _ => rfl

theorem accepted_of_replay (hreplay : Replay l events l') :
    l'.accepted = l.accepted + acceptances events := by
  induction hreplay with
  | nil => rfl
  | snoc _ hpost ih =>
    rw [acceptances, List.countP_append, ← acceptances, ← Nat.add_assoc, ← ih]
    cases hpost with
    | other e h => rw [List.countP_singleton, Event.isAcceptance_eq_false h]; rfl
    | _ => rfl

/-- Handles are given out in order. -/
theorem issued_of_replay (hreplay : Replay l events l') (hmem : .accepted h delay action ∈ events) :
    ∃ i, l.accepted ≤ i ∧ i < l'.accepted ∧ h = .ofNat i := by
  induction hreplay with
  | nil => cases hmem
  | snoc hreplay hpost ih =>
    have hle := hpost.accepted_le
    rcases List.mem_append.mp hmem with hmem | hmem
    · obtain ⟨i, hi, hi', heq⟩ := ih hmem
      exact ⟨i, hi, by omega, heq⟩
    · rw [← List.mem_singleton.mp hmem] at hpost
      cases hpost with
      | accepted =>
        exact ⟨_, accepted_le_of_replay hreplay, Nat.lt_succ_self _, rfl⟩
      | other _ h => cases h

/-- What waits was accepted. -/
theorem accepted_of_mem_handles (hreplay : Replay {} events l) (hmem : h ∈ l.handles) :
    ∃ delay action, .accepted h delay action ∈ events := by
  induction hreplay with
  | nil => cases hmem
  | snoc _ hpost ih =>
    rcases hpost.mem_of_mem hmem with hmem | ⟨-, -, delay, action, rfl⟩
    · obtain ⟨delay, action, hmem⟩ := ih hmem
      exact ⟨delay, action, List.mem_append_left _ hmem⟩
    · exact ⟨delay, action, by simp⟩

/-- What was fired was accepted. -/
theorem accepted_of_fired (hreplay : Replay {} events l) (hfew : l.accepted ≤ 2 ^ 64)
    (hmem : .fired h action ∈ events) : ∃ delay action, .accepted h delay action ∈ events := by
  induction hreplay with
  | nil => cases hmem
  | @snoc events _ _ _ hreplay hpost ih =>
    have hfew' := Nat.le_trans hpost.accepted_le hfew
    have hbefore : ∃ delay action, .accepted h delay action ∈ events := by
      rcases List.mem_append.mp hmem with hmem | hmem
      · exact ih hfew' hmem
      · have hdistinct := Replay.distinct hreplay hfew' .empty
        have hfired := (List.mem_singleton.mp hmem).symm
        exact accepted_of_mem_handles hreplay (hpost.went hdistinct (Or.inr ⟨action, hfired⟩)).1
    obtain ⟨delay, action, hmem⟩ := hbefore
    exact ⟨delay, action, List.mem_append_left _ hmem⟩

/-- What was not accepted does not run. -/
theorem firingsOf_eq_zero (hreplay : Replay {} events l) (hfew : l.accepted ≤ 2 ^ 64)
    (hnot : ∀ delay action, .accepted h delay action ∉ events) : firingsOf h events = 0 := by
  refine List.countP_eq_zero.mpr ?_
  intro e he hfires
  cases e with
  | fired h' action =>
    obtain rfl : h' = h := by simpa [Event.fires] using hfires
    obtain ⟨delay, action, hmem⟩ := accepted_of_fired hreplay hfew he
    exact hnot delay action hmem
  | _ => cases hfires

/-- **The invariant holds of every task** that was accepted. -/
theorem whereabouts_of_replay (hreplay : Replay {} (pre ++ .accepted h delay action :: post) l)
    (hfew : l.accepted ≤ 2 ^ 64) :
    Whereabouts l h action ((passLog pre).begun + delay + 1) (TickHost.fate h delay post)
      (firingsOf h post) := by
  obtain ⟨k, hpre, hrest⟩ := hreplay.split
  obtain ⟨k', hacceptance, hpost⟩ := hrest.uncons
  have hfew' := Nat.le_trans (accepted_le_of_replay hpost) hfew
  have hdistinct := Replay.distinct hpre (Nat.le_trans hacceptance.accepted_le hfew') .empty
  have hdistinct' := hacceptance.distinct hfew' hdistinct
  rw [log_of_replay hpre, ← Nat.zero_add (firingsOf h post)]
  cases hacceptance with
  | accepted =>
    refine Whereabouts.replay hpost (.queued delay ?_ rfl) hdistinct' hfew ?_
    · exact List.mem_append_right _ List.mem_cons_self
    · exact ⟨k.accepted, Nat.lt_succ_self _, rfl⟩
  | other _ h => cases h

theorem Whereabouts.fired_le (hw : Whereabouts l h action number fate fired) : fired ≤ 1 := by
  cases hw <;> decide

theorem Whereabouts.taken_of_fired (hw : Whereabouts l h action number fate fired)
    (hfired : fired ≠ 0) : fate = .taken := by
  cases hw <;> first | rfl | exact absurd rfl hfired

theorem Whereabouts.fired_of_taken (hw : Whereabouts l h action number fate fired)
    (hfate : fate = .taken) (hended : number ∉ l.underway.map OpenPass.number) : fired = 1 := by
  cases hw with
  | queued | gone => cases hfate
  | due pass hpass hnumber hdue =>
    exact absurd (List.mem_map.mpr ⟨pass, hpass, hnumber⟩) hended
  | done hnot => rfl

/-- A task is pending just if it waits. -/
theorem Whereabouts.mem_queue_iff (hw : Whereabouts l h action number fate fired)
    (hl : l.Distinct) : h ∈ l.queue.map Task.handle ↔ fate.isWaiting = true := by
  cases hw with
  | queued left hqueue => exact iff_of_true (List.mem_map_of_mem (f := Task.handle) hqueue) rfl
  | due pass hpass hnumber hdue => exact iff_of_false (hl.not_queued hpass hdue) (by decide)
  | done hnot | gone hnot =>
    exact iff_of_false (fun hmem => hnot (List.mem_append_left _ hmem)) (by decide)

/-- **An action that begins to run** is the one that was accepted, and the innermost pass is the one
that has taken it. -/
theorem Whereabouts.fires (hw : Whereabouts l h action number fate fired) (hl : l.Distinct)
    {action' : Action} (hpost : Posts l (.fired h action') l') :
    action' = action ∧ fate = .taken ∧ fired = 0 ∧
      (l.underway.map OpenPass.number).head? = some number := by
  obtain ⟨hmem, hnot'⟩ := hpost.went hl (Or.inr ⟨action', rfl⟩)
  cases hw with
  | done hnot | gone hnot => exact absurd hmem hnot
  | queued left hqueue hnumber =>
    cases hpost with
    | fired number' task due k passes hpasses =>
      exact absurd (List.mem_append_left _ (List.mem_map_of_mem (f := Task.handle) hqueue)) hnot'
    | other _ h => cases h
  | due pass hpass hnumber hdue =>
    cases hpost with
    | fired number' task due k passes hpasses =>
      rw [hpasses] at hpass
      rcases List.mem_cons.mp hpass with rfl | hpass
      · rcases List.mem_cons.mp hdue with heq | hdue
        · have haction : task.action = action := by rw [← heq]
          exact ⟨haction, rfl, rfl, by rw [hpasses]; exact congrArg some hnumber⟩
        · exact absurd (mem_handles_of_due (t := ⟨task.handle, 0, action⟩) List.mem_cons_self hdue)
            hnot'
      · exact absurd (mem_handles_of_due (t := ⟨task.handle, 0, action⟩)
          (List.mem_cons_of_mem _ hpass) hdue) hnot'
    | other _ h => cases h

end Ledger

end TickHost
