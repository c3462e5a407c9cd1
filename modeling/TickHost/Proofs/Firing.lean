import TickHost.Proofs.Whereabouts

/-!
# When actions run

What a scheduler promises whoever has a task accepted, over all runs: whatever actions, handlers and
hooks do, and however passes are nested, the fate of a task is that of the rule.  It is pending just
while it waits, its action runs just if a pass takes it, and then once and in that pass.

The invariant is that of `Ledger.Whereabouts`; here it is read off at a moment of a run.
-/

namespace TickHost

namespace Handle

@[simp] theorem ofNat_toNat (h : Handle) : ofNat h.id.toNat = h := by
  simp [ofNat]

end Handle

namespace Scheduler

variable {α : Type} {s : Scheduler α} {h : Handle}

theorem isScheduled_iff : s.isScheduled h = true ↔ h ∈ s.queue.map Task.handle := by
  simp [isScheduled, List.any_eq_true]

theorem find?_isSome : (s.find? h).isSome = s.isScheduled h := by
  rw [Bool.eq_iff_iff, find?, List.find?_isSome, isScheduled, List.any_eq_true]

end Scheduler

/-- What is answered at this moment to whoever asks whether a task is scheduled, and to whoever
cancels it. -/
structure Machine.Answers (m : Machine) (h : Handle) (b : Bool) : Prop where
  isScheduled :
    (perform m.world m.stack (.isScheduled h.id.toNat)).machine.focus = .reply (.flag b)
  cancel : (perform m.world m.stack (.cancel h.id.toNat)).machine.focus = .reply (.flag b)

/-- Both answers say whether the task is pending. -/
theorem Machine.answers (m : Machine) (h : Handle) :
    m.Answers h (m.world.scheduler.isScheduled h) where
  isScheduled := by simp [perform, answer]
  cancel := by
    have hvalue : (m.world.cancel h).value = (m.world.scheduler.find? h).isSome := by
      simp only [World.cancel]
      split <;> rename_i hfind <;> rw [hfind] <;> rfl
    simp [perform, answer, hvalue, Scheduler.find?_isSome]

/-- The number of the pass that takes a task of this delay which is accepted after `pre`, counting
passes in the order in which they begin. -/
def passFor (pre : List Event) (delay : Nat) : Nat := (passLog pre).begun + delay + 1

/-- The passes under way have begun. -/
theorem passLog_le (events : List Event) :
    ∀ number ∈ (passLog events).underway, number ≤ (passLog events).begun := by
  induction events using List.reverseRecOn with
  | nil => simp [passLog]
  | append_singleton events e ih =>
    rw [passLog, List.foldl_append, ← passLog]
    intro number hmem
    cases e with
    | drained =>
      rcases List.mem_cons.mp hmem with rfl | hmem
      · exact Nat.le_refl _
      · exact Nat.le_succ_of_le (ih number hmem)
    | passEnded k => exact ih number (List.mem_of_mem_tail hmem)
    | _ => exact ih number hmem

/-- **What becomes of a task** with this handle, delay and action, accepted after `pre`, when `post`
has happened since. -/
structure Kept (pre post : List Event) (h : Handle) (delay : Nat) (action : Action) (m : Machine) :
    Prop where
  /-- No other task has its handle. -/
  only : ∀ delay' action', .accepted h delay' action' ∉ pre ++ post
  /-- It is scheduled, and can be cancelled, just as long as it waits. -/
  answers : m.Answers h (fate h delay post).isWaiting
  /-- Its action has not begun to run before it was accepted. -/
  notBefore : firingsOf h pre = 0
  /-- Its action does not run twice. -/
  atMostOnce : firingsOf h post ≤ 1
  /-- Its action does not run when it was not taken. -/
  onlyTaken : firingsOf h post ≠ 0 → fate h delay post = .taken
  /-- Once it was taken, and its pass has ended, its action has run. -/
  onceTaken : fate h delay post = .taken →
    passFor pre delay ∉ (passLog (pre ++ .accepted h delay action :: post)).underway →
    firingsOf h post = 1
  /-- Its action is the one that was accepted, and begins when its pass is the innermost one. -/
  inPass : ∀ p action' q, post = p ++ .fired h action' :: q →
    action' = action ∧ fate h delay p = .taken ∧
      (passLog (pre ++ .accepted h delay action :: p)).underway.head? =
        some (passFor pre delay)
  /-- That is no pass that was under way when it was accepted. -/
  later : passFor pre delay ∉ (passLog pre).underway

open Ledger in
/-- What the ledger of a trace tells about a task. -/
theorem kept_of_replay {pre post : List Event} {h : Handle} {delay : Nat} {action : Action}
    {l : Ledger} {m : Machine} (hreplay : Replay {} (pre ++ .accepted h delay action :: post) l)
    (hfew : l.accepted < 2 ^ 64) (hm : l.Matches m) : Kept pre post h delay action m := by
  have hdistinct := Replay.distinct hreplay (Nat.le_of_lt hfew) Distinct.empty
  have hw := whereabouts_of_replay hreplay (Nat.le_of_lt hfew)
  obtain ⟨k, hpre, hrest⟩ := hreplay.split
  obtain ⟨k', hacceptance, hpost⟩ := hrest.uncons
  have hle := accepted_le_of_replay hpost
  obtain ⟨hhandle, haccepted⟩ : h = .ofNat k.accepted ∧ k'.accepted = k.accepted + 1 := by
    cases hacceptance with
    | accepted => exact ⟨rfl, rfl⟩
    | other _ h => cases h
  have hnotpre (delay' : Nat) (action' : Action) : .accepted h delay' action' ∉ pre := by
    intro hmem
    obtain ⟨i, -, hi, heq⟩ := issued_of_replay hpre hmem
    have := Handle.ofNat_injective (by omega) (by omega) (hhandle.symm.trans heq)
    omega
  have hnotpost (delay' : Nat) (action' : Action) : .accepted h delay' action' ∉ post := by
    intro hmem
    obtain ⟨i, hi, hi', heq⟩ := issued_of_replay hpost hmem
    have := Handle.ofNat_injective (by omega) (by omega) (hhandle.symm.trans heq)
    omega
  refine ⟨?_, ?_, ?_, ?_, ?_, ?_, ?_, ?_⟩
  · intro delay' action' hmem
    exact (List.mem_append.mp hmem).elim (hnotpre _ _) (hnotpost _ _)
  · have hpending : m.world.scheduler.isScheduled h = (fate h delay post).isWaiting := by
      rw [Bool.eq_iff_iff, Scheduler.isScheduled_iff, ← hm.queue, hw.mem_queue_iff hdistinct]
    exact hpending ▸ m.answers h
  · exact firingsOf_eq_zero hpre (by omega) hnotpre
  · exact hw.fired_le
  · exact hw.taken_of_fired
  · intro htaken hended
    rw [log_of_replay hreplay] at hended
    exact hw.fired_of_taken htaken hended
  · rintro p action' q rfl
    rw [← List.cons_append, ← List.append_assoc] at hreplay
    obtain ⟨j, hp, hq⟩ := hreplay.split
    obtain ⟨j', hfired, hrest⟩ := hq.uncons
    have hj := Nat.le_trans hfired.accepted_le (accepted_le_of_replay hrest)
    have hdistinct' := Replay.distinct hp (by omega) .empty
    obtain ⟨haction, htaken, -, hhead⟩ :=
      (whereabouts_of_replay hp (by omega)).fires hdistinct' hfired
    rw [log_of_replay hp]
    exact ⟨haction, htaken, hhead⟩
  · intro hmem
    have := passLog_le pre _ hmem
    simp only [passFor] at this
    omega

open Ledger in
/-- **When actions run.**  In every run from a fresh world with less than `2 ^ 64` acceptances:

* what is posted in a move is what the operation that it makes has answered;
* the passes that the trace tells of are those under way;
* a handle that was not given out is not scheduled, cannot be cancelled and does not run;
* what was accepted has the fate that the events since then give it (`Kept`). -/
theorem firing_of_run {w : World} (hw : w.Fresh) {path : List Beat} {m : Machine}
    (hrun : Run (Machine.idle w) path m) (hfew : acceptances (trace path) < 2 ^ 64) :
    (∀ b ∈ path, b.events.filter Event.isPosted = b.postings) ∧
    (passLog (trace path)).underway.length = m.underway.length ∧
    (∀ h, (∀ delay action, .accepted h delay action ∉ trace path) →
      m.Answers h false ∧ firingsOf h (trace path) = 0) ∧
    ∀ pre post h delay action, trace path = pre ++ .accepted h delay action :: post →
      Kept pre post h delay action m := by
  obtain ⟨l, hreplay, hl⟩ := run_replay hw hrun
  have haccepted : l.accepted = acceptances (trace path) := by
    rw [accepted_of_replay hreplay, Nat.zero_add]
  refine ⟨?_, ?_, ?_, ?_⟩
  · intro b hb
    exact (hrun.valid b hb).posted
  · rw [log_of_replay hreplay, ← hl.underway, List.length_map, List.length_map]
  · intro h hnot
    have hpending : m.world.scheduler.isScheduled h = false := by
      rw [Bool.eq_false_iff, ne_eq, Scheduler.isScheduled_iff, ← hl.queue]
      intro hmem
      obtain ⟨delay, action, hmem⟩ :=
        accepted_of_mem_handles hreplay (List.mem_append_left _ hmem)
      exact hnot delay action hmem
    exact ⟨hpending ▸ m.answers h, firingsOf_eq_zero hreplay (by omega) hnot⟩
  · intro pre post h delay action hsplit
    exact kept_of_replay (hsplit ▸ hreplay) (haccepted ▸ hfew) hl

/-- Two tasks of one pass: the first one to run cancels the second, and runs a pass of its own. -/
def rivals : List Beat × Machine :=
  (Machine.idle (World.parts 10 10)).played <|
    [.command (.schedule "first" (some 0) false .goOn [.cancel 1, .runPass]), .step,
      .command (.schedule "second" (some 0) false .goOn []), .step, .command .runPass]
      ++ List.replicate 17 .step

/-- The second task runs nevertheless. -/
theorem firing_of_rivals :
    (World.parts 10 10).Fresh ∧ Run (Machine.idle (World.parts 10 10)) rivals.1 rivals.2 ∧
    acceptances (trace rivals.1) < 2 ^ 64 ∧
    trace rivals.1 = (trace rivals.1).take 5
      ++ .accepted (.ofNat 1) 0 (.script "second" false []) :: (trace rivals.1).drop 6 ∧
    firingsOf (.ofNat 1) ((trace rivals.1).drop 6) = 1 ∧ rivals.2.Answers (.ofNat 1) false := by
  have hrun : Run (Machine.idle (World.parts 10 10)) rivals.1 rivals.2 :=
    Machine.played_run _ _
  have hfew : acceptances (trace rivals.1) < 2 ^ 64 := by decide
  have haccepted : trace rivals.1 = (trace rivals.1).take 5
      ++ .accepted (.ofNat 1) 0 (.script "second" false []) :: (trace rivals.1).drop 6 := rfl
  have hsecond := (firing_of_run (World.parts_fresh 10 10) hrun hfew).2.2.2 _ _ _ _ _ haccepted
  exact ⟨World.parts_fresh 10 10, hrun, hfew, haccepted, hsecond.onceTaken (by decide) (by decide),
    hsecond.answers⟩

end TickHost
