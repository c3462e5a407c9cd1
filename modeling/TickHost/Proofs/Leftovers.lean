import TickHost.Proofs.Firing
import TickHost.Proofs.Settling

/-!
# What a stopped session leaves behind

A session that stops may leave tasks behind.  A proxy that is set up so drops what is pending, but
only if the lifecycle has accepted that the session stops; what a pass under way has taken runs
nevertheless.

* `Call.stopped`: the call in which a session is reported as stopped, which calls nobody.
* `Call.hooks_only`: every other event leaves the scheduler to the hooks.
* `Ledger.replay_due` and `Ledger.replay_nowhere`: from any moment on, what passes have taken runs
  once, and a task that is nowhere stays so.

Handles are not given out again and no counter goes back, whatever sessions do.
-/

namespace TickHost

/-! ## 1. From a moment on -/

namespace Ledger

variable {l l' : Ledger} {e : Event} {events : List Event} {h : Handle}

/-- What passes have taken is due. -/
def TakenAreDue (l : Ledger) : Prop := ∀ pass ∈ l.underway, ∀ t ∈ pass.due, t.remaining = 0

theorem Posts.takenAreDue (hpost : Posts l e l') (hl : l.TakenAreDue) : l'.TakenAreDue := by
  cases hpost with
  | drained =>
    refine List.forall_mem_cons.mpr ⟨?_, hl⟩
    intro t ht
    simpa [Task.isDue] using (List.mem_filter.mp ht).2
  | fired number task due k passes h =>
    rw [TakenAreDue, h] at hl
    obtain ⟨htop, hrest⟩ := List.forall_mem_cons.mp hl
    exact List.forall_mem_cons.mpr ⟨fun t ht => htop t (List.mem_cons_of_mem _ ht), hrest⟩
  | passEnded number k passes h =>
    rw [TakenAreDue, h] at hl
    exact (List.forall_mem_cons.mp hl).2
  | _ => exact hl

theorem takenAreDue_of_replay (hreplay : Replay {} events l) : l.TakenAreDue := by
  induction hreplay with
  | nil => simp [TakenAreDue]
  | snoc _ hpost ih => exact hpost.takenAreDue ih

theorem foldl_fate_of_not_waiting {fate : Fate} (hfate : fate.isWaiting = false) (h : Handle)
    (events : List Event) : events.foldl (Fate.after h) fate = fate := by
  induction events with
  | nil => rfl
  | cons e events ih => rw [List.foldl_cons, Fate.after_of_not_waiting hfate, ih]

/-- **What a pass has taken runs once**, or the pass still has it. -/
theorem replay_due (hreplay : Replay l events l') (hl : l.Distinct) (hdue : l.TakenAreDue)
    (hfew : l'.accepted ≤ 2 ^ 64) {pass : OpenPass} (hpass : pass ∈ l.underway) {t : Task Action}
    (ht : t ∈ pass.due) :
    firingsOf t.handle events = 1 ∨
      firingsOf t.handle events = 0 ∧ ∃ pass' ∈ l'.underway, t ∈ pass'.due := by
  obtain ⟨handle, remaining, action⟩ := t
  obtain rfl : remaining = 0 := hdue pass hpass _ ht
  have hissued := hl.issued handle (mem_handles_of_due hpass ht)
  have hw := Whereabouts.replay hreplay (.due pass hpass rfl ht) hl hfew hissued
  rw [foldl_fate_of_not_waiting rfl, Nat.zero_add] at hw
  generalize firingsOf handle events = fired at hw
  cases hw with
  | due pass' hpass' hnumber hdue' => exact Or.inr ⟨rfl, pass', hpass', hdue'⟩
  | done hnot => exact Or.inl rfl

/-- **A task that is nowhere stays so**, and does not run. -/
theorem replay_nowhere (hreplay : Replay l events l') (hl : l.Distinct)
    (hfew : l'.accepted ≤ 2 ^ 64) (hissued : ∃ i < l.accepted, h = .ofNat i)
    (hnot : h ∉ l.handles) : firingsOf h events = 0 ∧ h ∉ l'.handles := by
  have hgone : Whereabouts l h .idle 0 .gone 0 := .gone hnot
  have hw := Whereabouts.replay hreplay hgone hl hfew hissued
  rw [foldl_fate_of_not_waiting rfl, Nat.zero_add] at hw
  generalize firingsOf h events = fired at hw
  cases hw with
  | gone hnot' => exact ⟨rfl, hnot'⟩

theorem Posts.ended_le (hpost : Posts l e l') : l.ended ≤ l'.ended := by
  cases hpost <;> simp

theorem ended_le_of_replay (hreplay : Replay l events l') : l.ended ≤ l'.ended := by
  induction hreplay with
  | nil => exact Nat.le_refl _
  | snoc _ hpost ih => exact Nat.le_trans ih hpost.ended_le

/-- The handles of waiting tasks are those of the machine. -/
theorem Matches.handles {m : Machine} (hm : l.Matches m) :
    l.handles = m.world.scheduler.queue.map Task.handle ++
      m.underway.flatMap fun pass => pass.1.map Task.handle := by
  rw [Ledger.handles, hm.queue, ← hm.underway, List.flatMap_map]

/-- **What was dropped is gone for good.**  Between `k` and `n` all pending tasks have gone, and
passes under way have stayed as they were. -/
theorem Matches.dropped {l₂ : Ledger} {k n m : Machine} {events' : List Event} (hl : l.Matches k)
    (hl' : l'.Matches n) (hl₂ : l₂.Matches m) (hreplay : Replay l events l')
    (hreplay' : Replay l' events' l₂) (hdistinct : l.Distinct) (hfew : l₂.accepted ≤ 2 ^ 64)
    (hqueue : n.world.scheduler.queue = []) (hunderway : n.underway = k.underway)
    {t : Task Action} (ht : t ∈ k.world.scheduler.queue) :
    firingsOf t.handle events' = 0 ∧ m.Answers t.handle false := by
  rw [← hl.queue] at ht
  have hnowhere : t.handle ∉ l'.handles := by
    rw [hl'.handles, hqueue, hunderway, ← hl.underway, List.flatMap_map]
    exact hdistinct.not_due ht
  obtain ⟨i, hi, hissued⟩ :=
    hdistinct.issued t.handle (List.mem_append_left _ (List.mem_map_of_mem ht))
  have hfew' := Nat.le_trans (accepted_le_of_replay hreplay') hfew
  obtain ⟨hnever, hgone⟩ := replay_nowhere hreplay' (Replay.distinct hreplay hfew' hdistinct) hfew
    ⟨i, Nat.lt_of_lt_of_le hi (accepted_le_of_replay hreplay), hissued⟩ hnowhere
  have hunscheduled : m.world.scheduler.isScheduled t.handle = false := by
    rw [Bool.eq_false_iff, ne_eq, Scheduler.isScheduled_iff, ← hl₂.queue]
    exact fun hmem => hgone (List.mem_append_left _ hmem)
  exact ⟨hnever, hunscheduled ▸ m.answers t.handle⟩

/-- A machine as a ledger, its passes numbered in any way. -/
theorem exists_matches (m : Machine) : ∃ l : Ledger, l.Matches m :=
  ⟨{ queue := m.world.scheduler.queue
     accepted := m.world.scheduler.accepted
     ended := m.world.scheduler.passes
     underway := m.underway.map fun pass => ⟨0, pass.1, pass.2⟩ },
    rfl, rfl, rfl, by simp [Function.comp_def]⟩

end Ledger

/-- **No counter goes back.** -/
theorem Beat.Valid.counters {b : Beat} (hb : b.Valid) :
    b.before.world.scheduler.accepted ≤ b.after.world.scheduler.accepted ∧
      b.before.world.scheduler.passes ≤ b.after.world.scheduler.passes := by
  obtain ⟨l, hl⟩ := Ledger.exists_matches b.before
  obtain ⟨l', hreplay, hl'⟩ := hl.move hb
  rw [← hl.accepted, ← hl.ended, ← hl'.accepted, ← hl'.ended]
  exact ⟨Ledger.accepted_le_of_replay hreplay, Ledger.ended_le_of_replay hreplay⟩

/-- A proxy keeps its configuration. -/
theorem Run.proxy {m n : Machine} {path : List Beat} (hrun : Run m path n) :
    n.world.proxy = m.world.proxy := by
  induction hrun with
  | nil => rfl
  | snoc _ hb ih =>
    obtain ⟨rfl, hvalid, rfl⟩ := hb
    exact (Machine.move_wiring hvalid).proxy.trans ih

/-! ## 2. The events -/

variable {k n : Machine} {event : Lifecycle.Event} {path : List Beat}

/-- Whether a session can be reported as stopped in this state. -/
def Lifecycle.State.canStop (s : State) : Bool := s == .starting || s == .stopping

theorem Lifecycle.State.canStop_iff {s : State} :
    s.canStop = true ↔ s = .starting ∨ s = .stopping := by
  cases s <;> decide

theorem Lifecycle.State.next?_stopped (s : State) :
    s.next? .stopped = if s.canStop then some .stopped else none := by cases s <;> rfl

/-- **A session is reported as stopped.**  Nobody is called; what is pending is dropped if the event
is accepted and the proxy is set up so, and otherwise the scheduler is left as it is. -/
theorem Call.stopped (hk : k.focus = .settling .stopped) (hcall : Call k.stack k path n)
    (hback : n.BackAt k.stack) :
    (∀ b ∈ path, ∀ task, b.before.errand? ≠ some (.fire task)) ∧
      n.focus = .reply .done ∧ n.state = (if k.state.canStop then .stopped else k.state) ∧
      (k.state.canStop = true → k.world.discardsOn .stopped = true →
        n.world.scheduler = k.world.scheduler.clear) ∧
      (k.state.canStop = false ∨ k.world.discardsOn .stopped = false →
        n.world.scheduler = k.world.scheduler) := by
  obtain ⟨first, inner, last, accepted, rfl, hfirst, hafter, -, hinner, hlast, hresume, rfl⟩ :=
    hcall.settles hk hback
  have hn : last.after = _ :=
    (congrArg Stepped.machine hresume).trans (Machine.resume_settling _ _ _ _)
  have hquiet : ∀ target, (k.state, target) ∈ Lifecycle.Event.stopped.edges →
      Lifecycle.passOn k.state target = none := by
    intro target
    cases k.state <;> cases target <;> decide
  rw [hafter] at hinner
  obtain ⟨b, rfl, hb, hlast'⟩ := Call.moves_at_once
    (k := ⟨k.world, .moving .stopped, .settling .stopped :: k.stack⟩) rfl hquiet hinner
    (by rw [hlast]; exact ⟨rfl, rfl⟩)
  constructor
  · intro c hc task
    simp only [List.mem_cons, List.mem_append, List.not_mem_nil, or_false] at hc
    rcases hc with rfl | rfl | rfl
    · simp [Machine.errand?, hfirst, hk]
    · simp [Machine.errand?, hb]
    · rw [hlast]
      cases accepted with
      | false => simp [Machine.errand?]
      | true => simp only [Machine.errand?]; split <;> simp
  have hnext := k.state.next?_stopped
  rcases hlast' with ⟨hnone, hlast'⟩ | ⟨target, htarget, hlast'⟩
  · obtain ⟨hworld, hreply, -⟩ := Machine.mk.inj (hlast.symm.trans hlast')
    obtain rfl : accepted = false := by injection hreply with h; injection h
    have hcannot : k.state.canStop = false := by
      cases hcan : k.state.canStop with
      | false => rfl
      | true => rw [hcan] at hnext; cases hnone.symm.trans hnext
    rw [hn, hworld, hcannot]
    exact ⟨rfl, rfl, fun h => absurd h Bool.false_ne_true, fun _ => rfl⟩
  · obtain ⟨hworld, hreply, -⟩ := Machine.mk.inj (hlast.symm.trans hlast')
    obtain rfl : accepted = true := by injection hreply with h; injection h
    have hcan : k.state.canStop = true := by
      cases hcan : k.state.canStop with
      | true => rfl
      | false => rw [hcan] at hnext; cases htarget.symm.trans hnext
    obtain rfl : target = .stopped := by
      rw [hcan] at hnext
      exact Option.some.inj (htarget.symm.trans hnext)
    have hsame (c : Coordinator Listener) :
        World.discardsOn { k.world with coordinator := c } .stopped = k.world.discardsOn .stopped :=
      rfl
    rw [hn, hworld, hcan, hsame]
    cases k.world.discardsOn .stopped with
    | false => exact ⟨rfl, rfl, fun _ h => absurd h Bool.false_ne_true, fun _ => rfl⟩
    | true => exact ⟨rfl, rfl, fun _ _ => rfl, by simp⟩

/-- What is not for the scheduler leaves it alone. -/
theorem Beat.Valid.spares {b : Beat} (hb : b.Valid) (herrand : b.before.errand? = none) :
    b.after.world.scheduler = b.before.world.scheduler := by
  cases Machine.move_scheduler hb with
  | elsewhere _ hscheduler => exact hscheduler
  | requested _ _ h | filled _ _ h | cancelled _ h | discarded _ h | began h | fired _ _ _ _ h
  | settled _ _ h | ended _ _ h =>
    rw [herrand] at h
    cases h

/-- **Every other event leaves the scheduler to the hooks**: whatever happens to tasks in such a
call is done by a hook that is running. -/
theorem Call.hooks_only (hk : k.focus = .settling event) (hevent : event ≠ .stopped)
    (hcall : Call k.stack k path n) (hback : n.BackAt k.stack) :
    ∀ b ∈ path, b.after.world.scheduler = b.before.world.scheduler ∨
      b.before.InHookOf k.stack event := by
  obtain ⟨first, taking, inner, last, accepted, rfl, rfl, hafter, htaking, -, hinner, hlast⟩ :=
    hcall.takes hk hback
  have hvalid := hcall.run.valid
  refine List.forall_mem_cons.mpr ⟨Or.inl (by rw [hafter]), List.forall_mem_cons.mpr ⟨?_, ?_⟩⟩
  · exact Or.inl ((hvalid taking (by simp)).spares (by simp [Machine.errand?, htaking, hafter]))
  refine List.forall_mem_append.mpr ⟨?_, List.forall_mem_singleton.mpr (Or.inl ?_)⟩
  · intro b hb
    refine (hinner b hb).imp_left ?_
    rintro ⟨hook, index, rest, hfocus⟩
    exact (hvalid b (by simp [hb])).spares (by simp [Machine.errand?, hfocus])
  · have hkeeps : last.before.world.discardsOn event = false := by simp [World.discardsOn, hevent]
    rw [hlast, Machine.resume_settling, hkeeps, Bool.and_false]
    rfl

/-- Only a pass that fires its next task begins an action. -/
theorem Beat.Valid.firingsOf_eq_zero {b : Beat} (hb : b.Valid)
    (hfire : ∀ task, b.before.errand? ≠ some (.fire task)) (h : Handle) :
    firingsOf h b.events = 0 := by
  refine List.countP_eq_zero.mpr fun e he hfires => ?_
  cases e with
  | fired h' action =>
    obtain ⟨errand, herrand, hposts⟩ := hb.errand_of_mem he rfl
    cases errand with
    | fire task => exact hfire task herrand
    | _ => cases hposts
  | _ => cases hfires

theorem firingsOf_trace_eq_zero {path : List Beat} {h : Handle}
    (hpath : ∀ b ∈ path, firingsOf h b.events = 0) : firingsOf h (trace path) = 0 := by
  induction path with
  | nil => rfl
  | cons b path ih =>
    obtain ⟨hb, hpath⟩ := List.forall_mem_cons.mp hpath
    rw [trace_cons, firingsOf, List.countP_append]
    exact Nat.add_eq_zero_iff.mpr ⟨hb, ih hpath⟩

/-- **A session is reported as stopped to the proxy**, whose configuration says whether what is
pending is dropped. -/
theorem Machine.Hands.stopped {config : Config} (h : k.Hands .stopped)
    (hcall : Call k.stack k path n) (hback : n.BackAt k.stack)
    (hconfig : k.world.proxy = some config) :
    (∀ t : Task Action, firingsOf t.handle (trace path) = 0) ∧ n.underway = k.underway ∧
      ((k.state = .starting ∨ k.state = .stopping) → config.discardOnStop = true →
        n.world.scheduler = k.world.scheduler.clear) ∧
      ((k.state = .unstarted ∨ k.state = .running ∨ k.state = .stopped ∨
          config.discardOnStop = false) →
        n.world.scheduler = k.world.scheduler) := by
  obtain ⟨before, rest, rfl, hquiet, hsame, hrest⟩ := h.call hcall hback
  obtain ⟨hnofire, hreply, -, hclears, hkeeps⟩ :=
    Call.stopped (k := ⟨k.world, .settling .stopped, k.stack⟩) rfl hrest hback
  have hdiscards : k.world.discardsOn .stopped = config.discardOnStop := by
    simp [World.discardsOn, hconfig]
  rw [hdiscards] at hclears hkeeps
  refine ⟨?_, ?_, ?_, ?_⟩
  · intro t
    rw [trace_append, hquiet, List.nil_append]
    exact firingsOf_trace_eq_zero fun b hb =>
      (hrest.run.valid b hb).firingsOf_eq_zero (hnofire b hb) t.handle
  · simp only [underway, hback.1, hreply]
    rcases h with hfocus | ⟨-, hfocus⟩ <;> rw [hfocus] <;> rfl
  · exact fun hstate => hclears (Lifecycle.State.canStop_iff.mpr hstate)
  · intro hrefused
    refine hkeeps ?_
    rcases hrefused with h | h | h | h
    · exact Or.inl (congrArg Lifecycle.State.canStop h)
    · exact Or.inl (congrArg Lifecycle.State.canStop h)
    · exact Or.inl (congrArg Lifecycle.State.canStop h)
    · exact Or.inr h

/-! ## 3. Whole runs -/

open Ledger in
/-- **What a stopped session leaves behind.**  Let an event be handed to the proxy, at any moment
`k` of a run from a fresh world, let `n` be the moment when the proxy has dealt with it, and `m` any
later one.

* If the session is reported as stopped, was starting or stopping, and the proxy is set up so, the
  pending tasks are dropped, and nothing else about the scheduler changes.  If it was in any other
  state, or the proxy is set up otherwise, the scheduler is left as it is.
* Every other event leaves the scheduler to the hooks.
* No move takes back the number of acceptances or that of passes.
* With less than `2 ^ 64` acceptances, a handle is not given out twice; what passes have taken runs
  nevertheless, once, unless the pass still has it; and of the tasks that were dropped none runs
  after that, and none is scheduled or can be cancelled.
-/
theorem leftovers_of_run {w : World} {config : Config} (hw : w.Fresh)
    (hproxy : w.proxy = some config) {p call q : List Beat} {k n m : Machine}
    {event : Lifecycle.Event} (hrun : Run (Machine.idle w) p k) (hhands : k.Hands event)
    (hcall : Call k.stack k call n) (hback : n.BackAt k.stack) (hrest : Run n q m) :
    (event = .stopped →
      ((k.state = .starting ∨ k.state = .stopping) → config.discardOnStop = true →
        n.world.scheduler = k.world.scheduler.clear) ∧
      ((k.state = .unstarted ∨ k.state = .running ∨ k.state = .stopped ∨
          config.discardOnStop = false) →
        n.world.scheduler = k.world.scheduler)) ∧
    (event ≠ .stopped → ∀ b ∈ call,
      b.after.world.scheduler = b.before.world.scheduler ∨ b.before.InHookOf k.stack event) ∧
    (∀ b ∈ p ++ call ++ q,
      b.before.world.scheduler.accepted ≤ b.after.world.scheduler.accepted ∧
      b.before.world.scheduler.passes ≤ b.after.world.scheduler.passes) ∧
    (acceptances (trace (p ++ call ++ q)) < 2 ^ 64 →
      (∀ pre post h delay action,
        trace (p ++ call ++ q) = pre ++ .accepted h delay action :: post →
        ∀ delay' action', .accepted h delay' action' ∉ pre ++ post) ∧
      (∀ pass ∈ k.underway, ∀ t ∈ pass.1, firingsOf t.handle (trace (call ++ q)) = 1 ∨
        firingsOf t.handle (trace (call ++ q)) = 0 ∧ ∃ pass' ∈ m.underway, t ∈ pass'.1) ∧
      (event = .stopped → (k.state = .starting ∨ k.state = .stopping) →
        config.discardOnStop = true → ∀ t ∈ k.world.scheduler.queue,
          firingsOf t.handle (trace (call ++ q)) = 0 ∧ m.Answers t.handle false)) := by
  have hconfig : k.world.proxy = some config := hrun.proxy.trans hproxy
  refine ⟨?_, ?_, ?_, ?_⟩
  · rintro rfl
    exact (hhands.stopped hcall hback hconfig).2.2
  · intro hevent
    obtain ⟨before, rest, rfl, -, hsame, hpath⟩ := hhands.call hcall hback
    refine List.forall_mem_append.mpr ⟨fun b hb => Or.inl ?_, ?_⟩
    · rw [(hsame b hb).1, (hsame b hb).2]
    · exact Call.hooks_only (k := ⟨k.world, .settling event, k.stack⟩) rfl hevent hpath hback
  · intro b hb
    exact (Run.valid (Trail.append (Trail.append hrun hcall.run) hrest) b hb).counters
  intro hfew
  obtain ⟨l, hreplay, hl⟩ := run_replay hw hrun
  obtain ⟨l₁, hreplay₁, hl₁⟩ := hl.run hcall.run
  obtain ⟨l₂, hreplay₂, hl₂⟩ := hl₁.run hrest
  have hwhole : Replay {} (trace (p ++ call ++ q)) l₂ := by
    rw [trace_append, trace_append]
    exact (hreplay.append hreplay₁).append hreplay₂
  have hfew₂ : l₂.accepted < 2 ^ 64 := by
    rw [accepted_of_replay hwhole, Nat.zero_add]
    exact hfew
  have hfew₁ := Nat.lt_of_le_of_lt (accepted_le_of_replay hreplay₂) hfew₂
  have hfew₀ := Nat.lt_of_le_of_lt (accepted_le_of_replay hreplay₁) hfew₁
  have hdistinct := Replay.distinct hreplay (Nat.le_of_lt hfew₀) .empty
  refine ⟨?_, ?_, ?_⟩
  · intro pre post h delay action hsplit
    exact (kept_of_replay (hsplit ▸ hwhole) hfew₂ hl₂).only
  · intro pass hpass t ht
    rw [← hl.underway] at hpass
    obtain ⟨open', hopen, rfl⟩ := List.mem_map.mp hpass
    have htaken := replay_due (hreplay₁.append hreplay₂) hdistinct (takenAreDue_of_replay hreplay)
      (Nat.le_of_lt hfew₂) hopen ht
    rw [trace_append, ← hl₂.underway]
    exact htaken.imp_right fun ⟨hnot, pass', hpass', ht'⟩ =>
      ⟨hnot, _, List.mem_map_of_mem hpass', ht'⟩
  · rintro rfl hstate hdiscard t ht
    obtain ⟨hcallnever, hunderway, hclears, -⟩ := hhands.stopped hcall hback hconfig
    obtain ⟨hnever, hanswers⟩ := hl.dropped hl₁ hl₂ hreplay₁ hreplay₂ hdistinct
      (Nat.le_of_lt hfew₂) (by rw [hclears hstate hdiscard]; rfl) hunderway ht
    refine ⟨?_, hanswers⟩
    rw [trace_append, firingsOf, List.countP_append]
    exact Nat.add_eq_zero_iff.mpr ⟨hcallnever t, hnever⟩

/-- A proxy whose sessions leave nothing behind. -/
def tidyProxy : World := (World.proxied { Config.default with discardOnStop := true }).world

/-- A session that is starting, with three tasks accepted, and a pass that has taken the first two
of them, until the first action is about to report the session as stopped. -/
def closing : List Beat × Machine :=
  (Machine.idle tidyProxy).played <|
    [.command (.proxyLifecycle .starting)] ++ List.replicate 4 .step ++
    [.command (.schedule "closing" (some 0) false .goOn [.proxyLifecycle .stopped]), .step,
      .command (.schedule "taken" (some 0) false .goOn []), .step, .command (.fill 1 5), .step,
      .command .runPass, .step, .step, .step, .step]

/-- The report. -/
def closed : List Beat × Machine := closing.2.played (List.replicate 4 .step)

/-- The rest of the pass. -/
def closedPass : List Beat × Machine := closed.2.played (List.replicate 7 .step)

/-- The task that the pass has taken runs; the third one does not and is no longer scheduled. -/
theorem leftovers_of_closing :
    tidyProxy.Fresh ∧ Run (Machine.idle tidyProxy) closing.1 closing.2 ∧
    closing.2.Hands .stopped ∧ closing.2.state = .starting ∧
    Call closing.2.stack closing.2 closed.1 closed.2 ∧ closed.2.BackAt closing.2.stack ∧
    Run closed.2 closedPass.1 closedPass.2 ∧ closedPass.2.underway = [] ∧
    acceptances (trace (closing.1 ++ closed.1 ++ closedPass.1)) < 2 ^ 64 ∧
    firingsOf (.ofNat 1) (trace (closed.1 ++ closedPass.1)) = 1 ∧
    firingsOf (.ofNat 2) (trace (closed.1 ++ closedPass.1)) = 0 ∧
    closedPass.2.Answers (.ofNat 2) false := by
  have hfresh : tidyProxy.Fresh := World.proxied_fresh _
  have hopening : Run (Machine.idle tidyProxy) closing.1 closing.2 := Machine.played_run _ _
  have hhands : closing.2.Hands .stopped := Or.inr ⟨rfl, rfl⟩
  have hcall : Call closing.2.stack closing.2 closed.1 closed.2 :=
    .of_run (Machine.played_run _ _) (by decide)
  have hback : closed.2.BackAt closing.2.stack := ⟨rfl, rfl⟩
  have hrest : Run closed.2 closedPass.1 closedPass.2 := Machine.played_run _ _
  have hfew : acceptances (trace (closing.1 ++ closed.1 ++ closedPass.1)) < 2 ^ 64 := by decide
  obtain ⟨-, -, -, htasks⟩ := leftovers_of_run hfresh rfl hopening hhands hcall hback hrest
  obtain ⟨-, htaken, hdropped⟩ := htasks hfew
  have hidle : closedPass.2.underway = [] := rfl
  have hunderway : closing.2.underway = [([⟨.ofNat 1, 0, .script "taken" false []⟩], 1)] := rfl
  have hpending : closing.2.world.scheduler.queue = [⟨.ofNat 2, 4, .idle⟩] := rfl
  rw [hunderway, hidle] at htaken
  have hsecond : firingsOf (.ofNat 1) (trace (closed.1 ++ closedPass.1)) = 1 := by
    simpa using htaken _ (List.mem_singleton_self _) _ (List.mem_singleton_self _)
  have hthird := hdropped rfl (Or.inl rfl) rfl
  rw [hpending] at hthird
  obtain ⟨hnever, hanswers⟩ := hthird _ (List.mem_singleton_self _)
  exact ⟨hfresh, hopening, hhands, rfl, hcall, hback, hrest, hidle, hfew, hsecond, hnever, hanswers⟩

end TickHost
