import TickHost.Proofs.Hosting
import TickHost.Proofs.Leftovers
import TickHost.Proofs.Steps.Hooks

/-!
# What a run of the host makes of the session

A run hands the same four events to the proxy whatever has become of the session, two before its
steps and two after them, and leaves it to the lifecycle to refuse those that have no edge.

* `Call.host_stage`: one event, up to the next stage of the run.
* `Call.host_opening` and `Call.host_closing`: the two events before the steps, and the two after
  them.  From any state but the one in which nothing has started, the last two lead to the stopped
  state (`Lifecycle.State.on_stopping_stopped`), so nothing that callbacks did before matters there.

What callbacks do is left open, but for two conditions that parts of the main result ask for: that
the hooks which the closing calls leave the state alone (`Machine.InHookOf`), and that all changes
of the state are the run's own (`Beat.ofRun`).
-/

namespace TickHost

open Lifecycle (passOn)

/-! ## 1. Stages -/

/-- The event that a run hands to the proxy in a stage; steps are made without one. -/
def Stage.event? : Stage → Option Lifecycle.Event
  | starting => some .starting
  | started => some .started
  | stepping => none
  | stopping => some .stopping
  | stopped => some .stopped

/-- Whether a beat hands an event to the lifecycle for a stage of a run that was called for on `S`. -/
def Beat.ofRun (S : List Frame) (b : Beat) : Bool :=
  match b.before.focus, b.before.stack with
  | .moving event, .settling _ :: .running stage :: rest =>
    stage.event? == some event && rest.length == S.length
  | _, _ => false

variable {S : List Frame} {stage : Stage} {event : Lifecycle.Event} {a k n : Machine}
  {path : List Beat} {b : Beat}

/-- What a hook does is not the run's own. -/
theorem Machine.InHookOf.not_ofRun (h : b.before.InHookOf (.running stage :: S) event) :
    b.ofRun S = false := by
  obtain ⟨above, hook, body, index, rest, hstack⟩ := h
  rw [Beat.ofRun]
  split
  · rename_i event' event'' stage' rest' _ hstack'
    have hlength := congrArg List.length (hstack'.symm.trans hstack)
    simp only [List.length_cons, List.length_append] at hlength
    have hheight : (rest'.length == S.length) = false := by
      rw [beq_eq_false_iff_ne]
      omega
    rw [hheight, Bool.and_false]
  · rfl

/-- What happens in a step is not the run's own. -/
theorem Beat.ofRun_eq_false_of_stepping {above : List Frame}
    (h : b.before.stack = above ++ .running .stepping :: S) : b.ofRun S = false := by
  rw [Beat.ofRun]
  split
  · rename_i event event' stage rest _ hstack
    rw [h] at hstack
    -- the run's own events are handed over two frames above `S`, and there the step waits
    rcases above with _ | ⟨_, _ | ⟨_, above⟩⟩
    · cases hstack
    · cases hstack
      rfl
    · obtain rfl : above ++ .running .stepping :: S = rest := by injections
      have hheight : ((above ++ .running .stepping :: S).length == S.length) = false := by
        rw [beq_eq_false_iff_ne, List.length_append, List.length_cons]
        omega
      rw [hheight, Bool.and_false]
  · rfl

/-- Turning to the next stage leaves the session and the tasks alone. -/
theorem Machine.nextStage_world (w : World) (S : List Frame) (stage : Stage) :
    let after := (nextStage w S stage).machine.world
    after.coordinator = w.coordinator ∧ after.scheduler = w.scheduler ∧ after.ticks = w.ticks ∧
      after.isCancelled = w.isCancelled := by
  cases stage with
  | stepping =>
    simp only [nextStage]
    split <;> exact ⟨rfl, rfl, rfl, rfl⟩
  | stopped => cases h : w.host <;> simp [nextStage, answer, World.endRun, World.updateHost,
      World.ticks, World.isCancelled, h]
  | _ => exact ⟨rfl, rfl, rfl, rfl⟩

/-- **A stage of a run**: at `a` its event is handed to the proxy, and `t` is the beginning of the
next stage. -/
structure Machine.Staged (S : List Frame) (stage : Stage) (event : Lifecycle.Event) (a : Machine)
    (path : List Beat) (t : Machine) : Prop where
  call : Call S a path t
  spares : ∀ b ∈ path, b.SparesHost
  silent : ∀ b ∈ path, b.hostTick? = none
  returns : ∃ inner m, Call (.running stage :: S) a inner m ∧ m.BackAt (.running stage :: S) ∧
    t = (nextStage m.world S stage).machine
  takes : ∃ p b q, path = p ++ b :: q ∧ b.after.state = a.state.on event
  settled : (∀ b ∈ path, b.before.InHookOf (.running stage :: S) event →
    b.after.state = b.before.state) → a.Settled event path t

/-- **A run goes on with its next stage** once the proxy has dealt with the event of this one. -/
theorem Call.host_stage (hfocus : a.focus = .settling event)
    (hstack : a.stack = .running stage :: S) (h : Call S a path n) (hback : n.BackAt S) :
    ∃ p rest t, path = p ++ rest ∧ Call S t rest n ∧ a.Staged S stage event p t := by
  obtain ⟨inner, last, rest, r, rfl, hinner, hlast, hresume, hrest⟩ :=
    h.replies hstack (by rw [hfocus]; rfl) hback
  have hafter : last.after = (Machine.nextStage last.before.world S stage).machine :=
    congrArg Stepped.machine hresume
  obtain ⟨hcoordinator, -, hticks, hcancelled⟩ :=
    Machine.nextStage_world last.before.world S stage
  rw [← hafter] at hcoordinator hticks hcancelled
  have hstate : last.after.state = last.before.state := congrArg Coordinator.state hcoordinator
  have haside : a.Aside (.running stage :: S) := .of_stack hstack (by rw [hfocus]; rfl)
  have hlastBack : last.before.BackAt (.running stage :: S) := by rw [hlast]; exact ⟨rfl, rfl⟩
  have hspares : last.SparesHost :=
    ⟨by rw [Beat.isStep, hlast]; rfl, hticks, by rw [hcancelled]; exact id⟩
  have hlastRun : Run last.before [last] last.after :=
    .single ⟨rfl, h.run.valid last (by simp), rfl⟩
  refine ⟨inner ++ [last], rest, last.after, by simp, hrest, (Call.cut h).1, ?_, ?_, ?_, ?_, ?_⟩
  · exact List.forall_mem_append.mpr
      ⟨hinner.spares_host haside rfl, List.forall_mem_singleton.mpr hspares⟩
  · exact List.forall_mem_append.mpr ⟨hinner.silent haside rfl (by simp),
      List.forall_mem_singleton.mpr (by rw [Beat.hostTick?, hlast])⟩
  · exact ⟨inner, last.before, hinner, hlastBack, hafter⟩
  · rw [← hstack] at hinner hlastBack
    obtain ⟨first, taking, hooks, settling, accepted, rfl, -, -, -, htaken, -⟩ :=
      hinner.takes hfocus hlastBack
    exact ⟨[first], taking, hooks ++ [settling] ++ [last], by simp, htaken⟩
  · intro hkeeps
    rw [← hstack] at hinner hlastBack hkeeps
    have hsettled := hinner.settled hfocus hlastBack fun b hb =>
      hkeeps b (List.mem_append_left _ hb)
    exact hsettled.steady hlastRun (List.forall_mem_singleton.mpr hstate)

/-! ## 2. Before the steps -/

/-- Nothing leads back to where no session has started. -/
theorem Run.ne_unstarted (hrun : Run k path n) (hk : k.state ≠ .unstarted) :
    n.state ≠ .unstarted := by
  induction hrun with
  | nil => exact hk
  | snoc _ hb ih =>
    obtain ⟨rfl, hvalid, rfl⟩ := hb
    rcases (Machine.edge_of_move hvalid).1 with hsame | hedge
    · rw [show Machine.state _ = _ from hsame]
      exact ih
    · exact Lifecycle.target_ne_unstarted hedge

theorem Machine.Staged.ne_unstarted {t : Machine} (h : a.Staged S stage event path t)
    (hnext : a.state.on event ≠ .unstarted) : t.state ≠ .unstarted := by
  obtain ⟨p, b, q, rfl, htaken⟩ := h.takes
  exact (Run.cut h.call.run).2.ne_unstarted (htaken ▸ hnext)

theorem Lifecycle.State.on_starting_ne_unstarted (s : State) : s.on .starting ≠ .unstarted := by
  cases s <;> decide

theorem World.startRun_ticks (w : World) (ticks : Nat) : (w.startRun ticks).ticks = w.ticks := by
  cases h : w.host <;> simp [startRun, updateHost, World.ticks, h]

/-- What a run has done to the session before its first step. -/
structure Machine.Opened (k : Machine) (opening : List Beat) (a : Machine) : Prop where
  ticks : a.world.ticks = k.world.ticks
  steps : hostSteps opening = 0
  silent : hostTicks opening = []
  begun : a.state ≠ .unstarted
  /-- The state it leads to, if nobody else changes the state. -/
  own : (∀ b ∈ opening, b.ofRun k.stack = false → b.after.state = b.before.state) →
    a.state = (if k.state = .stopping then .stopping else .running) ∧
    a.session = k.session + (if k.state = .running ∨ k.state = .stopping then 0 else 1) ∧
    hookPasses (trace opening)
      = if k.state = .running ∨ k.state = .stopping then [] else [.start]

/-- **A run brings the session up** and turns to its steps. -/
theorem Call.host_opening {ticks : Nat} (hfocus : k.focus = .command (.run ticks))
    (hhost : k.world.host.isSome = true) (hfree : Machine.hostBusy k.stack = false)
    (h : Call k.stack k path n) (hback : n.BackAt k.stack) :
    ∃ opening rest a, path = opening ++ rest ∧ Call k.stack k opening a ∧ Call k.stack a rest n ∧
      a = ⟨a.world, .stepping, .running .stepping :: k.stack⟩ ∧ k.Opened opening a := by
  obtain ⟨first, path, rfl, hfirst, hstep, hrest⟩ :=
    h.begins (by rw [hfocus]; rfl) (by rw [hfocus]; rfl) hback
  have hbusy : (k.world.host.isNone || Machine.hostBusy k.stack) = false := by
    rw [hfree, Bool.or_false, Option.isNone_eq_false_iff]
    exact hhost
  simp only [Machine.step?, hfocus, Machine.perform, hbusy] at hstep
  obtain ⟨hafter, hevents⟩ := Stepped.mk.inj (Option.some.inj hstep)
  obtain ⟨p₁, rest, k₁, rfl, hrest, h₁⟩ :=
    hrest.host_stage (show first.after.focus = .settling .starting by rw [← hafter])
      (show first.after.stack = .running .starting :: k.stack by rw [← hafter]) hback
  obtain ⟨-, m₁, -, -, hk₁⟩ := h₁.returns
  obtain ⟨p₂, rest, a, rfl, hrest, h₂⟩ :=
    hrest.host_stage (show k₁.focus = .settling .started by rw [hk₁]; rfl)
      (show k₁.stack = .running .started :: k.stack by rw [hk₁]; rfl) hback
  obtain ⟨-, m₂, -, -, ha⟩ := h₂.returns
  obtain ⟨hlead, hpending, -⟩ := h.uncons
  have hstate : first.after.state = k.state := by rw [← hafter]; rfl
  have hsession : first.after.session = k.session := by rw [← hafter]; rfl
  have hspares : ∀ b ∈ p₁ ++ p₂, b.SparesHost :=
    List.forall_mem_append.mpr ⟨h₁.spares, h₂.spares⟩
  have hcall : Call k.stack first.after (p₁ ++ p₂) a := h₁.call.append h₂.call
  refine ⟨first :: (p₁ ++ p₂), rest, a, by simp, hcall.cons hlead hpending, hrest, ?_, ?_⟩
  · rw [ha]
    rfl
  refine ⟨?_, ?_, ?_, ?_, ?_⟩
  · rw [hcall.run.ticks_eq hspares, ← hafter]
    exact World.startRun_ticks k.world ticks
  · refine hostSteps_eq_zero (List.forall_mem_cons.mpr ⟨?_, fun b hb => (hspares b hb).step⟩)
    rw [Beat.isStep, hfirst, hfocus]
    rfl
  · refine hostTicks_eq_nil (List.forall_mem_cons.mpr ⟨?_, ?_⟩)
    · rw [Beat.hostTick?, hfirst, hfocus]
    · exact List.forall_mem_append.mpr ⟨h₁.silent, h₂.silent⟩
  · refine h₂.call.run.ne_unstarted (h₁.ne_unstarted ?_)
    exact Lifecycle.State.on_starting_ne_unstarted _
  · intro hown
    have hsettled₁ := h₁.settled fun b hb hin => hown b (by simp [hb]) hin.not_ofRun
    have hsettled₂ := h₂.settled fun b hb hin => hown b (by simp [hb]) hin.not_ofRun
    have hstate₁ : k₁.state = k.state.on .starting := hstate ▸ hsettled₁.state
    have hstate₂ : a.state = (k.state.on .starting).on .started := hstate₁ ▸ hsettled₂.state
    have hpasses : hookPasses (trace (first :: (p₁ ++ p₂))) =
        (passOn k.state k₁.state).toList ++ (passOn k₁.state a.state).toList := by
      rw [trace_cons, trace_append, hookPasses_append, hookPasses_append, hsettled₁.passes,
        hsettled₂.passes, ← hevents, hstate]
      rfl
    rw [hpasses, hsettled₂.session, hsettled₁.session, hsession, hstate, hstate₁, hstate₂]
    generalize k.state = s
    cases s <;> exact ⟨rfl, rfl, rfl⟩

/-! ## 3. After the steps -/

/-- **From any state but the first the last two events lead to the stopped state.** -/
theorem Lifecycle.State.on_stopping_stopped {s : State} (h : s ≠ .unstarted) :
    (s.on .stopping).on .stopped = .stopped := by
  cases s with
  | unstarted => exact absurd rfl h
  | _ => rfl

theorem Lifecycle.State.on_stopped (s : State) :
    s.on .stopped = if s.canStop then .stopped else s := by cases s <;> rfl

theorem Lifecycle.State.canStop_on_stopping {s : State} (h : s ≠ .unstarted) (h' : s ≠ .stopped) :
    (s.on .stopping).canStop = true := by
  cases s with
  | unstarted => exact absurd rfl h
  | stopped => exact absurd rfl h'
  | _ => rfl

/-- What a run does to the session after its last step. -/
structure Machine.Closed (S : List Frame) (c : Machine) (closing : List Beat) (n : Machine) :
    Prop where
  ticks : n.world.ticks = c.world.ticks
  steps : hostSteps closing = 0
  silent : hostTicks closing = []
  reply : n.focus = .reply (.count n.world.ticks)
  /-- The end, if the hooks that it calls leave the state alone. -/
  stopped : (∀ b ∈ closing, b.before.InHookOf (.running .stopping :: S) .stopping →
    b.after.state = b.before.state) → c.state ≠ .unstarted →
    n.state = .stopped ∧
    (c.state ≠ .stopped → c.world.discardsOn .stopped = true → n.world.scheduler.queue = [])
  /-- What it counts and whom it calls, if nobody else changes the state. -/
  own : (∀ b ∈ closing, b.ofRun S = false → b.after.state = b.before.state) →
    n.session = c.session ∧
    hookPasses (trace closing) = if c.state = .running then [.stop] else []

/-- **A run brings the session down** and answers how many steps the host has made. -/
theorem Call.host_closing {c : Machine} (hfocus : c.focus = .settling .stopping)
    (hstack : c.stack = .running .stopping :: S) (h : Call S c path n) (hback : n.BackAt S) :
    c.Closed S path n := by
  obtain ⟨p₁, rest, k₁, rfl, hrest, h₁⟩ := h.host_stage hfocus hstack hback
  obtain ⟨-, m₁, -, -, hk₁⟩ := h₁.returns
  have hfocus₁ : k₁.focus = .settling .stopped := by rw [hk₁]; rfl
  have hstack₁ : k₁.stack = .running .stopped :: S := by rw [hk₁]; rfl
  obtain ⟨p₂, rest', n', hp₂, hend, h₂⟩ := hrest.host_stage hfocus₁ hstack₁ hback
  obtain ⟨inner, m₂, hinner, hm₂, hn⟩ := h₂.returns
  obtain rfl := hend.eq_nil (by rw [hn]; exact ⟨rfl, rfl⟩)
  obtain rfl : rest = p₂ := hp₂.trans (List.append_nil p₂)
  obtain rfl : n = n' := hend.run.eq_of_nil.symm
  obtain ⟨hcoordinator, hscheduler, hticks, -⟩ := Machine.nextStage_world m₂.world S .stopped
  rw [← hn] at hcoordinator hscheduler hticks
  have hspares : ∀ b ∈ p₁ ++ rest, b.SparesHost :=
    List.forall_mem_append.mpr ⟨h₁.spares, h₂.spares⟩
  refine ⟨h.run.ticks_eq hspares, ?_, ?_, ?_, ?_, ?_⟩
  · exact hostSteps_eq_zero fun b hb => (hspares b hb).step
  · exact hostTicks_eq_nil (List.forall_mem_append.mpr ⟨h₁.silent, h₂.silent⟩)
  · rw [hticks, hn]
    rfl
  · intro hkeeps hbegun
    have hsettled := h₁.settled fun b hb => hkeeps b (by simp [hb])
    rw [← hstack₁] at hinner hm₂
    obtain ⟨-, -, hstate, hclears, -⟩ := hinner.stopped hfocus₁ hm₂
    constructor
    · calc n.state
        _ = m₂.state := congrArg Coordinator.state hcoordinator
        _ = k₁.state.on .stopped := by rw [hstate, k₁.state.on_stopped]
        _ = (c.state.on .stopping).on .stopped := by rw [hsettled.state]
        _ = .stopped := Lifecycle.State.on_stopping_stopped hbegun
    · intro hopen hdiscards
      have hcan : k₁.state.canStop = true := by
        rw [hsettled.state]
        exact Lifecycle.State.canStop_on_stopping hbegun hopen
      have hdiscards₁ : k₁.world.discardsOn .stopped = true := by
        rw [World.discardsOn, h₁.call.run.proxy]
        exact hdiscards
      rw [hscheduler, hclears hcan hdiscards₁]
      rfl
  · intro hown
    have hsettled₁ := h₁.settled fun b hb hin => hown b (by simp [hb]) hin.not_ofRun
    have hsettled₂ := h₂.settled fun b hb hin => hown b (by simp [hb]) hin.not_ofRun
    have hpasses : hookPasses (trace (p₁ ++ rest)) =
        (passOn c.state k₁.state).toList ++ (passOn k₁.state n.state).toList := by
      rw [trace_append, hookPasses_append, hsettled₁.passes, hsettled₂.passes]
    rw [hpasses, hsettled₂.session, hsettled₁.session, hsettled₂.state, hsettled₁.state]
    generalize c.state = s
    cases s <;> exact ⟨rfl, rfl⟩

/-! ## 4. Whole runs of the host -/

/-- **Runs of the host.**  Let a run be called for at any moment `k` when there is a host that
nobody holds, whatever the state of the session, the tasks, the handlers and the listeners, and let
it be over at `n`.  It is an opening up to its first step at `a`, steps, and from `c` on a closing.

* If it was not told to stop before `a`, it is told to in one of the steps, and that step is the
  last one.  The count of the host has grown by the number of steps, and the ticks that it has
  delivered are both halves of each, numbered on from its count.
* The session has stopped in the end, unless the hooks that the closing calls change the state;
  what callbacks did before does not matter.
* If nobody but the run changes the state, one session is counted and one pass over the start hooks
  is made, or neither if the session was running or stopping; one pass over the stop hooks is made,
  unless it was stopping; start hooks are called in the opening only, and stop hooks in the closing
  only; and if sessions leave nothing behind, no task is pending in the end.
-/
theorem hosting_of_call {k n : Machine} {ticks : Nat} {path : List Beat}
    (hfocus : k.focus = .command (.run ticks)) (hhost : k.world.host.isSome = true)
    (hfree : Machine.hostBusy k.stack = false) (hcall : Call k.stack k path n)
    (hback : n.BackAt k.stack) :
    ∃ opening steps closing a c, path = opening ++ steps ++ closing ∧
      Call k.stack k opening a ∧ a.focus = .stepping ∧ Call k.stack a steps c ∧
      c.focus = .settling .stopping ∧ Call k.stack c closing n ∧
      n.focus = .reply (.count n.world.ticks) ∧
      (a.world.isCancelled = false →
        0 < hostSteps path ∧ (∃ b ∈ steps, b.cancels = true) ∧
        (∀ p b q, steps = p ++ b :: q → b.cancels = true → hostSteps p = hostSteps path) ∧
        n.world.ticks = k.world.ticks + hostSteps path ∧
        hostTicks path = serverTicks k.world.ticks (hostSteps path)) ∧
      ((∀ b ∈ closing, b.before.InHookOf (.running .stopping :: k.stack) .stopping →
          b.after.state = b.before.state) →
        n.state = .stopped) ∧
      ((∀ b ∈ path, b.ofRun k.stack = false → b.after.state = b.before.state) →
        n.session = k.session + (if k.state = .running ∨ k.state = .stopping then 0 else 1) ∧
        hookPasses (trace opening)
          = (if k.state = .running ∨ k.state = .stopping then [] else [.start]) ∧
        hookPasses (trace steps) = [] ∧
        hookPasses (trace closing) = (if k.state = .stopping then [] else [.stop]) ∧
        (∀ b ∈ opening, b.calls? ≠ some .stop) ∧ (∀ b ∈ steps, b.calls? = none) ∧
        (∀ b ∈ closing, b.calls? ≠ some .start) ∧
        (k.world.discardsOn .stopped = true → n.world.scheduler.queue = [])) := by
  obtain ⟨opening, rest, a, rfl, hopening, hrest, ha, hopened⟩ :=
    hcall.host_opening hfocus hhost hfree hback
  have hstack : a.stack = .running .stepping :: k.stack := by rw [ha]
  obtain ⟨steps, closing, c, rfl, hsteps, hclosing, hc, hmade⟩ :=
    hrest.host_loop (by rw [ha]) hstack (hopening.run.host_isSome.trans hhost) hback
  have hclosed := hclosing.host_closing (by rw [hc]) (by rw [hc]) hback
  have hbegun : c.state ≠ .unstarted := hsteps.run.ne_unstarted hopened.begun
  have hcount : hostSteps (opening ++ (steps ++ closing)) = hostSteps steps := by
    rw [hostSteps_append, hostSteps_append, hopened.steps, hclosed.steps]
    simp
  refine ⟨opening, steps, closing, a, c, by simp, hopening, by rw [ha], hsteps, by rw [hc],
    hclosing, hclosed.reply, ?_, ?_, ?_⟩
  · intro huntold
    rw [hcount]
    refine ⟨hmade.pos, hsteps.run.exists_cancels huntold hmade.cancelled, ?_, ?_, ?_⟩
    · intro p b q hsplit hcancels
      exact hmade.last hsteps.run hsplit hcancels
    · rw [hclosed.ticks, hmade.ticks, hopened.ticks]
    · rw [hostTicks_append, hostTicks_append, hopened.silent, hclosed.silent, hmade.delivered,
        hopened.ticks]
      simp
  · exact fun hkeeps => (hclosed.stopped hkeeps hbegun).1
  · intro hown
    obtain ⟨hownOpening, hown⟩ := List.forall_mem_append.mp hown
    obtain ⟨hownSteps, hownClosing⟩ := List.forall_mem_append.mp hown
    obtain ⟨hstate, hsession, hpasses⟩ := hopened.own hownOpening
    obtain ⟨hsteady, hsession', hpasses'⟩ := hsteps.run.steady fun b hb => by
      obtain ⟨above, habove⟩ := hmade.within b hb
      exact hownSteps b hb (Beat.ofRun_eq_false_of_stepping (hstack ▸ habove))
    obtain ⟨hsession'', hpasses''⟩ := hclosed.own hownClosing
    have hup : c.state = if k.state = .stopping then .stopping else .running := hsteady.trans hstate
    have hstops : hookPasses (trace closing) = if k.state = .stopping then [] else [.stop] := by
      rw [hpasses'', hup]
      split <;> rfl
    refine ⟨?_, hpasses, hpasses', hstops, ?_, ?_, ?_, ?_⟩
    · rw [hsession'', hsession', hsession]
    · refine hopening.calls_none (show k.stack = [] ++ k.stack from rfl) (by rw [hfocus]; rfl) rfl ?_
      rw [hpasses]
      split <;> decide
    · intro b hb
      refine Option.eq_none_iff_forall_ne_some.mpr fun hook => ?_
      refine hsteps.calls_none (show a.stack = [.running .stepping] ++ k.stack from hstack)
        (by rw [ha]; rfl) rfl ?_ b hb
      rw [hpasses']
      exact List.not_mem_nil
    · refine hclosing.calls_none
        (show c.stack = [.running .stopping] ++ k.stack by rw [hc]; rfl) (by rw [hc]; rfl) rfl ?_
      rw [hstops]
      split <;> decide
    · intro hdiscards
      refine (hclosed.stopped (fun b hb hin => hownClosing b hb hin.not_ofRun) hbegun).2 ?_ ?_
      · rw [hup]
        split <;> decide
      · rw [World.discardsOn, Run.proxy (hopening.run.append hsteps.run)]
        exact hdiscards

/-- A host whose runs can be limited and leave nothing behind. -/
def tidyHost : World :=
  (World.limited (World.hosted { Config.default with discardOnStop := true } {})).world

/-- The host, about to run for two ticks.  A start hook has a task accepted that would not be due
before the run is over. -/
def season : List Beat × Machine :=
  (Machine.idle tidyHost).played
    [.command (.addListener "season" .both [.schedule "leftover" (some 9) false .goOn []] []
        none none 1), .step, .command (.run 2)]

/-- The run. -/
def seasonRun : List Beat × Machine := season.2.played (List.replicate 58 .step)

/-- There are two steps, one session and one pass over the hooks at either end, and the task is
dropped. -/
theorem hosting_of_season :
    season.2.focus = .command (.run 2) ∧ season.2.world.host.isSome = true ∧
    Machine.hostBusy season.2.stack = false ∧
    Call season.2.stack season.2 seasonRun.1 seasonRun.2 ∧ seasonRun.2.BackAt season.2.stack ∧
    seasonRun.2.focus = .reply (.count 2) ∧ seasonRun.2.world.ticks = 2 ∧
    hostTicks seasonRun.1 = serverTicks 0 2 ∧
    seasonRun.2.state = .stopped ∧ seasonRun.2.session = 1 ∧
    hookPasses (trace seasonRun.1) = [.start, .stop] ∧ seasonRun.2.world.scheduler.queue = [] := by
  have hcall : Call season.2.stack season.2 seasonRun.1 seasonRun.2 :=
    .of_run (Machine.played_run _ _) (by decide)
  have hback : seasonRun.2.BackAt season.2.stack := ⟨rfl, rfl⟩
  obtain ⟨opening, steps, closing, a, c, hpath, -, ha, hsteps, hc, -, hreply, hloop, hstops,
    howns⟩ := hosting_of_call rfl rfl rfl hcall hback
  have hown : ∀ b ∈ seasonRun.1, b.ofRun season.2.stack = false →
      b.after.state = b.before.state := by
    decide
  have hcount : hostSteps seasonRun.1 = 2 := by decide
  -- nobody tells the run to stop before its first step
  have huntold : a.world.isCancelled = false := by
    cases steps with
    | nil =>
      obtain rfl := hsteps.run.eq_of_nil
      rw [ha] at hc
      cases hc
    | cons first steps =>
      have hnever : ∀ b ∈ seasonRun.1, b.isStep = true → b.before.world.isCancelled = false := by
        decide
      have hfirst := hsteps.uncons.1.before
      rw [← hfirst]
      exact hnever first (by rw [hpath]; simp) (by rw [Beat.isStep, hfirst, ha]; rfl)
  obtain ⟨-, -, -, hticks, hdelivered⟩ := hloop huntold
  rw [hcount] at hticks hdelivered
  have hcounted : seasonRun.2.world.ticks = 2 := hticks
  obtain ⟨hsession, hopening, hsteady, hclosing, -, -, -, hqueue⟩ := howns hown
  refine ⟨rfl, rfl, rfl, hcall, hback, hcounted ▸ hreply, hcounted, hdelivered, ?_, hsession, ?_,
    hqueue rfl⟩
  · exact hstops fun b hb hin => hown b (by rw [hpath]; simp [hb]) hin.not_ofRun
  · rw [hpath, trace_append, trace_append, hookPasses_append, hookPasses_append, hopening, hsteady,
      hclosing]
    rfl

end TickHost
