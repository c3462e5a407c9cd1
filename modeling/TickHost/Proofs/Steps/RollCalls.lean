import TickHost.Proofs.Steps.Session

/-!
# Steps and roll calls

A hook pass is a roll call: it goes through the list of listeners that there was when it began, and
listeners that are added meanwhile are not on it.  A move begins a roll call, calls the next
listener of the innermost one, ends it, or is not concerned with hooks at all (`move_rollCalls`).

The list of listeners only grows at its end (`move_listeners`), so the position at which a listener
is called is its position in the order of registration, for good (`Machine.OnRoll`).
-/

namespace TickHost

/-- A hook pass that is under way. -/
structure RollCall where
  /-- The hook it is for. -/
  hook : Lifecycle.Hook
  /-- The position of the listener that is called next. -/
  next : Nat
  /-- The listeners yet to be called. -/
  rest : List Listener

/-- The hook pass that waits in a frame. -/
def Frame.rollCall? : Frame → Option RollCall
  | hooking hook _ index rest => some ⟨hook, index + 1, rest⟩
  | _ => none

/-- The hook pass that is gone on with. -/
def Focus.rollCall? : Focus → Option RollCall
  | hooking hook index rest => some ⟨hook, index, rest⟩
  | _ => none

/-- Whether an event begins or ends a hook pass, or is a call of one. -/
def Event.isRollCall : Event → Bool
  | notified _ | called .. | notifyEnded _ => true
  | _ => false

/-- What is about tasks or locks is no part of a hook pass. -/
theorem filter_rollCall_of_scheduler {events : List Event} (h : About Topic.ofScheduler events) :
    events.filter Event.isRollCall = [] := by
  refine List.filter_eq_nil_iff.mpr fun e he => ?_
  have htopic := h e he
  cases e <;> first | exact Bool.false_ne_true | cases htopic

namespace World

variable (w : World)

theorem filter_rollCall_transition (event : Lifecycle.Event) :
    (w.transition event).events.filter Event.isRollCall = [] := by
  simp only [transition]
  split
  · rfl
  · split
    · rfl
    · split <;> rfl
    · rfl

theorem transition_listeners (event : Lifecycle.Event) :
    (w.transition event).world.coordinator.listeners = w.coordinator.listeners := by
  simp only [transition]
  split
  · rfl
  · split
    · rfl
    · split <;> rfl
    · rfl

theorem filter_rollCall_addListener (listener : Listener) (copies : Nat) :
    (w.addListener listener copies).events.filter Event.isRollCall = [] := by
  refine List.filter_eq_nil_iff.mpr fun e he => ?_
  obtain ⟨events, hevents, he⟩ := List.mem_flatten.mp he
  rw [(List.mem_replicate.mp hevents).2, mem_holding] at he
  rcases he with rfl | he | rfl
  · exact Bool.false_ne_true
  · cases he
  · exact Bool.false_ne_true

end World

namespace Machine

/-- The hook passes under way, the innermost first. -/
def rollCalls (m : Machine) : List RollCall :=
  m.focus.rollCall?.toList ++ m.stack.filterMap Frame.rollCall?

/-- The listeners in the order of registration. -/
def listeners (m : Machine) : List Listener := m.world.coordinator.listeners

/-- What a step makes of the hook passes under way, and what it tells about them. -/
inductive RollStep (m : Machine) (s : Stepped) : Prop
  /-- It is not concerned with hooks. -/
  | elsewhere (hlisteners : m.listeners <+: s.machine.listeners)
      (hcalls : s.machine.rollCalls = m.rollCalls)
      (hevents : s.events.filter Event.isRollCall = [])
  /-- A pass begins. -/
  | began (hook : Lifecycle.Hook) (hlisteners : s.machine.listeners = m.listeners)
      (hcalls : s.machine.rollCalls = ⟨hook, 0, m.listeners⟩ :: m.rollCalls)
      (hevents : s.events.filter Event.isRollCall = [.notified hook])
  /-- The innermost pass calls its next listener. -/
  | called (hook : Lifecycle.Hook) (index : Nat) (listener : Listener) (rest : List Listener)
      (others : List RollCall) (hlisteners : s.machine.listeners = m.listeners)
      (hbefore : m.rollCalls = ⟨hook, index, listener :: rest⟩ :: others)
      (hafter : s.machine.rollCalls = ⟨hook, index + 1, rest⟩ :: others)
      (hevents : s.events.filter Event.isRollCall = [.called hook index listener])
  /-- The innermost pass ends. -/
  | ended (hook : Lifecycle.Hook) (index : Nat) (hlisteners : s.machine.listeners = m.listeners)
      (hbefore : m.rollCalls = ⟨hook, index, []⟩ :: s.machine.rollCalls)
      (hevents : s.events.filter Event.isRollCall = [.notifyEnded hook])

/-- A step that is not concerned with hooks and adds no listener. -/
theorem RollStep.aside {m : Machine} {s : Stepped} (hlisteners : s.machine.listeners = m.listeners)
    (hcalls : s.machine.rollCalls = m.rollCalls)
    (hevents : s.events.filter Event.isRollCall = []) : RollStep m s :=
  .elsewhere (hlisteners ▸ List.prefix_rfl) hcalls hevents

theorem perform_rollCalls (w : World) (S : List Frame) (c : Command) :
    RollStep ⟨w, .command c, S⟩ (perform w S c) := by
  cases c with
  | schedule name delay guarded onRefusal body =>
    have hsame := w.request_coordinator (delay.getD 0) (.script name guarded body)
    exact .aside (congrArg Coordinator.listeners hsame) rfl
      (filter_rollCall_of_scheduler (w.about_request _ _))
  | fill n delay =>
    exact .aside (congrArg Coordinator.listeners (w.fill_coordinator n delay)) rfl
      (filter_rollCall_of_scheduler (w.about_fill n delay))
  | cancel id =>
    exact .aside (congrArg Coordinator.listeners (w.cancel_coordinator (.ofNat id))) rfl
      (filter_rollCall_of_scheduler (w.about_cancel _))
  | discard =>
    exact .aside rfl rfl (filter_rollCall_of_scheduler w.about_discard)
  | addListener name kind start stop startFailure stopFailure copies =>
    exact .elsewhere (List.prefix_append _ _) rfl (w.filter_rollCall_addListener
      ⟨name, kind, ⟨start, startFailure⟩, ⟨stop, stopFailure⟩⟩ copies)
  | proxyTick | proxyLifecycle | config | step | run | samples | «repeat» =>
    simp only [perform]
    split <;> exact .aside rfl rfl rfl
  | _ => exact .aside rfl rfl rfl

theorem resume_rollCalls (w : World) (S : List Frame) (r : Reply) (frame : Frame) :
    RollStep ⟨w, .reply r, frame :: S⟩ (resume w S r frame) := by
  cases frame with
  | script current rest =>
    simp only [resume]
    split <;> exact .aside rfl rfl rfl
  | loop left body rest replies =>
    simp only [resume]
    split <;> exact .aside rfl rfl rfl
  | settling event =>
    simp only [resume]
    split
    · split
      · refine .aside rfl rfl ?_
        simp only [answer, World.dropLeftovers, List.filter_append,
          filter_rollCall_of_scheduler w.about_discard, List.nil_append]
        split <;> rfl
      · exact .aside rfl rfl rfl
    · exact .aside rfl rfl rfl
  | stepping phases => cases phases <;> exact .aside rfl rfl rfl
  | running stage =>
    cases stage with
    | stepping =>
      simp only [resume, nextStage]
      split <;> exact .aside rfl rfl rfl
    | _ => exact .aside rfl rfl rfl
  | _ => exact .aside rfl rfl rfl

theorem finish_rollCalls (w : World) (S : List Frame) (outcome : Outcome) (frame : Frame) :
    RollStep ⟨w, .ended outcome, frame :: S⟩ (finish w S outcome frame) := by
  cases frame with
  | firing | handling =>
    refine .aside rfl rfl ?_
    cases outcome <;> rfl
  | hooking hook body index rest =>
    refine .aside rfl rfl ?_
    simp only [finish]
    cases body.finish outcome <;> rfl
  | _ => exact .aside rfl rfl rfl

/-- What a step does about hooks. -/
theorem step_rollCalls {m : Machine} {s : Stepped} (h : m.step? = some s) : RollStep m s := by
  cases rule_of_step h with
  | command w S c => exact perform_rollCalls w S c
  | resumes w S r frame => exact resume_rollCalls w S r frame
  | finishes w S outcome frame => exact finish_rollCalls w S outcome frame
  | passEnds w S fired =>
    refine .aside rfl rfl ?_
    simp only [answer, World.endPass]
    split <;> rfl
  | callsHandler w S event handler rest count =>
    cases handler with
    | scheduler => exact .aside rfl rfl rfl
    | sampler | runLimit => exact .aside rfl rfl rfl
    | script => exact .aside rfl rfl rfl
  | refused w S event | moved w S event =>
    exact .aside (w.transition_listeners event) rfl (w.filter_rollCall_transition event)
  | hooksBegin w S event hook hvalue =>
    refine .began hook (w.transition_listeners event) ?_ ?_
    · simp only [rollCalls, Focus.rollCall?, World.beginHooks, w.transition_listeners event]
      rfl
    · rw [List.filter_append, w.filter_rollCall_transition event]
      rfl
  | callsListener w S hook index listener rest =>
    refine .called hook index listener rest (S.filterMap Frame.rollCall?) ?_ rfl ?_ rfl
    · simp only [notify]
      split <;> rfl
    · simp only [notify]
      split <;> rfl
  | hooksEnd w S hook index => exact .ended hook index rfl rfl rfl
  | _ => exact .aside rfl rfl rfl

/-- **A move goes on with a roll call or leaves them all alone.** -/
theorem move_rollCalls {m : Machine} {mv : Move} {s : Stepped} (h : m.move? mv = some s) :
    RollStep m s := by
  rcases move?_cases h with h | ⟨hidle, c, -, rfl⟩ | ⟨⟨script, hfocus⟩, commands, rfl⟩
  · exact step_rollCalls h
  · obtain ⟨w, focus, stack⟩ := m
    simp only [isIdle, Bool.and_eq_true, List.isEmpty_iff] at hidle
    obtain ⟨rfl, hfinal⟩ := hidle
    cases focus <;> first | exact .aside rfl rfl rfl | cases hfinal
  · exact .aside rfl (by simp [rollCalls, hfocus, turnTo, Focus.rollCall?]) rfl

/-- Listeners are added at the end, and none is ever removed. -/
theorem move_listeners {m : Machine} {mv : Move} {s : Stepped} (h : m.move? mv = some s) :
    m.listeners <+: s.machine.listeners := by
  cases move_rollCalls h with
  | elsewhere hlisteners => exact hlisteners
  | began hook hlisteners | called hook index listener rest others hlisteners
  | ended hook index hlisteners => exact hlisteners ▸ List.prefix_rfl

theorem prefix_drop_cons {α : Type} {x : α} {xs ys : List α} {k : Nat}
    (h : (x :: xs) <+: ys.drop k) : ys[k]? = some x ∧ xs <+: ys.drop (k + 1) := by
  obtain ⟨more, hmore⟩ := h
  refine ⟨?_, more, ?_⟩
  · rw [← List.head?_drop, ← hmore]
    rfl
  · rw [← List.drop_drop, ← hmore]
    rfl

/-- Every hook pass under way goes through the listeners from its next position on. -/
def OnRoll (m : Machine) : Prop := ∀ r ∈ m.rollCalls, r.rest <+: m.listeners.drop r.next

/-- **The next listener of a pass stands at its position in the order of registration.** -/
theorem OnRoll.listener_at {m : Machine} (h : m.OnRoll) {hook : Lifecycle.Hook} {index : Nat}
    {listener : Listener} {rest : List Listener} {others : List RollCall}
    (hm : m.rollCalls = ⟨hook, index, listener :: rest⟩ :: others) :
    m.listeners[index]? = some listener := by
  exact (prefix_drop_cons (h ⟨hook, index, listener :: rest⟩ (hm ▸ List.mem_cons_self))).1

/-- A move keeps every pass on the roll. -/
theorem OnRoll.move {m : Machine} {mv : Move} {s : Stepped} (h : m.OnRoll)
    (hmove : m.move? mv = some s) : s.machine.OnRoll := by
  obtain ⟨more, hmore⟩ := move_listeners hmove
  have hgrown : ∀ r ∈ m.rollCalls, r.rest <+: s.machine.listeners.drop r.next := by
    intro r hr
    refine (h r hr).trans ?_
    rw [← hmore, List.drop_append]
    exact List.prefix_append _ _
  cases move_rollCalls hmove with
  | elsewhere _ hcalls =>
    rw [OnRoll, hcalls]
    exact hgrown
  | began hook hlisteners hcalls =>
    rw [OnRoll, hcalls]
    exact List.forall_mem_cons.mpr ⟨hlisteners ▸ List.prefix_rfl, hgrown⟩
  | called hook index listener rest others _ hbefore hafter =>
    rw [hbefore] at hgrown
    obtain ⟨hfirst, hothers⟩ := List.forall_mem_cons.mp hgrown
    rw [OnRoll, hafter]
    exact List.forall_mem_cons.mpr ⟨(prefix_drop_cons hfirst).2, hothers⟩
  | ended hook index _ hbefore =>
    rw [hbefore] at hgrown
    exact (List.forall_mem_cons.mp hgrown).2

end Machine

end TickHost
