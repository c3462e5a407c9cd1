import TickHost.Proofs.Steps.Rules

/-!
# Steps and locks

A component takes its lock to work on its own data and gives it back when it has done so; both are
in the trace.  A `Stance` is what the locks are at a moment of a trace, and `Stance.Allows` is the
rule book: which event may come when.

Only one rule lets user code begin while a lock is held.  A cancellation takes a task out of the
queue and lets go of it at once, and the queue is given back only after that.  Every other operation
keeps to its own data until its lock is free again (`World.orderly_request` and its siblings), so
every move begins and ends with all locks free (`move_orderly`).
-/

namespace TickHost

/-! ## 1. Stances -/

/-- Whether user code begins with an event: a task, a handler or a listener is called, or an action
is released, and with it whatever it owns. -/
def Event.beginsUserCode : Event → Bool
  | fired .. | released .. | handled .. | called .. => true
  | _ => false

/-- Whether an event is neither about a lock nor the beginning of user code, nor takes a task out of
the queue. -/
def Event.isPlain : Event → Bool
  | locked _ | unlocked _ | cancelled _ => false
  | e => !e.beginsUserCode

theorem Event.isPlain_eq_false {e : Event} (h : e.beginsUserCode = true) : e.isPlain = false := by
  cases e <;> first | rfl | cases h

/-- What the locks are at a moment. -/
inductive Stance where
  /-- None is held. -/
  | free
  /-- A component holds its lock. -/
  | holding (lock : Lock)
  /-- The queue is held, and the task with this handle was just taken out of it. -/
  | removing (h : Handle)
  deriving DecidableEq

namespace Stance

/-- The lock that is held. -/
def lock? : Stance → Option Lock
  | free => none
  | holding lock => some lock
  | removing _ => some .queue

/-- What an event makes of the locks, if it may come. -/
inductive Allows : Stance → Event → Stance → Prop
  /-- A lock is taken when none is held. -/
  | takes (lock : Lock) : Allows .free (.locked lock) (.holding lock)
  /-- The lock that is held is given back. -/
  | gives (lock : Lock) : Allows (.holding lock) (.unlocked lock) .free
  /-- A plain event comes while no lock is held. -/
  | idles (e : Event) (he : e.isPlain = true) : Allows .free e .free
  /-- A plain event comes while a lock is held. -/
  | works (lock : Lock) (e : Event) (he : e.isPlain = true) :
      Allows (.holding lock) e (.holding lock)
  /-- User code begins when no lock is held. -/
  | begins (e : Event) (he : e.beginsUserCode = true) : Allows .free e .free
  /-- A task is taken out of the queue. -/
  | removes (h : Handle) : Allows (.holding .queue) (.cancelled h) (.removing h)
  /-- The action of a task that was just taken out is released. -/
  | lets (h : Handle) (action : Action) :
      Allows (.removing h) (.released (some h) action) (.holding .queue)

end Stance

/-- Events that begin and end with all locks free. -/
def Orderly (events : List Event) : Prop := Trail Stance.Allows .free events .free

/-- Events that leave the state as it is, one after the other. -/
theorem Trail.steady {σ ε : Type} {R : σ → ε → σ → Prop} {s : σ} :
    ∀ {es : List ε}, (∀ e ∈ es, R s e s) → Trail R s es s
  | [], _ => .nil
  | e :: _, h => by
    obtain ⟨hhead, htail⟩ := List.forall_mem_cons.mp h
    exact .cons (e := e) hhead (steady htail)

namespace Orderly

variable {e : Event} {p q : List Event} {lock : Lock}

theorem nil : Orderly [] := Trail.nil

theorem append (hp : Orderly p) (hq : Orderly q) : Orderly (p ++ q) := Trail.append hp hq

theorem flatten {ps : List (List Event)} (h : ∀ p ∈ ps, Orderly p) : Orderly ps.flatten := by
  induction ps with
  | nil => exact nil
  | cons p ps ih =>
    obtain ⟨hhead, htail⟩ := List.forall_mem_cons.mp h
    exact hhead.append (ih htail)

/-- A plain event may come when no lock is held. -/
theorem plain (he : e.isPlain = true) : Orderly [e] := .single (.idles e he)

/-- So may the beginning of user code. -/
theorem begins (he : e.beginsUserCode = true) : Orderly [e] := .single (.begins e he)

/-- Actions are released one after the other. -/
theorem releases (tasks : List (Task Action)) : Orderly (World.releases tasks) := by
  refine Trail.steady fun e he => ?_
  obtain ⟨task, -, rfl⟩ := List.mem_map.mp he
  exact .begins _ rfl

/-- What is done under a lock is in order if it leads from holding the lock to holding it. -/
theorem guard (h : Trail Stance.Allows (.holding lock) p (.holding lock)) :
    Orderly (World.holding lock p) :=
  .cons (.takes lock) (h.snoc (.gives lock))

/-- **A component that keeps to its own data is in order.** -/
theorem holding (h : ∀ e ∈ p, e.isPlain = true) : Orderly (World.holding lock p) :=
  guard (Trail.steady fun e he => .works lock e (h e he))

theorem holding_nil : Orderly (World.holding lock []) := holding (List.forall_mem_nil _)

theorem holding_single (he : e.isPlain = true) : Orderly (World.holding lock [e]) :=
  holding (List.forall_mem_singleton.mpr he)

end Orderly

/-! ## 2. Operations of the world -/

namespace World

variable (w : World)

/-- A refused action is released once the queue is free. -/
theorem orderly_refusalEvents (refusal : Refusal) (action : Action) :
    Orderly (refusalEvents refusal action) := by
  cases refusal with
  | queueFull pending => exact .append .holding_nil (.begins rfl)
  | _ => exact .begins rfl

theorem orderly_request (delay : Int) (action : Action) :
    Orderly (w.request delay action).events := by
  simp only [request]
  split
  · exact .holding (by simp [Event.isPlain, Event.beginsUserCode])
  · exact orderly_refusalEvents _ _

theorem orderly_fill (n : Nat) (delay : Int) : Orderly (w.fill n delay).events := by
  have hqueued (tasks : List (Task Action)) : Orderly (tasks.flatMap fun t =>
      holding .queue [.accepted t.handle t.remaining t.action]) := by
    refine .flatten fun p hp => ?_
    obtain ⟨t, -, rfl⟩ := List.mem_map.mp hp
    exact .holding_single rfl
  simp only [fill]
  split
  · split
    · exact (hqueued _).append (orderly_refusalEvents _ _)
    · exact hqueued _
  · exact hqueued _

/-- A cancelled action is released while the queue is held. -/
theorem orderly_cancel (h : Handle) : Orderly (w.cancel h).events := by
  simp only [cancel]
  split
  · exact .guard (.cons (.removes h) (.cons (.lets h _) (.single (.works _ _ rfl))))
  · exact .holding_nil

/-- Discarded actions are released once the queue is free. -/
theorem orderly_discard : Orderly w.discard.events := by
  refine .append (.append (.holding_single rfl) ?_) (.releases _)
  split
  · exact .nil
  · exact .plain rfl

theorem orderly_dropLeftovers : Orderly w.dropLeftovers.events := by
  refine w.orderly_discard.append ?_
  split
  · exact .nil
  · exact .plain rfl

/-- So are the actions that are left in the end. -/
theorem orderly_dispose : Orderly w.dispose := by
  refine .append ?_ (.releases _)
  split
  · exact .nil
  · exact .plain rfl

theorem orderly_endPass (fired : Nat) : Orderly (w.endPass fired).events := by
  refine .append ?_ (.plain rfl)
  split
  · exact .nil
  · exact .plain rfl

theorem orderly_addListener (listener : Listener) (copies : Nat) :
    Orderly (w.addListener listener copies).events := by
  refine .flatten fun p hp => ?_
  rw [(List.mem_replicate.mp hp).2]
  exact .holding_nil

/-- The lifecycle has given back what it holds before any hook is called. -/
theorem orderly_transition (event : Lifecycle.Event) : Orderly (w.transition event).events := by
  simp only [transition]
  split
  · exact .holding_single rfl
  · split
    · exact .append .holding_nil (.plain rfl)
    · split
      · exact .append (.append .holding_nil .holding_nil) (.plain rfl)
      · exact .append .holding_nil (.plain rfl)
    · exact .holding_single rfl

end World

/-! ## 3. Steps and moves -/

namespace Machine

theorem perform_orderly (w : World) (S : List Frame) (c : Command) :
    Orderly (perform w S c).events := by
  cases c with
  | schedule => exact w.orderly_request _ _
  | fill n delay => exact w.orderly_fill n delay
  | cancel id => exact w.orderly_cancel _
  | discard => exact w.orderly_discard
  | register | registerScheduler => exact .plain rfl
  | addListener name kind start stop startFailure stopFailure copies =>
    exact w.orderly_addListener ⟨name, kind, ⟨start, startFailure⟩, ⟨stop, stopFailure⟩⟩ copies
  | isScheduled | pending | isEmpty | state | session | listenerCount => exact .holding_nil
  | proxyTick | proxyLifecycle | config | step | run | samples =>
    simp only [perform]
    split <;> exact .nil
  | _ => exact .nil

theorem resume_orderly (w : World) (S : List Frame) (r : Reply) (frame : Frame) :
    Orderly (resume w S r frame).events := by
  cases frame with
  | script current rest =>
    simp only [resume]
    split <;> exact .plain rfl
  | loop left body rest replies =>
    simp only [resume]
    split <;> exact .nil
  | settling event =>
    simp only [resume]
    split
    · split
      · exact w.orderly_dropLeftovers
      · exact .nil
    · exact .nil
  | stepping phases => cases phases <;> exact .nil
  | running stage =>
    cases stage with
    | stepping =>
      simp only [resume, nextStage]
      split
      · exact .plain rfl
      · exact .nil
    | stopping => exact .nil
    | _ => exact .plain rfl
  | _ => exact .nil

/-- Whoever takes note of the end of a callback holds no lock. -/
theorem finish_orderly (w : World) (S : List Frame) (outcome : Outcome) (frame : Frame) :
    Orderly (finish w S outcome frame).events := by
  cases frame with
  | firing task due fired =>
    cases outcome with
    | panicked payload => exact .append (.begins rfl) (.plain rfl)
    | _ => exact .begins rfl
  | handling handler event rest count =>
    cases outcome with
    | panicked payload => exact .plain rfl
    | _ => exact .nil
  | hooking hook body index rest =>
    simp only [finish]
    cases body.finish outcome with
    | returned => exact .nil
    | _ => exact .plain rfl
  | _ => exact .nil

theorem step_orderly {m : Machine} {s : Stepped} (h : m.step? = some s) : Orderly s.events := by
  cases rule_of_step h with
  | command w S c => exact perform_orderly w S c
  | resumes w S r frame => exact resume_orderly w S r frame
  | finishes w S outcome frame => exact finish_orderly w S outcome frame
  | passBegins => exact .holding_single rfl
  | passEnds w S fired => exact w.orderly_endPass fired
  | refused w S event | moved w S event => exact w.orderly_transition event
  | hooksBegin w S event => exact (w.orderly_transition event).append (.holding_single rfl)
  | fires | callsHandler | callsListener => exact .begins rfl
  | deliveryBegins | deliveryEnds | hooksEnd => exact .plain rfl
  | _ => exact .nil

/-- **A move begins and ends with all locks free.** -/
theorem move_orderly {m : Machine} {mv : Move} {s : Stepped} (h : m.move? mv = some s) :
    Orderly s.events := by
  rcases move?_cases h with h | ⟨-, c, -, rfl⟩ | ⟨-, commands, rfl⟩
  · exact step_orderly h
  · exact .nil
  · exact .nil

end Machine

end TickHost
