import TickHost.Proofs.Steps.RollCalls

/-!
# Steps and rounds of calls

Three operations call user code: a pass, a delivery and a hook pass.  Each settles when it begins
whom it will call, then calls one after the other, and answers once it has called the last.  Here
the three are one: a round has calls ahead, and an answer that it will give.

`Machine.round?` is the round that begins next, `Focus.round?` one that is gone on with, and
`Frame.round?` one that waits for a callback.  A round begins with all its calls ahead, makes the
next one, gets its callback back, and ends when none is left; that is all it does (`round_begins`,
`round_calls`, `round_back`, `round_ends`).
-/

namespace TickHost

/-! ## 1. Rounds -/

/-- The rest of an operation that calls one callback after the other. -/
structure Round where
  /-- The calls yet to be made, in order. -/
  ahead : List Event
  /-- What the operation answers in the end. -/
  answer : Reply

/-- Whether an event is a call. -/
def Event.isCall : Event → Bool
  | fired .. | handled .. | called .. => true
  | _ => false

/-- The call that lets a task run. -/
def Task.call (task : Task Action) : Event := .fired task.handle task.action

/-- The calls of a hook pass to these listeners, the first of them at `index`. -/
def roll (hook : Lifecycle.Hook) (index : Nat) (listeners : List Listener) : List Event :=
  (listeners.zipIdx index).map fun (listener, i) => .called hook i listener

@[simp] theorem roll_cons (hook : Lifecycle.Hook) (index : Nat) (listener : Listener)
    (listeners : List Listener) : roll hook index (listener :: listeners) =
      .called hook index listener :: roll hook (index + 1) listeners := rfl

/-- The round that is gone on with. -/
def Focus.round? : Focus → Option Round
  | firing due fired => some ⟨due.map Task.call, .count (fired + due.length)⟩
  | handling event rest count => some ⟨rest.map (.handled · event), .count count⟩
  | hooking hook index rest => some ⟨roll hook index rest, .flag true⟩
  | _ => none

namespace Frame

/-- The round that waits in a frame. -/
def round? : Frame → Option Round
  | firing _ due fired => some ⟨due.map Task.call, .count (fired + due.length)⟩
  | handling _ event rest count => some ⟨rest.map (.handled · event), .count count⟩
  | hooking hook _ index rest => some ⟨roll hook (index + 1) rest, .flag true⟩
  | _ => none

/-- The callback that a frame waits for was called so. -/
def CalledBy : Frame → Event → Prop
  | firing task .., e => e = task.call
  | handling handler event .., e => e = .handled handler event
  | hooking hook body index _, e =>
    ∃ listener, listener.hook? hook = some body ∧ e = .called hook index listener
  | _, _ => False

end Frame

namespace Machine

/-- The round that begins next. -/
def round? (m : Machine) : Option Round :=
  match m.focus with
  | .passing => some ⟨m.world.scheduler.due.map Task.call, .count m.world.scheduler.due.length⟩
  | .dispatching event =>
    some ⟨(m.world.targets event).map (.handled · event), .count (m.world.targets event).length⟩
  | .moving event =>
    match (m.world.transition event).value with
    | .hooks hook => some ⟨roll hook 0 m.listeners, .flag true⟩
    | _ => none
  | _ => none

end Machine

/-! ## 2. Moves -/

/-- What goes on with a round is no end of anything. -/
theorem Focus.isFinal_of_round {f : Focus} {r : Round} (h : f.round? = some r) :
    f.isFinal = false := by
  cases f <;> first | rfl | cases h

theorem Machine.isFinal_of_round {m : Machine} {r : Round} (h : m.round? = some r) :
    m.focus.isFinal = false := by
  obtain ⟨w, focus, stack⟩ := m
  cases focus <;> first | rfl | cases h

/-- Handing an event to the lifecycle calls nobody yet. -/
theorem World.filter_isCall_transition (w : World) (event : Lifecycle.Event) :
    (w.transition event).events.filter Event.isCall = [] := by
  refine List.filter_eq_nil_iff.mpr fun e he => ?_
  have htopic := w.about_transition event e he
  cases e <;> first | exact Bool.false_ne_true | cases htopic

namespace Machine

variable {m : Machine} {mv : Move} {s : Stepped} {r : Round}

theorem step_of_begins (h : m.move? mv = some s) (hround : m.round? = some r) :
    m.step? = some s := by
  refine step_of_move h ?_ ?_
  · rw [isIdle, isFinal_of_round hround, Bool.and_false]
  · intro commands hfocus
    rw [round?, hfocus] at hround
    cases hround

theorem step_of_round (h : m.move? mv = some s) (hround : m.focus.round? = some r) :
    m.step? = some s := by
  refine step_of_move h ?_ ?_
  · rw [isIdle, Focus.isFinal_of_round hround, Bool.and_false]
  · intro commands hfocus
    rw [hfocus] at hround
    cases hround

/-- A round begins with all its calls ahead. -/
theorem round_begins (h : m.move? mv = some s) (hround : m.round? = some r) :
    s.machine.focus.round? = some r ∧ s.machine.stack = m.stack ∧
      s.events.filter Event.isCall = [] := by
  have hstep := step_of_begins h hround
  obtain ⟨w, focus, stack⟩ := m
  cases focus with
  | passing =>
    obtain rfl := Option.some.inj hround
    obtain rfl := Option.some.inj hstep
    refine ⟨?_, rfl, rfl⟩
    simp only [Focus.round?, Nat.zero_add]
    rfl
  | dispatching event =>
    obtain rfl := Option.some.inj hround
    obtain rfl := Option.some.inj hstep
    exact ⟨rfl, rfl, rfl⟩
  | moving event =>
    simp only [round?] at hround
    split at hround
    · rename_i hook hvalue
      obtain rfl := Option.some.inj hround
      simp only [step?, hvalue] at hstep
      obtain rfl := Option.some.inj hstep
      refine ⟨?_, rfl, ?_⟩
      · simp only [Focus.round?, World.beginHooks, w.transition_listeners event]
        rfl
      · rw [List.filter_append, w.filter_isCall_transition event]
        rfl
    · cases hround
  | _ => cases hround

/-- A round that has calls ahead makes the next one.  Either the callback runs on top of a frame in
which the rest waits, or there is nothing to run. -/
theorem round_calls (h : m.move? mv = some s) {e : Event} {rest : List Event} {answer : Reply}
    (hround : m.focus.round? = some ⟨e :: rest, answer⟩) :
    s.events.filter Event.isCall = [e] ∧
      ((s.machine.stack = m.stack ∧ s.machine.focus.round? = some ⟨rest, answer⟩) ∨
        ∃ frame, s.machine.stack = frame :: m.stack ∧ frame.round? = some ⟨rest, answer⟩ ∧
          frame.CalledBy e) := by
  have hstep := step_of_round h hround
  obtain ⟨w, focus, stack⟩ := m
  cases focus with
  | firing due fired =>
    cases due with
    | nil => cases hround
    | cons task due =>
      cases hround
      obtain rfl := Option.some.inj hstep
      refine ⟨rfl, Or.inr ⟨_, rfl, ?_, rfl⟩⟩
      rw [Frame.round?, Nat.add_right_comm]
      rfl
  | handling event targets count =>
    cases targets with
    | nil => cases hround
    | cons handler targets =>
      cases hround
      obtain rfl := Option.some.inj hstep
      refine ⟨rfl, ?_⟩
      cases handler with
      | sampler | runLimit => exact Or.inl ⟨rfl, rfl⟩
      | scheduler | script => exact Or.inr ⟨_, rfl, rfl, rfl⟩
  | hooking hook index listeners =>
    cases listeners with
    | nil => cases hround
    | cons listener listeners =>
      cases hround
      obtain rfl := Option.some.inj hstep
      refine ⟨rfl, ?_⟩
      simp only [notify]
      split
      · rename_i body hbody
        exact Or.inr ⟨_, rfl, rfl, listener, hbody, rfl⟩
      · exact Or.inl ⟨rfl, rfl⟩
  | _ => cases hround

/-- A round that has called the last one answers. -/
theorem round_ends (h : m.move? mv = some s) {answer : Reply}
    (hround : m.focus.round? = some ⟨[], answer⟩) :
    s.machine.focus = .reply answer ∧ s.machine.stack = m.stack ∧
      s.events.filter Event.isCall = [] := by
  have hstep := step_of_round h hround
  obtain ⟨w, focus, stack⟩ := m
  cases focus with
  | firing due fired =>
    cases due with
    | nil =>
      cases hround
      obtain rfl := Option.some.inj hstep
      refine ⟨rfl, rfl, ?_⟩
      simp only [answer, World.endPass]
      split <;> rfl
    | cons task due => cases hround
  | handling event targets count =>
    cases targets with
    | nil =>
      cases hround
      obtain rfl := Option.some.inj hstep
      exact ⟨rfl, rfl, rfl⟩
    | cons handler targets => cases hround
  | hooking hook index listeners =>
    cases listeners with
    | nil =>
      cases hround
      obtain rfl := Option.some.inj hstep
      exact ⟨rfl, rfl, rfl⟩
    | cons listener listeners => cases hround
  | _ => cases hround

/-- A round that waits gets its callback back, with a reply or with an end: then it goes on, or still
waits. -/
theorem round_back {above S : List Frame} {frame : Frame} (h : m.move? mv = some s)
    (hstack : m.stack = above ++ frame :: S) (hround : frame.round? = some r) :
    (∃ above', s.machine.stack = above' ++ frame :: S) ∨
      s.machine.stack = S ∧ s.machine.focus.round? = some r := by
  rcases move_under h hstack with hs | ⟨reply, -, rfl⟩ | ⟨outcome, -, rfl⟩
  · exact Or.inl hs
  · cases frame with
    | firing | hooking => exact Or.inl ⟨[], rfl⟩
    | handling => exact Or.inr ⟨rfl, hround⟩
    | _ => cases hround
  · cases frame with
    | firing | handling | hooking => exact Or.inr ⟨rfl, hround⟩
    | _ => cases hround

end Machine

end TickHost
