import TickHost.Proofs.Run

/-!
# The rules for steps

The step function looks at the focus first and then at what the focus holds.  For proofs it is
better to have it the other way round: one rule for each kind of step, with what the machine looks
like before it.  The rules allow the steps that the function makes and no others
(`step?_eq_some_iff`).
-/

namespace TickHost

namespace Machine

/-- **The steps of a machine**, one rule for each kind. -/
inductive Rule : Machine → Stepped → Prop
  /-- A command is carried out, or begun. -/
  | command (w : World) (S : List Frame) (c : Command) : Rule ⟨w, .command c, S⟩ (perform w S c)
  /-- A script is at its end. -/
  | scriptEnds (w : World) (S : List Frame) :
      Rule ⟨w, .script [], S⟩ (turnTo w S (.ended .returned))
  /-- A script gives its next command. -/
  | scriptGoesOn (w : World) (S : List Frame) (c : Command) (rest : Script) :
      Rule ⟨w, .script (c :: rest), S⟩ (turnTo w (.script c rest :: S) (.command c))
  /-- A repetition gives its next command. -/
  | loopGoesOn (w : World) (S : List Frame) (left : Nat) (body : Script) (c : Command)
      (rest : Script) (replies : List Reply) :
      Rule ⟨w, .looping left body (c :: rest) replies, S⟩
        (turnTo w (.loop left body rest replies :: S) (.command c))
  /-- A repetition begins anew. -/
  | loopBeginsAnew (w : World) (S : List Frame) (left : Nat) (body : Script)
      (replies : List Reply) :
      Rule ⟨w, .looping (left + 1) body [] replies, S⟩
        (turnTo w S (.looping left body body replies))
  /-- A repetition is at its end. -/
  | loopEnds (w : World) (S : List Frame) (body : Script) (replies : List Reply) :
      Rule ⟨w, .looping 0 body [] replies, S⟩ (turnTo w S (.reply (.all replies.reverse)))
  /-- A pass begins. -/
  | passBegins (w : World) (S : List Frame) :
      Rule ⟨w, .passing, S⟩
        ⟨⟨w.beginPass.world, .firing w.beginPass.value 0, S⟩, w.beginPass.events⟩
  /-- A pass fires its next task. -/
  | fires (w : World) (S : List Frame) (task : Task Action) (due : List (Task Action))
      (fired : Nat) :
      Rule ⟨w, .firing (task :: due) fired, S⟩
        ⟨⟨w, .script task.action.body, .firing task due (fired + 1) :: S⟩,
          [.fired task.handle task.action]⟩
  /-- A pass ends. -/
  | passEnds (w : World) (S : List Frame) (fired : Nat) :
      Rule ⟨w, .firing [] fired, S⟩
        (answer (w.endPass fired).world S (w.endPass fired).events
          (.count (w.endPass fired).value))
  /-- A delivery begins. -/
  | deliveryBegins (w : World) (S : List Frame) (event : Tick.Event) :
      Rule ⟨w, .dispatching event, S⟩
        ⟨⟨w, .handling event (w.targets event) (w.targets event).length, S⟩, [.delivered event]⟩
  /-- A delivery calls its next handler. -/
  | callsHandler (w : World) (S : List Frame) (event : Tick.Event) (handler : Handler)
      (rest : List Handler) (count : Nat) :
      Rule ⟨w, .handling event (handler :: rest) count, S⟩
        ⟨call w S handler event rest count, [.handled handler event]⟩
  /-- A delivery ends. -/
  | deliveryEnds (w : World) (S : List Frame) (event : Tick.Event) (count : Nat) :
      Rule ⟨w, .handling event [] count, S⟩
        (answer w S [.deliveryEnded event count] (.count count))
  /-- The lifecycle refuses an event. -/
  | refused (w : World) (S : List Frame) (event : Lifecycle.Event)
      (h : (w.transition event).value = .refused) :
      Rule ⟨w, .moving event, S⟩
        (answer (w.transition event).world S (w.transition event).events (.flag false))
  /-- The lifecycle accepts an event that calls nobody. -/
  | moved (w : World) (S : List Frame) (event : Lifecycle.Event)
      (h : (w.transition event).value = .moved) :
      Rule ⟨w, .moving event, S⟩
        (answer (w.transition event).world S (w.transition event).events (.flag true))
  /-- The lifecycle accepts an event, and a hook pass begins. -/
  | hooksBegin (w : World) (S : List Frame) (event : Lifecycle.Event) (hook : Lifecycle.Hook)
      (h : (w.transition event).value = .hooks hook) :
      Rule ⟨w, .moving event, S⟩
        ⟨⟨((w.transition event).world.beginHooks hook).world,
          .hooking hook 0 ((w.transition event).world.beginHooks hook).value, S⟩,
          (w.transition event).events ++ ((w.transition event).world.beginHooks hook).events⟩
  /-- A hook pass calls its next listener. -/
  | callsListener (w : World) (S : List Frame) (hook : Lifecycle.Hook) (index : Nat)
      (listener : Listener) (rest : List Listener) :
      Rule ⟨w, .hooking hook index (listener :: rest), S⟩
        ⟨notify w S listener hook index rest, [.called hook index listener]⟩
  /-- A hook pass ends. -/
  | hooksEnd (w : World) (S : List Frame) (hook : Lifecycle.Hook) (index : Nat) :
      Rule ⟨w, .hooking hook index [], S⟩ (answer w S [.notifyEnded hook] (.flag true))
  /-- The proxy hands an event to the lifecycle. -/
  | settles (w : World) (S : List Frame) (event : Lifecycle.Event) :
      Rule ⟨w, .settling event, S⟩ (turnTo w (.settling event :: S) (.moving event))
  /-- A step of the host begins. -/
  | hostSteps (w : World) (S : List Frame) :
      Rule ⟨w, .stepping, S⟩
        (turnTo w.nextTick (.stepping [.finish] :: S)
          (.dispatching (.server .start w.nextTick.ticks)))
  /-- A reply goes to the frame that waits for it. -/
  | resumes (w : World) (S : List Frame) (r : Reply) (frame : Frame) :
      Rule ⟨w, .reply r, frame :: S⟩ (resume w S r frame)
  /-- The end of a callback goes to the frame on top. -/
  | finishes (w : World) (S : List Frame) (outcome : Outcome) (frame : Frame) :
      Rule ⟨w, .ended outcome, frame :: S⟩ (finish w S outcome frame)

theorem rule_of_step {m : Machine} {s : Stepped} (h : m.step? = some s) : Rule m s := by
  obtain ⟨w, focus, stack⟩ := m
  cases focus with
  | command c => obtain rfl := Option.some.inj h; exact .command w stack c
  | script commands =>
    cases commands with
    | nil => obtain rfl := Option.some.inj h; exact .scriptEnds w stack
    | cons c rest => obtain rfl := Option.some.inj h; exact .scriptGoesOn w stack c rest
  | looping left body rest replies =>
    cases rest with
    | cons c rest => obtain rfl := Option.some.inj h; exact .loopGoesOn w stack left body c rest _
    | nil =>
      cases left with
      | zero => obtain rfl := Option.some.inj h; exact .loopEnds w stack body replies
      | succ left => obtain rfl := Option.some.inj h; exact .loopBeginsAnew w stack left body _
  | passing => obtain rfl := Option.some.inj h; exact .passBegins w stack
  | firing due fired =>
    cases due with
    | nil => obtain rfl := Option.some.inj h; exact .passEnds w stack fired
    | cons task due => obtain rfl := Option.some.inj h; exact .fires w stack task due fired
  | dispatching event => obtain rfl := Option.some.inj h; exact .deliveryBegins w stack event
  | handling event rest count =>
    cases rest with
    | nil => obtain rfl := Option.some.inj h; exact .deliveryEnds w stack event count
    | cons handler rest => obtain rfl := Option.some.inj h; exact .callsHandler w stack event _ _ _
  | moving event =>
    simp only [step?] at h
    split at h
    · rename_i hvalue
      obtain rfl := Option.some.inj h
      exact .refused w stack event hvalue
    · rename_i hvalue
      obtain rfl := Option.some.inj h
      exact .moved w stack event hvalue
    · rename_i hook hvalue
      obtain rfl := Option.some.inj h
      exact .hooksBegin w stack event hook hvalue
  | hooking hook index rest =>
    cases rest with
    | nil => obtain rfl := Option.some.inj h; exact .hooksEnd w stack hook index
    | cons listener rest => obtain rfl := Option.some.inj h; exact .callsListener w stack _ _ _ _
  | settling event => obtain rfl := Option.some.inj h; exact .settles w stack event
  | stepping => obtain rfl := Option.some.inj h; exact .hostSteps w stack
  | reply r =>
    cases stack with
    | nil => cases h
    | cons frame stack => obtain rfl := Option.some.inj h; exact .resumes w stack r frame
  | ended outcome =>
    cases stack with
    | nil => cases h
    | cons frame stack => obtain rfl := Option.some.inj h; exact .finishes w stack outcome frame

/-- **The rules are those of the step function.** -/
theorem step?_eq_some_iff {m : Machine} {s : Stepped} : m.step? = some s ↔ Rule m s := by
  constructor
  · exact rule_of_step
  · intro h
    cases h with
    | refused w S event h | moved w S event h => simp only [step?, h]
    | hooksBegin w S event hook h => simp only [step?, h]
    | _ => rfl

end Machine

end TickHost
