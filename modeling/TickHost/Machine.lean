import TickHost.World

/-!
# Running commands and callbacks

Callbacks call back: a task may run a pass, a hook may move the session on, a handler may deliver
ticks.  The machine of this module carries out a command one small step at a time, with the
operations under way on a stack, so that every moment between two steps is a state that can be
spoken about, however deep callbacks nest.

The operations that call back are `on_tick` of the scheduler, `dispatch` of the table, `run_hooks`
of the coordinator, `on_lifecycle` of the proxy, and `step` and `run` of the host.

A machine has a focus, which is what it does next, and a stack of frames, each the rest of an
operation that waits for a callback or for a reply.  The innermost frame comes first.

* Replies go to the frame on top (`Machine.resume`).  A repetition whose command is not carried out
  ends there, and the reply to that command is its own.
* A callback that ends, in whatever way, is dealt with by the pass, dispatch or hook pass that
  called it (`Machine.finish`): a failure or a panic becomes a record, and the next callback is
  called.
* A panic passes through the scripts between the command that panics and that call.
-/

namespace TickHost

/-! ## 1. Frames and focus -/

/-- The part of a run of the host that is under way. -/
inductive Stage where
  /-- The session is being brought up. -/
  | starting
  /-- The session is being reported as started. -/
  | started
  /-- A step is being made. -/
  | stepping
  /-- The session is being stopped. -/
  | stopping
  /-- The session is being reported as stopped. -/
  | stopped
  deriving DecidableEq, Repr

/-- The rest of an operation that waits. -/
inductive Frame where
  /-- A script that waits for the reply to one of its commands. -/
  | script (current : Command) (rest : Script)
  /-- A repetition that waits for the reply to one of its commands, with the replies so far, latest
  first. -/
  | loop (left : Nat) (body rest : Script) (replies : List Reply)
  /-- A pass whose action is running. -/
  | firing (task : Task Action) (due : List (Task Action)) (fired : Nat)
  /-- A dispatch whose handler is running. -/
  | handling (handler : Handler) (event : Tick.Event) (rest : List Handler) (count : Nat)
  /-- A hook pass whose hook is running. -/
  | hooking (hook : Lifecycle.Hook) (body : HookBody) (index : Nat) (rest : List Listener)
  /-- The proxy, waiting for the lifecycle's word on an event. -/
  | settling (event : Lifecycle.Event)
  /-- An operation that answers nothing, waiting for another's reply. -/
  | silencing
  /-- A step of the host that waits for a delivery, with the phases yet to be delivered. -/
  | stepping (phases : List Tick.Phase)
  /-- A run of the host that waits for one of its stages. -/
  | running (stage : Stage)
  deriving Repr

/-- Whether the host is busy in this frame. -/
def Frame.holdsHost : Frame → Bool
  | stepping _ | running _ => true
  | _ => false

/-- What a machine does next. -/
inductive Focus where
  /-- Carry out a command. -/
  | command (c : Command)
  /-- Run the commands of a callback. -/
  | script (commands : Script)
  /-- Go on with a repetition. -/
  | looping (left : Nat) (body rest : Script) (replies : List Reply)
  /-- Begin a pass (`on_tick` of the scheduler). -/
  | passing
  /-- Go on with a pass: the tasks yet to fire, and how many have fired. -/
  | firing (due : List (Task Action)) (fired : Nat)
  /-- Begin to deliver a tick (`dispatch`). -/
  | dispatching (event : Tick.Event)
  /-- Go on with a delivery: the handlers yet to be called, and how many there are in all. -/
  | handling (event : Tick.Event) (rest : List Handler) (count : Nat)
  /-- Hand an event to the lifecycle (`handle`). -/
  | moving (event : Lifecycle.Event)
  /-- Go on with a hook pass: the listeners yet to be called, the first of them at `index`. -/
  | hooking (hook : Lifecycle.Hook) (index : Nat) (rest : List Listener)
  /-- Hand an event to the proxy (`on_lifecycle`). -/
  | settling (event : Lifecycle.Event)
  /-- Begin a step of the host (`step`). -/
  | stepping
  /-- A reply is there. -/
  | reply (r : Reply)
  /-- A callback has ended. -/
  | ended (outcome : Outcome)
  deriving Repr

/-- A world, what is done next, and what waits for it. -/
structure Machine where
  /-- The world. -/
  world : World
  /-- What is done next. -/
  focus : Focus
  /-- What waits, innermost first. -/
  stack : List Frame := []
  deriving Repr

/-- A machine with the events of its last step. -/
structure Stepped where
  /-- The machine after the step. -/
  machine : Machine
  /-- What happened in the step. -/
  events : List Event := []
  deriving Repr

namespace Machine

/-! ## 2. Carrying out a command -/

/-- Whether the host is in the middle of a step or a run. -/
def hostBusy (stack : List Frame) : Bool := stack.any Frame.holdsHost

/-- The step that answers a command at once. -/
def answer (w : World) (stack : List Frame) (events : List Event) (r : Reply) : Stepped :=
  ⟨⟨w, .reply r, stack⟩, events⟩

/-- The step that leaves a command to another operation. -/
def turnTo (w : World) (stack : List Frame) (focus : Focus) : Stepped := ⟨⟨w, focus, stack⟩, []⟩

/-- The step that answers a command with a fault. -/
def refuse (w : World) (stack : List Frame) (f : Fault) : Stepped :=
  answer w stack [] (.fault f)

/-- Requests a task whose action is a script.  Without a delay it is due at the next pass
(`schedule_next_tick`). -/
def doSchedule (w : World) (stack : List Frame) (name : String) (delay : Option Int)
    (guarded : Bool) (body : Script) : Stepped :=
  let turn := w.request (delay.getD 0) (.script name guarded body)
  answer turn.world stack turn.events (.ofRequest turn.value)

/-- Carries out a command, or begins to. -/
def perform (w : World) (stack : List Frame) : Command → Stepped
  | .schedule name delay guarded _ body => doSchedule w stack name delay guarded body
  | .fill n delay =>
    let turn := w.fill n delay
    answer turn.world stack turn.events turn.value
  | .runPass => turnTo w stack .passing
  | .cancel id =>
    let turn := w.cancel (.ofNat id)
    answer turn.world stack turn.events (.flag turn.value)
  | .isScheduled id =>
    answer w stack (World.holding .queue []) (.flag (w.scheduler.isScheduled (.ofNat id)))
  | .pending => answer w stack (World.holding .queue []) (.count w.scheduler.pending)
  | .isEmpty => answer w stack (World.holding .queue []) (.flag w.scheduler.queue.isEmpty)
  | .processedTicks => answer w stack [] (.count w.scheduler.processedTicks.toNat)
  | .discard =>
    let turn := w.discard
    answer turn.world stack turn.events (.count turn.value)
  | .tickScheduler _ => turnTo w (.silencing :: stack) .passing
  | .describeScheduler => answer w stack [] (.profile Handler.scheduler.profile)
  | .register name kinds phases body =>
    let turn := w.register (.script name kinds phases body)
    answer turn.world stack turn.events .done
  | .registerScheduler =>
    let turn := w.register .scheduler
    answer turn.world stack turn.events .done
  | .dispatch event => turnTo w stack (.dispatching event)
  | .handlerCount kind => answer w stack [] (.count (w.handlers.count kind))
  | .addListener name kind start stop startFailure stopFailure copies =>
    let turn := w.addListener ⟨name, kind, ⟨start, startFailure⟩, ⟨stop, stopFailure⟩⟩ copies
    answer turn.world stack turn.events .done
  | .handle event => turnTo w stack (.moving event)
  | .notifyStart => turnTo w stack (.moving .started)
  | .notifyStop => turnTo w stack (.moving .stopping)
  | .state => answer w stack (World.holding .session []) (.state w.coordinator.state)
  | .session => answer w stack (World.holding .session []) (.count w.coordinator.session)
  | .listenerCount =>
    answer w stack (World.holding .listeners []) (.count w.coordinator.listeners.length)
  | .proxyTick event =>
    if w.proxy.isNone then refuse w stack .noProxy
    else turnTo w (.silencing :: stack) (.dispatching event)
  | .proxyLifecycle event =>
    if w.proxy.isNone then refuse w stack .noProxy else turnTo w stack (.settling event)
  | .config =>
    match w.proxy with
    | none => refuse w stack .noProxy
    | some config => answer w stack [] (.config config)
  | .step =>
    if w.host.isNone || hostBusy stack then refuse w stack .noHost else turnTo w stack .stepping
  | .run ticks =>
    if w.host.isNone || hostBusy stack then refuse w stack .noHost
    else turnTo (w.startRun ticks) (.running .starting :: stack) (.settling .starting)
  | .stop => answer w.stopHost stack [] .done
  | .samples =>
    match w.host with
    | none => refuse w stack .noHost
    | some host => answer w stack [] (.ofSampler host.sampler)
  | .exit outcome => turnTo w stack (.ended outcome)
  | .repeat n body =>
    turnTo w stack (if body.isEmpty then .reply (.all []) else .looping n body [] [])
  | .malformed _ reason needsProxy =>
    refuse w stack (if needsProxy && w.proxy.isNone then .noProxy else .malformed reason)

/-! ## 3. Replies -/

/-- The stage of a run that follows a finished one (`run`).  A run goes on stepping until it is told
to stop, and whether it was told is looked at after each step: it makes its first step also when a
start hook has told it to stop already.  At that moment both the clock of the host and its token are
ready, and which is taken is open; it is assumed here that it is the clock. -/
def nextStage (w : World) (stack : List Frame) : Stage → Stepped
  | .starting =>
    ⟨⟨w, .settling .started, .running .started :: stack⟩, [.logged .hostStarting]⟩
  | .started =>
    ⟨⟨w, .stepping, .running .stepping :: stack⟩, [.logged (.hostStarted w.tickRate)]⟩
  | .stepping =>
    if w.isCancelled then
      ⟨⟨w, .settling .stopping, .running .stopping :: stack⟩, [.logged (.hostStopping w.ticks)]⟩
    else turnTo w (.running .stepping :: stack) .stepping
  | .stopping => turnTo w (.running .stopped :: stack) (.settling .stopped)
  | .stopped => answer w.endRun stack [.logged .hostStopped] (.count w.ticks)

/-- Hands a reply to the frame that waits for it. -/
def resume (w : World) (stack : List Frame) (r : Reply) : Frame → Stepped
  | .script current rest =>
    let events := [.replied current.word r]
    match current.ending? r with
    | some outcome => ⟨⟨w, .ended outcome, stack⟩, events⟩
    | none => ⟨⟨w, .script rest, stack⟩, events⟩
  | .loop left body rest replies =>
    if r.isFault then turnTo w stack (.reply r)
    else turnTo w stack (.looping left body rest (r :: replies))
  | .handling _ event rest count => turnTo w stack (.handling event rest count)
  | .settling event =>
    match r with
    | .flag true =>
      if w.discardsOn event then
        let turn := w.dropLeftovers
        answer turn.world stack turn.events .done
      else answer w stack [] .done
    | _ => answer w stack [] .done
  | .silencing => answer w stack [] .done
  | .stepping (phase :: phases) =>
    turnTo w (.stepping phases :: stack) (.dispatching (.server phase w.ticks))
  | .stepping [] => answer w stack [] (.count w.ticks)
  | .running stage => nextStage w stack stage
  | .firing task due fired => turnTo w (.firing task due fired :: stack) (.ended .returned)
  | .hooking hook body index rest =>
    turnTo w (.hooking hook body index rest :: stack) (.ended .returned)

/-! ## 4. Callbacks that have ended -/

/-- The record of an action that did not return (`on_tick`). -/
def taskRecords (h : Handle) : Outcome → List Event
  | .panicked payload => [.logged (.taskPanicked h payload)]
  | _ => []

/-- The record of a handler that did not return (`dispatch`). -/
def handlerRecords (handler : Handler) (event : Tick.Event) : Outcome → List Event
  | .panicked payload => [.logged (.handlerPanicked handler.name event payload)]
  | _ => []

/-- The record of a hook that did not return, or returned a failure (`run_hooks`). -/
def hookRecords (index : Nat) (hook : Lifecycle.Hook) : Outcome → List Event
  | .returned => []
  | .failed failure => [.logged (.hookFailed index hook failure)]
  | .panicked payload => [.logged (.hookPanicked index hook payload)]

/-- Hands the end of a callback to the operation that has called it.  Anything in between is left
behind. -/
def finish (w : World) (stack : List Frame) (outcome : Outcome) : Frame → Stepped
  | .firing task due fired =>
    ⟨⟨w, .firing due fired, stack⟩,
      .released (some task.handle) task.action :: taskRecords task.handle outcome⟩
  | .handling handler event rest count =>
    ⟨⟨w, .handling event rest count, stack⟩, handlerRecords handler event outcome⟩
  | .hooking hook body index rest =>
    ⟨⟨w, .hooking hook (index + 1) rest, stack⟩, hookRecords index hook (body.finish outcome)⟩
  | _ => turnTo w stack (.ended outcome)

/-! ## 5. Calling handlers and listeners -/

/-- Calls a handler. -/
def call (w : World) (stack : List Frame) (handler : Handler) (event : Tick.Event)
    (rest : List Handler) (count : Nat) : Machine :=
  match handler with
  | .scheduler => ⟨w, .passing, .handling handler event rest count :: stack⟩
  | .sampler => ⟨w.sample event.phase, .handling event rest count, stack⟩
  | .runLimit => ⟨w.checkLimit event.number, .handling event rest count, stack⟩
  | .script _ _ _ body => ⟨w, .script body, .handling handler event rest count :: stack⟩

/-- Calls a listener; one that has no such hook is passed over. -/
def notify (w : World) (stack : List Frame) (listener : Listener) (hook : Lifecycle.Hook)
    (index : Nat) (rest : List Listener) : Machine :=
  match listener.hook? hook with
  | some body => ⟨w, .script body.script, .hooking hook body index rest :: stack⟩
  | none => ⟨w, .hooking hook (index + 1) rest, stack⟩

/-! ## 6. Steps -/

/-- One step, unless the machine has stopped: a reply or an end for which nothing waits is its
result. -/
def step? (m : Machine) : Option Stepped :=
  let w := m.world
  let stack := m.stack
  match m.focus with
  | .command c => some (perform w stack c)
  | .script [] => some (turnTo w stack (.ended .returned))
  | .script (c :: rest) => some (turnTo w (.script c rest :: stack) (.command c))
  | .looping left body (c :: rest) replies =>
    some (turnTo w (.loop left body rest replies :: stack) (.command c))
  | .looping (left + 1) body [] replies => some (turnTo w stack (.looping left body body replies))
  | .looping 0 _ [] replies => some (turnTo w stack (.reply (.all replies.reverse)))
  | .passing =>
    let turn := w.beginPass
    some ⟨⟨turn.world, .firing turn.value 0, stack⟩, turn.events⟩
  | .firing (task :: due) fired =>
    some ⟨⟨w, .script task.action.body, .firing task due (fired + 1) :: stack⟩,
      [.fired task.handle task.action]⟩
  | .firing [] fired =>
    let turn := w.endPass fired
    some (answer turn.world stack turn.events (.count turn.value))
  | .dispatching event =>
    let targets := w.targets event
    some ⟨⟨w, .handling event targets targets.length, stack⟩, [.delivered event]⟩
  | .handling event (handler :: rest) count =>
    some ⟨call w stack handler event rest count, [.handled handler event]⟩
  | .handling event [] count =>
    some (answer w stack [.deliveryEnded event count] (.count count))
  | .moving event =>
    let turn := w.transition event
    match turn.value with
    | .refused => some (answer turn.world stack turn.events (.flag false))
    | .moved => some (answer turn.world stack turn.events (.flag true))
    | .hooks hook =>
      let hooks := turn.world.beginHooks hook
      some ⟨⟨hooks.world, .hooking hook 0 hooks.value, stack⟩, turn.events ++ hooks.events⟩
  | .hooking hook index (listener :: rest) =>
    some ⟨notify w stack listener hook index rest, [.called hook index listener]⟩
  | .hooking hook _ [] => some (answer w stack [.notifyEnded hook] (.flag true))
  | .settling event => some (turnTo w (.settling event :: stack) (.moving event))
  | .stepping =>
    let w := w.nextTick
    some (turnTo w (.stepping [.finish] :: stack) (.dispatching (.server .start w.ticks)))
  | .reply r =>
    match stack with
    | [] => none
    | frame :: stack => some (resume w stack r frame)
  | .ended outcome =>
    match stack with
    | [] => none
    | frame :: stack => some (finish w stack outcome frame)

/-! ## 7. Runs -/

/-- Runs a machine for at most `fuel` steps.  The trace is put after `trace`, in the order of the
events; a machine that has not stopped by then gives nothing. -/
def run : Nat → Machine → Array Event → Option (Machine × Array Event)
  | 0, _, _ => none
  | fuel + 1, m, trace =>
    match m.step? with
    | none => some (m, trace)
    | some stepped => run fuel stepped.machine (trace ++ stepped.events)

end Machine

end TickHost
