import TickHost.Tick
import TickHost.Outcome
import TickHost.Lifecycle

/-!
# Commands and the callbacks made of them

User code is a script: a finite list of commands.  The same commands are given from outside and from
within callbacks, so that a task may schedule tasks, a hook may drive the lifecycle and a handler
may register handlers.
-/

namespace TickHost

/-! ## 1. Commands -/

/-- Which hooks of a listener are its own. -/
inductive ListenerKind where
  /-- Both hooks. -/
  | both
  /-- The start hook. -/
  | onStart
  /-- The stop hook. -/
  | onStop
  /-- Neither hook. -/
  | silent
  deriving DecidableEq, Repr

/-- What a script does when one of its requests is refused. -/
inductive OnRefusal where
  /-- It goes on. -/
  | goOn
  /-- It ends with the refusal as its failure. -/
  | fail
  /-- It returns. -/
  | leave
  deriving DecidableEq, Repr

/-- A strict request fails the script it stands in, any other is passed over. -/
instance : Coe Bool OnRefusal := ⟨fun strict => if strict then .fail else .goOn⟩

/-- How a script ends at a refusal, if it ends there. -/
def OnRefusal.ending? : OnRefusal → Failure → Option Outcome
  | goOn, _ => none
  | fail, failure => some (.failed failure)
  | leave, _ => some .returned

/-- A command to the scheduler, the handlers, the session or the host. -/
inductive Command where
  /-- Request a task.  With no delay it is due at the next pass.  A `guarded` task shows when its
  action is released. -/
  | schedule (name : String) (delay : Option Int) (guarded : Bool) (onRefusal : OnRefusal)
      (body : List Command)
  /-- Request `n` idle tasks of one delay, up to the first refusal. -/
  | fill (n : Nat) (delay : Int)
  /-- Run a pass of the scheduler. -/
  | runPass
  /-- Cancel a pending task. -/
  | cancel (id : Nat)
  /-- Ask whether a task is pending. -/
  | isScheduled (id : Nat)
  /-- Ask how many tasks are pending. -/
  | pending
  /-- Ask whether no task is pending. -/
  | isEmpty
  /-- Ask how many passes were completed. -/
  | processedTicks
  /-- Drop every pending task. -/
  | discard
  /-- Deliver a tick to the scheduler alone. -/
  | tickScheduler (event : Tick.Event)
  /-- Ask how the scheduler presents itself as a handler. -/
  | describeScheduler
  /-- Register a handler. -/
  | register (name : String) (kinds : List Tick.Kind) (phases : List Tick.Phase)
      (body : List Command)
  /-- Register the scheduler as a handler. -/
  | registerScheduler
  /-- Deliver a tick to the registered handlers. -/
  | dispatch (event : Tick.Event)
  /-- Ask how many handlers a kind of tick has. -/
  | handlerCount (kind : Tick.Kind)
  /-- Add a listener, `copies` times.  A hook runs its script and then fails if it has a failure. -/
  | addListener (name : String) (kind : ListenerKind) (start stop : List Command)
      (startFailure stopFailure : Option Failure) (copies : Nat)
  /-- Hand an event to the lifecycle. -/
  | handle (event : Lifecycle.Event)
  /-- Report that the session has started. -/
  | notifyStart
  /-- Report that the session is to stop. -/
  | notifyStop
  /-- Ask for the state of the session. -/
  | state
  /-- Ask for the number of the session. -/
  | session
  /-- Ask how many listeners there are. -/
  | listenerCount
  /-- Hand a tick to the proxy. -/
  | proxyTick (event : Tick.Event)
  /-- Hand a lifecycle event to the proxy. -/
  | proxyLifecycle (event : Lifecycle.Event)
  /-- Ask for the configuration of the proxy. -/
  | config
  /-- Let the host make one step. -/
  | step
  /-- Let the host run for a number of ticks. -/
  | run (ticks : Nat)
  /-- Stop the host. -/
  | stop
  /-- Ask for the samples of the host. -/
  | samples
  /-- End the callback at once, in this way. -/
  | exit (outcome : Outcome)
  /-- Run the commands of `body` over and over, `n` times, unless one of them is not carried out. -/
  | repeat (n : Nat) (body : List Command)
  /-- A command that cannot be read, and what is wrong with it.  One that needs a proxy is held to
  that first. -/
  | malformed (word reason : String) (needsProxy : Bool)
  deriving Inhabited, Repr

namespace Command

/-- Panic. -/
def panic (payload : Payload) : Command := exit (.panicked payload)

/-- The word that names a command. -/
def word : Command → String
  | schedule .. => "schedule"
  | fill .. => "fill"
  | runPass => "on_tick"
  | cancel _ => "cancel"
  | isScheduled _ => "is_scheduled"
  | pending => "len"
  | isEmpty => "is_empty"
  | processedTicks => "processed_ticks"
  | discard => "discard"
  | tickScheduler _ => "scheduler_tick"
  | describeScheduler => "scheduler_info"
  | register .. => "register"
  | registerScheduler => "register_scheduler"
  | dispatch _ => "dispatch"
  | handlerCount _ => "handler_count"
  | addListener .. => "add_listener"
  | handle _ => "handle"
  | notifyStart => "notify_start"
  | notifyStop => "notify_stop"
  | state => "state"
  | session => "session"
  | listenerCount => "listener_count"
  | proxyTick _ => "tick"
  | proxyLifecycle _ => "lifecycle"
  | config => "config"
  | step => "step"
  | run _ => "run"
  | stop => "stop"
  | samples => "stats"
  | exit _ => "exit"
  | .repeat .. => "repeat"
  | malformed word .. => word

/-- What the script it stands in does when this command is refused. -/
def onRefusal : Command → OnRefusal
  | schedule _ _ _ onRefusal _ => onRefusal
  | _ => .goOn

end Command

/-- The commands of a callback, in the order they run. -/
abbrev Script : Type := List Command

/-! ## 2. Callbacks -/

/-- What a task does when it fires (`TaskAction`). -/
inductive Action where
  /-- Nothing. -/
  | idle
  /-- Run a script; a `guarded` action shows when it is released. -/
  | script (name : String) (guarded : Bool) (body : Script)
  deriving Repr

/-- The commands that an action runs. -/
def Action.body : Action → Script
  | idle => []
  | script _ _ body => body

/-- Something that is called on ticks (`TickHandler`). -/
inductive Handler where
  /-- The scheduler: a pass at the end of every server tick. -/
  | scheduler
  /-- The sampler of a host, on both halves of every server tick. -/
  | sampler
  /-- The limit of a host's run, at the end of every server tick. -/
  | runLimit
  /-- A script on ticks of some kinds, in some phases. -/
  | script (name : String) (kinds : List Tick.Kind) (phases : List Tick.Phase) (body : Script)
  deriving Repr

namespace Handler

/-- The name of a handler in records (`name`). -/
def name : Handler → String
  | scheduler => "deferred-scheduler"
  | sampler => "tick-stats"
  | runLimit => "run-limit"
  | script name .. => name

/-- The kinds of tick a handler is registered for (`handled_kinds`). -/
def kinds : Handler → List Tick.Kind
  | script _ kinds .. => kinds
  | _ => [.server]

/-- Whether a handler is called in a phase (`can_fire`). -/
def accepts : Handler → Tick.Phase → Bool
  | scheduler, phase | runLimit, phase => phase == .finish
  | sampler, _ => true
  | script _ _ phases _, phase => phases.contains phase

end Handler

/-- How a handler presents itself. -/
structure Profile where
  /-- Its name. -/
  name : String
  /-- The kinds of tick it is for. -/
  kinds : List Tick.Kind
  /-- Whether it is called at the start of a tick. -/
  atStart : Bool
  /-- Whether it is called at the end of a tick. -/
  atEnd : Bool
  deriving DecidableEq, Repr

/-- The profile of a handler. -/
def Handler.profile (h : Handler) : Profile :=
  ⟨h.name, h.kinds, h.accepts .start, h.accepts .finish⟩

/-- What a hook does: a script, and then a failure, if it has one. -/
structure HookBody where
  /-- The commands of the hook. -/
  script : Script
  /-- How the hook fails once its script is done. -/
  failure : Option Failure
  deriving Repr

/-- How a hook ends whose script has ended: a script that returns gives way to the failure of the
hook. -/
def HookBody.finish (b : HookBody) : Outcome → Outcome
  | .returned => match b.failure with
    | some failure => .failed failure
    | none => .returned
  | outcome => outcome

/-- Someone who is told when sessions start and stop (`ServerLifecycleListener`). -/
structure Listener where
  /-- The name of the listener. -/
  name : String
  /-- Which hooks are its own. -/
  kind : ListenerKind
  /-- What it does on start. -/
  start : HookBody
  /-- What it does on stop. -/
  stop : HookBody
  deriving Repr

/-- What a listener does in a hook, if that hook is its own (`on_server_start`, `on_server_stop`;
the adapters `on_start` and `on_stop` have one each). -/
def Listener.hook? (l : Listener) : Lifecycle.Hook → Option HookBody
  | .start => match l.kind with
    | .both | .onStart => some l.start
    | .onStop | .silent => none
  | .stop => match l.kind with
    | .both | .onStop => some l.stop
    | .onStart | .silent => none

end TickHost
