import TickHost.Coordinator
import TickHost.HandlerTable
import TickHost.Trace

/-!
# The world that commands act on

A scheduler, a table of tick handlers and a coordinator of sessions, wired together by a proxy and
driven by a host when there are such (`CommonProxy`, `EmberHost`).  Each operation here is one that
runs no callback of its own: it gives the next world, the events it leaves in the trace, and a
value.
-/

namespace TickHost

/-! ## 1. The state -/

/-- A host: how far it has come, what it has sampled, and when it is to stop (`EmberHost`). -/
structure Host where
  /-- How many steps it has made (`tick_count`).  A counter of 64 bits holds it: it is meant to be
  less than `2 ^ 64`. -/
  ticks : Nat := 0
  /-- The samples of its ticks. -/
  sampler : Sampler := {}
  /-- Whether the run under way was told to stop: its token is cancelled. -/
  cancelled : Bool := false
  /-- The tick at which a run stops by itself. -/
  limit : Option Nat := none
  deriving DecidableEq, Repr

/-- The components, and how they are connected. -/
structure World where
  /-- The pending tasks. -/
  scheduler : Scheduler Action
  /-- The registered handlers. -/
  handlers : HandlerTable Handler := {}
  /-- The session and its listeners. -/
  coordinator : Coordinator Listener := {}
  /-- The configuration of the proxy, when the components are wired together. -/
  proxy : Option Config := none
  /-- The host, when there is one. -/
  host : Option Host := none
  deriving Repr

/-- What an operation leaves behind: the world, the events, and its value. -/
structure Turn (α : Type) where
  /-- The world afterwards. -/
  world : World
  /-- What happened, in order. -/
  events : List Event
  /-- What the operation gives back. -/
  value : α
  deriving Repr

/-- What the lifecycle makes of an event. -/
inductive Verdict where
  /-- The event was refused. -/
  | refused
  /-- The session moved, and no hooks are due. -/
  | moved
  /-- The session moved, and these hooks are due. -/
  | hooks (hook : Lifecycle.Hook)
  deriving DecidableEq, Repr

namespace World

/-! ## 2. Locks -/

/-- Events that happen while a lock is held. -/
def holding (lock : Lock) (events : List Event) : List Event :=
  .locked lock :: (events ++ [.unlocked lock])

@[simp] theorem mem_holding {lock : Lock} {events : List Event} {e : Event} :
    e ∈ holding lock events ↔ e = .locked lock ∨ e ∈ events ∨ e = .unlocked lock := by
  simp [holding]

/-! ## 3. The scheduler -/

/-- The release of queued tasks, in the order of the queue. -/
def releases (tasks : List (Task Action)) : List Event :=
  tasks.map fun t => .released (some t.handle) t.action

/-- What a refused request does: the queue is looked at only when the delay is acceptable, and the
action is released before the refusal is returned. -/
def refusalEvents (refusal : Refusal) (action : Action) : List Event :=
  match refusal with
  | .queueFull _ => holding .queue [] ++ [.released none action]
  | _ => [.released none action]

/-- Requests a task (`schedule_delayed`). -/
def request (w : World) (delay : Int) (action : Action) : Turn (Except Refusal Handle) :=
  match w.scheduler.schedule delay action with
  | .ok (h, scheduler) =>
    ⟨{ w with scheduler },
      holding .queue [.accepted h delay.toNat action, .logged (.scheduled h delay.toNat)], .ok h⟩
  | .error refusal => ⟨w, refusalEvents refusal action, .error refusal⟩

/-- Requests `n` idle tasks, up to the first refusal, and logs none of them. -/
def fill (w : World) (n : Nat) (delay : Int) : Turn Reply :=
  let k := w.scheduler.capacityFor delay n
  let filled := w.scheduler.fill delay .idle n
  let queued := (w.scheduler.batch delay.toNat Action.idle k).flatMap fun t =>
    holding .queue [.accepted t.handle t.remaining t.action]
  let w' := { w with scheduler := filled }
  if k < n then
    match filled.vet delay with
    | .error refusal => ⟨w', queued ++ refusalEvents refusal .idle, .filled k (some refusal)⟩
    | .ok _ => ⟨w', queued, .filled k none⟩
  else ⟨w', queued, .filled k none⟩

/-- Cancels a pending task (`cancel`).  Its action is released while the queue is held. -/
def cancel (w : World) (h : Handle) : Turn Bool :=
  match w.scheduler.find? h with
  | some t =>
    ⟨{ w with scheduler := w.scheduler.remove h },
      holding .queue [.cancelled h, .released (some h) t.action, .logged (.cancelled h)], true⟩
  | none => ⟨w, holding .queue [], false⟩

/-- Drops every pending task (`discard_pending`).  The actions are released once the queue is free
again. -/
def discard (w : World) : Turn Nat :=
  let tasks := w.scheduler.queue
  ⟨{ w with scheduler := w.scheduler.clear },
    holding .queue [.discarded tasks.length]
      ++ (if tasks.isEmpty then [] else [.logged (.discarded tasks.length)]) ++ releases tasks,
    tasks.length⟩

/-- Begins a pass (`on_tick`, up to the first action): takes the due tasks out of the queue and
counts the others down. -/
def beginPass (w : World) : Turn (List (Task Action)) :=
  ⟨{ w with scheduler := w.scheduler.drain }, holding .queue [.drained], w.scheduler.due⟩

/-- Ends a pass that has fired `fired` tasks (`on_tick`, after the last action). -/
def endPass (w : World) (fired : Nat) : Turn Nat :=
  let scheduler := w.scheduler.completePass
  ⟨{ w with scheduler := scheduler },
    (if fired = 0 then [] else [.logged (.passed scheduler.processedTicks fired)])
      ++ [.passEnded fired],
    fired⟩

/-- What is left when the scheduler goes away: its pending tasks are released, after a record if
there are any. -/
def dispose (w : World) : List Event :=
  let tasks := w.scheduler.queue
  (if tasks.isEmpty then [] else [.logged (.disposing tasks.length)]) ++ releases tasks

/-! ## 4. Handlers -/

/-- Registers a handler for every kind it is for (`register`). -/
def register (w : World) (handler : Handler) : Turn Unit :=
  ⟨{ w with handlers := w.handlers.register handler handler.kinds },
    [.logged (.registered handler.name handler.kinds)], ()⟩

/-- The handlers that an event is for, at this moment. -/
def targets (w : World) (event : Tick.Event) : List Handler :=
  w.handlers.targets Handler.accepts event

/-! ## 5. The session -/

/-- Adds a listener, `copies` times. -/
def addListener (w : World) (listener : Listener) (copies : Nat) : Turn Unit :=
  ⟨{ w with coordinator := w.coordinator.addListener listener copies },
    (List.replicate copies (holding .listeners [])).flatten, ()⟩

/-- The record of a refused event. -/
def refusalRecord (state : Lifecycle.State) : Lifecycle.Event → Record
  | .started => .ignoredStart state
  | .stopping => .ignoredStop state
  | event => .ignored event state

/-- Hands an event to the lifecycle (`handle`, `notify_start`, `notify_stop`).  Moves without hooks
are logged while the state is held, the others once it is free again. -/
def transition (w : World) (event : Lifecycle.Event) : Turn Verdict :=
  let state := w.coordinator.state
  match state.next? event with
  | none => ⟨w, holding .session [.logged (refusalRecord state event)], .refused⟩
  | some next =>
    let coordinator := w.coordinator.enter next
    let w' := { w with coordinator := coordinator }
    match event with
    | .started =>
      ⟨w', holding .session [] ++ [.logged (.sessionStarted coordinator.session)], .hooks .start⟩
    | .stopping =>
      if state = .running then
        ⟨w', holding .session [] ++ holding .session []
          ++ [.logged (.sessionStopping coordinator.session)], .hooks .stop⟩
      else ⟨w', holding .session [] ++ [.logged .sessionAborted], .moved⟩
    | _ => ⟨w', holding .session [.logged (.moved state next)], .moved⟩

/-- Begins a pass over the listeners there are at this moment (`run_hooks`). -/
def beginHooks (w : World) (hook : Lifecycle.Hook) : Turn (List Listener) :=
  ⟨w, holding .listeners [.notified hook], w.coordinator.listeners⟩

/-! ## 6. The proxy -/

/-- Whether the pending tasks go when an event is accepted (`on_lifecycle`). -/
def discardsOn (w : World) (event : Lifecycle.Event) : Bool :=
  event == .stopped && (w.proxy.map (·.discardOnStop)).getD false

/-- Drops the tasks that a stopped session has left over. -/
def dropLeftovers (w : World) : Turn Unit :=
  let turn := w.discard
  ⟨turn.world,
    turn.events ++ (if turn.value = 0 then [] else [.logged (.leftoversDropped turn.value)]), ()⟩

/-! ## 7. The host -/

/-- The world with another host. -/
def updateHost (w : World) (f : Host → Host) : World := { w with host := w.host.map f }

/-- The number of steps made; none without a host. -/
def ticks (w : World) : Nat := (w.host.map (·.ticks)).getD 0

/-- The rate of the ticks: that of the configuration. -/
def tickRate (w : World) : Binary32 := (w.proxy.getD .default).tickRate

/-- The time from one step of a run to the next, in nanoseconds.  A run needs one: there is none if
a tick lasts a time that cannot be held, or no time at all. -/
def period? (w : World) : Option Nat := w.tickRate.inverse.nanoseconds?.filter (0 < ·)

/-- Whether the run under way was told to stop; without a host there is none. -/
def isCancelled (w : World) : Bool := (w.host.map (·.cancelled)).getD true

/-- Tells the run under way to stop (`stop`). -/
def stopHost (w : World) : World := w.updateHost fun h => { h with cancelled := true }

/-- Makes ready for a run of so many ticks.  It is assumed that every run is given a token of its
own, which is not cancelled yet: to tell a host to stop before it runs comes to nothing. -/
def startRun (w : World) (ticks : Nat) : World :=
  w.updateHost fun h => { h with cancelled := false, limit := some (h.ticks + ticks) }

/-- Forgets the limit of a run that is over. -/
def endRun (w : World) : World := w.updateHost fun h => { h with limit := none }

/-- Counts one more step (`step`, before its deliveries). -/
def nextTick (w : World) : World := w.updateHost fun h => { h with ticks := h.ticks + 1 }

/-- The sampler sees one half of a tick. -/
def sample (w : World) (phase : Tick.Phase) : World :=
  w.updateHost fun h => { h with sampler := h.sampler.tick phase }

/-- The limit of a run sees a tick. -/
def checkLimit (w : World) (number : Nat) : World :=
  w.updateHost fun h =>
    match h.limit with
    | some limit => if limit ≤ number then { h with cancelled := true } else h
    | none => h

/-! ## 8. Worlds to begin with -/

/-- The three components side by side, with these limits for the scheduler
(`DeferredScheduler.new`). -/
def parts (maxDelay maxPending : Nat) : World := { scheduler := { maxDelay, maxPending } }

/-- The components wired together under a valid configuration (`CommonProxy.new`): the scheduler is
the first handler. -/
def proxied (config : Config) : Turn Unit :=
  let turn := ({ parts config.maxDelay config.maxPending with proxy := some config }).register
    .scheduler
  ⟨turn.world, turn.events ++ [.logged (.proxyReady config.tickRate config.maxDelay)], ()⟩

/-- A host under a valid configuration, with a sampler for its rate (`EmberHost.new`): the sampler
is the second handler. -/
def hosted (config : Config) (sampler : Sampler) : Turn Unit :=
  let wired := proxied config
  let turn := ({ wired.world with host := some { sampler } }).register .sampler
  ⟨turn.world, wired.events ++ turn.events, ()⟩

/-- The same host with runs that can be limited: the limit is one more handler. -/
def limited (host : Turn Unit) : Turn Unit :=
  let turn := host.world.register .runLimit
  ⟨turn.world, host.events ++ turn.events, ()⟩

/-- Why a host cannot be set up. -/
inductive OpeningFault where
  /-- The configuration is not valid. -/
  | invalid (reason : Config.Invalid)
  /-- A tick lasts no time that can be held. -/
  | noSampler
  deriving DecidableEq, Repr

/-- Sets up a proxy, if the configuration is valid. -/
def openProxy (config : Config) : Except OpeningFault (Turn Unit) := do
  let config ← config.validate.mapError .invalid
  return proxied config

/-- What an attempt to set up a host leaves behind.  It has left records as far as it has come, also
when it has failed. -/
structure Opening where
  /-- What happened, in order. -/
  events : List Event
  /-- The world, or why there is none. -/
  result : Except OpeningFault World

/-- Attempts to set up a host.  Nothing happens unless the configuration is valid; then the
components are wired together, and a sampler is made for the rate. -/
def opening (config : Config) : Opening :=
  match config.validate with
  | .error reason => ⟨[], .error (.invalid reason)⟩
  | .ok config =>
    match Sampler.forRate? config.tickRate with
    | none => ⟨(proxied config).events, .error .noSampler⟩
    | some sampler =>
      let host := hosted config sampler
      ⟨host.events, .ok host.world⟩

/-- Sets up a host: an attempt, if it succeeds. -/
def openHost (config : Config) : Except OpeningFault (Turn Unit) :=
  let attempt := opening config
  attempt.result.map fun world => ⟨world, attempt.events, ()⟩

end World

end TickHost
