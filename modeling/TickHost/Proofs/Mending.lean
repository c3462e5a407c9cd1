import TickHost.Proofs.Naturality
import TickHost.Proofs.Run

/-!
# Mended callbacks

To mend a callback is to let it return wherever it would panic or return a failure, and to leave all
else it does as it is.  Mending is extended here from commands to machines, and to events, among
which the records of failures are left out.

The main result is `mend_step`: the mended machine steps exactly as the machine does.  It takes the
same steps, one for one, with the same replies, and what happens differs only in the records of
failures.  So how callbacks end has no influence on anything but those records.
-/

namespace TickHost

/-! ## 1. Callbacks -/

/-- A script that would fail at a refusal returns instead. -/
def OnRefusal.mend : OnRefusal → OnRefusal
  | fail => leave
  | onRefusal => onRefusal

mutual

/-- A command with every callback in it mended. -/
def Command.mend : Command → Command
  | .schedule name delay guarded onRefusal body =>
    .schedule name delay guarded onRefusal.mend (mendAll body)
  | .register name kinds phases body => .register name kinds phases (mendAll body)
  | .addListener name kind start stop _ _ copies =>
    .addListener name kind (mendAll start) (mendAll stop) none none copies
  | .exit _ => .exit .returned
  | .repeat n body => .repeat n (mendAll body)
  | c => c

/-- The commands of a mended script. -/
def mendAll : List Command → List Command
  | [] => []
  | c :: rest => c.mend :: mendAll rest

end

theorem mendAll_eq_map (script : Script) : mendAll script = script.map Command.mend := by
  induction script with
  | nil => rfl
  | cons c rest ih => rw [mendAll, ih, List.map_cons]

/-- A mended action. -/
def Action.mend : Action → Action
  | idle => idle
  | script name guarded body => script name guarded (mendAll body)

/-- A mended handler. -/
def Handler.mend : Handler → Handler
  | script name kinds phases body => script name kinds phases (mendAll body)
  | handler => handler

/-- A mended hook. -/
def HookBody.mend (b : HookBody) : HookBody := ⟨mendAll b.script, none⟩

/-- A listener with mended hooks. -/
def Listener.mend (l : Listener) : Listener := { l with start := l.start.mend, stop := l.stop.mend }

/-! ## 2. Machines -/

/-- A world with every callback in it mended. -/
def World.mend (w : World) : World :=
  { w with
    scheduler := w.scheduler.map Action.mend
    handlers := w.handlers.map Handler.mend
    coordinator := w.coordinator.map Listener.mend }

/-- A frame with every callback in it mended. -/
def Frame.mend : Frame → Frame
  | script current rest => script current.mend (mendAll rest)
  | loop left body rest replies => loop left (mendAll body) (mendAll rest) replies
  | firing task due fired => firing (task.map Action.mend) (due.map (Task.map Action.mend)) fired
  | handling handler event rest count =>
    handling handler.mend event (rest.map Handler.mend) count
  | hooking hook body index rest => hooking hook body.mend index (rest.map Listener.mend)
  | frame => frame

/-- A focus with every callback in it mended. -/
def Focus.mend : Focus → Focus
  | command c => command c.mend
  | script commands => script (mendAll commands)
  | looping left body rest replies => looping left (mendAll body) (mendAll rest) replies
  | firing due fired => firing (due.map (Task.map Action.mend)) fired
  | handling event rest count => handling event (rest.map Handler.mend) count
  | hooking hook index rest => hooking hook index (rest.map Listener.mend)
  | ended _ => ended .returned
  | focus => focus

/-- A machine with every callback in it mended. -/
def Machine.mend (m : Machine) : Machine :=
  ⟨m.world.mend, m.focus.mend, m.stack.map Frame.mend⟩

/-- An event with every callback in it mended; there is none if it is the record of a failure. -/
def Event.mend? : Event → Option Event
  | logged record => if record.level == .error then none else some (logged record)
  | accepted h delay action => some (accepted h delay action.mend)
  | fired h action => some (fired h action.mend)
  | released owner action => some (released owner action.mend)
  | handled handler event => some (handled handler.mend event)
  | called hook index listener => some (called hook index listener.mend)
  | event => some event

/-- What happens when every callback is mended. -/
def mendEvents (events : List Event) : List Event := events.filterMap Event.mend?

@[simp] theorem mendEvents_nil : mendEvents [] = [] := rfl

@[simp] theorem mendEvents_append (p q : List Event) :
    mendEvents (p ++ q) = mendEvents p ++ mendEvents q := List.filterMap_append

/-- A step of a machine with every callback in it mended. -/
def Stepped.mend (s : Stepped) : Stepped := ⟨s.machine.mend, mendEvents s.events⟩

/-- A move with every callback in it mended. -/
def Move.mend : Move → Move
  | step => step
  | command c => command c.mend
  | improvise commands => improvise (mendAll commands)

/-! ## 3. Operations of the world -/

@[simp] theorem mend_accepts (handler : Handler) : handler.mend.accepts = handler.accepts := by
  cases handler <;> rfl

@[simp] theorem mend_kinds (handler : Handler) : handler.mend.kinds = handler.kinds := by
  cases handler <;> rfl

@[simp] theorem mend_handlerName (handler : Handler) : handler.mend.name = handler.name := by
  cases handler <;> rfl

@[simp] theorem mend_hook? (listener : Listener) (hook : Lifecycle.Hook) :
    listener.mend.hook? hook = (listener.hook? hook).map HookBody.mend := by
  obtain ⟨name, kind, start, stop⟩ := listener
  cases hook <;> cases kind <;> rfl

@[simp] theorem mendEvents_holding (lock : Lock) (events : List Event) :
    mendEvents (World.holding lock events) = World.holding lock (mendEvents events) := by
  rw [World.holding, ← List.singleton_append, mendEvents_append, mendEvents_append]
  rfl

@[simp] theorem mendEvents_releases (tasks : List (Task Action)) :
    mendEvents (World.releases tasks) = World.releases (tasks.map (Task.map Action.mend)) := by
  induction tasks with
  | nil => rfl
  | cons task tasks ih =>
    rw [World.releases, List.map_cons, ← List.singleton_append, mendEvents_append]
    exact congrArg _ ih

/-- The acceptance of a batch of idle tasks. -/
theorem mendEvents_batch (tasks : List (Task Action)) :
    mendEvents (tasks.flatMap fun t =>
        World.holding .queue [.accepted t.handle t.remaining t.action]) =
      (tasks.map (Task.map Action.mend)).flatMap fun t =>
        World.holding .queue [.accepted t.handle t.remaining t.action] := by
  induction tasks with
  | nil => rfl
  | cons task tasks ih =>
    rw [List.flatMap_cons, mendEvents_append, ih, mendEvents_holding]
    rfl

@[simp] theorem mendEvents_refusalEvents (refusal : Refusal) (action : Action) :
    mendEvents (World.refusalEvents refusal action) =
      World.refusalEvents refusal action.mend := by
  cases refusal <;> rfl

/-- What an operation leaves behind, with every callback in it mended. -/
def Turn.mend {α β : Type} (f : α → β) (turn : Turn α) : Turn β :=
  ⟨turn.world.mend, mendEvents turn.events, f turn.value⟩

namespace World

variable (w : World)

@[simp] theorem mend_proxy : w.mend.proxy = w.proxy := rfl

@[simp] theorem mend_host : w.mend.host = w.host := rfl

theorem mend_request (delay : Int) (action : Action) :
    w.mend.request delay action.mend = (w.request delay action).mend id := by
  have hvet := w.scheduler.map_vet Action.mend delay
  cases h : w.scheduler.vet delay with
  | error refusal =>
    simp only [request, Scheduler.schedule, mend, hvet, h, Except.map, Turn.mend,
      mendEvents_refusalEvents]
    rfl
  | ok d =>
    simp only [request, Scheduler.schedule, mend, hvet, h, Except.map, Turn.mend,
      Scheduler.map_enqueue, Scheduler.map_nextHandle, mendEvents_holding]
    rfl

theorem mend_fill (n : Nat) (delay : Int) : w.mend.fill n delay = (w.fill n delay).mend id := by
  have hfill := w.scheduler.map_fill Action.mend delay .idle n
  have hbatch := w.scheduler.map_batch Action.mend delay.toNat .idle
  simp only [Action.mend] at hfill hbatch
  have hmended : w.mend.scheduler = w.scheduler.map Action.mend := rfl
  simp only [fill, hmended, hfill, hbatch, Scheduler.map_capacityFor, Scheduler.map_vet]
  split
  · split
    · simp only [Turn.mend, mendEvents_append, mendEvents_batch, mendEvents_refusalEvents]
      rfl
    · simp only [Turn.mend, mendEvents_batch]
      rfl
  · simp only [Turn.mend, mendEvents_batch]
    rfl

theorem mend_cancel (h : Handle) : w.mend.cancel h = (w.cancel h).mend id := by
  have hfind := w.scheduler.map_find? Action.mend h
  cases hcase : w.scheduler.find? h with
  | none =>
    simp only [cancel, mend, hfind, hcase, Option.map_none]
    rfl
  | some task =>
    simp only [cancel, mend, hfind, hcase, Option.map_some, Scheduler.map_remove]
    rfl

theorem mend_discard : w.mend.discard = w.discard.mend id := by
  simp only [discard, mend, Turn.mend, Scheduler.map_clear, Scheduler.map_queue, List.length_map,
    List.isEmpty_map, mendEvents_append, mendEvents_holding, mendEvents_releases]
  split <;> rfl

theorem mend_beginPass :
    w.mend.beginPass = w.beginPass.mend (List.map (Task.map Action.mend)) := by
  simp only [beginPass, mend, Turn.mend, Scheduler.map_drain, Scheduler.map_due]
  rfl

theorem mend_endPass (fired : Nat) : w.mend.endPass fired = (w.endPass fired).mend id := by
  simp only [endPass, mend, Turn.mend, Scheduler.map_completePass, Scheduler.map_processedTicks,
    mendEvents_append]
  split <;> rfl

theorem mend_register (handler : Handler) :
    w.mend.register handler.mend = (w.register handler).mend id := by
  simp only [register, mend, Turn.mend, mend_kinds, mend_handlerName, HandlerTable.map_register]
  rfl

theorem mend_targets (event : Tick.Event) :
    w.mend.targets event = (w.targets event).map Handler.mend :=
  w.handlers.map_targets Handler.mend mend_accepts event

theorem mend_addListener (listener : Listener) (copies : Nat) :
    w.mend.addListener listener.mend copies = (w.addListener listener copies).mend id := by
  have hlocks : mendEvents (List.replicate copies (holding .listeners [])).flatten =
      (List.replicate copies (holding .listeners [])).flatten := by
    induction copies with
    | zero => rfl
    | succ copies ih =>
      rw [List.replicate_succ, List.flatten_cons, mendEvents_append, ih]
      rfl
  simp only [addListener, mend, Turn.mend, Coordinator.map_addListener, hlocks, id]

theorem mend_transition (event : Lifecycle.Event) :
    w.mend.transition event = (w.transition event).mend id := by
  have hstate : w.mend.coordinator.state = w.coordinator.state := rfl
  simp only [transition, hstate]
  cases w.coordinator.state.next? event with
  | none =>
    cases event <;> rfl
  | some next =>
    cases event with
    | stopping => simp only; split <;> rfl
    | _ => rfl

theorem mend_dropLeftovers : w.mend.dropLeftovers = w.dropLeftovers.mend id := by
  simp only [dropLeftovers, mend_discard, Turn.mend, mendEvents_append, id]
  split <;> rfl

end World

/-! ## 4. Steps -/

namespace Machine

theorem mend_hostBusy (stack : List Frame) : hostBusy (stack.map Frame.mend) = hostBusy stack := by
  have hholds : Frame.holdsHost ∘ Frame.mend = Frame.holdsHost := by
    funext frame
    cases frame <;> rfl
  rw [hostBusy, List.any_map, hholds, hostBusy]

/-- Mended commands are carried out as they were. -/
theorem mend_perform (w : World) (stack : List Frame) (c : Command) :
    perform w.mend (stack.map Frame.mend) c.mend = (perform w stack c).mend := by
  cases c with
  | schedule name delay guarded onRefusal body =>
    simp only [Command.mend, perform, doSchedule]
    rw [show Action.script name guarded (mendAll body)
      = (Action.script name guarded body).mend from rfl, World.mend_request]
    rfl
  | fill n delay => simp only [Command.mend, perform, World.mend_fill]; rfl
  | cancel id => simp only [Command.mend, perform, World.mend_cancel]; rfl
  | discard => simp only [Command.mend, perform, World.mend_discard]; rfl
  | isScheduled id =>
    have hsame := w.scheduler.map_isScheduled Action.mend (.ofNat id)
    simp only [Command.mend, perform, World.mend, hsame]
    rfl
  | pending =>
    have hsame := w.scheduler.map_pending Action.mend
    simp only [Command.mend, perform, World.mend, hsame]
    rfl
  | isEmpty =>
    simp only [Command.mend, perform, World.mend, Scheduler.map_queue, List.isEmpty_map]
    rfl
  | register name kinds phases body =>
    simp only [Command.mend, perform]
    rw [show Handler.script name kinds phases (mendAll body)
      = (Handler.script name kinds phases body).mend from rfl, World.mend_register]
    rfl
  | registerScheduler =>
    simp only [Command.mend, perform]
    rw [show w.mend.register .scheduler = (w.register .scheduler).mend id from
      w.mend_register .scheduler]
    rfl
  | handlerCount kind =>
    have hsame := w.handlers.map_count Handler.mend kind
    simp only [Command.mend, perform, World.mend, hsame]
    rfl
  | addListener name kind start stop startFailure stopFailure copies =>
    simp only [Command.mend, perform]
    rw [show (⟨name, kind, ⟨mendAll start, none⟩, ⟨mendAll stop, none⟩⟩ : Listener)
      = Listener.mend ⟨name, kind, ⟨start, startFailure⟩, ⟨stop, stopFailure⟩⟩ from rfl,
      World.mend_addListener]
    rfl
  | listenerCount =>
    simp only [Command.mend, perform, World.mend, Coordinator.map, List.length_map]
    rfl
  | proxyTick event | proxyLifecycle event =>
    simp only [Command.mend, perform]
    rw [World.mend_proxy]
    split <;> rfl
  | config =>
    simp only [Command.mend, perform, World.mend_proxy]
    split <;> rfl
  | step | run ticks =>
    simp only [Command.mend, perform, World.mend_host, mend_hostBusy]
    split <;> rfl
  | samples =>
    simp only [Command.mend, perform, World.mend_host]
    split <;> rfl
  | «repeat» n body =>
    simp only [Command.mend, perform, mendAll_eq_map, List.isEmpty_map]
    split
    · rfl
    · simp only [turnTo, Stepped.mend, mend, Focus.mend, mendAll_eq_map]
      rfl
  | malformed word reason needsProxy => rfl
  | _ => rfl

theorem mend_nextStage (w : World) (stack : List Frame) (stage : Stage) :
    nextStage w.mend (stack.map Frame.mend) stage = (nextStage w stack stage).mend := by
  cases stage with
  | stepping =>
    have hsame : w.mend.isCancelled = w.isCancelled := rfl
    simp only [nextStage, hsame]
    split <;> rfl
  | _ => rfl

theorem mend_ending? (c : Command) (r : Reply) :
    c.mend.ending? r = (c.ending? r).map fun _ => .returned := by
  cases r with
  | refused refusal =>
    cases c with
    | schedule name delay guarded onRefusal body => cases onRefusal <;> rfl
    | _ => rfl
  | _ => rfl

@[simp] theorem mend_word (c : Command) : c.mend.word = c.word := by
  cases c <;> rfl

theorem mend_resume (w : World) (stack : List Frame) (r : Reply) (frame : Frame) :
    resume w.mend (stack.map Frame.mend) r frame.mend = (resume w stack r frame).mend := by
  cases frame with
  | script current rest =>
    simp only [Frame.mend, resume, mend_ending?, mend_word]
    cases current.ending? r <;> rfl
  | loop left body rest replies =>
    simp only [Frame.mend, resume]
    split <;> rfl
  | settling event =>
    have hsame : w.mend.discardsOn event = w.discardsOn event := rfl
    simp only [Frame.mend, resume, hsame, World.mend_dropLeftovers]
    split
    · split <;> rfl
    · rfl
  | stepping phases => cases phases <;> rfl
  | running stage => exact mend_nextStage w stack stage
  | _ => rfl

theorem mend_finish (w : World) (stack : List Frame) (outcome : Outcome) (frame : Frame) :
    finish w.mend (stack.map Frame.mend) .returned frame.mend =
      (finish w stack outcome frame).mend := by
  cases frame with
  | firing task due fired => cases outcome <;> rfl
  | handling handler event rest count => cases outcome <;> rfl
  | hooking hook body index rest =>
    have hnone : hookRecords index hook (body.mend.finish .returned) = [] := rfl
    have hrecords : mendEvents (hookRecords index hook (body.finish outcome)) = [] := by
      cases body.finish outcome <;> rfl
    simp only [Frame.mend, finish, Stepped.mend, hnone, hrecords]
    rfl
  | _ => rfl

theorem mend_call (w : World) (stack : List Frame) (handler : Handler) (event : Tick.Event)
    (rest : List Handler) (count : Nat) :
    call w.mend (stack.map Frame.mend) handler.mend event (rest.map Handler.mend) count =
      (call w stack handler event rest count).mend := by
  cases handler <;> rfl

theorem mend_notify (w : World) (stack : List Frame) (listener : Listener) (hook : Lifecycle.Hook)
    (index : Nat) (rest : List Listener) :
    notify w.mend (stack.map Frame.mend) listener.mend hook index (rest.map Listener.mend) =
      (notify w stack listener hook index rest).mend := by
  simp only [notify, mend_hook?]
  cases listener.hook? hook <;> rfl

/-- **A mended machine takes the same steps.** -/
theorem mend_step (m : Machine) : m.mend.step? = m.step?.map Stepped.mend := by
  obtain ⟨w, focus, stack⟩ := m
  cases focus with
  | command c => exact congrArg some (mend_perform w stack c)
  | script commands => cases commands <;> rfl
  | looping left body rest replies =>
    cases rest with
    | cons c rest => rfl
    | nil => cases left <;> rfl
  | passing =>
    simp only [mend, Focus.mend, step?, World.mend_beginPass]
    rfl
  | firing due fired =>
    cases due with
    | nil =>
      simp only [mend, Focus.mend, List.map_nil, step?, World.mend_endPass]
      rfl
    | cons task due =>
      obtain ⟨handle, remaining, action⟩ := task
      cases action <;> rfl
  | dispatching event =>
    simp only [mend, Focus.mend, step?, World.mend_targets, List.length_map]
    rfl
  | handling event rest count =>
    cases rest with
    | nil => rfl
    | cons handler rest =>
      simp only [mend, Focus.mend, List.map_cons, step?, mend_call]
      rfl
  | moving event =>
    simp only [mend, Focus.mend, step?, World.mend_transition]
    simp only [Turn.mend, id]
    cases (w.transition event).value with
    | hooks hook => simp only [Option.map_some, Stepped.mend, mendEvents_append]; rfl
    | _ => rfl
  | hooking hook index rest =>
    cases rest with
    | nil => rfl
    | cons listener rest =>
      simp only [mend, Focus.mend, List.map_cons, step?, mend_notify]
      rfl
  | settling event => rfl
  | stepping => rfl
  | reply r =>
    cases stack with
    | nil => rfl
    | cons frame stack => exact congrArg some (mend_resume w stack r frame)
  | ended outcome =>
    cases stack with
    | nil => rfl
    | cons frame stack => exact congrArg some (mend_finish w stack outcome frame)

end Machine

end TickHost
