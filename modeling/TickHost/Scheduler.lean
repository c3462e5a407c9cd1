import TickHost.Task
import TickHost.Refusal

/-!
# The deferred scheduler

A queue of tasks in the order of their acceptance.  A pass takes every due task out of the queue at
once and counts the others down, so a task with delay `d` fires in the pass number `d + 1` after it
was accepted, and what the fired actions do to the queue concerns later passes only.

The operations here are those on the queue itself, as `DeferredScheduler` has them:
`schedule_delayed` and `schedule_next_tick`, `on_tick`, `cancel` and `discard_pending`.  What they
write to the log, and how actions run, is the business of `TickHost.World` and `TickHost.Machine`.
-/

namespace TickHost

/-- A scheduler of actions of type `α` (`DeferredScheduler`). -/
structure Scheduler (α : Type) where
  /-- The longest delay accepted. -/
  maxDelay : Nat
  /-- How many tasks may be pending at once. -/
  maxPending : Nat
  /-- The pending tasks, in the order of their acceptance. -/
  queue : List (Task α) := []
  /-- How many tasks were accepted so far. -/
  accepted : Nat := 0
  /-- How many passes were completed so far. -/
  passes : Nat := 0
  deriving Repr

namespace Scheduler

variable {α : Type}

/-! ## 1. Queries -/

/-- How many tasks are pending (`len`). -/
def pending (s : Scheduler α) : Nat := s.queue.length

/-- Whether the task with this handle is pending (`is_scheduled`). -/
def isScheduled (s : Scheduler α) (h : Handle) : Bool := s.queue.any (·.handle == h)

/-- The number of completed passes, as a counter of 64 bits shows it (`processed_ticks`). -/
def processedTicks (s : Scheduler α) : UInt64 := .ofNat s.passes

/-- The handle of the next task to be accepted. -/
def nextHandle (s : Scheduler α) : Handle := .ofNat s.accepted

/-! ## 2. Requests -/

/-- The delay of a request that is acceptable now.  The sign of the delay is checked first, then its
size, then the room in the queue. -/
def vet (s : Scheduler α) (delay : Int) : Except Refusal Nat :=
  match delay with
  | .negSucc n => .error (.negativeDelay (.negSucc n))
  | .ofNat d =>
    if s.maxDelay < d then .error (.delayTooLong d s.maxDelay)
    else if s.maxPending ≤ s.pending then .error (.queueFull s.pending)
    else .ok d

/-- The scheduler with one more task at the end of its queue. -/
def enqueue (s : Scheduler α) (delay : Nat) (action : α) : Scheduler α :=
  { s with
    queue := s.queue ++ [⟨s.nextHandle, delay, action⟩]
    accepted := s.accepted + 1 }

/-- A request to run `action` after `delay` further ticks (`schedule_delayed`). -/
def schedule (s : Scheduler α) (delay : Int) (action : α) :
    Except Refusal (Handle × Scheduler α) :=
  (s.vet delay).map fun d => (s.nextHandle, s.enqueue d action)

/-- The tasks that `n` acceptances in a row would add. -/
def batch (s : Scheduler α) (delay : Nat) (action : α) (n : Nat) : List (Task α) :=
  (List.range n).map fun i => ⟨.ofNat (s.accepted + i), delay, action⟩

/-- How many of `n` equal requests are accepted in a row, starting now. -/
def capacityFor (s : Scheduler α) (delay : Int) (n : Nat) : Nat :=
  match s.vet delay with
  | .error _ => 0
  | .ok _ => min n (s.maxPending - s.pending)

/-- The scheduler after `n` requests for the same delay and action, up to the first refusal. -/
def fill (s : Scheduler α) (delay : Int) (action : α) (n : Nat) : Scheduler α :=
  let k := s.capacityFor delay n
  { s with
    queue := s.queue ++ s.batch delay.toNat action k
    accepted := s.accepted + k }

/-! ## 3. Passes

`on_tick` is a drain, the actions that are due, and the count of one more pass. -/

/-- The tasks that a pass beginning now fires, in order. -/
def due (s : Scheduler α) : List (Task α) := s.queue.filter (·.isDue)

/-- The scheduler once a pass has taken its due tasks. -/
def drain (s : Scheduler α) : Scheduler α :=
  { s with queue := (s.queue.filter (!·.isDue)).map Task.countDown }

/-- The scheduler with one more pass completed. -/
def completePass (s : Scheduler α) : Scheduler α := { s with passes := s.passes + 1 }

/-! ## 4. Removals -/

/-- The pending task with this handle, if there is one. -/
def find? (s : Scheduler α) (h : Handle) : Option (Task α) := s.queue.find? (·.handle == h)

/-- The scheduler without the first pending task that has this handle (`cancel`). -/
def remove (s : Scheduler α) (h : Handle) : Scheduler α :=
  { s with queue := s.queue.eraseP (·.handle == h) }

/-- The scheduler without its pending tasks (`discard_pending`). -/
def clear (s : Scheduler α) : Scheduler α := { s with queue := [] }

end Scheduler

end TickHost
