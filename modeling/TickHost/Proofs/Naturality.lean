import TickHost.Coordinator
import TickHost.HandlerTable
import TickHost.Scheduler

/-!
# Components do not look at what they hold

A scheduler keeps actions, a table keeps handlers and a coordinator keeps listeners, and none of
them looks at those.  Put precisely: exchanging them, all at once and by any function, commutes with
every operation, and does not change what is answered.
-/

namespace TickHost

/-! ## 1. Tasks -/

namespace Task

variable {α β : Type} (f : α → β) (t : Task α)

/-- The task with another action. -/
def map : Task β := ⟨t.handle, t.remaining, f t.action⟩

@[simp] theorem map_handle : (t.map f).handle = t.handle := rfl

@[simp] theorem map_remaining : (t.map f).remaining = t.remaining := rfl

@[simp] theorem map_action : (t.map f).action = f t.action := rfl

@[simp] theorem map_isDue : (t.map f).isDue = t.isDue := rfl

@[simp] theorem map_countDown : (t.map f).countDown = t.countDown.map f := rfl

end Task

/-! ## 2. Schedulers -/

namespace Scheduler

variable {α β : Type} (f : α → β) (s : Scheduler α)

/-- The scheduler with other actions. -/
def map : Scheduler β := ⟨s.maxDelay, s.maxPending, s.queue.map (Task.map f), s.accepted, s.passes⟩

@[simp] theorem map_queue : (s.map f).queue = s.queue.map (Task.map f) := rfl

@[simp] theorem map_pending : (s.map f).pending = s.pending := List.length_map _

@[simp] theorem map_isScheduled (h : Handle) : (s.map f).isScheduled h = s.isScheduled h := by
  simp [isScheduled, Function.comp_def]

@[simp] theorem map_processedTicks : (s.map f).processedTicks = s.processedTicks := rfl

@[simp] theorem map_nextHandle : (s.map f).nextHandle = s.nextHandle := rfl

@[simp] theorem map_vet (delay : Int) : (s.map f).vet delay = s.vet delay := by
  cases delay with
  | negSucc n => rfl
  | ofNat d => simp only [vet, map_pending]; rfl

theorem map_enqueue (delay : Nat) (action : α) :
    (s.map f).enqueue delay (f action) = (s.enqueue delay action).map f := by
  simp [enqueue, map, Task.map, nextHandle]

@[simp] theorem map_capacityFor (delay : Int) (n : Nat) :
    (s.map f).capacityFor delay n = s.capacityFor delay n := by
  simp only [capacityFor, map_vet, map_pending]
  rfl

theorem map_batch (delay : Nat) (action : α) (n : Nat) :
    (s.map f).batch delay (f action) n = (s.batch delay action n).map (Task.map f) := by
  simp [batch, map, Task.map]

theorem map_fill (delay : Int) (action : α) (n : Nat) :
    (s.map f).fill delay (f action) n = (s.fill delay action n).map f := by
  simp only [fill, map_capacityFor, map_batch]
  simp [map]

theorem map_due : (s.map f).due = s.due.map (Task.map f) := by
  simp [due, List.filter_map, Function.comp_def]

theorem map_drain : (s.map f).drain = s.drain.map f := by
  simp [drain, map, List.filter_map, Function.comp_def]

theorem map_completePass : (s.map f).completePass = s.completePass.map f := rfl

theorem map_find? (h : Handle) : (s.map f).find? h = (s.find? h).map (Task.map f) := by
  simp [find?, List.find?_map, Function.comp_def]

theorem map_remove (h : Handle) : (s.map f).remove h = (s.remove h).map f := by
  simp [remove, map, List.eraseP_map, Function.comp_def]

theorem map_clear : (s.map f).clear = s.clear.map f := rfl

end Scheduler

/-! ## 3. Tables of handlers -/

namespace HandlerTable

variable {η θ : Type} (f : η → θ) (t : HandlerTable η)

/-- The table with other handlers. -/
def map : HandlerTable θ := ⟨t.server.map f, t.world.map f, t.player.map f⟩

theorem map_entries (kind : Tick.Kind) : (t.map f).entries kind = (t.entries kind).map f := by
  cases kind <;> rfl

theorem map_append (handler : η) (kind : Tick.Kind) :
    (t.map f).append (f handler) kind = (t.append handler kind).map f := by
  cases kind <;> simp [append, map]

theorem map_register (handler : η) (kinds : List Tick.Kind) :
    (t.map f).register (f handler) kinds = (t.register handler kinds).map f := by
  induction kinds generalizing t with
  | nil => rfl
  | cons kind kinds ih =>
    rw [register, register, List.foldl_cons, List.foldl_cons, map_append]
    exact ih (t.append handler kind)

@[simp] theorem map_count (kind : Tick.Kind) : (t.map f).count kind = t.count kind := by
  rw [count, map_entries, List.length_map, count]

/-- Exchanging handlers does not change who is called, if it does not change what they accept. -/
theorem map_targets {accepts : η → Tick.Phase → Bool} {accepts' : θ → Tick.Phase → Bool}
    (h : ∀ handler, accepts' (f handler) = accepts handler) (event : Tick.Event) :
    (t.map f).targets accepts' event = (t.targets accepts event).map f := by
  simp [targets, map_entries, List.filter_map, Function.comp_def, h]

end HandlerTable

/-! ## 4. Coordinators -/

namespace Coordinator

variable {ℓ μ : Type} (f : ℓ → μ) (c : Coordinator ℓ)

/-- The coordinator with other listeners. -/
def map : Coordinator μ := ⟨c.state, c.session, c.listeners.map f⟩

theorem map_addListener (listener : ℓ) (copies : Nat) :
    (c.map f).addListener (f listener) copies = (c.addListener listener copies).map f := by
  simp [addListener, map]

end Coordinator

end TickHost
