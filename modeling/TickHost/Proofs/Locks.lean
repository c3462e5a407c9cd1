import TickHost.Proofs.Balance
import TickHost.Proofs.Steps.Locks

/-!
# User code and locks

Callbacks may call whatever they like, and a destructor may do so too, so a component must hold no
lock of its own while user code runs.  Here it is settled where user code begins with a lock held:
after a cancellation has taken a task out of the queue, where the release of its action comes next,
and nowhere else (`Orderly.isHeld_iff`).  In particular a lock is only ever taken when none is held,
so nobody is blocked by a caller of its own, except by a cancellation that releases an action.
-/

namespace TickHost

/-! ## 1. Held locks -/

/-- Whether a lock is held after these events. -/
def Lock.isHeld (lock : Lock) (events : List Event) : Bool :=
  events.foldl (fun held e =>
    match e with
    | .locked other => held || other == lock
    | .unlocked other => held && other != lock
    | _ => held) false

/-- No lock is held where user code begins. -/
def Unlocked (events : List Event) : Prop :=
  ∀ before e after, events = before ++ e :: after → e.beginsUserCode = true →
    ∀ lock : Lock, lock.isHeld before = false

variable {s t : Stance} {e : Event} {events before after : List Event} {lock : Lock}

/-- One more event. -/
theorem Stance.Allows.isHeld (h : s.Allows e t) (hs : lock.isHeld events = (s.lock? == some lock)) :
    lock.isHeld (events ++ [e]) = (t.lock? == some lock) := by
  rw [Lock.isHeld, List.foldl_append, ← Lock.isHeld, hs]
  cases h with
  | takes other => simp [lock?]
  | gives other => simp [lock?]
  | idles e he | works other e he => cases e <;> first | rfl | cases he
  | begins e he => cases e <;> first | rfl | cases he
  | removes h => rfl
  | lets h action => rfl

/-- The stance tells what is held. -/
theorem isHeld_of_stance (h : Trail Stance.Allows .free events s) (lock : Lock) :
    lock.isHeld events = (s.lock? == some lock) := by
  induction h with
  | nil => rfl
  | snoc _ hstep ih => exact hstep.isHeld ih

/-- Nothing is held in the free stance. -/
theorem isHeld_of_free (h : Trail Stance.Allows .free events .free) (lock : Lock) :
    lock.isHeld events = false := isHeld_of_stance h lock

/-- The queue is held by a cancellation just after the task was taken out. -/
theorem removing_iff {h : Handle} (htrail : Trail Stance.Allows .free events s) :
    s = .removing h ↔ ∃ init, events = init ++ [.cancelled h] := by
  cases htrail with
  | nil => simp
  | snoc _ hstep =>
    constructor
    · rintro rfl
      cases hstep with
      | removes => exact ⟨_, rfl⟩
    · rintro ⟨init, hlast⟩
      obtain rfl := List.singleton_inj.mp (List.append_inj' hlast rfl).2
      cases hstep with
      | removes => rfl
      | idles e he | works lock e he | begins e he => cases he

namespace Orderly

/-- The stances just before and just after an event. -/
theorem around (h : Orderly (before ++ e :: after)) :
    ∃ s t, Trail Stance.Allows .free before s ∧ s.Allows e t ∧
      Trail Stance.Allows t after .free := by
  obtain ⟨s, hbefore, hrest⟩ := Trail.split h
  obtain ⟨t, hstep, hafter⟩ := hrest.uncons
  exact ⟨s, t, hbefore, hstep, hafter⟩

/-- **User code begins with a lock held only where a cancelled action is released**, and then the
lock is that of the queue. -/
theorem isHeld_iff (horderly : Orderly (before ++ e :: after)) (he : e.beginsUserCode = true)
    (lock : Lock) : lock.isHeld before = true ↔
      lock = .queue ∧ ∃ init h action,
        before = init ++ [.cancelled h] ∧ e = .released (some h) action := by
  obtain ⟨s, t, hbefore, hstep, -⟩ := horderly.around
  rw [isHeld_of_stance hbefore lock]
  cases hstep with
  | begins e _ =>
    refine ⟨nofun, ?_⟩
    rintro ⟨-, init, h, action, hlast, -⟩
    cases (removing_iff hbefore).mpr ⟨init, hlast⟩
  | lets h action =>
    obtain ⟨init, hlast⟩ := (removing_iff hbefore).mp rfl
    refine ⟨fun hheld => ⟨?_, init, h, action, hlast, rfl⟩, ?_⟩
    · exact (Option.some.inj (beq_iff_eq.mp hheld)).symm
    · rintro ⟨rfl, -⟩
      rfl
  | takes | gives | removes => cases he
  | idles e hplain | works other e hplain =>
    rw [Event.isPlain_eq_false he] at hplain
    cases hplain

/-- A lock is taken when none is held. -/
theorem isHeld_of_locked (h : Orderly (before ++ .locked lock :: after)) (other : Lock) :
    other.isHeld before = false := by
  obtain ⟨s, t, hbefore, hstep, -⟩ := h.around
  cases hstep with
  | takes => exact isHeld_of_free hbefore other
  | idles e he | works other e he | begins e he => cases he

/-- What was taken out of the queue is released next, with the queue held. -/
theorem release_of_cancelled {h : Handle} (horderly : Orderly (before ++ .cancelled h :: after)) :
    ∃ action rest, after = .released (some h) action :: rest := by
  obtain ⟨s, t, -, hstep, hafter⟩ := horderly.around
  cases hstep with
  | removes =>
    cases after with
    | nil => cases hafter.eq_of_nil
    | cons e rest =>
      obtain ⟨u, hnext, -⟩ := hafter.uncons
      cases hnext with
      | lets => exact ⟨_, rest, rfl⟩
  | idles e he | works other e he | begins e he => cases he

/-- **User code never begins with a lock held just if nothing is cancelled.** -/
theorem unlocked_iff (h : Orderly events) : Unlocked events ↔ cancellations events = 0 := by
  constructor
  · intro hunlocked
    refine List.countP_eq_zero.mpr fun e he hcancels => ?_
    cases e with
    | cancelled handle =>
      obtain ⟨before, after, rfl⟩ := List.append_of_mem he
      obtain ⟨action, rest, rfl⟩ := h.release_of_cancelled
      rw [List.append_cons] at h hunlocked
      have hheld := (h.isHeld_iff rfl .queue).mpr ⟨rfl, before, handle, action, rfl, rfl⟩
      rw [hunlocked _ _ _ rfl rfl .queue] at hheld
      cases hheld
    | _ => cases hcancels
  · rintro hnone before e after rfl he lock
    refine Bool.eq_false_iff.mpr fun hheld => ?_
    obtain ⟨-, init, handle, action, rfl, -⟩ := (h.isHeld_iff he lock).mp hheld
    exact List.countP_eq_zero.mp hnone (.cancelled handle) (by simp) rfl

end Orderly

/-! ## 2. Runs -/

theorem World.cancellations_dispose (w : World) : cancellations w.dispose = 0 := by
  refine List.countP_eq_zero.mpr fun e he => ?_
  rcases List.mem_append.mp he with hrecord | hrelease
  · split at hrecord
    · cases hrecord
    · obtain rfl := List.mem_singleton.mp hrecord
      exact Bool.false_ne_true
  · obtain ⟨task, -, rfl⟩ := List.mem_map.mp hrelease
    exact Bool.false_ne_true

/-- A run begins and ends with all locks free. -/
theorem Run.orderly {m n : Machine} {path : List Beat} (hrun : Run m path n) :
    Orderly (trace path) := by
  induction hrun with
  | nil => exact .nil
  | snoc _ hb ih =>
    rw [trace_append, trace_cons, trace_nil, List.append_nil]
    exact ih.append (Machine.move_orderly hb.valid)

/-- **Locks and user code.**  In every run, up to the release of what is left in the end, with
whatever callbacks do:

* no lock is held where an action, a handler or a hook begins or an action is released, just if no
  task is ever cancelled;
* where one is held, it is that of the queue, and what begins is the release of the action of the
  task that a cancellation took out of the queue the moment before;
* a lock is taken when no lock is held, so no command waits for a lock of its own caller;
* between two moves no lock is held, so callbacks carry out their commands with all locks free. -/
theorem locks_of_run {w : World} {path : List Beat} {m : Machine}
    (hrun : Run (Machine.idle w) path m) :
    (Unlocked (trace path ++ m.world.dispose) ↔ cancellations (trace path) = 0) ∧
    (∀ before e after, trace path ++ m.world.dispose = before ++ e :: after →
      e.beginsUserCode = true → ∀ lock : Lock, lock.isHeld before = true ↔
        lock = .queue ∧ ∃ init h action,
          before = init ++ [.cancelled h] ∧ e = .released (some h) action) ∧
    (∀ before lock after, trace path ++ m.world.dispose = before ++ .locked lock :: after →
      ∀ other : Lock, other.isHeld before = false) ∧
    ∀ p q, path = p ++ q → ∀ lock : Lock, lock.isHeld (trace p) = false := by
  have horderly : Orderly (trace path ++ m.world.dispose) :=
    hrun.orderly.append m.world.orderly_dispose
  refine ⟨?_, ?_, ?_, ?_⟩
  · rw [horderly.unlocked_iff, cancellations_append, m.world.cancellations_dispose, Nat.add_zero]
  · intro before e after hcut he lock
    rw [hcut] at horderly
    exact horderly.isHeld_iff he lock
  · intro before lock after hcut other
    rw [hcut] at horderly
    exact horderly.isHeld_of_locked other
  · rintro p q rfl lock
    obtain ⟨k, hp, -⟩ := hrun.split
    exact isHeld_of_free (Run.orderly hp) lock

/-- A start hook that requests tasks, one of which is refused, and runs a pass whose task drops what
is pending; then a task that is left in the end. -/
def bustle : List Beat × Machine :=
  (Machine.idle (World.parts 10 2)).played <|
    [.command (.addListener "eager" .both
        [.schedule "first" none true .goOn [.discard], .fill 2 5, .runPass] [] none none 1), .step,
      .command .notifyStart] ++ List.replicate 23 .step
      ++ [.command (.schedule "left" (some 3) true .goOn []), .step]

/-- A hook, an action and four releases begin with no lock held. -/
theorem locks_of_bustle :
    Run (Machine.idle (World.parts 10 2)) bustle.1 bustle.2 ∧
    bustle.2.isIdle = true ∧
    (trace bustle.1 ++ bustle.2.world.dispose).countP Event.beginsUserCode = 6 ∧
    Unlocked (trace bustle.1 ++ bustle.2.world.dispose) := by
  have hrun : Run (Machine.idle (World.parts 10 2)) bustle.1 bustle.2 := Machine.played_run _ _
  exact ⟨hrun, rfl, rfl, (locks_of_run hrun).1.mpr rfl⟩

/-- A task that is cancelled while it is pending. -/
def withdrawal : List Beat × Machine :=
  (Machine.idle (World.parts 10 10)).played
    [.command (.schedule "task" (some 3) true .goOn []), .step, .command (.cancel 0), .step]

/-- Its action is released with the queue held. -/
theorem withdrawal_locked :
    ¬ ∀ (w : World) (path : List Beat) (m : Machine), Run (Machine.idle w) path m →
      Unlocked (trace path ++ m.world.dispose) := by
  intro hclaim
  have hunlocked := hclaim _ withdrawal.1 withdrawal.2 (Machine.played_run _ _)
  have hfree := hunlocked ((trace withdrawal.1).take 6) (.released (some (.ofNat 0))
    (.script "task" true [])) ((trace withdrawal.1).drop 7) rfl rfl .queue
  cases hfree

end TickHost
