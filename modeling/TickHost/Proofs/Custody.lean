import Mathlib.Algebra.Order.Group.Multiset
import Mathlib.Tactic.Abel
import TickHost.Proofs.Order
import TickHost.Proofs.Steps.Endings
import TickHost.Proofs.Steps.Running

/-!
# Who holds an action

An action that is handed to the scheduler is held by it until it is released.  There are five ways
out: the request is refused, the action has run, its task is cancelled, it is discarded, or it is
left when the scheduler goes away.

* What is taken in, what goes out and what is held are multisets, so that equal actions are counted
  as often as they were handed over.
* One move keeps the books (`Beat.Valid.booked`), so a run keeps them (`Run.books`).
* When a run is over nothing is held but the pending tasks, and these are released in the end.

Where in the trace an action is released is a matter of single moves, except for an action that has
run: it is released by the move that takes note of its end, and up to then the pass that has fired
it waits (`Run.settles`).
-/

namespace TickHost

/-! ## 1. Books -/

/-- An action that was handed over, with the handle it was given, if it was accepted. -/
abbrev Handed : Type := Option Handle × Action

/-- The action of a task, with its handle. -/
def Task.handed (t : Task Action) : Handed := (some t.handle, t.action)

/-- The actions of tasks. -/
def handedOf (tasks : List (Task Action)) : Multiset Handed := tasks.map Task.handed

@[simp] theorem handedOf_nil : handedOf [] = 0 := rfl

@[simp] theorem handedOf_cons (t : Task Action) (tasks : List (Task Action)) :
    handedOf (t :: tasks) = {t.handed} + handedOf tasks := by
  rw [Multiset.singleton_add]; rfl

@[simp] theorem handedOf_append (xs ys : List (Task Action)) :
    handedOf (xs ++ ys) = handedOf xs + handedOf ys := by
  rw [handedOf, List.map_append, ← Multiset.coe_add]; rfl

/-- The order of tasks does not matter, nor how long they have to wait. -/
theorem handedOf_congr {xs ys : List (Task Action)}
    (h : (xs.map Task.handed).Perm (ys.map Task.handed)) : handedOf xs = handedOf ys :=
  Multiset.coe_eq_coe.mpr h

namespace Event

/-- The action that is accepted. -/
def accepted? : Event → Option Handed
  | accepted h _ action => some (some h, action)
  | _ => none

/-- The action that begins to run. -/
def fired? : Event → Option Handed
  | fired h action => some (some h, action)
  | _ => none

/-- The action that is released. -/
def released? : Event → Option Handed
  | released owner action => some (owner, action)
  | _ => none

end Event

/-- The actions accepted in a trace. -/
def acceptedIn (events : List Event) : Multiset Handed := events.filterMap Event.accepted?

/-- The actions that begin to run in a trace. -/
def firedIn (events : List Event) : Multiset Handed := events.filterMap Event.fired?

/-- The actions released in a trace. -/
def releasedIn (events : List Event) : Multiset Handed := events.filterMap Event.released?

/-- How an action goes out while a run goes on. -/
inductive Exit where
  /-- The request was refused. -/
  | refused
  /-- The action has run. -/
  | ran
  /-- The task was cancelled. -/
  | cancelled
  /-- The task was discarded. -/
  | discarded
  deriving DecidableEq

/-- The way out that an operation opens. -/
def Errand.exit? : Errand → Option Exit
  | request .. | fill .. => some .refused
  | settle .. => some .ran
  | cancel _ => some .cancelled
  | discard => some .discarded
  | beginPass | fire _ | endPass _ => none

/-- The way out that a move opens. -/
def Beat.exit? (b : Beat) : Option Exit := b.before.errand?.bind Errand.exit?

/-- The actions that go out in a move in this way. -/
def Beat.out (exit : Exit) (b : Beat) : Multiset Handed :=
  if b.exit? = some exit then releasedIn b.events else 0

/-- The actions handed over in a move: one with a request, and as many as were tried with a batch,
which ends with the first refusal. -/
def Beat.handedOver (b : Beat) : Multiset Action :=
  match b.before.errand? with
  | some (.request _ action) => {action}
  | some (.fill ..) =>
    match b.after.focus with
    | .reply (.filled k refusal) => Multiset.replicate (k + refusal.toList.length) .idle
    | _ => 0
  | _ => 0

/-- The actions that a machine holds for a run to come: those of the pending tasks, and those that
passes under way have yet to fire. -/
def Machine.waiting (m : Machine) : Multiset Handed :=
  handedOf m.world.scheduler.queue + handedOf (m.underway.flatMap Prod.fst)

/-! ## 2. What operations tell -/

section

variable {events p q : List Event} {tasks : List (Task Action)}

@[simp] theorem acceptedIn_append : acceptedIn (p ++ q) = acceptedIn p + acceptedIn q := by
  rw [acceptedIn, List.filterMap_append, ← Multiset.coe_add]; rfl

@[simp] theorem firedIn_append : firedIn (p ++ q) = firedIn p + firedIn q := by
  rw [firedIn, List.filterMap_append, ← Multiset.coe_add]; rfl

@[simp] theorem releasedIn_append : releasedIn (p ++ q) = releasedIn p + releasedIn q := by
  rw [releasedIn, List.filterMap_append, ← Multiset.coe_add]; rfl

/-- What a trace tells about actions: which are accepted, which begin to run and which are released.
-/
structure Tells (events : List Event) (accepted fired released : Multiset Handed) : Prop where
  accepted : acceptedIn events = accepted
  fired : firedIn events = fired
  released : releasedIn events = released

namespace Tells

variable {a a' f f' r r' : Multiset Handed}

theorem append (hp : Tells p a f r) (hq : Tells q a' f' r') :
    Tells (p ++ q) (a + a') (f + f') (r + r') :=
  ⟨by rw [acceptedIn_append, hp.accepted, hq.accepted], by rw [firedIn_append, hp.fired, hq.fired],
    by rw [releasedIn_append, hp.released, hq.released]⟩

/-- Locks tell nothing about actions. -/
theorem holding {lock : Lock} (hp : Tells p a f r) : Tells (World.holding lock p) a f r := by
  have hcons : Tells [.locked lock] 0 0 0 := ⟨rfl, rfl, rfl⟩
  have hsnoc : Tells [.unlocked lock] 0 0 0 := ⟨rfl, rfl, rfl⟩
  simpa [World.holding] using hcons.append (hp.append hsnoc)

/-- What is not about tasks tells nothing about actions. -/
theorem nothing (h : ∀ e ∈ events, e.topic ≠ .tasks) : Tells events 0 0 0 := by
  have hnone {f : Event → Option Handed} (hf : ∀ e : Event, e.topic ≠ .tasks → f e = none) :
      events.filterMap f = [] := List.filterMap_eq_nil_iff.mpr fun e he => hf e (h e he)
  refine ⟨?_, ?_, ?_⟩
  · rw [acceptedIn, hnone fun e he => by cases e <;> first | rfl | exact absurd rfl he]; rfl
  · rw [firedIn, hnone fun e he => by cases e <;> first | rfl | exact absurd rfl he]; rfl
  · rw [releasedIn, hnone fun e he => by cases e <;> first | rfl | exact absurd rfl he]; rfl

/-- A refused action is released. -/
theorem refusal (refusal : Refusal) (action : Action) :
    Tells (World.refusalEvents refusal action) 0 0 {(none, action)} := by
  cases refusal <;> exact ⟨rfl, rfl, rfl⟩

/-- Accepted tasks are told of one by one. -/
theorem batch : ∀ tasks : List (Task Action), Tells (tasks.flatMap fun t =>
    World.holding .queue [.accepted t.handle t.remaining t.action]) (handedOf tasks) 0 0
  | [] => ⟨rfl, rfl, rfl⟩
  | t :: tasks => by
    have hfirst : Tells (World.holding .queue [.accepted t.handle t.remaining t.action])
      {t.handed} 0 0 := ⟨rfl, rfl, rfl⟩
    simpa using hfirst.append (batch tasks)

/-- So are tasks that are released. -/
theorem releases (tasks : List (Task Action)) :
    Tells (World.releases tasks) 0 0 (handedOf tasks) := by
  have hreleased : (World.releases tasks).filterMap Event.released? = tasks.map Task.handed := by
    rw [World.releases, List.filterMap_map, ← List.filterMap_eq_map]
    rfl
  have hnone {f : Event → Option Handed} (hf : ∀ owner action, f (.released owner action) = none) :
      (World.releases tasks).filterMap f = [] := by
    refine List.filterMap_eq_nil_iff.mpr fun e he => ?_
    obtain ⟨task, -, rfl⟩ := List.mem_map.mp he
    exact hf _ _
  exact ⟨congrArg _ (hnone fun _ _ => rfl), congrArg _ (hnone fun _ _ => rfl),
    congrArg _ hreleased⟩

end Tells

end

/-! ## 3. One move -/

/-- What a move does with actions. -/
inductive ActionStep (b : Beat) : Prop
  /-- It is not concerned with any. -/
  | elsewhere (hexit : b.exit? = none) (hhanded : b.handedOver = 0)
      (htells : Tells b.events 0 0 0) (hwaiting : b.after.waiting = b.before.waiting)
      (hrunning : b.after.running = b.before.running)
  /-- It takes some in and refuses others. -/
  | requested (accepted refused : Multiset Handed) (hexit : b.exit? = some .refused)
      (hhanded : b.handedOver = accepted.map Prod.snd + refused.map Prod.snd)
      (htells : Tells b.events accepted 0 refused)
      (hwaiting : b.after.waiting = accepted + b.before.waiting)
      (hrunning : b.after.running = b.before.running) (hnameless : ∀ x ∈ refused, x.1 = none)
  /-- It does away with some that wait. -/
  | removed (exit : Exit) (released : Multiset Handed) (hexit : b.exit? = some exit)
      (hway : exit = .cancelled ∨ exit = .discarded) (hhanded : b.handedOver = 0)
      (htells : Tells b.events 0 0 released)
      (hwaiting : b.before.waiting = released + b.after.waiting)
      (hrunning : b.after.running = b.before.running)
  /-- It lets one run that has waited. -/
  | fired (task : Task Action) (herrand : b.before.errand? = some (.fire task))
      (htells : Tells b.events 0 {task.handed} 0)
      (hwaiting : b.before.waiting = {task.handed} + b.after.waiting)
      (hrunning : b.after.running = task :: b.before.running)
  /-- It is done with one that has run. -/
  | settled (task : Task Action) (hexit : b.exit? = some .ran) (hhanded : b.handedOver = 0)
      (htells : Tells b.events 0 0 {task.handed}) (hwaiting : b.after.waiting = b.before.waiting)
      (hrunning : b.before.running = task :: b.after.running)

theorem Machine.waiting_congr {m n : Machine} (hqueue : n.world.scheduler.queue =
    m.world.scheduler.queue) (hunderway : n.underway = m.underway) : n.waiting = m.waiting := by
  rw [waiting, waiting, hqueue, hunderway]

/-- The actions that wait once more tasks are pending. -/
theorem Machine.waiting_append {m n : Machine} {tasks : List (Task Action)}
    (hqueue : n.world.scheduler.queue = m.world.scheduler.queue ++ tasks)
    (hunderway : n.underway = m.underway) : n.waiting = handedOf tasks + m.waiting := by
  rw [waiting, waiting, hqueue, hunderway, handedOf_append]
  abel

namespace Beat.Valid

variable {b : Beat} (hb : b.Valid)

include hb

/-- What a move with this operation does to the running actions. -/
theorem running_of_errand {errand : Errand} (herrand : b.before.errand? = some errand) :
    errand.settles ++ b.after.running = errand.fires ++ b.before.running := by
  have hrunning := Machine.move_running hb
  simp only [Machine.settling, Machine.firing, herrand, Option.elim] at hrunning
  exact hrunning

theorem running_elsewhere (herrand : b.before.errand? = none) :
    b.after.running = b.before.running := by
  have hrunning := Machine.move_running hb
  simp only [Machine.settling, Machine.firing, herrand] at hrunning
  exact hrunning

theorem requests_actions {delay : Int} {action : Action}
    (herrand : b.before.errand? = some (.request delay action))
    (hscheduler : b.after.world.scheduler = (b.before.world.request delay action).world.scheduler)
    (hunderway : b.after.underway = b.before.underway)
    (hevents : b.events = (b.before.world.request delay action).events) : ActionStep b := by
  have hrunning : b.after.running = b.before.running := hb.running_of_errand herrand
  have hexit : b.exit? = some .refused := by rw [exit?, herrand]; rfl
  have hhanded : b.handedOver = {action} := by rw [handedOver, herrand]
  rcases b.before.world.request_cases delay action with ⟨d, rfl, hrequest⟩ | ⟨refusal, hrequest⟩
  · rw [hrequest] at hscheduler hevents
    have hqueue := congrArg Scheduler.queue hscheduler
    refine .requested {(some b.before.world.scheduler.nextHandle, action)} 0 hexit ?_ ?_ ?_
      hrunning ?_
    · rw [hhanded]; rfl
    · rw [hevents]; exact ⟨rfl, rfl, rfl⟩
    · exact Machine.waiting_append hqueue hunderway
    · exact fun x hx => absurd hx (Multiset.notMem_zero x)
  · rw [hrequest] at hscheduler hevents
    refine .requested 0 {(none, action)} hexit ?_ ?_ ?_ hrunning ?_
    · rw [hhanded]; rfl
    · rw [hevents]; exact .refusal refusal action
    · rw [Machine.waiting_congr (congrArg _ hscheduler) hunderway, zero_add]
    · exact fun x hx => congrArg Prod.fst (Multiset.mem_singleton.mp hx)

theorem fills_actions {n : Nat} {delay : Int}
    (herrand : b.before.errand? = some (.fill n delay))
    (hscheduler : b.after.world.scheduler = (b.before.world.fill n delay).world.scheduler)
    (hunderway : b.after.underway = b.before.underway)
    (hevents : b.events = (b.before.world.fill n delay).events)
    (hreply : b.after.focus = .reply (b.before.world.fill n delay).value) : ActionStep b := by
  have hrunning : b.after.running = b.before.running := hb.running_of_errand herrand
  have hexit : b.exit? = some .refused := by rw [exit?, herrand]; rfl
  obtain ⟨refusal, more, hmore, hfill⟩ := b.before.world.fill_cases n delay
  rw [hfill] at hscheduler hevents hreply
  have hqueue := congrArg Scheduler.queue hscheduler
  have hhanded : b.handedOver = Multiset.replicate
      (b.before.world.scheduler.capacityFor delay n + refusal.toList.length) .idle := by
    rw [handedOver, herrand, hreply]
  have hbatch (k : Nat) : (handedOf (b.before.world.scheduler.batch delay.toNat .idle k)).map
      Prod.snd = Multiset.replicate k Action.idle := by
    simp [handedOf, Scheduler.batch, Function.comp_def, Task.handed, Multiset.coe_replicate]
  have hwaiting := Machine.waiting_append hqueue hunderway
  rcases hmore with ⟨rfl, rfl⟩ | ⟨reason, rfl, rfl⟩
  · refine .requested _ 0 hexit ?_ ?_ hwaiting hrunning
      fun x hx => absurd hx (Multiset.notMem_zero x)
    · rw [hhanded, hbatch]
      simp
    · rw [hevents, List.append_nil]; exact .batch _
  · refine .requested _ {(none, .idle)} hexit ?_ ?_ hwaiting hrunning
      fun x hx => congrArg Prod.fst (Multiset.mem_singleton.mp hx)
    · rw [hhanded, hbatch, Multiset.replicate_add]
      rfl
    · rw [hevents]
      simpa using (Tells.batch _).append (.refusal reason .idle)

theorem cancels_actions {h : Handle} (herrand : b.before.errand? = some (.cancel h))
    (hscheduler : b.after.world.scheduler = (b.before.world.cancel h).world.scheduler)
    (hunderway : b.after.underway = b.before.underway)
    (hevents : b.events = (b.before.world.cancel h).events) : ActionStep b := by
  have hrunning : b.after.running = b.before.running := hb.running_of_errand herrand
  have hexit : b.exit? = some .cancelled := by rw [exit?, herrand]; rfl
  have hhanded : b.handedOver = 0 := by rw [handedOver, herrand]
  cases hfind : b.before.world.scheduler.find? h with
  | none =>
    simp only [World.cancel, hfind] at hscheduler hevents
    refine .removed _ 0 hexit (Or.inl rfl) hhanded ?_ ?_ hrunning
    · rw [hevents]; exact ⟨rfl, rfl, rfl⟩
    · rw [Machine.waiting_congr (congrArg _ hscheduler) hunderway, zero_add]
  | some task =>
    obtain ⟨rfl, before, after, hqueue, hremove⟩ := Scheduler.remove_of_find? hfind
    simp only [World.cancel, hfind, hremove] at hscheduler hevents
    refine .removed _ {task.handed} hexit (Or.inl rfl) hhanded ?_ ?_ hrunning
    · rw [hevents]; exact ⟨rfl, rfl, rfl⟩
    · rw [Machine.waiting, Machine.waiting, hqueue, hscheduler, hunderway]
      simp only [handedOf_append, handedOf_cons]
      abel

theorem discards_actions {more : List Event} (herrand : b.before.errand? = some .discard)
    (hmore : ∀ e ∈ more, e.topic = .other)
    (hscheduler : b.after.world.scheduler = b.before.world.scheduler.clear)
    (hunderway : b.after.underway = b.before.underway)
    (hevents : b.events = b.before.world.discard.events ++ more) : ActionStep b := by
  have hrunning : b.after.running = b.before.running := hb.running_of_errand herrand
  have hexit : b.exit? = some .discarded := by rw [exit?, herrand]; rfl
  have hhanded : b.handedOver = 0 := by rw [handedOver, herrand]
  have hothers : Tells more 0 0 0 := .nothing fun e he => by rw [hmore e he]; decide
  have hdiscards : Tells b.before.world.discard.events 0 0
      (handedOf b.before.world.scheduler.queue) := by
    have hrecord : Tells (World.holding .queue [.discarded b.before.world.scheduler.queue.length]
        ++ if b.before.world.scheduler.queue.isEmpty then [] else
          [.logged (.discarded b.before.world.scheduler.queue.length)]) 0 0 0 := by
      split <;> exact ⟨rfl, rfl, rfl⟩
    simpa [World.discard] using hrecord.append (.releases _)
  refine .removed _ (handedOf b.before.world.scheduler.queue) hexit (Or.inr rfl) hhanded ?_ ?_
    hrunning
  · rw [hevents]
    simpa using hdiscards.append hothers
  · rw [Machine.waiting, Machine.waiting, hscheduler, hunderway]
    simp [Scheduler.clear]

theorem begins_actions (herrand : b.before.errand? = some .beginPass)
    (hscheduler : b.after.world.scheduler = b.before.world.scheduler.drain)
    (hunderway : b.after.underway = (b.before.world.scheduler.due, 0) :: b.before.underway)
    (hevents : b.events = b.before.world.beginPass.events) : ActionStep b := by
  have hrunning : b.after.running = b.before.running := hb.running_of_errand herrand
  refine .elsewhere (by rw [exit?, herrand]; rfl) (by rw [handedOver, herrand]) ?_ ?_ hrunning
  · rw [hevents]; exact ⟨rfl, rfl, rfl⟩
  · -- the queue is split, and counting down keeps the actions
    have hsplit := handedOf_congr
      ((List.filter_append_perm Task.isDue b.before.world.scheduler.queue).map Task.handed)
    have hcountDown (tasks : List (Task Action)) :
        handedOf (tasks.map Task.countDown) = handedOf tasks := by
      refine handedOf_congr ?_
      rw [List.map_map]
      exact .rfl
    rw [Machine.waiting, Machine.waiting, hscheduler, hunderway, Scheduler.drain, Scheduler.due]
    simp only [List.flatMap_cons, handedOf_append, hcountDown, ← hsplit]
    abel

theorem ends_actions {k : Nat} {passes : List (List (Task Action) × Nat)}
    (herrand : b.before.errand? = some (.endPass k))
    (hscheduler : b.after.world.scheduler = b.before.world.scheduler.completePass)
    (hbefore : b.before.underway = ([], k) :: passes) (hafter : b.after.underway = passes)
    (hevents : b.events = (b.before.world.endPass k).events) : ActionStep b := by
  have hrunning : b.after.running = b.before.running := hb.running_of_errand herrand
  refine .elsewhere (by rw [exit?, herrand]; rfl) (by rw [handedOver, herrand]) ?_ ?_ hrunning
  · rw [hevents, World.endPass]
    simp only
    split <;> exact ⟨rfl, rfl, rfl⟩
  · rw [Machine.waiting, Machine.waiting, hscheduler, hbefore, hafter]
    rfl

/-- **What a move does with actions**: it takes in or refuses what is handed over, does away with
what waits, lets it run, or is done with what has run. -/
theorem actions : ActionStep b := by
  cases Machine.move_scheduler hb with
  | elsewhere herrand hscheduler hunderway =>
    refine .elsewhere (by rw [exit?, herrand]; rfl) (by rw [handedOver, herrand])
      (.nothing (hb.elsewhere herrand)) ?_ (hb.running_elsewhere herrand)
    exact Machine.waiting_congr (congrArg _ hscheduler) hunderway
  | requested delay action herrand hscheduler hunderway hevents =>
    exact hb.requests_actions herrand hscheduler hunderway hevents
  | filled n delay herrand hscheduler hunderway hevents hreply =>
    exact hb.fills_actions herrand hscheduler hunderway hevents hreply
  | cancelled h herrand hscheduler hunderway hevents =>
    exact hb.cancels_actions herrand hscheduler hunderway hevents
  | discarded more herrand hmore hscheduler hunderway hevents =>
    exact hb.discards_actions herrand hmore hscheduler hunderway hevents
  | began herrand hscheduler hunderway hevents =>
    exact hb.begins_actions herrand hscheduler hunderway hevents
  | fired task due k passes herrand hscheduler hbefore hafter hevents =>
    simp only at hscheduler hbefore hafter hevents
    refine .fired task herrand ?_ ?_ (hb.running_of_errand herrand)
    · rw [hevents]; exact ⟨rfl, rfl, rfl⟩
    · rw [Machine.waiting, Machine.waiting, hscheduler, hbefore, hafter]
      simp only [List.flatMap_cons, handedOf_append, handedOf_cons]
      abel
  | settled task outcome herrand hscheduler hunderway hevents =>
    simp only at hscheduler hevents
    refine .settled task (by rw [exit?, herrand]; rfl) (by rw [handedOver, herrand]) ?_ ?_ ?_
    · rw [hevents]
      cases outcome <;> exact ⟨rfl, rfl, rfl⟩
    · exact Machine.waiting_congr (congrArg _ hscheduler) hunderway
    · exact (hb.running_of_errand herrand).symm
  | ended k passes herrand hscheduler hbefore hafter hevents =>
    exact hb.ends_actions herrand hscheduler hbefore hafter hevents

end Beat.Valid

/-- **A move keeps the books.** -/
structure Beat.Booked (b : Beat) : Prop where
  /-- What is handed over is accepted or refused. -/
  requests : b.handedOver = (acceptedIn b.events).map Prod.snd + (b.out .refused).map Prod.snd
  /-- What is released goes out in one of four ways. -/
  released : releasedIn b.events = b.out .refused + b.out .ran + b.out .cancelled + b.out .discarded
  /-- What waits was accepted, and it begins to run, is cancelled or is discarded. -/
  waiting : acceptedIn b.events + b.before.waiting
    = (firedIn b.events + b.out .cancelled + b.out .discarded) + b.after.waiting
  /-- What is running has begun to run, and goes out in the end. -/
  running : firedIn b.events + handedOf b.before.running = b.out .ran + handedOf b.after.running
  /-- What is refused has got no handle. -/
  nameless : ∀ x ∈ b.out .refused, x.1 = none

theorem Beat.Valid.booked {b : Beat} (hb : b.Valid) : b.Booked := by
  cases hb.actions with
  | elsewhere hexit hhanded htells hwaiting hrunning =>
    obtain ⟨haccepted, hfired, hreleased⟩ := htells
    have hout (exit : Exit) : b.out exit = 0 := by rw [Beat.out, hexit, if_neg nofun]
    refine ⟨?_, ?_, ?_, ?_, ?_⟩ <;>
      simp [hhanded, haccepted, hfired, hreleased, hout, hwaiting, hrunning]
  | requested accepted refused hexit hhanded htells hwaiting hrunning hnameless =>
    obtain ⟨haccepted, hfired, hreleased⟩ := htells
    have hout (exit : Exit) : b.out exit = if exit = .refused then refused else 0 := by
      cases exit <;> simp [Beat.out, hexit, hreleased]
    refine ⟨?_, ?_, ?_, ?_, ?_⟩
    · simp [hhanded, haccepted, hout]
    · simp [hreleased, hout]
    · simp [haccepted, hfired, hwaiting, hout]
    · simp [hfired, hrunning, hout]
    · simpa [hout] using hnameless
  | removed exit released hexit hway hhanded htells hwaiting hrunning =>
    obtain ⟨haccepted, hfired, hreleased⟩ := htells
    have hout (other : Exit) : b.out other = if exit = other then released else 0 := by
      simp [Beat.out, hexit, hreleased]
    refine ⟨?_, ?_, ?_, ?_, ?_⟩ <;> rcases hway with rfl | rfl <;>
      simp [hhanded, haccepted, hfired, hreleased, hout, hwaiting, hrunning]
  | fired task herrand htells hwaiting hrunning =>
    obtain ⟨haccepted, hfired, hreleased⟩ := htells
    have hexit : b.exit? = none := by rw [Beat.exit?, herrand]; rfl
    have hhanded : b.handedOver = 0 := by rw [Beat.handedOver, herrand]
    have hout (exit : Exit) : b.out exit = 0 := by rw [Beat.out, hexit, if_neg nofun]
    refine ⟨?_, ?_, ?_, ?_, ?_⟩ <;>
      simp [hhanded, haccepted, hfired, hreleased, hout, hwaiting, hrunning]
  | settled task hexit hhanded htells hwaiting hrunning =>
    obtain ⟨haccepted, hfired, hreleased⟩ := htells
    have hout (exit : Exit) : b.out exit = if exit = .ran then {task.handed} else 0 := by
      cases exit <;> simp [Beat.out, hexit, hreleased]
    refine ⟨?_, ?_, ?_, ?_, ?_⟩ <;>
      simp [hhanded, haccepted, hfired, hreleased, hout, hwaiting, hrunning]

/-! ## 4. Runs -/

/-- The actions handed over in a run. -/
def handedOver (path : List Beat) : Multiset Action := (path.map Beat.handedOver).sum

/-- The actions that go out in this way in a run. -/
def goneBy (exit : Exit) (path : List Beat) : Multiset Handed := (path.map (Beat.out exit)).sum

/-- **A run keeps the books.** -/
structure Books (path : List Beat) (m : Machine) : Prop where
  /-- What is handed over is accepted or refused. -/
  requests : handedOver path =
    (acceptedIn (trace path)).map Prod.snd + (goneBy .refused path).map Prod.snd
  /-- What is released goes out in one of four ways. -/
  released : releasedIn (trace path) =
    goneBy .refused path + goneBy .ran path + goneBy .cancelled path + goneBy .discarded path
  /-- What was accepted has begun to run, was cancelled or discarded, or waits. -/
  waiting : acceptedIn (trace path) =
    firedIn (trace path) + goneBy .cancelled path + goneBy .discarded path + m.waiting
  /-- What has begun to run has gone out, or is running. -/
  running : firedIn (trace path) = goneBy .ran path + handedOf m.running
  /-- What is refused has got no handle. -/
  nameless : ∀ x ∈ goneBy .refused path, x.1 = none

section

variable {p q : List Beat} {b : Beat} {exit : Exit}

theorem handedOver_snoc : handedOver (p ++ [b]) = handedOver p + b.handedOver := by
  simp [handedOver]

theorem goneBy_snoc : goneBy exit (p ++ [b]) = goneBy exit p + b.out exit := by
  simp [goneBy]

theorem trace_snoc : trace (p ++ [b]) = trace p ++ b.events := by
  rw [trace_append, trace_cons, trace_nil, List.append_nil]

/-- One more move. -/
theorem Books.snoc (h : Books p b.before) (hb : b.Booked) : Books (p ++ [b]) b.after where
  requests := by
    rw [handedOver_snoc, trace_snoc, acceptedIn_append, goneBy_snoc, Multiset.map_add,
      Multiset.map_add, h.requests, hb.requests]
    abel
  released := by
    rw [trace_snoc, releasedIn_append, h.released, hb.released]
    simp only [goneBy_snoc]
    abel
  waiting := by
    rw [trace_snoc, acceptedIn_append, firedIn_append, goneBy_snoc, goneBy_snoc]
    calc acceptedIn (trace p) + acceptedIn b.events
        = firedIn (trace p) + goneBy .cancelled p + goneBy .discarded p
          + (acceptedIn b.events + b.before.waiting) := by rw [h.waiting]; abel
      _ = firedIn (trace p) + firedIn b.events + (goneBy .cancelled p + b.out .cancelled)
          + (goneBy .discarded p + b.out .discarded) + b.after.waiting := by
        rw [hb.waiting]; abel
  running := by
    rw [trace_snoc, firedIn_append, goneBy_snoc]
    calc firedIn (trace p) + firedIn b.events
        = goneBy .ran p + (firedIn b.events + handedOf b.before.running) := by rw [h.running]; abel
      _ = goneBy .ran p + b.out .ran + handedOf b.after.running := by rw [hb.running]; abel
  nameless := by
    intro x hx
    rw [goneBy_snoc] at hx
    exact (Multiset.mem_add.mp hx).elim (h.nameless x) (hb.nameless x)

end

theorem Run.books {w : World} (hw : w.Fresh) {path : List Beat} {m : Machine}
    (hrun : Run (Machine.idle w) path m) : Books path m := by
  induction hrun with
  | nil =>
    have hwaiting : (Machine.idle w).waiting = 0 := by
      rw [Machine.waiting, Machine.idle, hw.queue]; rfl
    exact ⟨rfl, rfl, by rw [hwaiting]; rfl, rfl, fun x hx => absurd hx (Multiset.notMem_zero x)⟩
  | snoc _ hb ih =>
    obtain ⟨rfl, hvalid, rfl⟩ := hb
    exact ih.snoc hvalid.booked

/-- Nothing runs when nothing is under way, and what waits is pending. -/
theorem Machine.held_of_isIdle {m : Machine} (h : m.isIdle = true) :
    m.waiting = handedOf m.world.scheduler.queue ∧ m.running = [] := by
  obtain ⟨w, focus, stack⟩ := m
  simp only [isIdle, Bool.and_eq_true, List.isEmpty_iff] at h
  obtain ⟨rfl, hfinal⟩ := h
  refine ⟨?_, rfl⟩
  cases focus <;> first | exact add_zero _ | cases hfinal

/-- What is left in the end goes out in the end. -/
theorem World.tells_dispose (w : World) : Tells w.dispose 0 0 (handedOf w.scheduler.queue) := by
  have hrecord : Tells (if w.scheduler.queue.isEmpty then [] else
      [.logged (.disposing w.scheduler.queue.length)]) 0 0 0 := by
    split <;> exact ⟨rfl, rfl, rfl⟩
  simpa [World.dispose] using hrecord.append (.releases w.scheduler.queue)

/-- **Whatever was handed over goes out once**, when all is over. -/
theorem Books.complete {path : List Beat} {m : Machine} (h : Books path m)
    (hidle : m.isIdle = true) :
    releasedIn (trace path ++ m.world.dispose) =
      goneBy .refused path + acceptedIn (trace path) := by
  obtain ⟨hwaiting, hrunning⟩ := Machine.held_of_isIdle hidle
  rw [releasedIn_append, h.released, m.world.tells_dispose.released, h.waiting, h.running,
    hwaiting, hrunning]
  simp only [handedOf_nil]
  abel

/-- A handle was given out for each acceptance. -/
theorem handles_acceptedIn (events : List Event) :
    (acceptedIn events).map Prod.fst =
      (((events.filterMap Event.acceptedTask?).map some : List (Option Handle)) : Multiset _) := by
  rw [acceptedIn, Multiset.map_coe, List.map_filterMap, List.map_filterMap]
  refine congrArg _ (List.filterMap_congr fun e _ => ?_)
  cases e <;> rfl

/-- With no more than `2 ^ 64` acceptances no handle was given out twice. -/
theorem Run.handles_nodup {w : World} (hw : w.Fresh) {path : List Beat} {m : Machine}
    (hrun : Run (Machine.idle w) path m) (hfew : acceptances (trace path) ≤ 2 ^ 64) :
    ((acceptedIn (trace path)).map Prod.fst).Nodup := by
  obtain ⟨l, hreplay, -⟩ := run_replay hw hrun
  have haccepted : l.accepted = acceptances (trace path) := by
    rw [Ledger.accepted_of_replay hreplay, Nat.zero_add]
  obtain ⟨hsorted, -⟩ := Ledger.acceptedTasks_sorted hreplay (haccepted ▸ hfew)
  rw [handles_acceptedIn, Multiset.coe_nodup]
  refine List.Nodup.map (Option.some_injective _) (hsorted.imp fun hlt heq => ?_)
  exact absurd hlt (heq ▸ UInt64.lt_irrefl _)

/-! ## 5. Where actions are released -/

/-- **Where a move releases actions.** -/
def Beat.InPlace (b : Beat) : Prop :=
  match b.before.errand? with
  | some (.request _ action) =>
    -- a refused action is released before the refusal is returned
    (∃ h, b.after.focus = .reply (.accepted h) ∧ releasedIn b.events = 0) ∨
    ∃ refusal, b.after.focus = .reply (.refused refusal) ∧
      b.events = World.refusalEvents refusal action
  | some (.fill ..) =>
    ∃ k refusal, b.after.focus = .reply (.filled k refusal) ∧
      releasedIn b.events = Multiset.replicate refusal.toList.length (none, .idle)
  | some (.cancel h) =>
    -- that of a cancelled task before the record
    (b.after.focus = .reply (.flag false) ∧ releasedIn b.events = 0) ∨
    ∃ t ∈ b.before.world.scheduler.queue, t.handle = h ∧ b.after.focus = .reply (.flag true) ∧
      b.events =
        World.holding .queue [.cancelled h, .released (some h) t.action, .logged (.cancelled h)]
  | some .discard =>
    -- those of discarded tasks after it, in the order of the queue
    ∃ more, releasedIn more = 0 ∧ b.events =
      World.holding .queue [.discarded b.before.world.scheduler.queue.length]
        ++ (if b.before.world.scheduler.queue.isEmpty then [] else
          [.logged (.discarded b.before.world.scheduler.queue.length)])
        ++ World.releases b.before.world.scheduler.queue ++ more
  | some (.settle task outcome) =>
    -- one that has run before the record of its panic
    ∃ due fired, b.before.ending? = some (.firing task due fired, outcome) ∧ b.events =
      .released (some task.handle) task.action :: (Frame.firing task due fired).complaint outcome
  | _ => releasedIn b.events = 0

/-- Every move releases actions there. -/
theorem Beat.Valid.inPlace {b : Beat} (hb : b.Valid) : b.InPlace := by
  cases Machine.move_scheduler hb with
  | requested delay action herrand _ _ hevents hreply =>
    simp only at hevents hreply
    simp only [Beat.InPlace, herrand]
    rcases b.before.world.request_cases delay action with ⟨d, rfl, hrequest⟩ | ⟨refusal, hrequest⟩
    · rw [hrequest] at hevents hreply
      exact Or.inl ⟨_, hreply, by rw [hevents]; rfl⟩
    · rw [hrequest] at hevents hreply
      exact Or.inr ⟨refusal, hreply, hevents⟩
  | filled n delay herrand _ _ hevents hreply =>
    simp only at hevents hreply
    simp only [Beat.InPlace, herrand]
    obtain ⟨refusal, more, hmore, hfill⟩ := b.before.world.fill_cases n delay
    rw [hfill] at hevents hreply
    refine ⟨_, refusal, hreply, ?_⟩
    rw [hevents, releasedIn_append, (Tells.batch _).released, zero_add]
    rcases hmore with ⟨rfl, rfl⟩ | ⟨reason, rfl, rfl⟩
    · rfl
    · exact (Tells.refusal reason .idle).released
  | cancelled h herrand _ _ hevents hreply =>
    simp only at hevents hreply
    simp only [Beat.InPlace, herrand]
    cases hfind : b.before.world.scheduler.find? h with
    | none =>
      simp only [World.cancel, hfind] at hevents hreply
      exact Or.inl ⟨hreply, by rw [hevents]; rfl⟩
    | some task =>
      simp only [World.cancel, hfind] at hevents hreply
      obtain ⟨hhandle, before, after, hqueue, -⟩ := Scheduler.remove_of_find? hfind
      exact Or.inr ⟨task, by simp [hqueue], hhandle, hreply, hevents⟩
  | discarded more herrand hmore _ _ hevents =>
    simp only [Beat.InPlace, herrand]
    exact ⟨more, (Tells.nothing fun e he => by rw [hmore e he]; decide).released, hevents⟩
  | settled task outcome herrand =>
    simp only [Beat.InPlace, herrand]
    obtain ⟨due, fired, hending⟩ := Machine.ending_of_errand herrand
    exact ⟨due, fired, hending, (hb.noted hending).2⟩
  | elsewhere herrand =>
    simp only [Beat.InPlace, herrand]
    exact (Tells.nothing (hb.elsewhere herrand)).released
  | began herrand _ _ hevents | fired _ _ _ _ herrand _ _ _ hevents =>
    simp only at hevents
    simp only [Beat.InPlace, herrand, hevents]
    rfl
  | ended k passes herrand _ _ _ hevents =>
    simp only at hevents
    simp only [Beat.InPlace, herrand, hevents, World.endPass]
    split <;> rfl

/-- An action that has run is released while the pass that has fired it waits: nothing has taken the
frame of the pass off the stack, and the move that does so releases the action, takes note of how it
ended, and lets the pass go on. -/
def Settles (task : Task Action) (due : List (Task Action)) (k : Nat) (S : List Frame)
    (path : List Beat) : Prop :=
  ∃ inner last rest outcome, path = inner ++ last :: rest ∧
    (∀ b ∈ inner, ∃ above, b.before.stack = above ++ .firing task due k :: S) ∧
    last.before.focus = .ended outcome ∧ last.before.stack = .firing task due k :: S ∧
    last.events =
      .released (some task.handle) task.action :: (Frame.firing task due k).complaint outcome ∧
    last.after.focus = .firing due k ∧ last.after.stack = S

/-- **An action that has run is released when it ends**, whatever happens meanwhile, and up to then
the pass that has fired it waits. -/
theorem Run.settles {task : Task Action} {due : List (Task Action)} {k : Nat} {S : List Frame}
    {m n : Machine} {path : List Beat} (hrun : Run m path n)
    (hstack : ∃ above, m.stack = above ++ .firing task due k :: S) (hn : n.stack = []) :
    Settles task due k S path := by
  induction path generalizing m with
  | nil =>
    obtain rfl := hrun.eq_of_nil
    obtain ⟨above, hstack⟩ := hstack
    exact absurd (hstack.symm.trans hn) (by simp)
  | cons b path ih =>
    obtain ⟨_, ⟨rfl, hvalid, rfl⟩, hrest⟩ := hrun.uncons
    have hlater (h : ∃ above, b.after.stack = above ++ .firing task due k :: S) :
        Settles task due k S (b :: path) := by
      obtain ⟨inner, last, rest, outcome, rfl, hinner, hlast⟩ := ih hrest h
      exact ⟨b :: inner, last, rest, outcome, rfl, List.forall_mem_cons.mpr ⟨hstack, hinner⟩, hlast⟩
    by_cases hback : b.before.BackAt (.firing task due k :: S)
    · rcases Machine.move_back hvalid hback with ⟨r, -, hresume⟩ | ⟨outcome, hfocus, hfinish⟩
      · -- a reply of the action's is not its end
        obtain ⟨hafter, -⟩ := Stepped.mk.inj hresume
        exact hlater ⟨[], by rw [hafter]; rfl⟩
      · obtain ⟨hafter, hevents⟩ := Stepped.mk.inj hfinish
        have hcomplaint := Machine.events_finish b.before.world S outcome (.firing task due k)
        exact ⟨[], b, path, outcome, rfl, List.forall_mem_nil _, hfocus, hback.1,
          hevents.trans hcomplaint, by rw [hafter], by rw [hafter]⟩
    · obtain ⟨above, hstack⟩ := hstack
      exact hlater (Machine.move_above hvalid hstack hback)

/-- A pass fires the first of the tasks that are due, and waits for its action. -/
theorem Beat.Valid.fires {b : Beat} (hb : b.Valid) {task : Task Action}
    (herrand : b.before.errand? = some (.fire task)) :
    ∃ due k, b.before.focus = .firing (task :: due) k ∧
      b.after.stack = .firing task due (k + 1) :: b.before.stack := by
  obtain ⟨due, k, hfocus⟩ := Machine.firing_of_errand herrand
  have hstep := Machine.step_of_move hb (by simp [Machine.isIdle, hfocus, Focus.isFinal])
    (by simp [hfocus])
  simp only [Machine.step?, hfocus] at hstep
  obtain ⟨hafter, -⟩ := Stepped.mk.inj (Option.some.inj hstep)
  exact ⟨due, k, hfocus, by rw [← hafter]⟩

/-- Where an action begins to run, a task is fired. -/
theorem Beat.Valid.fires_of_mem {b : Beat} (hb : b.Valid) {h : Handle} {action : Action}
    (hmem : .fired h action ∈ b.events) :
    ∃ task, task.handed = (some h, action) ∧ b.before.errand? = some (.fire task) := by
  have hfired : (some h, action) ∈ firedIn b.events :=
    Multiset.mem_coe.mpr (List.mem_filterMap.mpr ⟨_, hmem, rfl⟩)
  cases hb.actions with
  | fired task herrand htells =>
    rw [htells.fired, Multiset.mem_singleton] at hfired
    exact ⟨task, hfired.symm, herrand⟩
  | elsewhere _ _ htells | requested _ _ _ _ htells | removed _ _ _ _ _ htells
  | settled _ _ _ htells =>
    rw [htells.fired] at hfired
    exact absurd hfired (Multiset.notMem_zero _)

/-! ## 6. Every action -/

/-- **What becomes of the actions that are handed to the scheduler in a run**, when nothing is under
way any more and the scheduler goes away. -/
structure Custody (path : List Beat) (m : Machine) : Prop where
  /-- Every action is released once. -/
  once : (releasedIn (trace path ++ m.world.dispose)).map Prod.snd = handedOver path
  /-- It goes out in one of five ways. -/
  ways : releasedIn (trace path ++ m.world.dispose) = goneBy .refused path + goneBy .ran path
    + goneBy .cancelled path + goneBy .discarded path + handedOf m.world.scheduler.queue
  /-- It was refused or accepted. -/
  handed : handedOver path =
    (goneBy .refused path).map Prod.snd + (acceptedIn (trace path)).map Prod.snd
  /-- What was refused has got no handle, and does not run. -/
  refused : ∀ x ∈ goneBy .refused path, x.1 = none ∧ x ∉ firedIn (trace path)
  /-- What was accepted runs, is cancelled, is discarded or is left. -/
  accepted : acceptedIn (trace path) = goneBy .ran path + goneBy .cancelled path
    + goneBy .discarded path + handedOf m.world.scheduler.queue
  /-- Only what has run goes out as having run. -/
  fired : firedIn (trace path) = goneBy .ran path
  /-- While handles differ, one that was accepted is released once under its handle, -/
  handles : acceptances (trace path) ≤ 2 ^ 64 → ∀ x ∈ acceptedIn (trace path),
    ((releasedIn (trace path ++ m.world.dispose)).map Prod.fst).count x.1 = 1
  /-- and what was cancelled, discarded or left has not run. -/
  unfired : acceptances (trace path) ≤ 2 ^ 64 → ∀ x ∈ goneBy .cancelled path
    + goneBy .discarded path + handedOf m.world.scheduler.queue, x ∉ firedIn (trace path)
  /-- Each move releases actions at their place. -/
  inPlace : ∀ b ∈ path, b.InPlace
  /-- An action that has begun to run is released before its pass goes on. -/
  settles : ∀ p b q h action, path = p ++ b :: q → .fired h action ∈ b.events →
    ∃ task due k, task.handed = (some h, action) ∧ b.before.focus = .firing (task :: due) k ∧
      Settles task due (k + 1) b.before.stack q
  /-- What is left is released in the order of the queue, after a record if there is any. -/
  left : m.world.dispose = (if m.world.scheduler.queue.isEmpty then [] else
      [.logged (.disposing m.world.scheduler.queue.length)])
    ++ m.world.scheduler.queue.map fun t => .released (some t.handle) t.action

/-- **Every action that is handed to the scheduler is released exactly once**: when it is refused,
when it has run, when it is cancelled or discarded, or when the scheduler goes away.  Callbacks may
do anything in between. -/
theorem custody_of_run {w : World} (hw : w.Fresh) {path : List Beat} {m : Machine}
    (hrun : Run (Machine.idle w) path m) (hidle : m.isIdle = true) : Custody path m := by
  have hbooks := Run.books hw hrun
  have hcomplete := hbooks.complete hidle
  obtain ⟨hwaiting, hrunning⟩ := Machine.held_of_isIdle hidle
  have hfired : firedIn (trace path) = goneBy .ran path := by
    rw [hbooks.running, hrunning, handedOf_nil, add_zero]
  have haccepted : acceptedIn (trace path) = goneBy .ran path + goneBy .cancelled path
      + goneBy .discarded path + handedOf m.world.scheduler.queue := by
    rw [hbooks.waiting, hfired, hwaiting]
  have hnamed : ∀ x ∈ acceptedIn (trace path), x.1 ≠ none := by
    intro x hx
    obtain ⟨e, -, he⟩ := List.mem_filterMap.mp (Multiset.mem_coe.mp hx)
    cases e <;> cases he
    exact Option.some_ne_none _
  have hrefused : (goneBy .refused path).map Prod.fst =
      Multiset.replicate (goneBy .refused path).card none :=
    Multiset.eq_replicate.mpr ⟨Multiset.card_map _ _, by simpa using hbooks.nameless⟩
  constructor
  case once => rw [hcomplete, Multiset.map_add, hbooks.requests, add_comm]
  case ways => rw [hcomplete, haccepted]; abel
  case handed => rw [hbooks.requests, add_comm]
  case refused =>
    refine fun x hx => ⟨hbooks.nameless x hx, fun hran => hnamed x ?_ (hbooks.nameless x hx)⟩
    rw [haccepted, ← hfired]
    simp [hran]
  case accepted => exact haccepted
  case fired => exact hfired
  case handles =>
    intro hfew x hx
    rw [hcomplete, Multiset.map_add, hrefused, Multiset.count_add, Multiset.count_replicate,
      if_neg (hnamed x hx).symm, zero_add]
    exact Multiset.count_eq_one_of_mem (hrun.handles_nodup hw hfew) (Multiset.mem_map_of_mem _ hx)
  case unfired =>
    intro hfew x hx hran
    have hnodup := (hrun.handles_nodup hw hfew).of_map
    rw [haccepted, ← hfired, add_assoc, add_assoc, ← add_assoc (goneBy .cancelled path)] at hnodup
    exact Multiset.disjoint_left.mp (Multiset.nodup_add.mp hnodup).2.2 hran hx
  case inPlace => exact fun b hb => (hrun.valid b hb).inPlace
  case settles =>
    rintro p b q h action rfl hmem
    obtain ⟨-, hb, hq⟩ := Run.around hrun
    obtain ⟨task, hhanded, herrand⟩ := hb.fires_of_mem hmem
    obtain ⟨due, k, hfocus, hstack⟩ := hb.fires herrand
    have hend : m.stack = [] := by
      simp only [Machine.isIdle, Bool.and_eq_true, List.isEmpty_iff] at hidle
      exact hidle.1
    exact ⟨task, due, k, hhanded, hfocus, hq.settles ⟨[], hstack⟩ hend⟩
  case left => rfl

/-- A task whose action requests another one, runs a pass in which that one panics, and cancels a
third; then a refusal, a task that is dropped and one that is left. -/
def inheritance : List Beat × Machine :=
  (Machine.idle (World.parts 10 10)).played <|
    [.command (.schedule "outer" none true .goOn
        [.schedule "inner" none true .goOn [.exit (.panicked .other)], .runPass, .cancel 1]), .step,
      .command (.schedule "cancelled" (some 5) true .goOn []), .step,
      .command (.schedule "refused" (some (-1)) true .goOn []), .step, .command .runPass]
    ++ List.replicate 22 .step
    ++ [.command (.schedule "dropped" (some 5) true .goOn []), .step, .command .discard, .step,
      .command (.schedule "left" (some 5) true .goOn []), .step]

/-- Its six actions are released each in its own way. -/
theorem custody_of_inheritance :
    (World.parts 10 10).Fresh ∧
    Run (Machine.idle (World.parts 10 10)) inheritance.1 inheritance.2 ∧
    inheritance.2.isIdle = true ∧ acceptances (trace inheritance.1) = 5 ∧
    (trace inheritance.1).filterMap Event.released? =
      [(none, .script "refused" true []),
        (some (.ofNat 2), .script "inner" true [.exit (.panicked .other)]),
        (some (.ofNat 1), .script "cancelled" true []),
        (some (.ofNat 0), .script "outer" true
          [.schedule "inner" none true .goOn [.exit (.panicked .other)], .runPass, .cancel 1]),
        (some (.ofNat 3), .script "dropped" true [])] ∧
    inheritance.2.world.dispose =
      [.logged (.disposing 1), .released (some (.ofNat 4)) (.script "left" true [])] ∧
    Custody inheritance.1 inheritance.2 := by
  have hrun : Run (Machine.idle (World.parts 10 10)) inheritance.1 inheritance.2 :=
    Machine.played_run _ _
  have hfresh := World.parts_fresh 10 10
  exact ⟨hfresh, hrun, rfl, rfl, rfl, rfl, custody_of_run hfresh hrun rfl⟩

end TickHost
