import Mathlib.Algebra.GroupWithZero.Nat
import Mathlib.Data.List.Basic
import TickHost.Proofs.Order

/-!
# The admission of tasks

A request is looked at in a fixed order: the sign of its delay, then the size of the delay, then the
room in the queue.  The queue never has more tasks than it may have, so a full queue is one with
exactly as many, and the number in that refusal is the limit itself.

* `Scheduler.Within`: the queue keeps to the limits.  Every operation of the scheduler keeps it
  there, so every move does.
* `Scheduler.Ruling`: what is answered to a request, as rules that exclude each other.
* `Ledger.numbered_of_replay`: handles are given out one after the other.  A refusal changes
  nothing, so it leaves no gap, and nothing that takes a task away gives its number back.
-/

namespace TickHost

/-! ## 1. The limits -/

namespace Scheduler

variable {α : Type} {s : Scheduler α}

/-- What is acceptable keeps to the limits, and there is room for it. -/
theorem le_of_vet {delay : Int} {d : Nat} (h : s.vet delay = .ok d) :
    d ≤ s.maxDelay ∧ s.pending < s.maxPending := by
  cases delay with
  | negSucc n => cases h
  | ofNat n =>
    simp only [vet] at h
    split at h
    · cases h
    · split at h
      · cases h
      · obtain rfl := Except.ok.inj h
        omega

/-- The scheduler has these limits, and its queue keeps to them. -/
structure Within (s : Scheduler α) (maxDelay maxPending : Nat) : Prop where
  /-- The longest delay accepted is still the same. -/
  maxDelay_eq : s.maxDelay = maxDelay
  /-- The room is still the same. -/
  maxPending_eq : s.maxPending = maxPending
  /-- No more tasks are pending than there may be. -/
  pending_le : s.pending ≤ maxPending
  /-- No task waits longer than it may. -/
  remaining_le : ∀ t ∈ s.queue, t.remaining ≤ maxDelay

namespace Within

variable {maxDelay maxPending : Nat}

/-- A queue that becomes no longer, and in which no task gets more to wait, keeps to the limits. -/
theorem shrink (h : s.Within maxDelay maxPending) {queue : List (Task α)}
    (hlength : queue.length ≤ s.queue.length)
    (hremaining : ∀ t ∈ queue, ∃ t' ∈ s.queue, t.remaining ≤ t'.remaining) :
    { s with queue }.Within maxDelay maxPending := by
  refine ⟨h.maxDelay_eq, h.maxPending_eq, Nat.le_trans hlength h.pending_le, fun t ht => ?_⟩
  obtain ⟨t', ht', hle⟩ := hremaining t ht
  exact Nat.le_trans hle (h.remaining_le t' ht')

/-- Tasks for which there is room, and with delays that are not too long, may join the queue. -/
theorem grow (h : s.Within maxDelay maxPending) {tasks : List (Task α)} {accepted : Nat}
    (hroom : s.pending + tasks.length ≤ s.maxPending)
    (hremaining : ∀ t ∈ tasks, t.remaining ≤ s.maxDelay) :
    { s with queue := s.queue ++ tasks, accepted }.Within maxDelay maxPending := by
  refine ⟨h.maxDelay_eq, h.maxPending_eq, ?_, ?_⟩
  · rw [← h.maxPending_eq]
    simpa only [pending, List.length_append] using hroom
  · exact List.forall_mem_append.mpr
      ⟨h.remaining_le, fun t ht => h.maxDelay_eq ▸ hremaining t ht⟩

theorem enqueue (h : s.Within maxDelay maxPending) {delay : Int} {d : Nat}
    (hvet : s.vet delay = .ok d) (action : α) : (s.enqueue d action).Within maxDelay maxPending := by
  obtain ⟨hdelay, hroom⟩ := le_of_vet hvet
  exact h.grow hroom (List.forall_mem_singleton.mpr hdelay)

theorem fill (h : s.Within maxDelay maxPending) (delay : Int) (action : α) (n : Nat) :
    (s.fill delay action n).Within maxDelay maxPending := by
  cases hvet : s.vet delay with
  | error refusal =>
    have hnone : s.capacityFor delay n = 0 := by simp only [capacityFor, hvet]
    refine h.grow ?_ ?_ <;> simp only [hnone]
    · rw [← h.maxPending_eq] at h
      exact h.pending_le
    · exact List.forall_mem_nil _
  | ok d =>
    obtain ⟨hdelay, hroom⟩ := le_of_vet hvet
    obtain rfl := vet_eq_ok hvet
    have hsome : s.capacityFor d n = min n (s.maxPending - s.pending) := by
      simp only [capacityFor, hvet]
    refine h.grow ?_ ?_
    · rw [batch, List.length_map, List.length_range, hsome]
      omega
    · intro t ht
      obtain ⟨i, -, rfl⟩ := List.mem_map.mp ht
      exact hdelay

theorem remove (h : s.Within maxDelay maxPending) (handle : Handle) :
    (s.remove handle).Within maxDelay maxPending :=
  h.shrink List.length_eraseP_le fun t ht => ⟨t, List.mem_of_mem_eraseP ht, Nat.le_refl _⟩

theorem clear (h : s.Within maxDelay maxPending) : s.clear.Within maxDelay maxPending :=
  h.shrink (Nat.zero_le _) (List.forall_mem_nil _)

theorem drain (h : s.Within maxDelay maxPending) : s.drain.Within maxDelay maxPending := by
  refine h.shrink ?_ ?_
  · rw [List.length_map]
    exact List.length_filter_le _ _
  · intro t ht
    obtain ⟨t', ht', rfl⟩ := List.mem_map.mp ht
    exact ⟨t', List.mem_of_mem_filter ht', Nat.sub_le _ _⟩

theorem completePass (h : s.Within maxDelay maxPending) :
    s.completePass.Within maxDelay maxPending :=
  ⟨h.maxDelay_eq, h.maxPending_eq, h.pending_le, h.remaining_le⟩

end Within

/-! ## 2. What is answered -/

/-- **What is answered to a request.**  The delay is judged before the room in the queue, and what
is refused for lack of room is told how many tasks there may be. -/
inductive Ruling (s : Scheduler α) : Int → Except Refusal Handle → Prop
  /-- The delay is below zero. -/
  | negative (delay : Int) (h : delay < 0) : Ruling s delay (.error (.negativeDelay delay))
  /-- The delay is above the longest one. -/
  | tooLong (delay : Nat) (h : s.maxDelay < delay) :
      Ruling s delay (.error (.delayTooLong delay s.maxDelay))
  /-- As many tasks are pending as there may be. -/
  | full (delay : Nat) (h : delay ≤ s.maxDelay) (hfull : s.pending = s.maxPending) :
      Ruling s delay (.error (.queueFull s.maxPending))
  /-- There is room. -/
  | admitted (delay : Nat) (h : delay ≤ s.maxDelay) (hroom : s.pending < s.maxPending) :
      Ruling s delay (.ok s.nextHandle)

theorem ruling_of_vet (hs : s.pending ≤ s.maxPending) (delay : Int) :
    s.Ruling delay ((s.vet delay).map fun _ => s.nextHandle) := by
  cases delay with
  | negSucc n => exact .negative _ (Int.negSucc_lt_zero n)
  | ofNat d =>
    simp only [vet]
    split
    · rename_i hlong
      exact .tooLong d hlong
    · rename_i hlong
      split
      · rename_i hfull
        have heq : s.pending = s.maxPending := Nat.le_antisymm hs hfull
        rw [heq]
        exact .full d (Nat.le_of_not_lt hlong) heq
      · rename_i hroom
        exact .admitted d (Nat.le_of_not_lt hlong) (Nat.lt_of_not_le hroom)

/-- A request has one answer. -/
theorem Ruling.unique {delay : Int} {answer answer' : Except Refusal Handle}
    (h : s.Ruling delay answer) (h' : s.Ruling delay answer') : answer = answer' := by
  cases h <;> cases h' <;> first | rfl | omega

end Scheduler

theorem Reply.ofRequest_injective {answer answer' : Except Refusal Handle}
    (h : ofRequest answer = ofRequest answer') : answer = answer' := by
  cases answer <;> cases answer' <;> cases h <;> rfl

namespace World

variable (w : World) (delay : Int) (action : Action)

theorem request_value :
    (w.request delay action).value =
      (w.scheduler.vet delay).map fun _ => w.scheduler.nextHandle := by
  simp only [request, Scheduler.schedule]
  cases w.scheduler.vet delay <;> rfl

theorem request_value_iff (hw : w.scheduler.pending ≤ w.scheduler.maxPending)
    (answer : Except Refusal Handle) :
    (w.request delay action).value = answer ↔ w.scheduler.Ruling delay answer := by
  have hruling := Scheduler.ruling_of_vet hw delay
  rw [← request_value w delay action] at hruling
  exact ⟨fun h => h ▸ hruling, hruling.unique⟩

/-- **A refusal changes nothing and is not logged.** -/
theorem request_refused {refusal : Refusal}
    (h : (w.request delay action).value = .error refusal) :
    (w.request delay action).world = w ∧
      ∀ record, .logged record ∉ (w.request delay action).events := by
  rcases w.request_cases delay action with ⟨d, -, hrequest⟩ | ⟨refusal', hrequest⟩
  · rw [hrequest] at h
    cases h
  · rw [hrequest]
    refine ⟨rfl, fun record hmem => ?_⟩
    cases refusal' with
    | queueFull pending =>
      simp only [refusalEvents, List.mem_append, mem_holding, List.mem_singleton,
        List.not_mem_nil, false_or] at hmem
      rcases hmem with (h | h) | h <;> cases h
    | _ => cases List.mem_singleton.mp hmem

end World

/-! ## 3. Runs -/

/-- A move keeps the queue to the limits. -/
theorem Beat.Valid.within {b : Beat} (hb : b.Valid) {maxDelay maxPending : Nat}
    (h : b.before.world.scheduler.Within maxDelay maxPending) :
    b.after.world.scheduler.Within maxDelay maxPending := by
  cases Machine.move_scheduler hb with
  | elsewhere _ hscheduler | fired _ _ _ _ _ hscheduler | settled _ _ _ hscheduler =>
    exact hscheduler ▸ h
  | requested delay action _ hscheduler =>
    rw [show b.after.world.scheduler = _ from hscheduler]
    simp only [World.request, Scheduler.schedule]
    cases hvet : b.before.world.scheduler.vet delay with
    | error refusal => exact h
    | ok d => exact h.enqueue hvet action
  | filled n delay _ hscheduler =>
    obtain ⟨_, _, -, hfill⟩ := b.before.world.fill_cases n delay
    rw [show b.after.world.scheduler = _ from hscheduler, hfill]
    exact h.fill delay .idle n
  | cancelled handle _ hscheduler =>
    rw [show b.after.world.scheduler = _ from hscheduler, World.cancel]
    split
    · exact h.remove handle
    · exact h
  | discarded _ _ _ hscheduler => exact hscheduler ▸ h.clear
  | began _ hscheduler => exact hscheduler ▸ h.drain
  | ended _ _ _ hscheduler => exact hscheduler ▸ h.completePass

/-- **The queue keeps to the limits** at every moment of a run. -/
theorem run_within {w : World} (hw : w.Fresh) {path : List Beat} {m : Machine}
    (hrun : Run (Machine.idle w) path m) :
    m.world.scheduler.Within w.scheduler.maxDelay w.scheduler.maxPending := by
  induction hrun with
  | nil =>
    refine ⟨rfl, rfl, ?_, ?_⟩
    · rw [Scheduler.pending, Machine.idle, hw.queue]
      exact Nat.zero_le _
    · rw [Machine.idle, hw.queue]
      exact List.forall_mem_nil _
  | snoc _ hb ih =>
    obtain ⟨rfl, hvalid, rfl⟩ := hb
    exact hvalid.within ih

/-- A request is answered by the scheduler. -/
theorem Beat.Valid.answered {b : Beat} (hb : b.Valid) {delay : Int} {action : Action}
    (herrand : b.before.errand? = some (.request delay action)) :
    b.after.focus = .reply (.ofRequest (b.before.world.request delay action).value) := by
  cases Machine.move_scheduler hb with
  | requested delay' action' herrand' _ _ _ hreply =>
    rw [herrand] at herrand'
    cases herrand'
    exact hreply
  | elsewhere herrand' | filled _ _ herrand' | cancelled _ herrand' | discarded _ herrand'
  | began herrand' | fired _ _ _ _ herrand' | settled _ _ herrand' | ended _ _ herrand' =>
    rw [herrand] at herrand'
    cases herrand'

/-- Whoever gets a handle gets the next one. -/
theorem Beat.Valid.handle_eq {b : Beat} (hb : b.Valid) {delay : Int} {action : Action}
    {h : Handle} (herrand : b.before.errand? = some (.request delay action))
    (hreply : b.after.focus = .reply (.accepted h)) :
    h = .ofNat b.before.world.scheduler.accepted := by
  rw [hb.answered herrand] at hreply
  rcases b.before.world.request_cases delay action with ⟨d, -, hrequest⟩ | ⟨refusal, hrequest⟩
  · rw [hrequest] at hreply
    cases hreply
    rfl
  · rw [hrequest] at hreply
    cases hreply

/-- The scheduler counts what it has accepted. -/
theorem run_accepted {w : World} (hw : w.Fresh) {path : List Beat} {m : Machine}
    (hrun : Run (Machine.idle w) path m) :
    m.world.scheduler.accepted = acceptances (trace path) := by
  obtain ⟨l, hreplay, hl⟩ := run_replay hw hrun
  rw [← hl.accepted, Ledger.accepted_of_replay hreplay]
  exact Nat.zero_add _

/-- **Handles are given out one after the other**, from the first on. -/
theorem Ledger.numbered_of_replay {l : Ledger} {events : List Event} (hreplay : Replay {} events l) :
    events.filterMap Event.acceptedTask? = (List.range (acceptances events)).map Handle.ofNat := by
  induction hreplay with
  | nil => rfl
  | @snoc events _ _ e hreplay hpost ih =>
    have hcount := accepted_of_replay hreplay
    rw [Nat.zero_add] at hcount
    have hsplit : acceptances (events ++ [e]) = acceptances events + acceptances [e] :=
      List.countP_append
    rw [List.filterMap_append, ih, hsplit]
    cases hpost with
    | accepted delay action =>
      rw [show acceptances [_] = 1 from rfl, List.range_succ, List.map_append, hcount]
      rfl
    | other _ h =>
      have hzero : acceptances [e] = 0 := by
        rw [acceptances, List.countP_singleton, Event.isAcceptance_eq_false h]
        rfl
      have hnone : [e].filterMap Event.acceptedTask? = [] := by
        cases e <;> first | rfl | cases h
      rw [hzero, hnone, List.append_nil, Nat.add_zero]
    | _ =>
      rw [show acceptances [_] = 0 from rfl, show List.filterMap _ [_] = [] from rfl,
        List.append_nil, Nat.add_zero]

/-- **The admission of tasks.**  At every moment of every run from a fresh world, also while passes
are under way:

* the queue keeps to the limits that the scheduler was made with;
* a request is answered by the rules, whatever its delay;
* a refusal leaves the world as it is, and nothing is logged;
* as long as there are numbers, the tasks accepted so far have the numbers from zero on, in order,
  and whoever gets a handle gets the number of tasks accepted before. -/
theorem admission_of_run {w : World} (hw : w.Fresh) {path : List Beat} {m : Machine}
    (hrun : Run (Machine.idle w) path m) :
    m.world.scheduler.Within w.scheduler.maxDelay w.scheduler.maxPending ∧
    (∀ (name : String) (delay : Option Int) (guarded : Bool) (onRefusal : OnRefusal)
      (body : Script) (answered : Stepped),
      answered = Machine.perform m.world m.stack (.schedule name delay guarded onRefusal body) →
      (∀ answer, answered.machine.focus = .reply (.ofRequest answer) ↔
        m.world.scheduler.Ruling (delay.getD 0) answer) ∧
      ∀ refusal, answered.machine.focus = .reply (.refused refusal) →
        answered.machine.world = m.world ∧ ∀ record, .logged record ∉ answered.events) ∧
    (acceptances (trace path) < 2 ^ 64 →
      ((trace path).filterMap Event.acceptedTask?).map (·.id.toNat) =
        List.range (acceptances (trace path)) ∧
      ∀ (p q : List Beat) (b : Beat) (delay : Int) (action : Action) (h : Handle),
        path = p ++ b :: q → b.before.errand? = some (.request delay action) →
        b.after.focus = .reply (.accepted h) → h.id.toNat = acceptances (trace p)) := by
  have hwithin := run_within hw hrun
  refine ⟨hwithin, ?_, ?_⟩
  · rintro name delay guarded onRefusal body _ rfl
    have hroom : m.world.scheduler.pending ≤ m.world.scheduler.maxPending :=
      hwithin.maxPending_eq ▸ hwithin.pending_le
    constructor
    · intro answer
      rw [← World.request_value_iff _ _ (.script name guarded body) hroom]
      constructor
      · intro h
        exact Reply.ofRequest_injective (Focus.reply.inj h)
      · intro h
        exact congrArg (fun answer => Focus.reply (.ofRequest answer)) h
    · intro refusal h
      have hvalue : (m.world.request (delay.getD 0) (.script name guarded body)).value =
          .error refusal := Reply.ofRequest_injective (Focus.reply.inj h)
      exact World.request_refused _ _ _ hvalue
  · intro hfew
    obtain ⟨l, hreplay, -⟩ := run_replay hw hrun
    constructor
    · rw [Ledger.numbered_of_replay hreplay, List.map_map]
      refine (List.map_congr_left fun i hi => ?_).trans (List.map_id _)
      exact Handle.id_ofNat (Nat.lt_trans (List.mem_range.mp hi) hfew)
    · rintro p q b delay action h rfl herrand hreply
      obtain ⟨hp, hvalid, -⟩ := hrun.around
      rw [hvalid.handle_eq herrand hreply, run_accepted hw hp]
      rw [trace_append, acceptances, List.countP_append] at hfew
      exact Handle.id_ofNat (Nat.lt_of_le_of_lt (Nat.le_add_right _ _) hfew)

/-- A scheduler with room for one task.  A second one is refused; then a pass takes the first, whose
action has another task accepted, cancels it, and has a third one accepted. -/
def squeeze : List Beat × Machine :=
  (Machine.idle (World.parts 5 1)).played <|
    [.command (.schedule "first" none false .goOn
        [.schedule "again" (some 5) false .goOn [], .cancel 1,
          .schedule "late" (some 3) false .goOn []]), .step,
      .command (.schedule "second" none false .goOn []), .step, .command .runPass]
      ++ List.replicate 11 .step

/-- With the pass under way and the queue full again, the sign of a delay is judged first, then its
size, then the room; and the three tasks accepted have the first three numbers. -/
theorem admission_of_squeeze :
    (World.parts 5 1).Fresh ∧ Run (Machine.idle (World.parts 5 1)) squeeze.1 squeeze.2 ∧
    squeeze.2.underway.length = 1 ∧ squeeze.2.world.scheduler.Within 5 1 ∧
    (∀ delay refusal,
      (delay, refusal) ∈ [(-1, .negativeDelay (-1)), (6, .delayTooLong 6 5), (5, .queueFull 1)] →
      (Machine.perform squeeze.2.world squeeze.2.stack
        (.schedule "more" (some delay) false .goOn [])).machine.focus =
          .reply (.refused refusal)) ∧
    acceptances (trace squeeze.1) < 2 ^ 64 ∧
    ((trace squeeze.1).filterMap Event.acceptedTask?).map (·.id.toNat) = [0, 1, 2] := by
  have hrun : Run (Machine.idle (World.parts 5 1)) squeeze.1 squeeze.2 := Machine.played_run _ _
  have hfew : acceptances (trace squeeze.1) < 2 ^ 64 := by decide
  obtain ⟨hwithin, hanswer, hnumbers⟩ := admission_of_run (World.parts_fresh 5 1) hrun
  refine ⟨World.parts_fresh 5 1, hrun, by decide, hwithin, ?_, hfew,
    (hnumbers hfew).1.trans (by decide)⟩
  intro delay refusal hmem
  refine ((hanswer "more" (some delay) false .goOn [] _ rfl).1 (.error refusal)).mpr ?_
  simp only [List.mem_cons, Prod.mk.injEq, List.not_mem_nil, or_false] at hmem
  rcases hmem with ⟨rfl, rfl⟩ | ⟨rfl, rfl⟩ | ⟨rfl, rfl⟩
  · exact .negative (-1) (by decide)
  · exact .tooLong 6 (by decide)
  · exact .full 5 (by decide) (by decide)

end TickHost
