import Mathlib.Algebra.GroupWithZero.Nat
import Mathlib.Data.List.Basic
import TickHost.Proofs.Fate
import TickHost.Proofs.Steps.Stack

/-!
# The balance of tasks

No task is lost and none is doubled: at every moment of every run the accepted tasks are those that
have begun to run, those that passes under way have yet to fire, those cancelled, those discarded
and those pending.

* `Ledger.Balanced` is the balance of a ledger, kept by every posting.
* `InPass` follows a single pass through whatever its actions do, so that what it answers is the
  number of its own tasks.
* `Beat.Valid.recorded`: the record of a pass is written when it ends, so passes are numbered in
  the order of their ends, the nested ones first.
-/

namespace TickHost

/-! ## 1. Counts -/

namespace Event

/-- Whether an action began to run. -/
def isFiring : Event → Bool
  | fired .. => true
  | _ => false

/-- Whether a task was cancelled. -/
def isCancellation : Event → Bool
  | cancelled _ => true
  | _ => false

/-- How many tasks were dropped with the others that were pending. -/
def dropped : Event → Nat
  | discarded n => n
  | _ => 0

/-- What a pass that ended has answered. -/
def returned? : Event → Option Nat
  | passEnded k => some k
  | _ => none

/-- The record of a pass: its number, and how many tasks it has fired. -/
def passRecord? : Event → Option (UInt64 × Nat)
  | logged (.passed tick k) => some (tick, k)
  | _ => none

end Event

/-- How many actions began to run. -/
def firings (events : List Event) : Nat := events.countP Event.isFiring

/-- How many tasks were cancelled. -/
def cancellations (events : List Event) : Nat := events.countP Event.isCancellation

/-- How many tasks were discarded. -/
def discards (events : List Event) : Nat := (events.map Event.dropped).sum

/-- What passes have answered, in the order in which they ended. -/
def returns (events : List Event) : List Nat := events.filterMap Event.returned?

/-- The records of passes, in order. -/
def passRecords (events : List Event) : List (UInt64 × Nat) := events.filterMap Event.passRecord?

@[simp] theorem acceptances_append (p q : List Event) :
    acceptances (p ++ q) = acceptances p + acceptances q := List.countP_append

@[simp] theorem firings_append (p q : List Event) :
    firings (p ++ q) = firings p + firings q := List.countP_append

@[simp] theorem cancellations_append (p q : List Event) :
    cancellations (p ++ q) = cancellations p + cancellations q := List.countP_append

@[simp] theorem discards_append (p q : List Event) :
    discards (p ++ q) = discards p + discards q := by simp [discards]

@[simp] theorem returns_append (p q : List Event) :
    returns (p ++ q) = returns p ++ returns q := List.filterMap_append

@[simp] theorem passRecords_append (p q : List Event) :
    passRecords (p ++ q) = passRecords p ++ passRecords q := List.filterMap_append

/-! ## 2. Ledgers -/

namespace Ledger

/-- **The balance of a ledger** after these events. -/
structure Balanced (events : List Event) (l : Ledger) : Prop where
  /-- The passes that have ended have answered. -/
  ended : l.ended = (returns events).length
  /-- The actions that have begun to run were fired by a pass that has answered, or by one that is
  under way. -/
  fired : firings events = (returns events).sum + (l.underway.map OpenPass.fired).sum
  /-- Every task is in one place. -/
  tasks : acceptances events = firings events + (l.underway.map (·.due.length)).sum
    + cancellations events + discards events + l.queue.length

variable {l l' : Ledger} {e : Event} {events : List Event}

/-- What is to be checked of a posting, given what its event counts for. -/
theorem Balanced.snoc (hl : Balanced events l) (accepted fired cancelled discarded : Nat)
    (answers : List Nat) (haccepted : acceptances [e] = accepted) (hfirings : firings [e] = fired)
    (hcancelled : cancellations [e] = cancelled) (hdiscarded : discards [e] = discarded)
    (hanswers : returns [e] = answers) (hended : l'.ended = l.ended + answers.length)
    (hfired : fired + (l.underway.map OpenPass.fired).sum
      = answers.sum + (l'.underway.map OpenPass.fired).sum)
    (htasks : accepted + (l.underway.map (·.due.length)).sum + l.queue.length
      = fired + cancelled + discarded + (l'.underway.map (·.due.length)).sum + l'.queue.length) :
    Balanced (events ++ [e]) l' := by
  obtain ⟨hended₀, hfired₀, htasks₀⟩ := hl
  refine ⟨?_, ?_, ?_⟩
  · rw [returns_append, hanswers, List.length_append]; omega
  · rw [firings_append, returns_append, hfirings, hanswers, List.sum_append]; omega
  · rw [acceptances_append, firings_append, cancellations_append, discards_append, haccepted,
      hfirings, hcancelled, hdiscarded]
    omega

/-- **Every posting keeps the balance.** -/
theorem Posts.balanced (hpost : Posts l e l') (hl : Balanced events l) :
    Balanced (events ++ [e]) l' := by
  cases hpost with
  | accepted delay action =>
    refine hl.snoc 1 0 0 0 [] rfl rfl rfl rfl rfl rfl ?_ ?_
    · simp
    · simp; omega
  | drained =>
    refine hl.snoc 0 0 0 0 [] rfl rfl rfl rfl rfl rfl ?_ ?_
    · simp
    · have hsplit := l.queue.length_eq_length_filter_add (·.isDue)
      simp only [List.map_cons, List.sum_cons, List.length_map]
      omega
  | fired number task due k passes h =>
    refine hl.snoc 0 1 0 0 [] rfl rfl rfl rfl rfl rfl ?_ ?_
    · simp [h]; omega
    · simp [h]; omega
  | passEnded number k passes h =>
    refine hl.snoc 0 0 0 0 [k] rfl rfl rfl rfl rfl rfl ?_ ?_
    · simp [h]
    · simp [h]
  | cancelled task before after h =>
    refine hl.snoc 0 0 1 0 [] rfl rfl rfl rfl rfl rfl ?_ ?_
    · simp
    · simp [h]; omega
  | discarded =>
    refine hl.snoc 0 0 0 l.queue.length [] rfl rfl rfl (Nat.add_zero _) rfl rfl ?_ ?_
    · simp
    · simp; omega
  | other _ h =>
    refine hl.snoc 0 0 0 0 [] ?_ ?_ ?_ ?_ ?_ rfl rfl ?_
    · cases e <;> first | rfl | cases h
    · cases e <;> first | rfl | cases h
    · cases e <;> first | rfl | cases h
    · cases e <;> first | rfl | cases h
    · cases e <;> first | rfl | cases h
    · omega

theorem balanced_of_replay (hreplay : Replay {} events l) : Balanced events l := by
  induction hreplay with
  | nil => exact ⟨rfl, rfl, rfl⟩
  | snoc _ hpost ih => exact hpost.balanced ih

end Ledger

/-! ## 3. Records -/

/-- The records of passes that have answered these numbers, one after the other.  A pass that has
fired nothing writes none. -/
def recordsOf (counts : List Nat) : List (UInt64 × Nat) :=
  (counts.zipIdx 1).filterMap fun (k, tick) => if k = 0 then none else some (.ofNat tick, k)

theorem recordsOf_snoc (counts : List Nat) (k : Nat) :
    recordsOf (counts ++ [k]) =
      recordsOf counts ++ if k = 0 then [] else [(.ofNat (counts.length + 1), k)] := by
  rw [recordsOf, List.zipIdx_append, List.filterMap_append, ← recordsOf, Nat.add_comm]
  congr 1
  by_cases hk : k = 0 <;> simp [hk]

/-- The records of passes that a move writes: that of the pass it ends. -/
def Beat.passRecords (b : Beat) : List (UInt64 × Nat) :=
  match b.before.errand? with
  | some (.endPass k) =>
    if k = 0 then [] else [(.ofNat (b.before.world.scheduler.passes + 1), k)]
  | _ => []

theorem Event.passRecord?_eq_none {e : Event} (h : e.topic ≠ .passes) : e.passRecord? = none := by
  cases e with
  | logged record => cases record <;> first | rfl | exact absurd rfl h
  | _ => rfl

theorem Beat.Valid.recorded {b : Beat} (hb : b.Valid) :
    TickHost.passRecords b.events = b.passRecords := by
  have hnone (herrand : b.before.errand?.any Errand.endsPass = false) :
      TickHost.passRecords b.events = [] :=
    List.filterMap_eq_nil_iff.mpr fun e he =>
      Event.passRecord?_eq_none ((Machine.move_tells hb).avoids (t := .passes) herrand e he)
  cases Machine.move_scheduler hb with
  | ended k passes herrand _ _ _ hevents =>
    rw [Beat.passRecords, herrand, show b.events = _ from hevents, World.endPass]
    simp only
    split <;> rfl
  | elsewhere herrand | requested _ _ herrand | filled _ _ herrand | cancelled _ herrand
  | discarded _ herrand | began herrand | fired _ _ _ _ herrand | settled _ _ herrand =>
    rw [Beat.passRecords, herrand]
    exact hnone (by rw [herrand]; rfl)

/-! ## 4. A single pass -/

/-- Whether a move fires a task of a pass that has so many frames below it. -/
def Beat.firesAt (depth : Nat) (b : Beat) : Bool :=
  match b.before.focus with
  | .firing (_ :: _) _ => b.before.stack.length == depth
  | _ => false

namespace Machine

/-- How far a pass is that was begun at `k`: it has not taken its tasks yet, it fires them, one of
them is running, or it is over. -/
inductive InPass (k : Machine) (path : List Beat) (m : Machine) : Prop
  | beginning (hm : m = k) (hpath : path = [])
  | going (due : List (Task Action)) (fired : Nat) (hfocus : m.focus = .firing due fired)
      (hstack : m.stack = k.stack) (hcount : path.countP (Beat.firesAt k.stack.length) = fired)
      (hall : fired + due.length = k.world.scheduler.due.length)
  | inside (above : List Frame) (task : Task Action) (due : List (Task Action)) (fired : Nat)
      (hstack : m.stack = above ++ .firing task due fired :: k.stack)
      (hcount : path.countP (Beat.firesAt k.stack.length) = fired)
      (hall : fired + due.length = k.world.scheduler.due.length)
  | finished (inner : List Beat) (last : Beat) (fired : Nat) (hpath : path = inner ++ [last])
      (hlast : last.before.focus = .firing [] fired) (hbefore : last.before.stack = k.stack)
      (hfocus : m.focus = .reply (.count fired)) (hstack : m.stack = k.stack)
      (hcount : path.countP (Beat.firesAt k.stack.length) = fired)
      (hall : fired = k.world.scheduler.due.length)

/-- Whatever actions do, the pass that runs them goes on with its own tasks. -/
theorem InPass.move {k m : Machine} {path : List Beat} {mv : Move} {s : Stepped}
    (hk : k.focus = .passing) (h : m.move? mv = some s) (hback : ¬ m.BackAt k.stack)
    (hin : InPass k path m) : InPass k (path ++ [⟨m, mv, s.machine, s.events⟩]) s.machine := by
  cases hin with
  | beginning hm hpath =>
    subst hm hpath
    have hstep := step_of_move h (by simp [isIdle, hk, Focus.isFinal]) (by simp [hk])
    obtain ⟨w, focus, stack⟩ := m
    obtain rfl : focus = .passing := hk
    obtain rfl := Option.some.inj hstep
    exact .going _ 0 rfl rfl rfl (Nat.zero_add _)
  | going due fired hfocus hstack hcount hall =>
    have hstep := step_of_move h (by simp [isIdle, hfocus, Focus.isFinal]) (by simp [hfocus])
    obtain ⟨w, focus, stack⟩ := m
    obtain rfl : focus = .firing due fired := hfocus
    obtain rfl : stack = k.stack := hstack
    cases rule_of_step hstep with
    | passEnds =>
      refine .finished path _ fired rfl rfl rfl rfl rfl ?_ hall
      simp [Beat.firesAt, hcount]
    | fires w S task due fired =>
      refine .inside [] task due (fired + 1) rfl ?_ ?_
      · simp [Beat.firesAt, hcount]
      · rw [← hall, List.length_cons]; omega
  | finished inner last fired _ _ _ hfocus hstack =>
    exact absurd ⟨hstack, by rw [hfocus]; rfl⟩ hback
  | inside above task due fired hstack hcount hall =>
    have hdeep : Beat.firesAt k.stack.length ⟨m, mv, s.machine, s.events⟩ = false := by
      have hlength : m.stack.length ≠ k.stack.length := by
        rw [hstack, List.length_append, List.length_cons]; omega
      simp only [Beat.firesAt]
      split
      · exact beq_eq_false_iff_ne.mpr hlength
      · rfl
    have hcount' : List.countP (Beat.firesAt k.stack.length)
        (path ++ [⟨m, mv, s.machine, s.events⟩]) = fired := by
      rw [List.countP_append, hcount, List.countP_singleton, hdeep]; rfl
    -- the actions go on above the frame, or the last one to be begun has ended
    rcases move_under h hstack with ⟨above', hs⟩ | ⟨r, -, rfl⟩ | ⟨outcome, -, rfl⟩
    · exact .inside above' task due fired hs hcount' hall
    · exact .inside [] task due fired rfl hcount' hall
    · exact .going due fired rfl rfl hcount' hall

/-- **A pass answers how many tasks it has fired itself**, and it has fired all that were due when
it began.  It ends in its last move, after all passes nested in it. -/
theorem pass_returns {k n : Machine} {path : List Beat} (hk : k.focus = .passing)
    (hcall : Call k.stack k path n) (hback : n.BackAt k.stack) :
    ∃ inner last count, path = inner ++ [last] ∧ last.before.focus = .firing [] count ∧
      last.before.stack = k.stack ∧ n.focus = .reply (.count count) ∧
      count = path.countP (Beat.firesAt k.stack.length) ∧
      count = k.world.scheduler.due.length := by
  have hin : InPass k path n := hcall.keeps (.beginning rfl rfl) fun hb => InPass.move hk hb
  obtain ⟨hstack, hfinal⟩ := hback
  cases hin with
  | beginning hm => rw [hm, hk] at hfinal; cases hfinal
  | going due fired hfocus => rw [hfocus] at hfinal; cases hfinal
  | inside above task due fired hs =>
    have hlength := congrArg List.length (hstack.symm.trans hs)
    rw [List.length_append, List.length_cons] at hlength
    omega
  | finished inner last fired hpath hlast hbefore hfocus _ hcount hall =>
    exact ⟨inner, last, fired, hpath, hlast, hbefore, hfocus, hcount.symm, hall⟩

end Machine

/-! ## 5. Whole runs -/

/-- What a move adds to what passes have answered: the answer of the pass it ends. -/
theorem Beat.Valid.returned {b : Beat} (hb : b.Valid) :
    returns b.events =
      match b.before.errand? with
      | some (.endPass k) => [k]
      | _ => [] := by
  have hposted : returns b.events = returns b.postings := by
    rw [← hb.posted, returns, returns, List.filterMap_filter]
    congr 1
    funext e
    cases e <;> rfl
  rw [hposted, Beat.postings]
  cases b.before.errand? with
  | none => rfl
  | some errand =>
    cases errand with
    | request | cancel => simp only; split <;> rfl
    | fill n delay =>
      simp only
      split
      · refine List.filterMap_eq_nil_iff.mpr fun e he => ?_
        obtain ⟨task, -, rfl⟩ := List.mem_map.mp he
        rfl
      · rfl
    | _ => rfl

/-- The records of passes in a run are those of what the passes have answered. -/
theorem run_recorded {w : World} (hw : w.Fresh) {path : List Beat} {m : Machine}
    (hrun : Run (Machine.idle w) path m) :
    passRecords (trace path) = recordsOf (returns (trace path)) := by
  induction hrun with
  | nil => rfl
  | @snoc path _ _ b hrun hb ih =>
    obtain ⟨rfl, hvalid, rfl⟩ := hb
    obtain ⟨l, hreplay, hl⟩ := run_replay hw hrun
    have hpasses := hl.ended.symm.trans (Ledger.balanced_of_replay hreplay).ended
    have htrace : trace (path ++ [b]) = trace path ++ b.events := by simp
    rw [htrace, passRecords_append, returns_append, ih, hvalid.recorded, hvalid.returned,
      Beat.passRecords, hpasses]
    split
    · rw [recordsOf_snoc]
    · simp

/-- Whoever discards is told how many tasks were pending. -/
theorem Beat.Valid.discarded {b : Beat} (hb : b.Valid)
    (hfocus : b.before.focus = .command .discard) :
    b.after.focus = .reply (.count b.before.world.scheduler.pending) := by
  have hstep := Machine.step_of_move hb (by simp [Machine.isIdle, hfocus, Focus.isFinal])
    (by simp [hfocus])
  simp only [Machine.step?, hfocus] at hstep
  exact (congrArg (·.machine.focus) (Option.some.inj hstep)).symm

/-- **The balance of tasks.**  At every moment of every run from a fresh world:

* what is posted in a move is what the operation that it makes has answered, and whoever discards is
  told how many tasks were pending;
* the accepted tasks are those that have begun to run, those that passes under way have yet to
  fire, those cancelled, those discarded and those pending;
* a pass answers how many tasks it has fired itself, and its end comes after all passes nested in
  it;
* when no pass is under way, what all passes have answered is the number of actions that were run;
* the scheduler counts the passes that have answered;
* the records of passes are those of what the passes have answered, numbered in the order of their
  ends, without those that have fired nothing. -/
theorem balance_of_run {w : World} (hw : w.Fresh) {path : List Beat} {m : Machine}
    (hrun : Run (Machine.idle w) path m) :
    (∀ b ∈ path, b.events.filter Event.isPosted = b.postings ∧
      (b.before.focus = .command .discard →
        b.after.focus = .reply (.count b.before.world.scheduler.pending))) ∧
    acceptances (trace path) = firings (trace path) + (m.underway.map (·.1.length)).sum
      + cancellations (trace path) + discards (trace path) + m.world.scheduler.pending ∧
    (∀ (k n : Machine) (call : List Beat),
      k.focus = .passing → Call k.stack k call n → n.BackAt k.stack →
      ∃ inner last count, call = inner ++ [last] ∧ last.before.focus = .firing [] count ∧
        last.before.stack = k.stack ∧ n.focus = .reply (.count count) ∧
        count = call.countP (Beat.firesAt k.stack.length) ∧
        count = k.world.scheduler.due.length) ∧
    (m.underway = [] → (returns (trace path)).sum = firings (trace path)) ∧
    m.world.scheduler.processedTicks = .ofNat (returns (trace path)).length ∧
    passRecords (trace path) = recordsOf (returns (trace path)) := by
  obtain ⟨l, hreplay, hl⟩ := run_replay hw hrun
  obtain ⟨hended, hfired, htasks⟩ := Ledger.balanced_of_replay hreplay
  refine ⟨?_, ?_, ?_, ?_, ?_, run_recorded hw hrun⟩
  · intro b hb
    have hvalid := hrun.valid b hb
    exact ⟨hvalid.posted, hvalid.discarded⟩
  · rw [htasks, ← hl.underway, Scheduler.pending, ← hl.queue, List.map_map]
    rfl
  · intro k n call hk hcall hback
    exact Machine.pass_returns hk hcall hback
  · intro hidle
    have hnone : l.underway = [] := List.map_eq_nil_iff.mp (hl.underway.trans hidle)
    rw [hfired, hnone]
    simp
  · rw [Scheduler.processedTicks, ← hl.ended, hended]

/-- A pass after so many steps.  It takes three tasks, one more was cancelled; the second of them
has another task accepted, runs a pass inside this one, drops what is pending and panics. -/
def turmoil (steps : Nat) : List Beat × Machine :=
  (Machine.idle (World.parts 10 10)).played <|
    [.command (.fill 2 0), .step, .command (.cancel 0), .step,
      .command (.schedule "first" (some 0) false .goOn
        [.schedule "late" (some 1) false .goOn [], .runPass, .discard, .panic .other]), .step,
      .command (.schedule "second" (some 0) false .goOn []), .step, .command .runPass]
      ++ List.replicate steps .step

/-- The balance with a nested pass under way, and the answers once all is over: the nested pass has
fired nothing, the other one all three. -/
theorem balance_of_turmoil :
    (World.parts 10 10).Fresh ∧
    Run (Machine.idle (World.parts 10 10)) (turmoil 12).1 (turmoil 12).2 ∧
    Run (Machine.idle (World.parts 10 10)) (turmoil 25).1 (turmoil 25).2 ∧
    (turmoil 12).2.underway.map (·.1.length) = [0, 1] ∧
    acceptances (trace (turmoil 12).1) = 2 + 1 + 1 + 0 + 1 ∧
    returns (trace (turmoil 25).1) = [0, 3] ∧
    passRecords (trace (turmoil 25).1) = recordsOf [0, 3] := by
  have hrun (steps : Nat) :
      Run (Machine.idle (World.parts 10 10)) (turmoil steps).1 (turmoil steps).2 :=
    Machine.played_run _ _
  obtain ⟨-, hbalance, -⟩ := balance_of_run (World.parts_fresh 10 10) (hrun 12)
  obtain ⟨-, -, -, -, -, hrecords⟩ := balance_of_run (World.parts_fresh 10 10) (hrun 25)
  have hreturns : returns (trace (turmoil 25).1) = [0, 3] := by decide
  exact ⟨World.parts_fresh 10 10, hrun 12, hrun 25, by decide, hbalance.trans (by decide), hreturns,
    hrecords.trans (congrArg recordsOf hreturns)⟩

end TickHost
