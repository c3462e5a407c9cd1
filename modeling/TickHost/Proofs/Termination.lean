import Mathlib.Algebra.GroupWithZero.Nat
import TickHost.Proofs.Balance
import TickHost.Proofs.Leftovers
import TickHost.Proofs.Rounds

/-!
# Passes come to an end

An action may run passes, and these fire tasks that were accepted a moment ago, whose actions run
passes again.  Neither the length of the queue nor the depth of nesting gets smaller on the way.
What does is the size of all that is yet to be carried out, if every script is unfolded: a task
leaves the queue before it runs and never comes back, and what it has accepted was a part of its own
script.

* A chore is a command about tasks alone (`Command.isChore`); its script, and those of the tasks
  that it requests, are made of chores.  `Command.cost` is how many steps it takes at most, with
  all that it brings into the queue.
* `Machine.step_lowers`: a machine that is busy with chores stays so, and every step lowers what
  they cost.
* `Machine.DoesChores.come_back`: so a pass over chores comes to its end.

That no pass fires more than was pending or has been accepted in it is true of any user code
(`Call.fires_le`): what is fired is taken away from what there is.
-/

namespace TickHost

/-! ## 1. Chores -/

mutual

/-- Whether a command is about tasks alone, together with all scripts in it. -/
def Command.isChore : Command → Bool
  | .schedule _ _ _ _ body | .repeat _ body => allChores body
  | .fill .. | .runPass | .cancel _ | .isScheduled _ | .pending | .isEmpty | .processedTicks
  | .discard | .tickScheduler _ | .describeScheduler | .exit _ => true
  | _ => false

/-- Whether a script is made of chores. -/
def allChores : List Command → Bool
  | [] => true
  | c :: rest => c.isChore && allChores rest

end

mutual

/-- How many steps a command takes at most, including those of the tasks that it has accepted. -/
def Command.cost : Command → Nat
  | .schedule _ _ _ _ body => costAll body + 4
  | .repeat n body => n * (costAll body + 1) + 3
  | .fill n _ => n * 3 + 2
  | _ => 5

/-- How many steps a script takes at most, including those of the tasks that it has accepted. -/
def costAll : List Command → Nat
  | [] => 1
  | c :: rest => c.cost + costAll rest + 1

end

theorem costAll_pos (script : Script) : 0 < costAll script := by
  cases script with
  | nil => exact Nat.one_pos
  | cons c rest => exact Nat.succ_pos _

/-- Whether an action is made of chores. -/
def Action.isChore (a : Action) : Bool := allChores a.body

/-- How many steps a pass takes for a task at most. -/
def Task.cost (t : Task Action) : Nat := costAll t.action.body + 2

/-- How many steps it takes at most to fire these tasks. -/
def costOfTasks (tasks : List (Task Action)) : Nat := (tasks.map Task.cost).sum

/-- These tasks have actions that are made of chores. -/
def OfChores (tasks : List (Task Action)) : Prop := ∀ t ∈ tasks, t.action.isChore = true

theorem costOfTasks_append (p q : List (Task Action)) :
    costOfTasks (p ++ q) = costOfTasks p + costOfTasks q := by
  simp [costOfTasks]

theorem costOfTasks_sublist {p q : List (Task Action)} (h : p.Sublist q) :
    costOfTasks p ≤ costOfTasks q := by
  induction h with
  | slnil => exact Nat.le_refl _
  | cons t _ ih => exact Nat.le_trans ih (Nat.le_add_left _ _)
  | cons_cons t _ ih => exact Nat.add_le_add_left ih _

/-! ## 2. What is waiting -/

/-- The tasks that are pending may all be fired within these many steps, and all are made of chores.
-/
structure Scheduler.Affords (s : Scheduler Action) (cost : Nat) : Prop where
  chores : OfChores s.queue
  cost_le : costOfTasks s.queue ≤ cost

namespace World

variable {w : World} {cost : Nat}

theorem request_affords (h : w.scheduler.Affords cost) (delay : Int) (action : Action)
    (haction : action.isChore = true) :
    (w.request delay action).world.scheduler.Affords (cost + costAll action.body + 2) := by
  rcases w.request_cases delay action with ⟨d, -, hrequest⟩ | ⟨refusal, hrequest⟩ <;> rw [hrequest]
  · refine ⟨List.forall_mem_append.mpr ⟨h.chores, List.forall_mem_singleton.mpr haction⟩, ?_⟩
    have hcost := h.cost_le
    simp only [Scheduler.enqueue, costOfTasks_append]
    simp only [costOfTasks, List.map_cons, List.map_nil, List.sum_cons, List.sum_nil, Task.cost]
      at hcost ⊢
    omega
  · exact ⟨h.chores, by have := h.cost_le; simp only; omega⟩

theorem fill_affords (h : w.scheduler.Affords cost) (n : Nat) (delay : Int) :
    (w.fill n delay).world.scheduler.Affords (cost + n * 3) := by
  obtain ⟨refusal, more, -, hfill⟩ := w.fill_cases n delay
  rw [hfill]
  have hbatch :
      costOfTasks (w.scheduler.batch delay.toNat .idle (w.scheduler.capacityFor delay n)) =
        w.scheduler.capacityFor delay n * 3 := by
    simp [costOfTasks, Scheduler.batch, Task.cost, Action.body, costAll, Function.comp_def]
  have hcapacity : w.scheduler.capacityFor delay n ≤ n := by
    rw [Scheduler.capacityFor]
    split
    · exact Nat.zero_le _
    · exact Nat.min_le_left _ _
  refine ⟨List.forall_mem_append.mpr ⟨h.chores, fun t ht => ?_⟩, ?_⟩
  · obtain ⟨i, -, rfl⟩ := List.mem_map.mp ht
    rfl
  · simp only [Scheduler.fill, costOfTasks_append, hbatch]
    have := h.cost_le
    omega

theorem cancel_affords (h : w.scheduler.Affords cost) (handle : Handle) :
    (w.cancel handle).world.scheduler.Affords cost := by
  rw [cancel]
  split
  · exact ⟨fun t ht => h.chores t (List.mem_of_mem_eraseP ht),
      Nat.le_trans (costOfTasks_sublist List.eraseP_sublist) h.cost_le⟩
  · exact h

end World

/-- What a pass takes and what it leaves cost together what was pending. -/
theorem costOfTasks_drain (s : Scheduler Action) :
    costOfTasks s.drain.queue + costOfTasks s.due = costOfTasks s.queue := by
  simp only [Scheduler.drain, Scheduler.due]
  induction s.queue with
  | nil => rfl
  | cons t tasks ih =>
    have hcount : t.countDown.cost = t.cost := rfl
    cases hdue : t.isDue <;>
      simp only [List.filter_cons, hdue, Bool.not_true, Bool.not_false, if_true, Bool.false_eq_true,
        if_false, costOfTasks, List.map_cons, List.sum_cons, hcount] at ih ⊢ <;> omega

/-- A pass takes chores and leaves chores. -/
theorem ofChores_drain {s : Scheduler Action} (h : OfChores s.queue) :
    OfChores s.drain.queue ∧ OfChores s.due := by
  refine ⟨fun t ht => ?_, fun t ht => h t (List.mem_of_mem_filter ht)⟩
  obtain ⟨t', ht', rfl⟩ := List.mem_map.mp ht
  exact h t' (List.mem_of_mem_filter ht')

/-! ## 3. What is under way -/

namespace Frame

/-- Whether nothing but chores waits in a frame. -/
def isChore : Frame → Bool
  | script _ rest => allChores rest
  | loop _ body rest _ => allChores body && allChores rest
  | firing _ due _ => due.all fun t => t.action.isChore
  | silencing => true
  | _ => false

/-- How many steps it takes at most from the moment on when a frame gets what it waits for. -/
def cost : Frame → Nat
  | script _ rest => costAll rest
  | loop left body rest _ => left * (costAll body + 1) + costAll rest + 1
  | firing _ due _ => costOfTasks due + 3
  | _ => 1

end Frame

namespace Focus

/-- Whether what is done next is a chore. -/
def isChore : Focus → Bool
  | command c => c.isChore
  | script commands => allChores commands
  | looping _ body rest _ => allChores body && allChores rest
  | firing due _ => due.all fun t => t.action.isChore
  | passing | reply _ | ended _ => true
  | _ => false

/-- How many steps it takes at most until there is a reply for the top frame, or an end. -/
def cost : Focus → Nat
  | command c => c.cost
  | script commands => costAll commands
  | looping left body rest _ => left * (costAll body + 1) + costAll rest + 1
  | passing => 3
  | firing due _ => costOfTasks due + 2
  | reply _ => 1
  | _ => 0

end Focus

namespace Machine

/-- How many steps it takes at most, on top of some frames, until the machine is back at them. -/
def cost (m : Machine) : Nat :=
  costOfTasks m.world.scheduler.queue + m.focus.cost + (m.stack.map Frame.cost).sum

/-- On top of `S`, the machine is busy with chores, and so are those who fire what is pending. -/
structure DoesChores (S : List Frame) (m : Machine) : Prop where
  pending : OfChores m.world.scheduler.queue
  focus : m.focus.isChore = true
  above : ∃ above, m.stack = above ++ S ∧ ∀ frame ∈ above, frame.isChore = true

/-! ## 4. Steps -/

/-- A step leaves chores on top of `S`, and lowers the cost. -/
def Lowers (S : List Frame) (m n : Machine) : Prop := n.DoesChores S ∧ n.cost < m.cost

variable {S above : List Frame} {w : World}

/-- The step that lets the stack as it is. -/
theorem Lowers.kept {focus focus' : Focus} {w' : World} {cost : Nat}
    (habove : ∀ frame ∈ above, frame.isChore = true) (hw : w'.scheduler.Affords cost)
    (hfocus : focus'.isChore = true)
    (hcost : cost + focus'.cost < costOfTasks w.scheduler.queue + focus.cost) :
    Lowers S ⟨w, focus, above ++ S⟩ ⟨w', focus', above ++ S⟩ := by
  refine ⟨⟨hw.chores, hfocus, above, rfl, habove⟩, ?_⟩
  have hcost' := hw.cost_le
  simp only [Machine.cost]
  omega

/-- The step that puts a frame on the stack. -/
theorem Lowers.pushed {focus focus' : Focus} {frame : Frame} {w' : World} {cost : Nat}
    (habove : ∀ frame ∈ above, frame.isChore = true) (hw : w'.scheduler.Affords cost)
    (hframe : frame.isChore = true) (hfocus : focus'.isChore = true)
    (hcost : cost + focus'.cost + frame.cost < costOfTasks w.scheduler.queue + focus.cost) :
    Lowers S ⟨w, focus, above ++ S⟩ ⟨w', focus', frame :: (above ++ S)⟩ := by
  refine ⟨⟨hw.chores, hfocus, frame :: above, rfl, List.forall_mem_cons.mpr ⟨hframe, habove⟩⟩, ?_⟩
  have hcost' := hw.cost_le
  simp only [Machine.cost, List.map_cons, List.sum_cons]
  omega

/-- The step that takes a frame off the stack. -/
theorem Lowers.popped {focus focus' : Focus} {frame : Frame}
    (habove : ∀ frame ∈ above, frame.isChore = true) (hw : OfChores w.scheduler.queue)
    (hfocus : focus'.isChore = true) (hcost : focus'.cost < focus.cost + frame.cost) :
    Lowers S ⟨w, focus, frame :: (above ++ S)⟩ ⟨w, focus', above ++ S⟩ := by
  refine ⟨⟨hw, hfocus, above, rfl, habove⟩, ?_⟩
  simp only [Machine.cost, List.map_cons, List.sum_cons]
  omega

theorem perform_lowers (habove : ∀ frame ∈ above, frame.isChore = true)
    (hw : OfChores w.scheduler.queue) {c : Command} (hc : c.isChore = true) :
    Lowers S ⟨w, .command c, above ++ S⟩ (perform w (above ++ S) c).machine := by
  have hsame : w.scheduler.Affords (costOfTasks w.scheduler.queue) := ⟨hw, Nat.le_refl _⟩
  cases c with
  | schedule name delay guarded onRefusal body =>
    have hrequest :=
      World.request_affords hsame (delay.getD 0) (.script name guarded body) hc
    refine .kept habove hrequest rfl ?_
    simp only [Focus.cost, Command.cost, Action.body]
    omega
  | fill n delay =>
    refine .kept habove (World.fill_affords hsame n delay) ?_ ?_
    · rfl
    · obtain ⟨refusal, more, -, hfill⟩ := w.fill_cases n delay
      rw [hfill]
      simp only [Focus.cost, Command.cost]
      omega
  | cancel id =>
    exact .kept habove (World.cancel_affords hsame (.ofNat id)) rfl
      (by simp only [Focus.cost, Command.cost]; omega)
  | discard =>
    have hnothing : w.scheduler.clear.Affords 0 := ⟨List.forall_mem_nil _, Nat.le_refl _⟩
    exact .kept habove hnothing rfl (by simp only [Focus.cost, Command.cost]; omega)
  | tickScheduler event =>
    exact .pushed habove hsame rfl rfl (by simp only [Focus.cost, Frame.cost, Command.cost]; omega)
  | «repeat» n body =>
    simp only [perform]
    split
    · exact .kept habove hsame rfl (by simp only [Focus.cost, Command.cost]; omega)
    · refine .kept habove hsame ?_ ?_
      · rw [Focus.isChore, Bool.and_eq_true]
        exact ⟨hc, rfl⟩
      · simp only [Focus.cost, Command.cost, costAll]
        omega
  | runPass | isScheduled | pending | isEmpty | processedTicks | describeScheduler | exit =>
    exact .kept habove hsame rfl (by simp only [Focus.cost, Command.cost]; omega)
  | _ => cases hc

theorem resume_lowers (habove : ∀ frame ∈ above, frame.isChore = true)
    (hw : OfChores w.scheduler.queue) (r : Reply) {frame : Frame} (hframe : frame.isChore = true) :
    Lowers S ⟨w, .reply r, frame :: (above ++ S)⟩ (resume w (above ++ S) r frame).machine := by
  cases frame with
  | script current rest =>
    simp only [resume]
    split
    · exact .popped habove hw rfl (by simp only [Focus.cost, Frame.cost]; omega)
    · exact .popped habove hw hframe (by simp only [Focus.cost, Frame.cost]; omega)
  | loop left body rest replies =>
    simp only [resume]
    split
    · exact .popped habove hw rfl (by simp only [Focus.cost, Frame.cost]; omega)
    · exact .popped habove hw hframe (by simp only [Focus.cost, Frame.cost]; omega)
  | silencing => exact .popped habove hw rfl (by simp only [Focus.cost, Frame.cost]; omega)
  | firing task due fired =>
    refine ⟨⟨hw, rfl, .firing task due fired :: above, rfl,
      List.forall_mem_cons.mpr ⟨hframe, habove⟩⟩, ?_⟩
    simp only [resume, turnTo, Machine.cost, Focus.cost, List.map_cons, List.sum_cons]
    omega
  | _ => cases hframe

theorem finish_lowers (habove : ∀ frame ∈ above, frame.isChore = true)
    (hw : OfChores w.scheduler.queue) (outcome : Outcome) {frame : Frame}
    (hframe : frame.isChore = true) :
    Lowers S ⟨w, .ended outcome, frame :: (above ++ S)⟩
      (finish w (above ++ S) outcome frame).machine := by
  cases frame with
  | firing task due fired =>
    exact .popped habove hw hframe (by simp only [Focus.cost, Frame.cost]; omega)
  | script current rest =>
    have hpos := costAll_pos rest
    exact .popped habove hw rfl (by simp only [Focus.cost, Frame.cost]; omega)
  | loop | silencing =>
    exact .popped habove hw rfl (by simp only [Focus.cost, Frame.cost]; omega)
  | _ => cases hframe

/-- **A machine that does chores goes on doing chores**, and every step lowers what they cost. -/
theorem step_lowers {m : Machine} {s : Stepped} (h : m.step? = some s) (hm : m.DoesChores S)
    (hback : ¬ m.BackAt S) : Lowers S m s.machine := by
  obtain ⟨hw, hfocus, above, hstack, habove⟩ := hm
  have hsame : m.world.scheduler.Affords (costOfTasks m.world.scheduler.queue) :=
    ⟨hw, Nat.le_refl _⟩
  -- what has come to its end has something to go back to, since the machine is not back at `S`
  have hframe {frame : Frame} {rest : List Frame} (hfinal : m.focus.isFinal = true)
      (hrest : m.stack = frame :: rest) :
      frame.isChore = true ∧ ∃ above', rest = above' ++ S ∧ ∀ f ∈ above', f.isChore = true := by
    cases above with
    | nil => exact absurd ⟨hstack, hfinal⟩ hback
    | cons frame' above' =>
      obtain ⟨hframe', habove'⟩ := List.forall_mem_cons.mp habove
      obtain ⟨rfl, rfl⟩ := List.cons.inj (hrest.symm.trans hstack)
      exact ⟨hframe', above', rfl, habove'⟩
  cases rule_of_step h with
  | command w T c =>
    subst hstack
    exact perform_lowers habove hw hfocus
  | resumes w T r frame =>
    obtain ⟨hchore, above', rfl, habove'⟩ := hframe rfl rfl
    exact resume_lowers habove' hw r hchore
  | finishes w T outcome frame =>
    obtain ⟨hchore, above', rfl, habove'⟩ := hframe rfl rfl
    exact finish_lowers habove' hw outcome hchore
  | scriptEnds w T =>
    subst hstack
    exact .kept habove hsame rfl (by simp only [Focus.cost, costAll]; omega)
  | scriptGoesOn w T c rest =>
    subst hstack
    obtain ⟨hc, hrest⟩ := (Bool.and_eq_true _ _).mp hfocus
    exact .pushed habove hsame hrest hc (by simp only [Focus.cost, Frame.cost, costAll]; omega)
  | loopGoesOn w T left body c rest replies =>
    subst hstack
    simp only [Focus.isChore, allChores, Bool.and_eq_true] at hfocus
    obtain ⟨hbody, hc, hrest⟩ := hfocus
    exact .pushed habove hsame (by simp [Frame.isChore, hbody, hrest]) hc
      (by simp only [Focus.cost, Frame.cost, costAll]; omega)
  | loopBeginsAnew w T left body replies =>
    subst hstack
    simp only [Focus.isChore, Bool.and_eq_true] at hfocus
    refine .kept habove hsame (by simp [Focus.isChore, hfocus.1]) ?_
    simp only [Focus.cost, costAll, Nat.succ_mul]
    omega
  | loopEnds w T body replies =>
    subst hstack
    exact .kept habove hsame rfl (by simp only [Focus.cost, costAll]; omega)
  | passBegins w T =>
    subst hstack
    obtain ⟨hleft, htaken⟩ := ofChores_drain hw
    have hcost := costOfTasks_drain w.scheduler
    have hbegun : w.beginPass.world.scheduler.Affords (costOfTasks w.scheduler.drain.queue) :=
      ⟨hleft, Nat.le_refl _⟩
    refine .kept habove hbegun ?_ ?_
    · exact List.all_eq_true.mpr htaken
    · simp only [Focus.cost, World.beginPass]
      omega
  | fires w T task due fired =>
    subst hstack
    simp only [Focus.isChore, List.all_cons, Bool.and_eq_true] at hfocus
    refine .pushed habove hsame hfocus.2 hfocus.1 ?_
    simp only [Focus.cost, Frame.cost, costOfTasks, List.map_cons, List.sum_cons, Task.cost]
    omega
  | passEnds w T fired =>
    subst hstack
    have hempty : costOfTasks [] = 0 := rfl
    have hended : (w.endPass fired).world.scheduler.Affords (costOfTasks w.scheduler.queue) :=
      ⟨hw, Nat.le_refl _⟩
    refine .kept habove hended rfl ?_
    simp only [Focus.cost, hempty]
    omega
  | _ => cases hfocus

end Machine

/-! ## 5. Calls -/

/-- Every callback of a run keeps to the script that it comes with. -/
def KeepsToScripts (path : List Beat) : Prop := ∀ b ∈ path, b.move = .step

section

variable {S : List Frame} {k m n : Machine} {call : List Beat}

/-- Chores on top of a stack take no more steps than they cost. -/
theorem Call.length_le (hcall : Call S m call n) (hscripts : KeepsToScripts call)
    (hm : m.DoesChores S) : call.length + n.cost ≤ m.cost := by
  induction call generalizing m with
  | nil =>
    rw [hcall.run.eq_of_nil]
    exact Nat.le_of_eq (Nat.zero_add _)
  | cons b call ih =>
    obtain ⟨⟨rfl, hvalid, -⟩, hback, hrest⟩ := hcall.uncons
    obtain ⟨hmove, hscripts⟩ := List.forall_mem_cons.mp hscripts
    have hstep : b.before.step? = some ⟨b.after, b.events⟩ := by
      rw [Beat.Valid, hmove] at hvalid
      exact hvalid
    obtain ⟨hafter, hlower⟩ := Machine.step_lowers hstep hm hback
    have hlength := ih hrest hscripts hafter
    simp only at hlower
    rw [List.length_cons]
    omega

/-- **Chores come to an end**: the machine gets back to the stack that they are on. -/
theorem Machine.DoesChores.come_back (hm : m.DoesChores S) :
    ∃ call n, Call S m call n ∧ KeepsToScripts call ∧ n.BackAt S := by
  induction hcost : m.cost using Nat.strongRecOn generalizing m with
  | ind cost ih =>
    by_cases hback : m.BackAt S
    · exact ⟨[], m, .nil m, List.forall_mem_nil _, hback⟩
    · -- an idle machine has nothing below what is under way, so it would be back
      have hbusy : m.isIdle = false := by
        refine Bool.eq_false_iff.mpr fun hidle => hback ?_
        obtain ⟨above, hstack, -⟩ := hm.above
        simp only [isIdle, Bool.and_eq_true, List.isEmpty_iff] at hidle
        obtain ⟨-, rfl⟩ := List.append_eq_nil_iff.mp (hstack.symm.trans hidle.1)
        exact hidle
      obtain ⟨⟨after, events⟩, hstep⟩ := Option.isSome_iff_exists.mp (step?_isSome hbusy)
      obtain ⟨hafter, hlower⟩ := step_lowers hstep hm hback
      obtain ⟨call, n, hcall, hscripts, hn⟩ := ih after.cost (hcost ▸ hlower) hafter rfl
      exact ⟨⟨m, .step, after, events⟩ :: call, n, hcall.cons ⟨rfl, hstep, rfl⟩ hback,
        List.forall_mem_cons.mpr ⟨rfl, hscripts⟩, hn⟩

/-- A pass over chores does chores. -/
theorem Machine.doesChores_of_passing (hk : k.focus = .passing)
    (hchores : OfChores k.world.scheduler.queue) : k.DoesChores k.stack :=
  ⟨hchores, by rw [hk]; rfl, [], rfl, List.forall_mem_nil _⟩

/-- A pass over chores takes no more steps than the tasks cost, whatever it is nested in. -/
theorem Call.pass_length_le (hcall : Call k.stack k call n) (hscripts : KeepsToScripts call)
    (hk : k.focus = .passing) (hchores : OfChores k.world.scheduler.queue) :
    call.length ≤ costOfTasks k.world.scheduler.queue + 3 := by
  have hlength := hcall.length_le hscripts (Machine.doesChores_of_passing hk hchores)
  obtain ⟨⟨above, hstack⟩, -⟩ := hcall.above ⟨[], rfl⟩
  have hpassing : Focus.passing.cost = 3 := rfl
  simp only [Machine.cost, hk, hpassing, hstack, List.map_append, List.sum_append] at hlength
  omega

end

/-! ## 6. What is fired is taken away -/

/-- Which tasks are counted. -/
abbrev TaskKind : Type := Handle → Action → Bool

/-- Whether a task of this kind was accepted. -/
def Event.acceptsOf (kind : TaskKind) : Event → Bool
  | accepted h _ action => kind h action
  | _ => false

/-- Whether a task of this kind began to run. -/
def Event.firesOf (kind : TaskKind) : Event → Bool
  | fired h action => kind h action
  | _ => false

/-- How many of these tasks are of this kind. -/
def countOf (kind : TaskKind) (tasks : List (Task Action)) : Nat :=
  tasks.countP fun t => kind t.handle t.action

/-- How many tasks of this kind passes have yet to fire. -/
def countDue (kind : TaskKind) (passes : List (List (Task Action) × Nat)) : Nat :=
  (passes.map fun pass => countOf kind pass.1).sum

theorem countOf_append (kind : TaskKind) (p q : List (Task Action)) :
    countOf kind (p ++ q) = countOf kind p + countOf kind q := List.countP_append

theorem countDue_append (kind : TaskKind) (p q : List (List (Task Action) × Nat)) :
    countDue kind (p ++ q) = countDue kind p + countDue kind q := by
  simp [countDue]

namespace Ledger

/-- How many tasks of this kind are pending or have yet to be fired. -/
def countAhead (kind : TaskKind) (l : Ledger) : Nat :=
  countOf kind l.queue + countDue kind (l.underway.map fun pass => (pass.due, pass.fired))

variable {l l' : Ledger} {e : Event} {events : List Event}

/-- A pass that begins takes what leaves the queue. -/
theorem countOf_drain (kind : TaskKind) (tasks : List (Task Action)) :
    countOf kind ((tasks.filter (!·.isDue)).map Task.countDown) +
      countOf kind (tasks.filter (·.isDue)) = countOf kind tasks := by
  have hdown : countOf kind ((tasks.filter (!·.isDue)).map Task.countDown) =
      countOf kind (tasks.filter (!·.isDue)) := List.countP_map
  rw [hdown, Nat.add_comm]
  exact (List.countP_eq_countP_filter_add tasks _ _).symm

/-- **Every posting takes away what it fires**, and adds no more than it accepts. -/
theorem Posts.countAhead (hpost : Posts l e l') (kind : TaskKind) :
    [e].countP (Event.firesOf kind) + l'.countAhead kind ≤
      l.countAhead kind + [e].countP (Event.acceptsOf kind) := by
  have hquiet (hfires : Event.firesOf kind e = false)
      (hle : l'.countAhead kind ≤ l.countAhead kind) :
      [e].countP (Event.firesOf kind) + l'.countAhead kind ≤
        l.countAhead kind + [e].countP (Event.acceptsOf kind) := by
    rw [List.countP_singleton, hfires]
    simp only [Bool.false_eq_true, if_false]
    omega
  cases hpost with
  | accepted delay action =>
    have haccepted : [Event.accepted (.ofNat l.accepted) delay action].countP
        (Event.acceptsOf kind) = countOf kind [⟨.ofNat l.accepted, delay, action⟩] := rfl
    rw [haccepted, List.countP_singleton]
    simp only [Ledger.countAhead, countOf_append, Event.firesOf, Bool.false_eq_true, if_false]
    omega
  | drained =>
    refine hquiet rfl ?_
    have hsplit := countOf_drain kind l.queue
    simp only [Ledger.countAhead, countDue, List.map_cons, List.sum_cons]
    omega
  | fired number task due k passes h =>
    have hfired : [Event.fired task.handle task.action].countP (Event.firesOf kind) =
        countOf kind [task] := rfl
    have hdue : countOf kind (task :: due) = countOf kind [task] + countOf kind due :=
      countOf_append kind [task] due
    rw [hfired]
    simp only [Ledger.countAhead, h, countDue, List.map_cons, List.sum_cons, hdue]
    omega
  | passEnded number k passes h =>
    refine hquiet rfl ?_
    simp only [Ledger.countAhead, h, countDue, List.map_cons, List.sum_cons]
    omega
  | cancelled task before after h =>
    refine hquiet rfl (Nat.add_le_add_right ?_ _)
    rw [h]
    exact ((List.sublist_cons_self task after).append_left before).countP_le
  | discarded => exact hquiet rfl (Nat.add_le_add_right (Nat.zero_le _) _)
  | other _ h =>
    refine hquiet ?_ (Nat.le_refl _)
    cases e <;> first | rfl | cases h

theorem countAhead_of_replay (hreplay : Replay l events l') (kind : TaskKind) :
    events.countP (Event.firesOf kind) + l'.countAhead kind ≤
      l.countAhead kind + events.countP (Event.acceptsOf kind) := by
  induction hreplay with
  | nil => exact Nat.le_of_eq (Nat.zero_add _)
  | snoc _ hpost ih =>
    have hlast := hpost.countAhead kind
    rw [List.countP_append, List.countP_append]
    omega

end Ledger

/-- **A pass fires no more than was pending or has been accepted in it**, of any kind of tasks and
whatever callbacks do.  What passes around it have yet to fire stays out of it. -/
theorem Call.fires_le {k n : Machine} {call : List Beat} (hcall : Call k.stack k call n)
    (hk : k.focus = .passing) (kind : TaskKind) :
    (trace call).countP (Event.firesOf kind) ≤
      countOf kind k.world.scheduler.queue + (trace call).countP (Event.acceptsOf kind) := by
  obtain ⟨l, hl⟩ := Ledger.exists_matches k
  obtain ⟨l', hreplay, hl'⟩ := hl.run hcall.run
  have hcount := Ledger.countAhead_of_replay hreplay kind
  obtain ⟨inner, hinner⟩ := Machine.underway_of_stack (hcall.above ⟨[], rfl⟩).1
  have haround : k.underway = k.stack.filterMap Frame.pass? := by rw [Machine.underway, hk]; rfl
  rw [Ledger.countAhead, Ledger.countAhead, hl.queue, hl.underway, hl'.underway, hinner,
    countDue_append, ← haround] at hcount
  omega

/-! ## 7. Passes -/

/-- An action that begins to run goes on with its own script. -/
theorem Beat.Valid.runs_body {b : Beat} (hb : b.Valid) {h : Handle} {action : Action}
    (hfired : .fired h action ∈ b.events) : b.after.focus = .script action.body := by
  obtain ⟨errand, herrand, hposts⟩ := hb.errand_of_mem hfired rfl
  cases errand with
  | fire task =>
    obtain ⟨due, count, hfocus⟩ := Machine.firing_of_errand herrand
    have hstep := Machine.step_of_move hb (by simp [Machine.isIdle, hfocus, Focus.isFinal])
      (by simp [hfocus])
    simp only [Machine.step?, hfocus] at hstep
    obtain ⟨hafter, hevents⟩ := Stepped.mk.inj (Option.some.inj hstep)
    rw [← hevents] at hfired
    obtain ⟨-, rfl⟩ := Event.fired.inj (List.mem_singleton.mp hfired)
    rw [← hafter]
  | _ => cases hposts

/-- **Passes come to an end.**  A pass is about to begin, within whatever else is under way, and all
pending actions are finite lists of chores: requests for tasks with such actions, cancellations,
questions, passes, panics, and repetitions of these.

* The pass answers, if every action keeps to its script, with the number of tasks that were due; it
  takes no more steps than the pending tasks cost, and goes on until it is back.
* At any moment of it, it has run no more actions than were pending or have been accepted in it, of
  any kind of tasks; this is so even if actions do anything else.
* An action that begins to run goes on with its own script. -/
theorem termination_of_pass {k : Machine} (hk : k.focus = .passing)
    (hchores : OfChores k.world.scheduler.queue) :
    (∃ call n, Call k.stack k call n ∧ KeepsToScripts call ∧ n.BackAt k.stack ∧
      n.focus = .reply (.count k.world.scheduler.due.length)) ∧
    ∀ call n, Call k.stack k call n →
      (KeepsToScripts call → call.length ≤ costOfTasks k.world.scheduler.queue + 3 ∧
        (n.BackAt k.stack ∨ n.step?.isSome)) ∧
      firings (trace call) ≤ k.world.scheduler.pending + acceptances (trace call) ∧
      (∀ kind : TaskKind, (trace call).countP (Event.firesOf kind) ≤
        countOf kind k.world.scheduler.queue + (trace call).countP (Event.acceptsOf kind)) ∧
      ∀ b ∈ call, ∀ h action, .fired h action ∈ b.events →
        b.after.focus = .script action.body := by
  constructor
  · obtain ⟨call, n, hcall, hscripts, hback⟩ :=
      (Machine.doesChores_of_passing hk hchores).come_back
    obtain ⟨-, -, count, -, -, -, hreply, -, rfl⟩ := Machine.pass_returns hk hcall hback
    exact ⟨call, n, hcall, hscripts, hback, hreply⟩
  · intro call n hcall
    refine ⟨?_, ?_, hcall.fires_le hk, ?_⟩
    · intro hscripts
      refine ⟨hcall.pass_length_le hscripts hk hchores, ?_⟩
      by_cases hback : n.BackAt k.stack
      · exact Or.inl hback
      · exact Or.inr (hcall.round_goes_on hback)
    · have hall := hcall.fires_le hk fun _ _ => true
      have hfires : Event.firesOf (fun _ _ => true) = Event.isFiring := by
        funext e
        cases e <;> rfl
      have haccepts : Event.acceptsOf (fun _ _ => true) = Event.isAcceptance := by
        funext e
        cases e <;> rfl
      rw [hfires, haccepts, countOf, List.countP_true] at hall
      exact hall
    · intro b hb h action hfired
      exact (hcall.run.valid b hb).runs_body hfired

/-- A pass is about to begin.  Its one task has others accepted that are due at once, runs passes
over them, and one of these does the same before it panics. -/
def cascade : Machine :=
  ((Machine.idle (World.parts 10 10)).played
    [.command (.schedule "first" (some 0) false .goOn
      [.repeat 2 [.schedule "again" (some 0) false .goOn [], .runPass],
        .schedule "second" (some 0) false .goOn
          [.schedule "third" (some 0) false .goOn [], .runPass, .panic .other],
        .runPass, .schedule "left" (some 0) false .goOn []]), .step, .command .runPass, .step]).2

/-- The pass. -/
def cascaded : List Beat × Machine := cascade.played (List.replicate 60 .step)

/-- It fires its own task, and passes nested in it fire four more; the last one stays pending. -/
theorem termination_of_cascade :
    cascade.focus = .passing ∧ OfChores cascade.world.scheduler.queue ∧
    Call cascade.stack cascade cascaded.1 cascaded.2 ∧ cascaded.2.BackAt cascade.stack ∧
    (∃ call n, Call cascade.stack cascade call n ∧ KeepsToScripts call ∧
      n.BackAt cascade.stack ∧ n.focus = .reply (.count 1)) ∧
    cascade.world.scheduler.pending = 1 ∧ acceptances (trace cascaded.1) = 5 ∧
    firings (trace cascaded.1) = 5 ∧ firings (trace cascaded.1) ≤ 1 + 5 ∧
    cascaded.2.world.scheduler.pending = 1 := by
  have hchores : OfChores cascade.world.scheduler.queue := List.forall_mem_singleton.mpr rfl
  have hcall : Call cascade.stack cascade cascaded.1 cascaded.2 :=
    .of_run (Machine.played_run _ _) (by decide)
  obtain ⟨hends, hwithin⟩ := termination_of_pass rfl hchores
  exact ⟨rfl, hchores, hcall, ⟨rfl, rfl⟩, hends, rfl, by decide, by decide,
    (hwithin _ _ hcall).2.1, rfl⟩

end TickHost
