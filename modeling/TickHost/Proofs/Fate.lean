import Mathlib.Data.List.Induction
import TickHost.Proofs.Ledger

/-!
# What becomes of a task

From its acceptance on, a task waits until the first of three things happens: it is cancelled, the
pending tasks are discarded, or the pass begins that takes it, the one after as many others as its
delay says.  If the last comes first, the action runs, once, in that pass.

`Fate` is this rule, as a function of the events since the acceptance.  It does not know of other
tasks, of actions, and of what is nested in what.  `fate_eq_waiting_iff` and `fate_eq_taken_iff` say
it without the function.
-/

namespace TickHost

/-! ## 1. What a trace tells -/

namespace Event

/-- Whether a task was accepted. -/
def isAcceptance : Event → Bool
  | accepted .. => true
  | _ => false

/-- Whether a pass began. -/
def isDrain : Event → Bool
  | drained => true
  | _ => false

/-- Whether the action of this task began to run. -/
def fires (h : Handle) : Event → Bool
  | fired h' _ => h' == h
  | _ => false

theorem isAcceptance_eq_false {e : Event} (he : e.isPosted = false) : e.isAcceptance = false := by
  cases e <;> first | rfl | cases he

theorem fires_eq_false {h : Handle} {e : Event} (he : e.isPosted = false) : e.fires h = false := by
  cases e <;> first | rfl | cases he

end Event

/-- How many tasks were accepted. -/
def acceptances (events : List Event) : Nat := events.countP Event.isAcceptance

/-- How many passes have begun. -/
def drains (events : List Event) : Nat := events.countP Event.isDrain

theorem drains_append (p q : List Event) : drains (p ++ q) = drains p + drains q :=
  List.countP_append

/-- How often the action of a task began to run. -/
def firingsOf (h : Handle) (events : List Event) : Nat := events.countP (Event.fires h)

/-- The passes of a trace. -/
structure PassLog where
  /-- How many have begun. -/
  begun : Nat := 0
  /-- Those under way, each by its number, the innermost first. -/
  underway : List Nat := []

/-- Passes are numbered in the order in which they begin, and nested. -/
def PassLog.after (log : PassLog) : Event → PassLog
  | .drained => ⟨log.begun + 1, (log.begun + 1) :: log.underway⟩
  | .passEnded _ => { log with underway := log.underway.tail }
  | _ => log

theorem PassLog.after_of_not_posted {e : Event} (he : e.isPosted = false) (log : PassLog) :
    log.after e = log := by
  cases e <;> first | rfl | cases he

/-- The passes that a trace tells of. -/
def passLog (events : List Event) : PassLog := events.foldl PassLog.after {}

/-! ## 2. The rule -/

/-- What may still become of a task that was accepted. -/
inductive Fate where
  /-- It waits, with so many passes to go before the one that takes it. -/
  | waiting (left : Nat)
  /-- A pass has taken it. -/
  | taken
  /-- It was cancelled or discarded. -/
  | gone
  deriving DecidableEq, Repr

namespace Fate

/-- Whether the task still waits. -/
def isWaiting : Fate → Bool
  | waiting _ => true
  | _ => false

/-- What an event means for a task. -/
def after (h : Handle) : Fate → Event → Fate
  | waiting left, .cancelled h' => if h' = h then gone else waiting left
  | waiting _, .discarded _ => gone
  | waiting 0, .drained => taken
  | waiting (left + 1), .drained => waiting left
  | fate, _ => fate

/-- Only a task that waits can meet its fate. -/
theorem after_of_not_waiting {fate : Fate} (hfate : fate.isWaiting = false) (h : Handle)
    (e : Event) : fate.after h e = fate := by
  cases fate with
  | waiting left => cases hfate
  | taken | gone => rfl

theorem after_drained {fate : Fate} {h : Handle} {left : Nat} :
    fate.after h .drained = waiting left ↔ fate = waiting (left + 1) := by
  cases fate with
  | waiting k => cases k <;> simp [after]
  | taken | gone => simp [after]

theorem after_cancelled {fate : Fate} {h : Handle} {left : Nat} :
    fate.after h (.cancelled h) ≠ waiting left := by
  cases fate <;> simp [after]

theorem after_discarded {fate : Fate} {h : Handle} {left n : Nat} :
    fate.after h (.discarded n) ≠ waiting left := by
  cases fate <;> simp [after]

/-- Only a pass that begins takes a task, and only one for which none is left to go. -/
theorem eq_drained_of_after {h : Handle} {left : Nat} {e : Event}
    (htaken : (waiting left).after h e = taken) : left = 0 ∧ e = .drained := by
  cases e with
  | drained =>
    cases left with
    | zero => exact ⟨rfl, rfl⟩
    | succ left => cases htaken
  | cancelled h' =>
    simp only [after] at htaken
    split at htaken <;> cases htaken
  | _ => cases left <;> cases htaken

/-- Other events mean nothing. -/
theorem after_other {h : Handle} {e : Event} (hcancelled : e ≠ .cancelled h)
    (hdiscarded : ∀ n, e ≠ .discarded n) (hdrained : e ≠ .drained) (fate : Fate) :
    fate.after h e = fate := by
  cases fate with
  | waiting left =>
    cases e with
    | cancelled h' => exact if_neg fun heq => hcancelled (congrArg _ heq)
    | discarded n => exact absurd rfl (hdiscarded n)
    | drained => exact absurd rfl hdrained
    | _ => cases left <;> rfl
  | taken | gone => rfl

end Fate

/-- What became of a task with this handle and delay, given what happened since its acceptance. -/
def fate (h : Handle) (delay : Nat) (since : List Event) : Fate :=
  since.foldl (Fate.after h) (.waiting delay)

theorem fate_snoc (h : Handle) (delay : Nat) (since : List Event) (e : Event) :
    fate h delay (since ++ [e]) = (fate h delay since).after h e := by
  simp [fate]

/-- What became of a task does not change any more. -/
theorem fate_append {h : Handle} {delay : Nat} {p : List Event}
    (hp : (fate h delay p).isWaiting = false) (q : List Event) :
    fate h delay (p ++ q) = fate h delay p := by
  induction q using List.reverseRecOn with
  | nil => simp
  | append_singleton q e ih =>
    rw [← List.append_assoc, fate_snoc, ih, Fate.after_of_not_waiting hp]

/-- **A task waits just as long as** it was not cancelled, the pending tasks were not discarded, and
no more passes have begun than its delay says. -/
theorem fate_eq_waiting_iff {h : Handle} {delay left : Nat} {since : List Event} :
    fate h delay since = .waiting left ↔
      .cancelled h ∉ since ∧ (∀ n, .discarded n ∉ since) ∧ drains since + left = delay := by
  induction since using List.reverseRecOn generalizing left with
  | nil => simp [fate, drains, eq_comm]
  | append_singleton since e ih =>
    rw [fate_snoc]
    by_cases hcancelled : e = .cancelled h
    · simp [hcancelled, Fate.after_cancelled]
    by_cases hdiscarded : ∃ n, e = .discarded n
    · obtain ⟨n, rfl⟩ := hdiscarded
      simp only [Fate.after_discarded, false_iff]
      exact fun hc => hc.2.1 n (by simp)
    by_cases hdrained : e = .drained
    · rw [hdrained, Fate.after_drained, ih]
      simp [drains, Event.isDrain]
      omega
    · rw [not_exists] at hdiscarded
      rw [Fate.after_other hcancelled hdiscarded hdrained, ih]
      have hdrain : e.isDrain = false := by
        cases e <;> first | rfl | exact absurd rfl hdrained
      simp [drains, hdrain, Ne.symm hcancelled, fun n => Ne.symm (hdiscarded n)]

/-- **A pass takes a task** if it begins while the task waits with no pass to go. -/
theorem fate_eq_taken_iff {h : Handle} {delay : Nat} {since : List Event} :
    fate h delay since = .taken ↔
      ∃ p q, since = p ++ .drained :: q ∧ fate h delay p = .waiting 0 := by
  constructor
  · intro h'
    induction since using List.reverseRecOn with
    | nil => cases h'
    | append_singleton since e ih =>
      rw [fate_snoc] at h'
      cases hfate : fate h delay since with
      | waiting left =>
        obtain ⟨rfl, rfl⟩ := Fate.eq_drained_of_after (hfate ▸ h')
        exact ⟨since, [], rfl, hfate⟩
      | taken =>
        obtain ⟨p, q, rfl, hp⟩ := ih hfate
        exact ⟨p, q ++ [e], by simp, hp⟩
      | gone => rw [hfate] at h'; cases h'
  · rintro ⟨p, q, rfl, hp⟩
    have htaken : fate h delay (p ++ [.drained]) = .taken := by rw [fate_snoc, hp]; rfl
    rw [List.append_cons, fate_append (by rw [htaken]; rfl), htaken]

end TickHost
