import TickHost.Proofs.Steps.Topics

/-!
# Steps and the ends of callbacks

Three operations call user code: a pass, a delivery and a hook pass.  Each has a frame that takes
note of how a callback ends, and goes on with the next one.  What it notes is a record, if the
callback has failed; no other step writes one (`Beat.Valid.quiet`), and how the machine goes on does
not depend on it (`Beat.Valid.noted`).
-/

namespace TickHost

/-! ## 1. What is noted -/

/-- Whether an event is a record of a failure. -/
def Event.isError : Event → Bool
  | logged record => record.level == .error
  | _ => false

namespace Frame

/-- What an operation does with a callback that has ended: a pass releases the action. -/
def release : Frame → List Event
  | firing task .. => [.released (some task.handle) task.action]
  | _ => []

/-- What an operation writes about a callback that has ended: one record, if it has failed.  A pass
writes of a panic under the handle of the task; a delivery under the name of the handler, and for
which tick it was called; a hook pass under the position of the listener, and which of its hooks it
was.  A hook also fails by a failure that it returns, be it that of its script or its own. -/
def complaint : Frame → Outcome → List Event
  | firing task .., .panicked payload => [.logged (.taskPanicked task.handle payload)]
  | handling handler event .., .panicked payload =>
    [.logged (.handlerPanicked handler.name event payload)]
  | hooking hook _ index _, .panicked payload => [.logged (.hookPanicked index hook payload)]
  | hooking hook _ index _, .failed failure => [.logged (.hookFailed index hook failure)]
  | hooking hook ⟨_, some failure⟩ index _, .returned => [.logged (.hookFailed index hook failure)]
  | _, _ => []

/-- Whether a callback that has ended so has failed, for the operation that has called it. -/
def fails : Frame → Outcome → Bool
  | firing .., .panicked _ | handling .., .panicked _ | hooking .., .panicked _ => true
  | hooking .., .failed _ | hooking _ ⟨_, some _⟩ .., .returned => true
  | _, _ => false

/-- A failure is complained about in one record, and what is no failure is not complained about. -/
theorem complaint_cases (frame : Frame) (outcome : Outcome) :
    (frame.fails outcome = false ∧ frame.complaint outcome = []) ∨
    frame.fails outcome = true ∧
      ∃ record, record.level = .error ∧ frame.complaint outcome = [.logged record] := by
  cases frame with
  | firing | handling =>
    cases outcome with
    | panicked payload => exact Or.inr ⟨rfl, _, rfl, rfl⟩
    | _ => exact Or.inl ⟨rfl, rfl⟩
  | hooking hook body index rest =>
    cases outcome with
    | returned =>
      obtain ⟨script, failure⟩ := body
      cases failure with
      | none => exact Or.inl ⟨rfl, rfl⟩
      | some failure => exact Or.inr ⟨rfl, _, rfl, rfl⟩
    | failed failure | panicked payload => exact Or.inr ⟨rfl, _, rfl, rfl⟩
  | _ => exact Or.inl ⟨rfl, rfl⟩

theorem countP_noted (frame : Frame) (outcome : Outcome) :
    (frame.release ++ frame.complaint outcome).countP Event.isError
      = (frame.fails outcome).toNat := by
  have hrelease : frame.release.countP Event.isError = 0 := by cases frame <;> rfl
  rw [List.countP_append, hrelease, Nat.zero_add]
  rcases frame.complaint_cases outcome with ⟨hfails, h⟩ | ⟨hfails, record, hlevel, h⟩
  · rw [h, hfails]; rfl
  · rw [h, hfails, List.countP_singleton, Event.isError, hlevel]; rfl

end Frame

/-- **The operation that is handed the end of a callback writes that**, after the release. -/
theorem Machine.events_finish (w : World) (S : List Frame) (outcome : Outcome) (frame : Frame) :
    (finish w S outcome frame).events = frame.release ++ frame.complaint outcome := by
  cases frame with
  | firing | handling => cases outcome <;> rfl
  | hooking hook body index rest =>
    obtain ⟨script, failure⟩ := body
    cases outcome with
    | returned => cases failure <;> rfl
    | _ => rfl
  | _ => rfl

/-! ## 2. Moves -/

/-- There is no record of a failure among these events. -/
def Quiet (events : List Event) : Prop := ∀ e ∈ events, e.isError = false

/-- A record of a failure is about that failure. -/
theorem Event.topic_of_isError {e : Event} (h : e.isError = true) : e.topic = .failure := by
  cases e with
  | logged record => cases record <;> first | rfl | cases h
  | _ => cases h

/-- **A move that takes note of no end writes no record of a failure.** -/
theorem Beat.Valid.quiet {b : Beat} (hb : b.Valid) (hending : b.before.ending? = none) :
    Quiet b.events := by
  have htopic := (Machine.move_tells hb).avoids (t := .failure)
    (by rw [Machine.tellsOf, hending]; rfl)
  intro e he
  exact Bool.eq_false_iff.mpr fun herror => htopic e he (Event.topic_of_isError herror)

theorem Machine.ending?_eq_some {m : Machine} {frame : Frame} {outcome : Outcome}
    (h : m.ending? = some (frame, outcome)) :
    m.focus = .ended outcome ∧ m.stack = frame :: m.stack.tail ∧ frame.catches = true := by
  obtain ⟨w, focus, stack⟩ := m
  cases focus with
  | ended outcome' =>
    cases stack with
    | nil => cases h
    | cons frame' stack =>
      simp only [ending?] at h
      split at h
      · rename_i hcatches
        obtain ⟨rfl, rfl⟩ := Prod.mk.inj (Option.some.inj h)
        exact ⟨rfl, rfl, hcatches⟩
      · cases h
  | _ => cases h

/-- The scheduler takes note of the end of an action for the pass that has fired it. -/
theorem Machine.ending_of_errand {m : Machine} {task : Task Action} {outcome : Outcome}
    (h : m.errand? = some (.settle task outcome)) :
    ∃ due fired, m.ending? = some (.firing task due fired, outcome) := by
  obtain ⟨w, focus, stack⟩ := m
  cases focus with
  | command c => cases c <;> cases h
  | firing due k => cases due <;> cases h
  | ended outcome' =>
    obtain ⟨_, due, fired, _, hstack, herrand⟩ := errand_of_ended rfl h
    obtain rfl : stack = _ := hstack
    obtain ⟨rfl, rfl⟩ := Errand.settle.inj herrand
    exact ⟨due, fired, rfl⟩
  | reply r => cases errand_of_reply rfl h
  | _ => cases h

/-- **The machine goes on as if the callback had returned**, and what it writes down is the record
of the failure, if there was one, after the release of the action, if there is one to release. -/
theorem Beat.Valid.noted {b : Beat} (hb : b.Valid) {frame : Frame} {outcome : Outcome}
    (hending : b.before.ending? = some (frame, outcome)) :
    b.after = (Machine.finish b.before.world b.before.stack.tail .returned frame).machine ∧
      b.events = frame.release ++ frame.complaint outcome := by
  obtain ⟨⟨w, focus, stack⟩, mv, n, events⟩ := b
  obtain ⟨hfocus, hstack, hcatches⟩ := Machine.ending?_eq_some hending
  simp only at hfocus hstack
  rw [hfocus, hstack] at hb
  have hfinish : Machine.finish w stack.tail outcome frame = ⟨n, events⟩ :=
    Option.some.inj (Machine.step_of_move hb rfl nofun)
  have hafter : n = _ := (congrArg Stepped.machine hfinish).symm
  have hevents : events = _ := (congrArg Stepped.events hfinish).symm
  rw [Machine.events_finish] at hevents
  cases frame with
  | firing | handling | hooking => exact ⟨hafter, hevents⟩
  | _ => cases hcatches

end TickHost
