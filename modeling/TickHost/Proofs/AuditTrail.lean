import TickHost.Proofs.Steps.Session

/-!
# The log of sessions as an audit trail

Whoever has only the log can tell where the session is: reading its records in order, from the state
in which nothing has started, one arrives at the state and the number of the session, and no record
on the way contradicts those before it.

* `Account.note?` is how a record is read.  It says where the session was, and the reader objects if
  that is not what he has been told so far.
* `World.transition_told`: handing an event to the lifecycle writes one record, and reading it does
  to the account what the event has done to the session.
* `Machine.move_told`: so does every move, and one that hands over no event writes nothing of the
  kind.

In a move the record may come before the change or after it, but no user code runs in between.
Where hooks are called, which may drive the lifecycle themselves, the record is there already; so
the records of nested calls come in the order of their changes.
-/

namespace TickHost

/-! ## 1. Reading the log -/

/-- The records of the session among these events, in order. -/
def sessionRecords (events : List Event) : List Record :=
  events.filterMap fun
    | .logged record => if record.topic = .session then some record else none
    | _ => none

theorem sessionRecords_append (p q : List Event) :
    sessionRecords (p ++ q) = sessionRecords p ++ sessionRecords q :=
  List.filterMap_append

theorem sessionRecords_eq_nil {events : List Event} (h : ∀ e ∈ events, e.topic ≠ .session) :
    sessionRecords events = [] := by
  refine List.filterMap_eq_nil_iff.mpr fun e he => ?_
  cases e with
  | logged record => exact if_neg (h _ he)
  | _ => rfl

/-- What a reader of the log knows of the session. -/
structure Account where
  /-- Where the session is. -/
  state : Lifecycle.State := .unstarted
  /-- How many sessions have run. -/
  session : Nat := 0
  deriving DecidableEq, Repr

/-- **How a record is read.**  `Lifecycle A -> B` needs `A` to be the state, `Session n started` the
session before to be the number `n - 1`, `Session n stopping` the session `n` to be running, the
record of a session that never started a session that is starting, and `Ignoring ... while S` needs
`S` to be the state.  Nothing else is a record of the session. -/
def Account.note? (a : Account) : Record → Option Account
  | .moved source target => if a.state = source then some { a with state := target } else none
  | .sessionStarted n => if n = a.session + 1 then some ⟨.running, n⟩ else none
  | .sessionStopping n =>
    if a.state = .running ∧ n = a.session then some { a with state := .stopping } else none
  | .sessionAborted => if a.state = .starting then some { a with state := .stopping } else none
  | .ignored _ state | .ignoredStart state | .ignoredStop state =>
    if a.state = state then some a else none
  | _ => none

/-- What the reader knows in the end, if no record contradicts those before it. -/
def Account.replay? (a : Account) (records : List Record) : Option Account :=
  records.foldlM Account.note? a

theorem Account.replay?_singleton (a : Account) (record : Record) :
    a.replay? [record] = a.note? record := by
  simp [replay?]

theorem Account.replay?_append (a : Account) (p q : List Record) :
    a.replay? (p ++ q) = (a.replay? p).bind (replay? · q) :=
  List.foldlM_append

/-- What there is to know of the session. -/
def World.account (w : World) : Account := ⟨w.coordinator.state, w.coordinator.session⟩

/-- The same of the world of a machine. -/
def Machine.account (m : Machine) : Account := ⟨m.state, m.session⟩

/-! ## 2. One move -/

namespace World

/-- A refused event is recorded with the state that has refused it. -/
theorem note?_refusalRecord (w : World) (event : Lifecycle.Event) :
    w.account.note? (refusalRecord w.coordinator.state event) = some w.account := by
  cases event <;> exact if_pos rfl

/-- **Handing an event to the lifecycle writes one record**, and whoever reads it knows what has
become of the session. -/
theorem transition_told (w : World) (event : Lifecycle.Event) :
    ∃ record, sessionRecords (w.transition event).events = [record] ∧
      w.account.note? record = some (w.transition event).world.account := by
  simp only [transition]
  cases hnext : w.coordinator.state.next? event with
  | none =>
    refine ⟨refusalRecord w.coordinator.state event, ?_, w.note?_refusalRecord event⟩
    cases event <;> rfl
  | some next =>
    -- an event has few edges, and which record is written depends on the edge
    cases event with
    | starting | stopped =>
      refine ⟨.moved w.coordinator.state next, rfl, ?_⟩
      have hquiet : next ≠ .running := by
        cases hstate : w.coordinator.state <;> rw [hstate] at hnext <;> cases hnext <;> decide
      simp [Account.note?, account, Coordinator.enter, hquiet]
    | started =>
      obtain rfl : next = .running := by
        cases hstate : w.coordinator.state <;> rw [hstate] at hnext <;> cases hnext <;> rfl
      exact ⟨_, rfl, if_pos rfl⟩
    | stopping =>
      obtain rfl : next = .stopping := by
        cases hstate : w.coordinator.state <;> rw [hstate] at hnext <;> cases hnext <;> rfl
      by_cases hrunning : w.coordinator.state = .running
      · simp only [if_pos hrunning]
        exact ⟨_, rfl, if_pos ⟨hrunning, rfl⟩⟩
      · simp only [if_neg hrunning]
        have hstarting : w.coordinator.state = .starting := by
          cases hstate : w.coordinator.state <;> rw [hstate] at hnext hrunning <;>
            first | rfl | exact absurd rfl hrunning | cases hnext
        exact ⟨_, rfl, if_pos hstarting⟩

end World

namespace Machine

/-- **Whoever reads what a move has written knows what has become of the session**, and a move
writes one record of it for the event that it hands over, if it hands one over. -/
theorem move_told {m : Machine} {mv : Move} {s : Stepped} (h : m.move? mv = some s) :
    m.account.replay? (sessionRecords s.events) = some s.machine.account ∧
      (sessionRecords s.events).length = m.event?.isSome.toNat := by
  cases move_session h with
  | elsewhere hevent hstate hsession =>
    have hnone := sessionRecords_eq_nil
      ((move_tells h).avoids (t := .session) (by rw [tellsOf, hevent]; rfl))
    have hsame : s.machine.account = m.account := by rw [account, hstate, hsession]; rfl
    rw [hnone, hevent, hsame]
    exact ⟨rfl, rfl⟩
  | moving event hfocus hstep =>
    obtain ⟨w, focus, stack⟩ := m
    obtain rfl : focus = .moving event := hfocus
    obtain ⟨record, hrecords, hnote⟩ := w.transition_told event
    -- what a hook pass begins with is no record
    have hwritten : sessionRecords s.events = [record] ∧
        s.machine.world = (w.transition event).world := by
      cases rule_of_step hstep with
      | refused | moved => exact ⟨hrecords, rfl⟩
      | hooksBegin w S event hook hvalue =>
        rw [sessionRecords_append, hrecords]
        exact ⟨rfl, rfl⟩
    have haccount : s.machine.account = (w.transition event).world.account :=
      congrArg World.account hwritten.2
    rw [hwritten.1, haccount, Account.replay?_singleton]
    exact ⟨hnote, rfl⟩

end Machine

/-! ## 3. Whole runs -/

/-- Reading what a run has written, wherever it began, leads from what was known of the session to
what there is to know. -/
theorem Run.told {k m : Machine} {path : List Beat} (hrun : Run k path m) :
    k.account.replay? (sessionRecords (trace path)) = some m.account := by
  induction hrun with
  | nil => rfl
  | snoc _ hb ih =>
    obtain ⟨rfl, hvalid, rfl⟩ := hb
    rw [trace_append, sessionRecords_append, Account.replay?_append, ih, trace_cons, trace_nil,
      List.append_nil]
    exact (Machine.move_told hvalid).1

/-- **The log is an audit trail.**  At every moment of every run from a fresh world, with whatever
hooks do:

* reading the records of the session in order, from the state in which nothing has started, nothing
  contradicts what was read before, and one arrives at the state and the number of the session;
* these are what is answered at that moment to whoever asks for them;
* every event that was handed to the lifecycle has its record, one and no more, and there are no
  others. -/
theorem audit_of_run {w : World} (hw : w.Fresh) {path : List Beat} {m : Machine}
    (hrun : Run (Machine.idle w) path m) :
    ∃ account : Account,
      ({} : Account).replay? (sessionRecords (trace path)) = some account ∧
      (Machine.perform m.world m.stack .state).machine.focus = .reply (.state account.state) ∧
      (Machine.perform m.world m.stack .session).machine.focus = .reply (.count account.session) ∧
      ∀ b ∈ path, (sessionRecords b.events).length = b.before.event?.isSome.toNat := by
  have hbegin : w.account = {} := by rw [World.account, hw.state, hw.session]
  refine ⟨m.account, hbegin ▸ hrun.told, rfl, rfl, ?_⟩
  intro b hb
  exact (Machine.move_told (hrun.valid b hb)).2

/-- A session whose start hook stops it, reports a second start, and then fails; its stop hook ends
it and begins the next one, which is stopped before it has started. -/
def upheaval : List Beat × Machine :=
  (Machine.idle (World.parts 10 10)).played <|
    [.command (.addListener "fickle" .both [.notifyStop, .notifyStart]
      [.handle .stopped, .handle .starting, .notifyStop] none none 1), .step,
      .command .notifyStart] ++ List.replicate 26 .step

/-- The log of it, from which the state is read. -/
theorem audit_of_upheaval :
    (World.parts 10 10).Fresh ∧
    Run (Machine.idle (World.parts 10 10)) upheaval.1 upheaval.2 ∧
    sessionRecords (trace upheaval.1) =
      [.sessionStarted 1, .sessionStopping 1, .moved .stopping .stopped, .moved .stopped .starting,
        .sessionAborted, .ignoredStart .stopping] ∧
    (Machine.perform upheaval.2.world upheaval.2.stack .state).machine.focus =
      .reply (.state .stopping) ∧
    (Machine.perform upheaval.2.world upheaval.2.stack .session).machine.focus =
      .reply (.count 1) := by
  have hrun : Run (Machine.idle (World.parts 10 10)) upheaval.1 upheaval.2 :=
    Machine.played_run _ _
  have hrecords : sessionRecords (trace upheaval.1) =
      [.sessionStarted 1, .sessionStopping 1, .moved .stopping .stopped, .moved .stopped .starting,
        .sessionAborted, .ignoredStart .stopping] := by decide
  obtain ⟨account, hreplay, hstate, hsession, -⟩ :=
    audit_of_run (World.parts_fresh 10 10) hrun
  rw [hrecords] at hreplay
  obtain rfl : (⟨.stopping, 1⟩ : Account) = account := Option.some.inj hreplay
  exact ⟨World.parts_fresh 10 10, hrun, hrecords, hstate, hsession⟩

end TickHost
