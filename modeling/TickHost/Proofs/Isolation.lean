import TickHost.Proofs.Mending
import TickHost.Proofs.Shelter
import TickHost.Proofs.Steps.Endings
import TickHost.Session

/-!
# Failures are isolated

A callback that fails and one that does the same and returns are alike to everyone else.  This is
said here of pairs of runs, in two ways.

* Two runs whose callbacks differ in how they end, wherever that is written down, differ in nothing
  else (`run_alike`): mended, they are the same.  This lets any number of callbacks fail in one run
  and not in the other.
* A callback that is running may end in any way, and the run goes on from there by the very same
  beats (`run_exchange`).

In both, what is written down about a failure is one record, at the moment when it is noted.
-/

namespace TickHost

/-! ## 1. Moves -/

theorem Machine.mend_isIdle (m : Machine) : m.mend.isIdle = m.isIdle := by
  obtain ⟨w, focus, stack⟩ := m
  cases focus <;> simp [mend, isIdle, Focus.mend, Focus.isFinal]

/-- **A mended machine makes the same moves.** -/
theorem Machine.mend_move (m : Machine) (mv : Move) :
    m.mend.move? mv.mend = (m.move? mv).map Stepped.mend := by
  cases mv with
  | step => exact m.mend_step
  | command c =>
    simp only [Move.mend, move?, mend_isIdle]
    split <;> rfl
  | improvise commands =>
    obtain ⟨w, focus, stack⟩ := m
    cases focus <;> rfl

/-- Machines that are alike once they are mended stay so. -/
theorem Machine.move_alike {m m' : Machine} {mv mv' : Move} {s : Stepped}
    (hm : m'.mend = m.mend) (hmv : mv'.mend = mv.mend) (h : m.move? mv = some s) :
    ∃ s', m'.move? mv' = some s' ∧ s'.mend = s.mend := by
  have hmended : (m'.move? mv').map Stepped.mend = some s.mend := by
    rw [← mend_move, hm, hmv, mend_move, h]; rfl
  exact Option.map_eq_some_iff.mp hmended

/-! ## 2. Runs that are alike -/

/-- A beat with every callback in it mended. -/
def Beat.mend (b : Beat) : Beat := ⟨b.before.mend, b.move.mend, b.after.mend, mendEvents b.events⟩

/-- **Runs that are alike once they are mended.**  For whatever differs in how callbacks end, in the
world or in the moves, there is a run that is the same when both are mended. -/
theorem run_alike {k k' m : Machine} (hk : k'.mend = k.mend) {path : List Beat}
    (hrun : Run k path m) {moves : List Move}
    (hmoves : moves.map Move.mend = path.map (·.move.mend)) :
    ∃ path' m', Run k' path' m' ∧ path'.map (·.move) = moves ∧
      path'.map Beat.mend = path.map Beat.mend ∧ m'.mend = m.mend := by
  induction hrun generalizing moves with
  | nil =>
    obtain rfl := List.map_eq_nil_iff.mp hmoves
    exact ⟨[], k', .nil, rfl, rfl, hk⟩
  | @snoc path _ _ b hrun hb ih =>
    obtain ⟨rfl, hvalid, rfl⟩ := hb
    rw [List.map_append] at hmoves
    obtain ⟨init, last, rfl, hinit, hlast⟩ := List.map_eq_append_iff.mp hmoves
    obtain ⟨mv', rfl, hmv'⟩ := List.map_eq_singleton_iff.mp hlast
    obtain ⟨path', m', hrun', hmoves', hbeats, hm'⟩ := ih hinit
    obtain ⟨s', hs', hmend⟩ := Machine.move_alike hm' hmv' hvalid
    have hmachine : s'.machine.mend = b.after.mend := congrArg Stepped.machine hmend
    have hevents : mendEvents s'.events = mendEvents b.events := congrArg Stepped.events hmend
    let b' : Beat := ⟨m', mv', s'.machine, s'.events⟩
    have hb' : Beat.mend b' = b.mend := by simp only [Beat.mend, b', hm', hmv', hmachine, hevents]
    refine ⟨path' ++ [b'], s'.machine, hrun'.snoc ⟨rfl, hs', rfl⟩, ?_, ?_, hmachine⟩
    · rw [List.map_append, hmoves']; rfl
    · rw [List.map_append, List.map_append, hbeats, List.map_singleton, List.map_singleton, hb']

/-- The reply that is there. -/
def Machine.reply? (m : Machine) : Option Reply :=
  match m.focus with
  | .reply r => some r
  | _ => none

theorem Machine.mend_reply? (m : Machine) : m.mend.reply? = m.reply? := by
  obtain ⟨w, focus, stack⟩ := m
  cases focus <;> rfl

/-- What an observer can ask of a world does not depend on how callbacks end. -/
theorem World.mend_status (w : World) : w.mend.status = w.status := by
  simp [status, mend, Coordinator.map]

theorem mendEvents_trace (path : List Beat) :
    mendEvents (trace path) = trace (path.map Beat.mend) := by
  induction path with
  | nil => rfl
  | cons b path ih => rw [trace_cons, mendEvents_append, ih]; rfl

theorem replies_mend (path : List Beat) :
    (path.map Beat.mend).map (·.after.reply?) = path.map (·.after.reply?) := by
  rw [List.map_map]
  refine List.map_congr_left ?_
  intro b _
  exact b.after.mend_reply?

/-! ## 3. Runs that differ in one ending -/

/-- The moves by which the callback that is running ends so, and the operation that has called it
takes note of that. -/
def Outcome.moves (outcome : Outcome) : List Move :=
  [.improvise [.exit outcome], .step, .step, .step, .step]

/-- The beats of these moves. -/
def Machine.leaving (m : Machine) (outcome : Outcome) : List Beat := (m.played outcome.moves).1

/-- The operation goes on as if the callback had returned. -/
theorem Machine.leaving_run {k : Machine} {commands : Script} (hfocus : k.focus = .script commands)
    {frame : Frame} {stack : List Frame} (hstack : k.stack = frame :: stack)
    (hcatches : frame.catches = true) (outcome : Outcome) :
    Run k (k.leaving outcome) (finish k.world stack .returned frame).machine ∧
      trace (k.leaving outcome) = frame.release ++ frame.complaint outcome := by
  obtain ⟨w, _, _⟩ := k
  obtain rfl : _ = Focus.script commands := hfocus
  obtain rfl : _ = frame :: stack := hstack
  rw [← events_finish w stack outcome frame]
  cases frame with
  | firing | handling | hooking => exact ⟨played_run _ _, List.append_nil _⟩
  | _ => cases hcatches

/-- **A callback may end in any way.**  The run goes on from there by the same beats, and what
happens differs in what is written about the end. -/
theorem run_exchange {w : World} {p q : List Beat} {k m : Machine} {outcome : Outcome}
    (hrun : Run (Machine.idle w) (p ++ k.leaving outcome ++ q) m) (hk : Run (Machine.idle w) p k)
    {commands : Script} (hfocus : k.focus = .script commands) :
    ∃ frame stack, k.stack = frame :: stack ∧ frame.catches = true ∧ ∀ outcome',
      Run (Machine.idle w) (p ++ k.leaving outcome' ++ q) m ∧
      trace (p ++ k.leaving outcome' ++ q) =
        trace p ++ frame.release ++ frame.complaint outcome' ++ trace q := by
  obtain ⟨frame, stack, hstack, hcatches⟩ := Run.caller hk hfocus
  have hleaving := Machine.leaving_run hfocus hstack hcatches
  obtain ⟨j, hinit, hrest⟩ := Trail.split hrun
  obtain rfl := Run.unique hinit (Trail.append hk (hleaving outcome).1)
  refine ⟨frame, stack, hstack, hcatches, ?_⟩
  intro outcome'
  constructor
  · exact Trail.append (Trail.append hk (hleaving outcome').1) hrest
  · rw [trace_append, trace_append, (hleaving outcome').2, ← List.append_assoc]

/-! ## 4. Isolation -/

/-- **Failures are isolated.**  For every run, from any world:

* the run in which callbacks end in other ways, given by another world and by other moves, takes the
  same moves, gives the same replies, calls the same callbacks and leads to the same machine, but
  for how callbacks end; what happens differs in the records of failures only;
* when a callback that is running ends, it may as well end in any other way: the run goes on by the
  same beats to the same machine, and one record makes the difference, after the release of the
  action if there is one;
* a move that takes note of the end of a callback goes on as if that had returned, and writes one
  record if it has failed; no other move writes such a record;
* no end of a callback escapes from an operation: it has a reply when it comes to its end. -/
theorem isolation_of_run {w : World} {path : List Beat} {m : Machine}
    (hrun : Run (Machine.idle w) path m) :
    (∀ (w' : World) (moves : List Move), w'.mend = w.mend →
      moves.map Move.mend = path.map (·.move.mend) →
      ∃ path' m', Run (Machine.idle w') path' m' ∧ path'.map (·.move) = moves ∧
        m'.mend = m.mend ∧ m'.world.status = m.world.status ∧
        path'.map Beat.mend = path.map Beat.mend ∧
        path'.map (·.after.reply?) = path.map (·.after.reply?) ∧
        mendEvents (trace path') = mendEvents (trace path)) ∧
    (∀ (p q : List Beat) (k : Machine) (commands : Script) (outcome : Outcome),
      path = p ++ k.leaving outcome ++ q → Run (Machine.idle w) p k →
      k.focus = .script commands →
      ∃ frame stack, k.stack = frame :: stack ∧ frame.catches = true ∧ ∀ outcome',
        Run (Machine.idle w) (p ++ k.leaving outcome' ++ q) m ∧
        trace (p ++ k.leaving outcome' ++ q) =
          trace p ++ frame.release ++ frame.complaint outcome' ++ trace q) ∧
    (∀ b ∈ path, (b.before.ending? = none → Quiet b.events) ∧
      ∀ frame outcome, b.before.ending? = some (frame, outcome) →
        b.after = (Machine.finish b.before.world b.before.stack.tail .returned frame).machine ∧
        b.events = frame.release ++ frame.complaint outcome ∧
        b.events.countP Event.isError = (frame.fails outcome).toNat) ∧
    ∀ (k n : Machine) (call : List Beat), k.focus.isUserCode = false →
      Call k.stack k call n → n.BackAt k.stack → ∃ r, n.focus = .reply r := by
  refine ⟨?_, ?_, ?_, ?_⟩
  · intro w' moves hw hmoves
    have hidle : (Machine.idle w').mend = (Machine.idle w).mend := by
      simp only [Machine.mend, Machine.idle, hw]
    obtain ⟨path', m', hrun', hmoves', hbeats, hm'⟩ := run_alike hidle hrun hmoves
    refine ⟨path', m', hrun', hmoves', hm', ?_, hbeats, ?_, ?_⟩
    · rw [← World.mend_status, ← World.mend_status m.world]
      exact congrArg (·.world.status) hm'
    · rw [← replies_mend, hbeats, replies_mend]
    · rw [mendEvents_trace, hbeats, mendEvents_trace]
  · rintro p q k commands outcome rfl hk hfocus
    exact run_exchange hrun hk hfocus
  · intro b hb
    have hvalid := hrun.valid b hb
    refine ⟨hvalid.quiet, ?_⟩
    intro frame outcome hending
    obtain ⟨hafter, hevents⟩ := hvalid.noted hending
    exact ⟨hafter, hevents, by rw [hevents, Frame.countP_noted]⟩
  · intro k n call hk hcall hback
    exact Machine.call_replies hk hcall hback

/-- A pass that has two tasks to fire, until the first action is about to do something. -/
def onset : List Beat × Machine :=
  (Machine.idle (World.parts 10 10)).played
    [.command (.schedule "first" (some 0) false .goOn [.runPass]), .step,
      .command (.schedule "second" (some 0) false .goOn []), .step, .command .runPass, .step, .step,
      .step]

/-- The rest of that pass, once its first action has ended. -/
def aftermath : List Beat × Machine :=
  (onset.2.played Outcome.returned.moves).2.played (List.replicate 4 .step)

/-- The pass goes on in the same way whether its first action panics or returns. -/
theorem isolation_of_onset :
    Run (Machine.idle (World.parts 10 10))
      (onset.1 ++ onset.2.leaving (.panicked .other) ++ aftermath.1) aftermath.2 ∧
    Run (Machine.idle (World.parts 10 10))
      (onset.1 ++ onset.2.leaving .returned ++ aftermath.1) aftermath.2 ∧
    aftermath.2.focus = .reply (.count 2) ∧
    (trace (onset.1 ++ onset.2.leaving (.panicked .other) ++ aftermath.1)).countP Event.isError = 1
      ∧ (trace (onset.1 ++ onset.2.leaving .returned ++ aftermath.1)).countP Event.isError = 0 := by
  have hopening : Run (Machine.idle (World.parts 10 10)) onset.1 onset.2 := Machine.played_run _ _
  have hrun : Run (Machine.idle (World.parts 10 10))
      (onset.1 ++ onset.2.leaving (.panicked .other) ++ aftermath.1) aftermath.2 :=
    Trail.append (Trail.append hopening (Machine.played_run _ _)) (Machine.played_run _ _)
  obtain ⟨-, hexchange, -⟩ := isolation_of_run hrun
  obtain ⟨frame, stack, -, -, hother⟩ := hexchange _ _ _ _ _ rfl hopening rfl
  exact ⟨hrun, (hother .returned).1, rfl, by decide, by decide⟩

end TickHost
