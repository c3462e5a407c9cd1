import TickHost.Proofs.Order

/-!
# The docket of a scheduler

Handles repeat after `2 ^ 64` tasks, so a handle does not tell for good which task is meant.  A
docket does: it numbers tasks by how many were accepted before, and keeps for each of them where it
is and where it comes from.

* `docket` computes it from a trace, which tells all there is to know.
* `docket_of_run`: in a run nothing comes that the docket does not allow, and what it has pending
  and due are the tasks that the machine has.
* `Docket.Sound`: every task is in one place, so none runs twice; and a task that was requested by
  an action was requested by one that has begun to run.
-/

namespace TickHost

/-! ## 1. Dockets -/

/-- A task with its number. -/
structure Slip where
  /-- How many tasks were accepted before. -/
  number : Nat
  /-- The task. -/
  task : Task Action

/-- What is left of a task that a pass has seen and left pending. -/
def Slip.countDown (slip : Slip) : Slip := { slip with task := slip.task.countDown }

/-- Where a task comes from. -/
structure Origin where
  /-- The delay that it was requested with. -/
  delay : Nat
  /-- The task whose action was running in the innermost pass. -/
  parent : Option Nat
  deriving DecidableEq

/-- A pass under way. -/
structure Shift where
  /-- How many passes had begun once it had. -/
  pass : Nat
  /-- The tasks it has yet to fire. -/
  due : List Slip := []
  /-- The task that it has fired last. -/
  current : Option Nat := none

/-- That a task was fired. -/
structure Firing where
  /-- The task. -/
  slip : Slip
  /-- The pass that has fired it. -/
  pass : Nat

/-- What a trace tells about tasks, each by its number. -/
structure Docket where
  /-- Where the accepted tasks come from. -/
  origins : List Origin := []
  /-- The pending tasks. -/
  pending : List Slip := []
  /-- How many passes have begun. -/
  begun : Nat := 0
  /-- The passes under way, the innermost first. -/
  underway : List Shift := []
  /-- The tasks that were fired, in order. -/
  ran : List Firing := []
  /-- The tasks that were cancelled or discarded. -/
  removed : List Nat := []

namespace Docket

/-- The task whose action is running in the innermost pass. -/
def current? (d : Docket) : Option Nat := d.underway.head?.bind Shift.current

/-- What an event makes of a docket. -/
def after (d : Docket) : Event → Docket
  | .accepted h delay action =>
    { d with
      origins := d.origins ++ [⟨delay, d.current?⟩]
      pending := d.pending ++ [⟨d.origins.length, h, delay, action⟩] }
  | .drained =>
    { d with
      pending := (d.pending.filter (!·.task.isDue)).map Slip.countDown
      begun := d.begun + 1
      underway := ⟨d.begun + 1, d.pending.filter (·.task.isDue), none⟩ :: d.underway }
  | .fired .. =>
    match d.underway with
    | ⟨pass, slip :: due, _⟩ :: shifts =>
      { d with
        underway := ⟨pass, due, some slip.number⟩ :: shifts
        ran := d.ran ++ [⟨slip, pass⟩] }
    | _ => d
  | .passEnded _ => { d with underway := d.underway.tail }
  | .cancelled h =>
    { d with
      pending := d.pending.eraseP (·.task.handle == h)
      removed := ((d.pending.find? (·.task.handle == h)).map Slip.number).toList ++ d.removed }
  | .discarded _ => { d with pending := [], removed := d.pending.map Slip.number ++ d.removed }
  | _ => d

/-- Whether an event may come: what is told of a task is told of one that is there. -/
inductive Allows (d : Docket) : Event → Prop
  | accepted (h : Handle) (delay : Nat) (action : Action) : Allows d (.accepted h delay action)
  | drained : Allows d .drained
  | fired (pass : Nat) (slip : Slip) (due : List Slip) (current : Option Nat) (shifts : List Shift)
      (h : d.underway = ⟨pass, slip :: due, current⟩ :: shifts) :
      Allows d (.fired slip.task.handle slip.task.action)
  | passEnded (k pass : Nat) (current : Option Nat) (shifts : List Shift)
      (h : d.underway = ⟨pass, [], current⟩ :: shifts) : Allows d (.passEnded k)
  | cancelled (slip : Slip) (before after : List Slip) (h : d.pending = before ++ slip :: after)
      (hfirst : ∀ slip' ∈ before, slip'.task.handle ≠ slip.task.handle) :
      Allows d (.cancelled slip.task.handle)
  | discarded : Allows d (.discarded d.pending.length)
  | other (e : Event) (h : e.isPosted = false) : Allows d e

/-- One docket after another. -/
def Step (d : Docket) (e : Event) (d' : Docket) : Prop := d.Allows e ∧ d.after e = d'

theorem after_of_not_posted {e : Event} (h : e.isPosted = false) (d : Docket) : d.after e = d := by
  cases e <;> first | rfl | cases h

theorem after_fired {d : Docket} {pass : Nat} {slip : Slip} {due : List Slip}
    {current : Option Nat} {shifts : List Shift}
    (h : d.underway = ⟨pass, slip :: due, current⟩ :: shifts) (handle : Handle) (action : Action) :
    d.after (.fired handle action) =
      { d with
        underway := ⟨pass, due, some slip.number⟩ :: shifts
        ran := d.ran ++ [⟨slip, pass⟩] } := by
  rw [after, h]

end Docket

/-- The docket of a trace. -/
def docket (events : List Event) : Docket := events.foldl Docket.after {}

theorem docket_snoc (events : List Event) (e : Event) :
    docket (events ++ [e]) = (docket events).after e := by
  simp [docket]

/-- What comes step by step is the docket of the trace. -/
theorem Docket.foldl_of_trail {d d' : Docket} {events : List Event} (h : Trail Step d events d') :
    events.foldl after d = d' := by
  induction h with
  | nil => rfl
  | snoc _ hstep ih => rw [List.foldl_append, ih]; exact hstep.2

/-- The last step, and what comes before it. -/
theorem Docket.last_of_trail {events : List Event} {e : Event}
    (h : Trail Step {} (events ++ [e]) (docket (events ++ [e]))) :
    Trail Step {} events (docket events) ∧ (docket events).Allows e := by
  obtain ⟨d, hinit, hlast⟩ := h.split
  obtain ⟨d', ⟨hallows, -⟩, -⟩ := hlast.uncons
  obtain rfl := foldl_of_trail hinit
  exact ⟨hinit, hallows⟩

/-! ## 2. Dockets and machines -/

namespace Docket

/-- The docket has the tasks of the machine. -/
structure Matches (d : Docket) (m : Machine) : Prop where
  pending : d.pending.map Slip.task = m.world.scheduler.queue
  underway : d.underway.map (·.due.map Slip.task) = m.underway.map (·.1)

variable {d : Docket} {m n : Machine} {b : Beat}

theorem Matches.same (h : d.Matches m) (hscheduler : n.world.scheduler = m.world.scheduler)
    (hunderway : n.underway = m.underway) : d.Matches n :=
  ⟨hscheduler ▸ h.pending, hunderway ▸ h.underway⟩

/-- The innermost pass of the machine is that of the docket. -/
theorem Matches.innermost (h : d.Matches m) {due : List (Task Action)} {k : Nat}
    {passes : List (List (Task Action) × Nat)} (hm : m.underway = (due, k) :: passes) :
    ∃ shift shifts, d.underway = shift :: shifts ∧ shift.due.map Slip.task = due ∧
      shifts.map (·.due.map Slip.task) = passes.map (·.1) := by
  have hunderway := h.underway
  rw [hm, List.map_cons] at hunderway
  obtain ⟨shift, shifts, hd, hdue, hshifts⟩ := List.map_eq_cons_iff.mp hunderway
  exact ⟨shift, shifts, hd, hdue, hshifts⟩

/-- Tasks accepted in a row are entered one after the other. -/
theorem Matches.accepts (h : d.Matches m) (tasks : List (Task Action)) :
    ∃ d', Trail Step d (tasks.map fun t => .accepted t.handle t.remaining t.action) d' ∧
      d'.pending.map Slip.task = m.world.scheduler.queue ++ tasks ∧ d'.underway = d.underway := by
  induction tasks using List.reverseRecOn with
  | nil => exact ⟨d, .nil, by rw [h.pending, List.append_nil], rfl⟩
  | append_singleton tasks t ih =>
    obtain ⟨d', htrail, hpending, hunderway⟩ := ih
    refine ⟨d'.after (.accepted t.handle t.remaining t.action), ?_, ?_, ?_⟩
    · rw [List.map_append]
      exact htrail.snoc ⟨.accepted .., rfl⟩
    · simp only [after, List.map_append, hpending, List.append_assoc]
      rfl
    · exact hunderway

/-- Taking what is due, and counting down the rest, does not mind numbers. -/
theorem map_filter_task (p : Task Action → Bool) (slips : List Slip) :
    (slips.filter (p ·.task)).map Slip.task = (slips.map Slip.task).filter p :=
  List.filter_map.symm

theorem Matches.requested (h : d.Matches b.before) {delay : Int} {action : Action}
    (herrand : b.before.errand? = some (.request delay action))
    (hscheduler : b.after.world.scheduler =
      (b.before.world.request delay action).world.scheduler)
    (hunderway : b.after.underway = b.before.underway)
    (hreply : b.after.focus =
      .reply (.ofRequest (b.before.world.request delay action).value)) :
    ∃ d', Trail Step d b.postings d' ∧ d'.Matches b.after := by
  rw [Beat.postings, herrand, hreply]
  rcases b.before.world.request_cases delay action with ⟨k, rfl, hrequest⟩ | ⟨refusal, hrequest⟩
  · rw [hrequest] at hscheduler ⊢
    obtain ⟨d', htrail, hpending, hsame⟩ :=
      h.accepts [⟨b.before.world.scheduler.nextHandle, k, action⟩]
    refine ⟨d', htrail, ?_, ?_⟩
    · rw [hpending, hscheduler]
      rfl
    · rw [hsame, h.underway, hunderway]
  · rw [hrequest] at hscheduler ⊢
    exact ⟨d, .nil, h.same hscheduler hunderway⟩

theorem Matches.filled (h : d.Matches b.before) {k : Nat} {delay : Int}
    (herrand : b.before.errand? = some (.fill k delay))
    (hscheduler : b.after.world.scheduler = (b.before.world.fill k delay).world.scheduler)
    (hunderway : b.after.underway = b.before.underway)
    (hreply : b.after.focus = .reply (b.before.world.fill k delay).value) :
    ∃ d', Trail Step d b.postings d' ∧ d'.Matches b.after := by
  obtain ⟨refusal, more, -, hfill⟩ := b.before.world.fill_cases k delay
  rw [Beat.postings, herrand, hreply, hfill]
  rw [hfill] at hscheduler
  obtain ⟨d', htrail, hpending, hsame⟩ := h.accepts
    (b.before.world.scheduler.batch delay.toNat .idle
      (b.before.world.scheduler.capacityFor delay k))
  refine ⟨d', htrail, ?_, ?_⟩
  · rw [hpending, hscheduler]
    rfl
  · rw [hsame, h.underway, hunderway]

theorem Matches.cancelled (h : d.Matches b.before) {handle : Handle}
    (herrand : b.before.errand? = some (.cancel handle))
    (hscheduler : b.after.world.scheduler = (b.before.world.cancel handle).world.scheduler)
    (hunderway : b.after.underway = b.before.underway)
    (hreply : b.after.focus = .reply (.flag (b.before.world.cancel handle).value)) :
    ∃ d', Trail Step d b.postings d' ∧ d'.Matches b.after := by
  rw [Beat.postings, herrand, hreply]
  cases hfind : b.before.world.scheduler.find? handle with
  | none =>
    simp only [World.cancel, hfind] at hscheduler ⊢
    exact ⟨d, .nil, h.same hscheduler hunderway⟩
  | some task =>
    simp only [World.cancel, hfind] at hscheduler ⊢
    rw [Scheduler.find?, ← h.pending, List.find?_map] at hfind
    obtain ⟨slip, hslip, rfl⟩ := Option.map_eq_some_iff.mp hfind
    obtain ⟨hhandle, before, rest, hpending, hbefore⟩ := List.find?_eq_some_iff_append.mp hslip
    obtain rfl : slip.task.handle = handle := by simpa using hhandle
    refine ⟨_, .single ⟨.cancelled slip before rest hpending fun slip' hslip' => ?_, rfl⟩, ?_, ?_⟩
    · simpa using hbefore slip' hslip'
    · rw [hscheduler, Scheduler.remove, ← h.pending, List.eraseP_map]
      rfl
    · exact h.underway.trans (congrArg _ hunderway.symm)

/-- What the postings of a move make of the docket is what the move makes of the machine. -/
theorem Matches.posted (h : d.Matches b.before) (hb : b.Valid) :
    ∃ d', Trail Step d b.postings d' ∧ d'.Matches b.after := by
  cases Machine.move_scheduler hb with
  | elsewhere herrand hscheduler hunderway =>
    rw [Beat.postings, herrand]
    exact ⟨d, .nil, h.same hscheduler hunderway⟩
  | requested delay action herrand hscheduler hunderway _ hreply =>
    exact h.requested herrand hscheduler hunderway hreply
  | filled k delay herrand hscheduler hunderway _ hreply =>
    exact h.filled herrand hscheduler hunderway hreply
  | cancelled handle herrand hscheduler hunderway _ hreply =>
    exact h.cancelled herrand hscheduler hunderway hreply
  | discarded more herrand _ hscheduler hunderway =>
    have hpending : b.before.world.scheduler.pending = d.pending.length := by
      rw [Scheduler.pending, ← h.pending, List.length_map]
    rw [Beat.postings, herrand]
    simp only [hpending]
    exact ⟨_, .single ⟨.discarded, rfl⟩, (congrArg Scheduler.queue hscheduler).symm,
      h.underway.trans (congrArg _ hunderway.symm)⟩
  | began herrand hscheduler hunderway =>
    simp only at hscheduler hunderway
    rw [Beat.postings, herrand]
    refine ⟨_, .single ⟨.drained, rfl⟩, ?_, ?_⟩
    · rw [hscheduler, Scheduler.drain]
      simp only [after]
      rw [← h.pending, ← map_filter_task (!·.isDue), List.map_map, List.map_map]
      rfl
    · rw [hunderway, Scheduler.due, ← h.pending, ← map_filter_task (·.isDue)]
      exact congrArg _ h.underway
  | fired task due k passes herrand hscheduler hbefore hafter =>
    obtain ⟨⟨pass, slips, current⟩, shifts, hd, hdue, hshifts⟩ := h.innermost hbefore
    obtain ⟨slip, rest, rfl, rfl, hrest⟩ := List.map_eq_cons_iff.mp hdue
    rw [Beat.postings, herrand]
    refine ⟨_, .single ⟨.fired pass slip rest current shifts hd, rfl⟩, ?_, ?_⟩
    · simp only [after, hd]
      rw [h.pending]
      exact congrArg _ hscheduler.symm
    · simp only [after, hd, List.map_cons, hrest, hshifts]
      exact (congrArg (List.map (·.1)) hafter).symm
  | settled task outcome herrand hscheduler hunderway =>
    rw [Beat.postings, herrand]
    exact ⟨d, .nil, h.same hscheduler hunderway⟩
  | ended k passes herrand hscheduler hbefore hafter =>
    obtain ⟨⟨pass, slips, current⟩, shifts, hd, hdue, hshifts⟩ := h.innermost hbefore
    obtain rfl := List.map_eq_nil_iff.mp hdue
    rw [Beat.postings, herrand]
    refine ⟨_, .single ⟨.passEnded k pass current shifts hd, rfl⟩, ?_, ?_⟩
    · exact h.pending.trans (congrArg Scheduler.queue hscheduler).symm
    · simp only [after, hd, List.tail_cons, hshifts]
      exact (congrArg (List.map (·.1)) hafter).symm

/-- **A move is entered**: whatever it does about tasks, the docket follows. -/
theorem Matches.move (h : d.Matches b.before) (hb : b.Valid) :
    ∃ d', Trail Step d b.events d' ∧ d'.Matches b.after := by
  obtain ⟨d', htrail, hmatches⟩ := h.posted hb
  rw [← hb.posted] at htrail
  exact ⟨d', htrail.of_filter fun d e he => ⟨.other e he, after_of_not_posted he d⟩, hmatches⟩

end Docket

/-- **In a run from a fresh world nothing comes that the docket does not allow**, and the docket has
the tasks of the machine. -/
theorem docket_of_run {w : World} (hw : w.Fresh) {path : List Beat} {m : Machine}
    (hrun : Run (Machine.idle w) path m) :
    Trail Docket.Step {} (trace path) (docket (trace path)) ∧ (docket (trace path)).Matches m := by
  have hentered : ∃ d, Trail Docket.Step {} (trace path) d ∧ d.Matches m := by
    induction hrun with
    | nil => exact ⟨{}, .nil, hw.queue.symm, rfl⟩
    | snoc _ hb ih =>
      obtain ⟨rfl, hvalid, rfl⟩ := hb
      obtain ⟨d, htrail, hd⟩ := ih
      obtain ⟨d', htrail', hd'⟩ := hd.move hvalid
      exact ⟨d', by simpa using htrail.append htrail', hd'⟩
  obtain ⟨d, htrail, hd⟩ := hentered
  obtain rfl := Docket.foldl_of_trail htrail
  exact ⟨htrail, hd⟩

/-! ## 3. Every task in one place -/

namespace Docket

/-- How often a number occurs among these tasks. -/
def countIn (slips : List Slip) (c : Nat) : Nat := (slips.map Slip.number).count c

/-- In how many places a task is: pending, due, fired or removed. -/
def places (d : Docket) (c : Nat) : Nat :=
  countIn d.pending c + countIn (d.underway.flatMap Shift.due) c
    + countIn (d.ran.map Firing.slip) c + d.removed.count c

/-- The task has begun to run. -/
def HasRun (d : Docket) (c : Nat) : Prop := ∃ firing ∈ d.ran, firing.slip.number = c

/-- What is true of every docket that was kept in a run. -/
structure Sound (d : Docket) : Prop where
  /-- Every task that was accepted is in one place. -/
  placed : ∀ c, d.places c = if c < d.origins.length then 1 else 0
  /-- Whatever a pass has fired last has begun to run. -/
  current : ∀ shift ∈ d.underway, ∀ c, shift.current = some c → d.HasRun c
  /-- Whatever has requested a task has begun to run. -/
  parents : ∀ origin ∈ d.origins, ∀ c, origin.parent = some c → d.HasRun c
  /-- Passes under way have begun. -/
  begun : ∀ shift ∈ d.underway, shift.pass ≤ d.begun
  /-- Passes that have fired have begun. -/
  fired : ∀ firing ∈ d.ran, firing.pass ≤ d.begun

variable {d d' : Docket} {e : Event} {events : List Event} {c : Nat}

theorem countIn_append (p q : List Slip) (c : Nat) :
    countIn (p ++ q) c = countIn p c + countIn q c := by
  simp [countIn]

theorem countIn_cons (slip : Slip) (slips : List Slip) (c : Nat) :
    countIn (slip :: slips) c = countIn slips c + if slip.number = c then 1 else 0 := by
  simp [countIn, List.count_cons]

theorem countIn_pos {slips : List Slip} :
    0 < countIn slips c ↔ ∃ slip ∈ slips, slip.number = c := by
  rw [countIn, List.count_pos_iff, List.mem_map]

/-- A pass that begins takes what leaves the queue. -/
theorem countIn_drain (slips : List Slip) (c : Nat) :
    countIn ((slips.filter (!·.task.isDue)).map Slip.countDown) c +
      countIn (slips.filter (·.task.isDue)) c = countIn slips c := by
  induction slips with
  | nil => rfl
  | cons slip slips ih =>
    have hdown : slip.countDown.number = slip.number := rfl
    cases hdue : slip.task.isDue <;>
      simp only [List.filter_cons, hdue, Bool.not_true, Bool.not_false, if_true, Bool.false_eq_true,
        if_false, List.map_cons, countIn_cons, hdown] <;> omega

theorem HasRun.mono (h : d.HasRun c) (hran : d.ran <+: d'.ran) : d'.HasRun c := by
  obtain ⟨firing, hmem, hnumber⟩ := h
  exact ⟨firing, hran.subset hmem, hnumber⟩

/-- What a docket has told of is not taken back. -/
theorem ran_after (d : Docket) (e : Event) : d.ran <+: (d.after e).ran := by
  cases e with
  | fired =>
    simp only [after]
    split
    · exact List.prefix_append _ _
    · exact List.prefix_rfl
  | _ => exact List.prefix_rfl

theorem removed_after (d : Docket) (e : Event) : d.removed ⊆ (d.after e).removed := by
  cases e with
  | fired =>
    simp only [after]
    split <;> exact List.Subset.refl _
  | cancelled | discarded => exact List.subset_append_right _ _
  | _ => exact List.Subset.refl _

theorem removed_append (p q : List Event) : (docket p).removed ⊆ (docket (p ++ q)).removed := by
  induction q using List.reverseRecOn with
  | nil => rw [List.append_nil]; exact List.Subset.refl _
  | append_singleton q e ih =>
    rw [← List.append_assoc, docket_snoc]
    exact List.Subset.trans ih (removed_after _ e)

/-- A task that is accepted is pending. -/
theorem places_accepted (d : Docket) (h : Handle) (delay : Nat) (action : Action) (c : Nat) :
    (d.after (.accepted h delay action)).places c =
      d.places c + if d.origins.length = c then 1 else 0 := by
  simp only [places, after, countIn_append, countIn_cons]
  have hnone : countIn [] c = 0 := rfl
  omega

theorem origins_after (hnot : e.isAcceptance = false) (d : Docket) :
    (d.after e).origins = d.origins := by
  cases e with
  | accepted => cases hnot
  | fired =>
    simp only [after]
    split <;> rfl
  | _ => rfl

/-- The cancelled task is the first one with its handle. -/
theorem after_cancelled {slip : Slip} {before rest : List Slip}
    (h : d.pending = before ++ slip :: rest)
    (hfirst : ∀ slip' ∈ before, slip'.task.handle ≠ slip.task.handle) :
    d.after (.cancelled slip.task.handle) =
      { d with pending := before ++ rest, removed := slip.number :: d.removed } := by
  have hbefore : ∀ slip' ∈ before, ¬ (slip'.task.handle == slip.task.handle) = true :=
    fun slip' hmem => by simpa using hfirst slip' hmem
  have herase : d.pending.eraseP (·.task.handle == slip.task.handle) = before ++ rest := by
    rw [h, List.eraseP_append_right _ hbefore]
    simp
  have hfind : d.pending.find? (·.task.handle == slip.task.handle) = some slip :=
    List.find?_eq_some_iff_append.mpr ⟨beq_self_eq_true _, before, rest, h,
      fun slip' hmem => by simpa using hfirst slip' hmem⟩
  rw [after, herase, hfind]
  rfl

/-- **Every event leaves every task in as many places as it was in**, but for the one accepted. -/
theorem Allows.places_eq (h : d.Allows e) (hnot : e.isAcceptance = false) (c : Nat) :
    (d.after e).places c = d.places c := by
  have hnone : countIn [] c = 0 := rfl
  cases h with
  | accepted => cases hnot
  | drained =>
    have hsplit := countIn_drain d.pending c
    simp only [places, after, List.flatMap_cons, countIn_append]
    omega
  | fired pass slip due current shifts h =>
    simp only [after_fired h, places, h, List.flatMap_cons, List.map_append, List.map_cons,
      List.map_nil, countIn_append, countIn_cons]
    omega
  | passEnded k pass current shifts h =>
    simp only [places, after, h, List.tail_cons, List.flatMap_cons, countIn_append]
    omega
  | cancelled slip before rest h hfirst =>
    simp only [after_cancelled h hfirst, places, h, countIn_append, countIn_cons, List.count_cons,
      beq_iff_eq]
    omega
  | discarded =>
    have hcount : (d.pending.map Slip.number).count c = countIn d.pending c := rfl
    simp only [places, after, List.count_append]
    omega
  | other e h => rw [after_of_not_posted h]

theorem Sound.empty : ({} : Docket).Sound :=
  ⟨fun _ => rfl, by simp, by simp, by simp, by simp⟩

theorem Sound.placed_after (hd : d.Sound) (h : d.Allows e) (c : Nat) :
    (d.after e).places c = if c < (d.after e).origins.length then 1 else 0 := by
  have hplaced := hd.placed c
  cases hacceptance : e.isAcceptance with
  | false => rw [h.places_eq hacceptance, origins_after hacceptance, hplaced]
  | true =>
    cases h with
    | accepted handle delay action =>
      rw [places_accepted, hplaced, after, List.length_append, List.length_singleton]
      rcases Nat.lt_trichotomy c d.origins.length with hlt | rfl | hgt
      · rw [if_pos hlt, if_neg (Nat.ne_of_gt hlt), if_pos (Nat.lt_succ_of_lt hlt)]
      · rw [if_neg (Nat.lt_irrefl _), if_pos rfl, if_pos (Nat.lt_succ_self _)]
      · rw [if_neg (Nat.lt_asymm hgt), if_neg (Nat.ne_of_lt hgt), if_neg (by omega)]
    | other e h =>
      rw [Event.isAcceptance_eq_false h] at hacceptance
      cases hacceptance
    | _ => cases hacceptance

/-- **Every event keeps a docket sound.** -/
theorem Sound.step (hd : d.Sound) (h : d.Allows e) : (d.after e).Sound := by
  have hplaced := hd.placed_after h
  have hran {c : Nat} (hc : d.HasRun c) : (d.after e).HasRun c := hc.mono (d.ran_after e)
  obtain ⟨-, hcurrent, hparents, hbegun, hfired⟩ := hd
  cases h with
  | accepted handle delay action =>
    refine ⟨hplaced, hcurrent, List.forall_mem_append.mpr ⟨hparents, ?_⟩, hbegun, hfired⟩
    refine List.forall_mem_singleton.mpr fun c hc => ?_
    obtain ⟨shift, hshift, hlast⟩ := Option.bind_eq_some_iff.mp hc
    exact hcurrent shift (List.mem_of_mem_head? hshift) c hlast
  | drained =>
    refine ⟨hplaced, List.forall_mem_cons.mpr ⟨?_, hcurrent⟩, hparents,
      List.forall_mem_cons.mpr ⟨Nat.le_refl _, fun shift hs => Nat.le_succ_of_le (hbegun shift hs)⟩,
      fun firing hf => Nat.le_succ_of_le (hfired firing hf)⟩
    rintro c ⟨⟩
  | fired pass slip due current shifts h =>
    rw [h] at hcurrent hbegun
    obtain ⟨-, hcurrent⟩ := List.forall_mem_cons.mp hcurrent
    rw [after_fired h] at hplaced hran ⊢
    refine ⟨hplaced,
      List.forall_mem_cons.mpr ⟨?_, fun shift hs c hc => hran (hcurrent shift hs c hc)⟩,
      fun origin ho c hc => hran (hparents origin ho c hc), List.forall_mem_cons.mpr ?_,
      List.forall_mem_append.mpr ⟨hfired, List.forall_mem_singleton.mpr ?_⟩⟩
    · rintro c ⟨⟩
      exact ⟨⟨slip, pass⟩, List.mem_append_right _ (List.mem_singleton_self _), rfl⟩
    · exact List.forall_mem_cons.mp hbegun
    · exact (List.forall_mem_cons.mp hbegun).1
  | passEnded k pass current shifts h =>
    exact ⟨hplaced, fun shift hs => hcurrent shift (List.mem_of_mem_tail hs), hparents,
      fun shift hs => hbegun shift (List.mem_of_mem_tail hs), hfired⟩
  | cancelled | discarded => exact ⟨hplaced, hcurrent, hparents, hbegun, hfired⟩
  | other e h =>
    rw [after_of_not_posted h] at hplaced ⊢
    exact ⟨hplaced, hcurrent, hparents, hbegun, hfired⟩

theorem sound_of_trail (h : Trail Step {} events d) : d.Sound := by
  induction h with
  | nil => exact .empty
  | snoc _ hstep ih =>
    obtain ⟨hallows, rfl⟩ := hstep
    exact ih.step hallows

/-! ## 4. Where a task is -/

/-- The passes in which a task has begun to run. -/
def passesOf (d : Docket) (c : Nat) : List Nat :=
  (d.ran.filter (·.slip.number == c)).map Firing.pass

theorem hasRun_iff_pos : d.HasRun c ↔ 0 < countIn (d.ran.map Firing.slip) c := by
  simp [countIn_pos, HasRun]

theorem hasRun_iff_passesOf : d.HasRun c ↔ d.passesOf c ≠ [] := by
  simp [HasRun, passesOf]

instance (d : Docket) (c : Nat) : Decidable (d.HasRun c) := decidable_of_iff' _ hasRun_iff_pos

theorem Sound.places_le (hd : d.Sound) (c : Nat) : d.places c ≤ 1 := by
  rw [hd.placed]
  split <;> omega

/-- What runs was accepted. -/
theorem Sound.lt_of_hasRun (hd : d.Sound) (hc : d.HasRun c) : c < d.origins.length := by
  have hplaced := hd.placed c
  rw [hasRun_iff_pos] at hc
  split at hplaced
  · assumption
  · rw [places] at hplaced
    omega

/-- What is pending has not run. -/
theorem Sound.not_hasRun_of_pending (hd : d.Sound) {slip : Slip} (hslip : slip ∈ d.pending) :
    ¬ d.HasRun slip.number := by
  have hle := hd.places_le slip.number
  have hpending : 0 < countIn d.pending slip.number := countIn_pos.mpr ⟨slip, hslip, rfl⟩
  rw [places] at hle
  rw [hasRun_iff_pos]
  omega

/-- What is due has not run. -/
theorem Sound.not_hasRun_of_due (hd : d.Sound) {shift : Shift} (hshift : shift ∈ d.underway)
    {slip : Slip} (hslip : slip ∈ shift.due) : ¬ d.HasRun slip.number := by
  have hle := hd.places_le slip.number
  have hdue : 0 < countIn (d.underway.flatMap Shift.due) slip.number :=
    countIn_pos.mpr ⟨slip, List.mem_flatMap_of_mem hshift hslip, rfl⟩
  rw [places] at hle
  rw [hasRun_iff_pos]
  omega

/-- **No task runs twice.** -/
theorem Sound.passesOf_eq (hd : d.Sound) {firing : Firing} (hfiring : firing ∈ d.ran) :
    d.passesOf firing.slip.number = [firing.pass] := by
  have hle := hd.places_le firing.slip.number
  have hlength : (d.passesOf firing.slip.number).length =
      countIn (d.ran.map Firing.slip) firing.slip.number := by
    rw [passesOf, List.length_map, countIn, List.map_map, List.count, List.countP_map,
      List.countP_eq_length_filter]
    rfl
  have hmem : firing.pass ∈ d.passesOf firing.slip.number :=
    List.mem_map_of_mem (List.mem_filter.mpr ⟨hfiring, beq_self_eq_true _⟩)
  rw [places] at hle
  obtain ⟨pass, hpass⟩ : ∃ pass, d.passesOf firing.slip.number = [pass] :=
    List.length_eq_one_iff.mp (by have := List.length_pos_of_mem hmem; omega)
  rw [hpass] at hmem ⊢
  rw [List.mem_singleton.mp hmem]

end Docket

/-! ## 5. Passes and turns -/

/-- The passes of a docket are those that its trace tells of. -/
theorem passLog_eq_docket (events : List Event) :
    passLog events = ⟨(docket events).begun, (docket events).underway.map Shift.pass⟩ := by
  induction events using List.reverseRecOn with
  | nil => rfl
  | append_singleton events e ih =>
    rw [passLog, List.foldl_append, ← passLog, ih, docket_snoc]
    cases e with
    | fired =>
      simp only [List.foldl_cons, List.foldl_nil, PassLog.after, Docket.after]
      split <;> simp [*]
    | passEnded k => simp [PassLog.after, Docket.after]
    | _ => rfl

/-- The passes that have begun are those of the trace. -/
theorem drains_eq_docket (events : List Event) : drains events = (docket events).begun := by
  rw [← passLog_begun, passLog_eq_docket]

/-- The acceptances of a trace are those that its docket has. -/
theorem acceptances_eq_docket (events : List Event) :
    acceptances events = (docket events).origins.length := by
  induction events using List.reverseRecOn with
  | nil => rfl
  | append_singleton events e ih =>
    rw [acceptances, List.countP_append, ← acceptances, ih, docket_snoc]
    cases he : e.isAcceptance with
    | false => rw [Docket.origins_after he, List.countP_singleton, he]; rfl
    | true =>
      cases e with
      | accepted => rw [Docket.after, List.length_append]; rfl
      | _ => cases he

/-- Whatever has run according to a docket has its turn in the trace. -/
theorem turns_eq_docket {events : List Event} {d : Docket} (h : Trail Docket.Step {} events d) :
    turns events = d.ran.map fun firing => (firing.pass, firing.slip.task.handle) := by
  induction h with
  | nil => rfl
  | @snoc events d d' e htrail hstep ih =>
    obtain ⟨hallows, rfl⟩ := hstep
    have hdocket := Docket.foldl_of_trail htrail
    rw [turns_snoc, passLog_eq_docket, docket, hdocket, ih]
    cases hallows with
    | fired pass slip due current shifts h =>
      simp [Event.turn?, Docket.after, h]
    | other e h =>
      have hturn : e.turn? (passLog events) = none :=
        Event.turn?_eq_none (by rintro h' action rfl; cases h) _
      rw [passLog_eq_docket, docket, hdocket] at hturn
      rw [hturn, Docket.after_of_not_posted h]
      exact List.append_nil _
    | _ => simp [Event.turn?, Docket.after]

end TickHost
