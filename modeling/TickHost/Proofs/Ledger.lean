import TickHost.Proofs.Steps.Tasks

/-!
# The ledger of a scheduler

Six kinds of events say all there is to say about tasks: a task is accepted, a pass takes the due
tasks, an action begins, a pass ends, a task is cancelled, the pending tasks are discarded.  A
ledger is the state that these events alone determine: what is pending, which passes are under way
and what each has still to fire.

* `Ledger.Posts` is the rule book: what each event makes of the ledger, and when it may come.
* `run_replay`: the trace of every run follows the rules, and the ledger it leads to is the state of
  the machine.

So a statement about tasks over all runs becomes one about seven rules, and the machine with its
callbacks, frames and scripts is out of the picture.
-/

namespace TickHost

/-! ## 1. Ledgers -/

/-- A pass under way. -/
structure OpenPass where
  /-- How many passes had begun once it had. -/
  number : Nat
  /-- The tasks it has yet to fire. -/
  due : List (Task Action)
  /-- How many tasks it has fired. -/
  fired : Nat

/-- What a trace tells about tasks. -/
structure Ledger where
  /-- The pending tasks. -/
  queue : List (Task Action) := []
  /-- How many tasks were accepted. -/
  accepted : Nat := 0
  /-- How many passes have begun. -/
  begun : Nat := 0
  /-- How many passes have ended. -/
  ended : Nat := 0
  /-- The passes under way, the innermost first. -/
  underway : List OpenPass := []

namespace Event

/-- Whether a ledger has an entry for an event. -/
def isPosted : Event → Bool
  | accepted .. | drained | fired .. | passEnded _ | cancelled _ | discarded _ => true
  | _ => false

/-- What is not about tasks has no entry. -/
theorem isPosted_eq_false {e : Event} (h : e.topic ≠ .tasks) : e.isPosted = false := by
  cases e <;> first | rfl | exact absurd rfl h

end Event

namespace Ledger

/-- What an event makes of a ledger, if it may come. -/
inductive Posts : Ledger → Event → Ledger → Prop
  /-- Handles are given out in order, and new tasks go to the end. -/
  | accepted (l : Ledger) (delay : Nat) (action : Action) :
      Posts l (.accepted (.ofNat l.accepted) delay action)
        { l with
          queue := l.queue ++ [⟨.ofNat l.accepted, delay, action⟩]
          accepted := l.accepted + 1 }
  /-- A pass takes all due tasks at once. -/
  | drained (l : Ledger) :
      Posts l .drained
        { l with
          queue := (l.queue.filter (!·.isDue)).map Task.countDown
          begun := l.begun + 1
          underway := ⟨l.begun + 1, l.queue.filter (·.isDue), 0⟩ :: l.underway }
  /-- The innermost pass fires what it has taken, in order. -/
  | fired (l : Ledger) (number : Nat) (task : Task Action) (due : List (Task Action)) (k : Nat)
      (passes : List OpenPass) (h : l.underway = ⟨number, task :: due, k⟩ :: passes) :
      Posts l (.fired task.handle task.action)
        { l with underway := ⟨number, due, k + 1⟩ :: passes }
  /-- A pass ends when it has fired everything. -/
  | passEnded (l : Ledger) (number k : Nat) (passes : List OpenPass)
      (h : l.underway = ⟨number, [], k⟩ :: passes) :
      Posts l (.passEnded k) { l with ended := l.ended + 1, underway := passes }
  /-- Only what is pending can be cancelled. -/
  | cancelled (l : Ledger) (task : Task Action) (before after : List (Task Action))
      (h : l.queue = before ++ task :: after) :
      Posts l (.cancelled task.handle) { l with queue := before ++ after }
  /-- Everything that is pending goes. -/
  | discarded (l : Ledger) : Posts l (.discarded l.queue.length) { l with queue := [] }
  /-- Other events are not posted. -/
  | other (l : Ledger) (e : Event) (h : e.isPosted = false) : Posts l e l

/-- One ledger after another, by the events of a trace. -/
abbrev Replay : Ledger → List Event → Ledger → Prop := Trail Posts

/-- Only the events with an entry count. -/
theorem replay_of_filter {events : List Event} {l l' : Ledger}
    (h : Replay l (events.filter Event.isPosted) l') : Replay l events l' :=
  h.of_filter Posts.other

end Ledger

/-! ## 2. Postings -/

theorem Scheduler.vet_eq_ok {α : Type} {s : Scheduler α} {delay : Int} {d : Nat}
    (h : s.vet delay = .ok d) : delay = d := by
  cases delay with
  | negSucc n => cases h
  | ofNat n =>
    simp only [vet] at h
    split at h
    · cases h
    · split at h
      · cases h
      · exact congrArg Int.ofNat (Except.ok.inj h)

/-- Cancelling takes the task that is found out of the queue. -/
theorem Scheduler.remove_of_find? {α : Type} {s : Scheduler α} {h : Handle} {t : Task α}
    (hfind : s.find? h = some t) :
    t.handle = h ∧ ∃ before after, s.queue = before ++ t :: after ∧
      s.remove h = { s with queue := before ++ after } := by
  obtain ⟨hhandle, before, after, hqueue, hbefore⟩ := List.find?_eq_some_iff_append.mp hfind
  obtain rfl : t.handle = h := by simpa using hhandle
  have hremove : s.queue.eraseP (·.handle == t.handle) = before ++ after := by
    rw [hqueue, List.eraseP_append_right _ fun t ht => by simpa using hbefore t ht]
    simp
  exact ⟨rfl, before, after, hqueue, by rw [remove, hremove]⟩

namespace World

/-- A request is accepted and queued, or it is refused and changes nothing. -/
theorem request_cases (w : World) (delay : Int) (action : Action) :
    (∃ d : Nat, delay = d ∧ w.request delay action =
      ⟨{ w with scheduler := w.scheduler.enqueue d action },
        holding .queue [.accepted w.scheduler.nextHandle d action,
          .logged (.scheduled w.scheduler.nextHandle d)],
        .ok w.scheduler.nextHandle⟩) ∨
    ∃ refusal, w.request delay action = ⟨w, refusalEvents refusal action, .error refusal⟩ := by
  cases h : w.scheduler.vet delay with
  | ok d =>
    have hdelay := Scheduler.vet_eq_ok h
    subst hdelay
    exact Or.inl ⟨d, rfl, by simp [request, Scheduler.schedule, h, Except.map]⟩
  | error refusal => exact Or.inr ⟨refusal, by simp [request, Scheduler.schedule, h, Except.map]⟩

theorem refusalEvents_others (refusal : Refusal) (action : Action) :
    ∀ e ∈ refusalEvents refusal action, e.isPosted = false := by
  intro e he
  cases refusal with
  | queueFull pending =>
    simp only [refusalEvents, List.mem_append, mem_holding, List.mem_singleton, List.not_mem_nil,
      false_or] at he
    rcases he with (rfl | rfl) | rfl <;> rfl
  | _ => obtain rfl := List.mem_singleton.mp he; rfl

/-- What a batch of requests leaves behind: the acceptances, and then the refusal, if there was one.
-/
theorem fill_cases (w : World) (n : Nat) (delay : Int) :
    ∃ refusal more,
      (refusal = none ∧ more = [] ∨
        ∃ reason, refusal = some reason ∧ more = refusalEvents reason .idle) ∧
      w.fill n delay =
        ⟨{ w with scheduler := w.scheduler.fill delay .idle n },
          (w.scheduler.batch delay.toNat Action.idle (w.scheduler.capacityFor delay n)).flatMap
            (fun t => holding .queue [.accepted t.handle t.remaining t.action]) ++ more,
          .filled (w.scheduler.capacityFor delay n) refusal⟩ := by
  simp only [fill]
  split
  · split
    · exact ⟨_, _, Or.inr ⟨_, rfl, rfl⟩, rfl⟩
    · exact ⟨none, [], Or.inl ⟨rfl, rfl⟩, by simp⟩
  · exact ⟨none, [], Or.inl ⟨rfl, rfl⟩, by simp⟩

end World

/-- **What a move posts**, read off the operation that it makes and the reply to it. -/
def Beat.postings (b : Beat) : List Event :=
  match b.before.errand? with
  | some (.request delay action) =>
    match b.after.focus with
    | .reply (.accepted h) => [.accepted h delay.toNat action]
    | _ => []
  | some (.fill _ delay) =>
    match b.after.focus with
    | .reply (.filled k _) =>
      (b.before.world.scheduler.batch delay.toNat .idle k).map fun t =>
        .accepted t.handle t.remaining t.action
    | _ => []
  | some (.cancel h) =>
    match b.after.focus with
    | .reply (.flag true) => [.cancelled h]
    | _ => []
  | some .discard => [.discarded b.before.world.scheduler.pending]
  | some .beginPass => [.drained]
  | some (.fire task) => [.fired task.handle task.action]
  | some (.endPass k) => [.passEnded k]
  | some (.settle ..) | none => []

theorem filter_holding (lock : Lock) (events : List Event) :
    (World.holding lock events).filter Event.isPosted = events.filter Event.isPosted := by
  simp [World.holding, Event.isPosted]

theorem filter_others {events : List Event} (h : ∀ e ∈ events, e.isPosted = false) :
    events.filter Event.isPosted = [] :=
  List.filter_eq_nil_iff.mpr fun e he => by simp [h e he]

/-- A move without an errand for the scheduler tells of no tasks. -/
theorem Beat.Valid.elsewhere {b : Beat} (hb : b.Valid) (herrand : b.before.errand? = none) :
    ∀ e ∈ b.events, e.topic ≠ .tasks :=
  (Machine.move_tells hb).avoids (by rw [Machine.tellsOf, herrand]; rfl)

/-- The events of a move with an entry are its postings. -/
theorem Beat.Valid.posted {b : Beat} (hb : b.Valid) :
    b.events.filter Event.isPosted = b.postings := by
  cases Machine.move_scheduler hb with
  | elsewhere herrand =>
    rw [filter_others fun e he => Event.isPosted_eq_false (hb.elsewhere herrand e he), postings,
      herrand]
  | requested delay action herrand _ _ hevents hreply =>
    simp only at hevents hreply
    rw [postings, herrand, hevents, hreply]
    rcases b.before.world.request_cases delay action with ⟨d, rfl, hrequest⟩ | ⟨refusal, hrequest⟩
    · rw [hrequest]; simp only [filter_holding]; rfl
    · rw [hrequest, filter_others (World.refusalEvents_others _ _)]; rfl
  | filled n delay herrand _ _ hevents hreply =>
    simp only at hevents hreply
    obtain ⟨refusal, more, hmore, hfill⟩ := b.before.world.fill_cases n delay
    have hmore : more.filter Event.isPosted = [] := by
      rcases hmore with ⟨-, rfl⟩ | ⟨reason, -, rfl⟩
      · rfl
      · exact filter_others (World.refusalEvents_others _ _)
    rw [postings, herrand, hevents, hreply, hfill, List.filter_append, hmore, List.append_nil,
      List.filter_flatMap]
    simp only [filter_holding]
    exact List.map_eq_flatMap.symm
  | cancelled h herrand _ _ hevents hreply =>
    simp only at hevents hreply
    rw [postings, herrand, hevents, hreply, World.cancel]
    split <;> rw [filter_holding] <;> rfl
  | discarded more herrand hmore _ _ hevents =>
    simp only at hevents
    have hreleases : ∀ e ∈ World.releases b.before.world.scheduler.queue, e.isPosted = false := by
      intro e he
      obtain ⟨task, -, rfl⟩ := List.mem_map.mp he
      rfl
    have hothers : ∀ e ∈ more, e.isPosted = false := by
      intro e he
      exact Event.isPosted_eq_false (by rw [hmore e he]; decide)
    rw [postings, herrand, hevents, World.discard, List.filter_append, List.filter_append,
      List.filter_append, filter_holding, filter_others hreleases, filter_others hothers]
    simp only
    split <;> rfl
  | began herrand _ _ hevents =>
    simp only at hevents
    rw [postings, herrand, hevents, World.beginPass, filter_holding]
    rfl
  | fired task due k passes herrand _ _ _ hevents =>
    simp only at hevents
    rw [postings, herrand, hevents]
    rfl
  | settled task outcome herrand _ _ hevents =>
    simp only at hevents
    rw [postings, herrand, hevents]
    cases outcome <;> rfl
  | ended k passes herrand _ _ _ hevents =>
    simp only at hevents
    rw [postings, herrand, hevents, World.endPass]
    simp only
    split <;> rfl

/-- Whether an operation may post an event. -/
def Errand.posts : Errand → Event → Bool
  | request .., .accepted .. | fill .., .accepted .. | cancel _, .cancelled _
  | discard, .discarded _ | beginPass, .drained | fire _, .fired .. | endPass _, .passEnded _ => true
  | _, _ => false

/-- **An event with an entry comes from the operation for it.** -/
theorem Beat.Valid.errand_of_mem {b : Beat} (hb : b.Valid) {e : Event} (he : e ∈ b.events)
    (hposted : e.isPosted = true) :
    ∃ errand, b.before.errand? = some errand ∧ errand.posts e = true := by
  have hmem : e ∈ b.postings := by
    rw [← hb.posted]
    exact List.mem_filter.mpr ⟨he, hposted⟩
  rw [Beat.postings] at hmem
  cases herrand : b.before.errand? with
  | none => rw [herrand] at hmem; cases hmem
  | some errand =>
    rw [herrand] at hmem
    refine ⟨errand, rfl, ?_⟩
    cases errand with
    | fill n delay =>
      simp only at hmem
      split at hmem
      · obtain ⟨t, -, rfl⟩ := List.mem_map.mp hmem
        rfl
      · cases hmem
    | request | cancel =>
      simp only at hmem
      split at hmem
      · rw [List.mem_singleton.mp hmem]; rfl
      · cases hmem
    | settle => cases hmem
    | _ => rw [List.mem_singleton.mp hmem]; rfl

/-! ## 3. Ledgers and machines -/

namespace Ledger

/-- The ledger tells the state of the machine. -/
structure Matches (l : Ledger) (m : Machine) : Prop where
  queue : l.queue = m.world.scheduler.queue
  accepted : l.accepted = m.world.scheduler.accepted
  ended : l.ended = m.world.scheduler.passes
  underway : l.underway.map (fun pass => (pass.due, pass.fired)) = m.underway

variable {l : Ledger} {m n : Machine}

/-- A machine with the same tasks and passes has the same ledger. -/
theorem Matches.same (h : l.Matches m) (hscheduler : n.world.scheduler = m.world.scheduler)
    (hunderway : n.underway = m.underway) : l.Matches n :=
  ⟨hscheduler ▸ h.queue, hscheduler ▸ h.accepted, hscheduler ▸ h.ended, hunderway ▸ h.underway⟩

/-- The innermost pass of the machine is that of the ledger. -/
theorem Matches.innermost (h : l.Matches m) {due : List (Task Action)} {k : Nat}
    {passes : List (List (Task Action) × Nat)} (hm : m.underway = (due, k) :: passes) :
    ∃ number rest, l.underway = ⟨number, due, k⟩ :: rest ∧
      rest.map (fun pass => (pass.due, pass.fired)) = passes := by
  obtain ⟨⟨number, due', k'⟩, rest, hl, hpass, hrest⟩ :=
    List.map_eq_cons_iff.mp (h.underway.trans hm)
  obtain ⟨rfl, rfl⟩ := Prod.mk.inj hpass
  exact ⟨number, rest, hl, hrest⟩

/-- Tasks accepted in a row are posted one after the other. -/
theorem replay_batch (l : Ledger) (scheduler : Scheduler Action)
    (h : l.accepted = scheduler.accepted) (delay : Nat) (action : Action) (k : Nat) :
    Replay l
      ((scheduler.batch delay action k).map fun t => .accepted t.handle t.remaining t.action)
      { l with
        queue := l.queue ++ scheduler.batch delay action k
        accepted := l.accepted + k } := by
  induction k with
  | zero => simpa [Scheduler.batch] using Trail.nil
  | succ k ih =>
    have hbatch : scheduler.batch delay action (k + 1) =
        scheduler.batch delay action k ++ [⟨.ofNat (l.accepted + k), delay, action⟩] := by
      simp [Scheduler.batch, List.range_succ, h]
    rw [hbatch, List.map_append, ← List.append_assoc]
    exact ih.append (.single (.accepted _ delay action))

section

variable {b : Beat}

theorem Matches.requested (h : l.Matches b.before) {delay : Int} {action : Action}
    (herrand : b.before.errand? = some (.request delay action))
    (hscheduler : b.after.world.scheduler =
      (b.before.world.request delay action).world.scheduler)
    (hunderway : b.after.underway = b.before.underway)
    (hreply : b.after.focus =
      .reply (.ofRequest (b.before.world.request delay action).value)) :
    ∃ l', Replay l b.postings l' ∧ l'.Matches b.after := by
  rw [Beat.postings, herrand, hreply]
  rcases b.before.world.request_cases delay action with ⟨d, rfl, hrequest⟩ | ⟨refusal, hrequest⟩
  · rw [hrequest] at hscheduler ⊢
    have hhandle : b.before.world.scheduler.nextHandle = .ofNat l.accepted := by
      rw [h.accepted]; rfl
    simp only [Reply.ofRequest, Int.toNat_natCast, hhandle]
    refine ⟨_, .single (.accepted l d action), ?_, ?_, ?_, hunderway ▸ h.underway⟩
    · simp [hscheduler, Scheduler.enqueue, hhandle, h.queue]
    · simp [hscheduler, Scheduler.enqueue, h.accepted]
    · simp [hscheduler, Scheduler.enqueue, h.ended]
  · rw [hrequest] at hscheduler ⊢
    exact ⟨l, .nil, h.same hscheduler hunderway⟩

theorem Matches.filled (h : l.Matches b.before) {k : Nat} {delay : Int}
    (herrand : b.before.errand? = some (.fill k delay))
    (hscheduler : b.after.world.scheduler = (b.before.world.fill k delay).world.scheduler)
    (hunderway : b.after.underway = b.before.underway)
    (hreply : b.after.focus = .reply (b.before.world.fill k delay).value) :
    ∃ l', Replay l b.postings l' ∧ l'.Matches b.after := by
  obtain ⟨refusal, more, -, hfill⟩ := b.before.world.fill_cases k delay
  rw [Beat.postings, herrand, hreply, hfill]
  rw [hfill] at hscheduler
  refine ⟨_, replay_batch l _ h.accepted _ _ _, ?_, ?_, ?_, hunderway ▸ h.underway⟩
  · simp [hscheduler, Scheduler.fill, h.queue]
  · simp [hscheduler, Scheduler.fill, h.accepted]
  · simp [hscheduler, Scheduler.fill, h.ended]

theorem Matches.cancelled (h : l.Matches b.before) {handle : Handle}
    (herrand : b.before.errand? = some (.cancel handle))
    (hscheduler : b.after.world.scheduler = (b.before.world.cancel handle).world.scheduler)
    (hunderway : b.after.underway = b.before.underway)
    (hreply : b.after.focus = .reply (.flag (b.before.world.cancel handle).value)) :
    ∃ l', Replay l b.postings l' ∧ l'.Matches b.after := by
  rw [Beat.postings, herrand, hreply]
  cases hfind : b.before.world.scheduler.find? handle with
  | none =>
    simp only [World.cancel, hfind] at hscheduler ⊢
    exact ⟨l, .nil, h.same hscheduler hunderway⟩
  | some task =>
    simp only [World.cancel, hfind] at hscheduler ⊢
    obtain ⟨rfl, before, after, hqueue, hremove⟩ := Scheduler.remove_of_find? hfind
    rw [hremove] at hscheduler
    refine ⟨_, .single (.cancelled l task before after (h.queue.trans hqueue)), ?_, ?_, ?_,
      hunderway ▸ h.underway⟩
    · rw [hscheduler]
    · rw [hscheduler]; exact h.accepted
    · rw [hscheduler]; exact h.ended

/-- What the postings of a move make of the ledger is what the move makes of the machine. -/
theorem Matches.posted (h : l.Matches b.before) (hb : b.Valid) :
    ∃ l', Replay l b.postings l' ∧ l'.Matches b.after := by
  cases Machine.move_scheduler hb with
  | elsewhere herrand hscheduler hunderway =>
    rw [Beat.postings, herrand]
    exact ⟨l, .nil, h.same hscheduler hunderway⟩
  | requested delay action herrand hscheduler hunderway _ hreply =>
    exact h.requested herrand hscheduler hunderway hreply
  | filled n delay herrand hscheduler hunderway _ hreply =>
    exact h.filled herrand hscheduler hunderway hreply
  | cancelled handle herrand hscheduler hunderway _ hreply =>
    exact h.cancelled herrand hscheduler hunderway hreply
  | discarded more herrand _ hscheduler hunderway =>
    simp only at hscheduler
    have hpending : b.before.world.scheduler.pending = l.queue.length := by rw [h.queue]; rfl
    rw [Beat.postings, herrand]
    simp only [hpending]
    refine ⟨_, .single (.discarded l), ?_, ?_, ?_, hunderway ▸ h.underway⟩
    · simp [hscheduler, Scheduler.clear]
    · simp [hscheduler, Scheduler.clear, h.accepted]
    · simp [hscheduler, Scheduler.clear, h.ended]
  | began herrand hscheduler hunderway =>
    simp only at hscheduler hunderway
    rw [Beat.postings, herrand]
    refine ⟨_, .single (.drained l), ?_, ?_, ?_, ?_⟩
    · simp [hscheduler, Scheduler.drain, h.queue]
    · simp [hscheduler, Scheduler.drain, h.accepted]
    · simp [hscheduler, Scheduler.drain, h.ended]
    · simp [hunderway, Scheduler.due, h.queue, h.underway]
  | fired task due k passes herrand hscheduler hbefore hafter =>
    obtain ⟨number, rest, hl, hrest⟩ := h.innermost hbefore
    rw [Beat.postings, herrand]
    refine ⟨_, .single (.fired l number task due k rest hl), ?_⟩
    exact ⟨hscheduler ▸ h.queue, hscheduler ▸ h.accepted, hscheduler ▸ h.ended,
      by simp [hafter, hrest]⟩
  | settled task outcome herrand hscheduler hunderway =>
    rw [Beat.postings, herrand]
    exact ⟨l, .nil, h.same hscheduler hunderway⟩
  | ended k passes herrand hscheduler hbefore hafter _ hreply =>
    simp only at hscheduler
    obtain ⟨number, rest, hl, hrest⟩ := h.innermost hbefore
    rw [Beat.postings, herrand]
    refine ⟨_, .single (.passEnded l number k rest hl), ?_, ?_, ?_, hrest.trans hafter.symm⟩
    · simp [hscheduler, Scheduler.completePass, h.queue]
    · simp [hscheduler, Scheduler.completePass, h.accepted]
    · simp [hscheduler, Scheduler.completePass, h.ended]

/-- **A move is posted**: whatever it does about tasks, the ledger follows. -/
theorem Matches.move (h : l.Matches b.before) (hb : b.Valid) :
    ∃ l', Replay l b.events l' ∧ l'.Matches b.after := by
  obtain ⟨l', hreplay, hmatches⟩ := h.posted hb
  exact ⟨l', replay_of_filter (hb.posted ▸ hreplay), hmatches⟩

end

end Ledger

/-- **A run is posted**, move by move. -/
theorem Ledger.Matches.run {l : Ledger} {k m : Machine} (h : l.Matches k) {path : List Beat}
    (hrun : Run k path m) : ∃ l', Replay l (trace path) l' ∧ l'.Matches m := by
  induction hrun with
  | nil => exact ⟨l, .nil, h⟩
  | snoc _ hb ih =>
    obtain ⟨rfl, hvalid, rfl⟩ := hb
    obtain ⟨k, hreplay, hk⟩ := ih
    obtain ⟨l', hreplay', hl'⟩ := hk.move hvalid
    exact ⟨l', by simpa using hreplay.append hreplay', hl'⟩

/-- A scheduler that has just been made has the empty ledger. -/
theorem Ledger.Matches.fresh {w : World} (hw : w.Fresh) : ({} : Ledger).Matches (Machine.idle w) :=
  ⟨hw.queue.symm, hw.accepted.symm, hw.passes.symm, rfl⟩

/-- **The trace of every run follows the rules**, and tells the state that the run leads to. -/
theorem run_replay {w : World} (hw : w.Fresh) {path : List Beat} {m : Machine}
    (hrun : Run (Machine.idle w) path m) : ∃ l, Ledger.Replay {} (trace path) l ∧ l.Matches m :=
  (Ledger.Matches.fresh hw).run hrun

end TickHost
