import TickHost.Proofs.Steps.Session
import TickHost.Proofs.Steps.Stack

/-!
# Sessions over whole runs

Hooks may drive the lifecycle, so the state of the session may change many times while a hook pass
is still on the stack.  Nothing of that matters for what is counted here: a hook pass begins in the
very move that takes its edge, before any hook is called.

* `edge_of_move`: one move takes at most one edge, an edge of the event that is handed over, and
  begins the hook pass of that edge (`Lifecycle.passOn`) and no other.
* `call_returns`: a call of the lifecycle answers whether it took its edge, however its hooks drive
  the lifecycle in between.
* `Tally`: the invariant.  After `n` hook passes the running state was entered `(n + 1) / 2` times,
  and the session is running just if `n` is odd.

The last one makes the passes alternate.
-/

namespace TickHost

/-! ## 1. Edges, and the hook passes on them -/

namespace Lifecycle

/-- The edges that an event may take. -/
def Event.edges : Event → List (State × State)
  | .starting => [(.unstarted, .starting), (.stopped, .starting)]
  | .started => [(.unstarted, .running), (.starting, .running), (.stopped, .running)]
  | .stopping => [(.running, .stopping), (.starting, .stopping)]
  | .stopped => [(.stopping, .stopped), (.starting, .stopped)]

/-- All edges between states. -/
def edges : List (State × State) :=
  Event.starting.edges ++ Event.started.edges ++ Event.stopping.edges ++ Event.stopped.edges

/-- The hook pass that begins on an edge: one over the start hooks when the running state is
entered, one over the stop hooks when a running session is being stopped. -/
def passOn : State → State → Option Hook
  | .unstarted, .running | .starting, .running | .stopping, .running | .stopped, .running =>
    some .start
  | .running, .stopping => some .stop
  | _, _ => none

theorem State.next?_eq_some_iff {source target : State} {event : Event} :
    source.next? event = some target ↔ (source, target) ∈ event.edges := by
  cases event <;> cases source <;> cases target <;> decide

theorem Event.edges_subset (event : Event) : event.edges ⊆ Lifecycle.edges := by
  cases event <;> decide

@[simp] theorem passOn_self (s : State) : passOn s s = none := by cases s <;> rfl

/-- No edge begins and ends in the same state. -/
theorem Event.ne_of_mem_edges {event : Event} {source target : State}
    (h : (source, target) ∈ event.edges) : source ≠ target := by
  rintro rfl
  revert h
  cases event <;> cases source <;> decide

/-- An edge without a hook pass has nothing to do with running. -/
theorem ne_running_of_passOn_none {source target : State} (h : (source, target) ∈ edges)
    (hpass : passOn source target = none) : source ≠ .running ∧ target ≠ .running := by
  revert h hpass
  cases source <;> cases target <;> decide

theorem passOn_eq_start {source target : State} (h : passOn source target = some .start) :
    source ≠ .running ∧ target = .running := by
  revert h
  cases source <;> cases target <;> decide

theorem passOn_eq_stop {source target : State} (h : passOn source target = some .stop) :
    source = .running ∧ target = .stopping := by
  revert h
  cases source <;> cases target <;> decide

/-- No edge leads back to where nothing has started yet. -/
theorem target_ne_unstarted {source target : State} (h : (source, target) ∈ edges) :
    target ≠ .unstarted := by
  rintro rfl
  revert h
  cases source <;> decide

end Lifecycle

open Lifecycle (passOn)

/-- The hook pass that an event of the trace begins. -/
def Event.hookPass? : Event → Option Lifecycle.Hook
  | notified hook => some hook
  | _ => none

/-- The hook passes begun in a trace, in order. -/
def hookPasses (events : List Event) : List Lifecycle.Hook := events.filterMap Event.hookPass?

theorem hookPasses_append (xs ys : List Event) :
    hookPasses (xs ++ ys) = hookPasses xs ++ hookPasses ys :=
  List.filterMap_append

theorem hookPasses_eq_nil {events : List Event} (h : ∀ e ∈ events, e.topic ≠ .session) :
    hookPasses events = [] := by
  refine List.filterMap_eq_nil_iff.mpr fun e he => ?_
  have htopic := h e he
  cases e <;> first | rfl | exact absurd rfl htopic

/-! ## 2. One move -/

namespace World

/-- What the lifecycle makes of an event it refuses. -/
theorem transition_refused {w : World} {event : Lifecycle.Event}
    (h : w.coordinator.state.next? event = none) :
    w.transition event =
      ⟨w, holding .session [.logged (refusalRecord w.coordinator.state event)], .refused⟩ := by
  simp only [transition, h]

/-- What it makes of an event it accepts. -/
theorem transition_accepted {w : World} {event : Lifecycle.Event} {next : Lifecycle.State}
    (h : w.coordinator.state.next? event = some next) :
    (w.transition event).world = { w with coordinator := w.coordinator.enter next } ∧
    (w.transition event).value =
      (match passOn w.coordinator.state next with
        | some hook => .hooks hook
        | none => .moved) ∧
    hookPasses (w.transition event).events = [] ∧
    ∀ hook index listener, .called hook index listener ∉ (w.transition event).events := by
  simp only [transition, h]
  cases event <;> cases hs : w.coordinator.state <;> rw [hs] at h <;>
    first
    | (obtain rfl := Option.some.inj h; simp [passOn, holding, hookPasses, Event.hookPass?])
    | cases h

end World

namespace Machine

/-- What a move makes of an event that it hands to the lifecycle: it is refused and nothing changes,
or an edge of it is taken, and then either there is the answer or a hook pass. -/
inductive Moving (m : Machine) (event : Lifecycle.Event) (s : Stepped) : Prop
  /-- The event has no edge here. -/
  | refused (hnone : ∀ target, (m.state, target) ∉ event.edges)
      (hmachine : s.machine = ⟨m.world, .reply (.flag false), m.stack⟩)
      (hpasses : hookPasses s.events = [])
      (hcalled : ∀ hook index listener, .called hook index listener ∉ s.events)
  /-- An edge is taken that calls nobody. -/
  | moved (target : Lifecycle.State) (hedge : (m.state, target) ∈ event.edges)
      (hquiet : passOn m.state target = none)
      (hmachine : s.machine =
        ⟨{ m.world with coordinator := m.world.coordinator.enter target },
          .reply (.flag true), m.stack⟩)
      (hpasses : hookPasses s.events = [])
  /-- An edge is taken, and its hook pass begins. -/
  | notifying (target : Lifecycle.State) (hook : Lifecycle.Hook)
      (hedge : (m.state, target) ∈ event.edges) (hhook : passOn m.state target = some hook)
      (hmachine : s.machine =
        ⟨{ m.world with coordinator := m.world.coordinator.enter target },
          .hooking hook 0 m.world.coordinator.listeners, m.stack⟩)
      (hpasses : hookPasses s.events = [hook])

theorem moving_cases {m : Machine} {event : Lifecycle.Event} {s : Stepped}
    (hfocus : m.focus = .moving event) (h : m.step? = some s) : Moving m event s := by
  obtain ⟨w, focus, stack⟩ := m
  obtain rfl : focus = .moving event := hfocus
  simp only [step?] at h
  cases hnext : w.coordinator.state.next? event with
  | none =>
    rw [World.transition_refused hnext] at h
    obtain rfl := Option.some.inj h
    have hnone (target : Lifecycle.State) : (w.coordinator.state, target) ∉ event.edges := by
      intro hmem
      have hsome := Lifecycle.State.next?_eq_some_iff.mpr hmem
      rw [hnext] at hsome
      cases hsome
    exact .refused hnone rfl rfl (by simp [answer])
  | some target =>
    have hedge := Lifecycle.State.next?_eq_some_iff.mp hnext
    obtain ⟨hworld, hvalue, hpasses, -⟩ := World.transition_accepted hnext
    cases hhook : passOn w.coordinator.state target with
    | none =>
      rw [hhook] at hvalue
      simp only [hvalue] at h
      obtain rfl := Option.some.inj h
      exact .moved target hedge hhook (by simp [answer, hworld]) hpasses
    | some hook =>
      rw [hhook] at hvalue
      simp only [hvalue] at h
      obtain rfl := Option.some.inj h
      refine .notifying target hook hedge hhook (by simp [hworld, World.beginHooks]) ?_
      rw [hookPasses_append, hpasses]
      rfl

/-- **A move takes at most one edge**, counts a session just if it enters the running state, and
begins the hook pass of its edge and no other. -/
theorem edge_of_move {m : Machine} {mv : Move} {s : Stepped} (h : m.move? mv = some s) :
    (s.machine.state = m.state ∨ (m.state, s.machine.state) ∈ Lifecycle.edges) ∧
    s.machine.session
      = (if m.state ≠ .running ∧ s.machine.state = .running then m.session + 1 else m.session) ∧
    hookPasses s.events = (passOn m.state s.machine.state).toList := by
  cases move_session h with
  | elsewhere hevent hstate hsession =>
    have hevents := (move_tells h).avoids (t := .session) (by rw [tellsOf, hevent]; rfl)
    refine ⟨Or.inl hstate, ?_, ?_⟩
    · rw [hsession, hstate, if_neg (fun hc => hc.1 hc.2)]
    · rw [hookPasses_eq_nil hevents, hstate, Lifecycle.passOn_self]; rfl
  | moving event hfocus hstep =>
    have hcount (target : Lifecycle.State) (hedge : (m.state, target) ∈ event.edges) :
        (m.world.coordinator.enter target).session
          = if m.state ≠ .running ∧ target = .running then m.session + 1 else m.session := by
      have hne := Lifecycle.Event.ne_of_mem_edges hedge
      by_cases htarget : target = .running
      · rw [htarget] at hne; simp [Coordinator.enter, htarget, hne, session]
      · simp [Coordinator.enter, htarget, session]
    cases moving_cases hfocus hstep with
    | refused _ hmachine hpasses =>
      have hstate : s.machine.state = m.state := by rw [hmachine]; rfl
      refine ⟨Or.inl hstate, ?_, ?_⟩
      · rw [hstate, if_neg (fun hc => hc.1 hc.2), hmachine]; rfl
      · rw [hpasses, hstate, Lifecycle.passOn_self]; rfl
    | moved target hedge hquiet hmachine hpasses =>
      have hstate : s.machine.state = target := by rw [hmachine]; rfl
      rw [hstate]
      refine ⟨Or.inr (event.edges_subset hedge), ?_, ?_⟩
      · rw [← hcount target hedge, hmachine]; rfl
      · rw [hpasses, hquiet]; rfl
    | notifying target hook hedge hhook hmachine hpasses =>
      have hstate : s.machine.state = target := by rw [hmachine]; rfl
      rw [hstate]
      refine ⟨Or.inr (event.edges_subset hedge), ?_, ?_⟩
      · rw [← hcount target hedge, hmachine]; rfl
      · rw [hpasses, hhook]; rfl

/-! ## 3. Calls -/

/-- A call that asks the lifecycle for a move: the commands for it, or what they and the proxy turn
to. -/
def Asks (m : Machine) (event : Lifecycle.Event) : Prop :=
  m.focus = .moving event ∨ m.focus = .command (.handle event) ∨
    (event = .started ∧ m.focus = .command .notifyStart) ∨
    (event = .stopping ∧ m.focus = .command .notifyStop)

/-- How far a call is that has taken an edge with hooks: it calls the listeners, or one of their
hooks is running, or the call is over. -/
inductive InHooks (S : List Frame) (m : Machine) : Prop
  | calling (hook : Lifecycle.Hook) (index : Nat) (rest : List Listener)
      (hfocus : m.focus = .hooking hook index rest) (hstack : m.stack = S)
  | inside (above : List Frame) (hook : Lifecycle.Hook) (body : HookBody) (index : Nat)
      (rest : List Listener) (hstack : m.stack = above ++ .hooking hook body index rest :: S)
  | finished (hfocus : m.focus = .reply (.flag true)) (hstack : m.stack = S)

/-- Whatever hooks do, the call that calls them goes on calling listeners. -/
theorem InHooks.move {S : List Frame} {m : Machine} {mv : Move} {s : Stepped}
    (h : m.move? mv = some s) (hback : ¬ m.BackAt S) (hin : InHooks S m) : InHooks S s.machine := by
  cases hin with
  | calling hook index rest hfocus hstack =>
    have hstep := step_of_move h (by simp [isIdle, hfocus, Focus.isFinal]) (by simp [hfocus])
    obtain ⟨w, focus, stack⟩ := m
    obtain rfl : focus = .hooking hook index rest := hfocus
    obtain rfl : stack = S := hstack
    cases rule_of_step hstep with
    | hooksEnd => exact .finished rfl rfl
    | callsListener w S hook index listener rest =>
      simp only [notify]
      split
      · exact .inside [] _ _ _ _ rfl
      · exact .calling _ _ _ rfl rfl
  | inside above hook body index rest hstack =>
    -- the hooks go on above the frame, or the last one to be called has ended
    rcases move_under h hstack with ⟨above', hs⟩ | ⟨r, -, rfl⟩ | ⟨outcome, -, rfl⟩
    · exact .inside above' hook body index rest hs
    · exact .inside [] hook body index rest rfl
    · exact .calling hook (index + 1) rest rfl rfl
  | finished hfocus hstack => exact absurd ⟨hstack, by rw [hfocus]; rfl⟩ hback

/-- How far a call for `event` is that was begun at `k`: it has not reached the lifecycle yet, it
was refused there, or it has taken its edge. -/
inductive Progress (k : Machine) (event : Lifecycle.Event) (path : List Beat) (m : Machine) : Prop
  | asking (hasks : m.Asks event) (hworld : m.world = k.world) (hstack : m.stack = k.stack)
      (htrace : trace path = [])
  | refused (hnone : ∀ target, (k.state, target) ∉ event.edges)
      (hmachine : m = ⟨k.world, .reply (.flag false), k.stack⟩)
      (hpasses : hookPasses (trace path) = [])
      (hcalled : ∀ hook index listener, .called hook index listener ∉ trace path)
  | taken (b : Beat) (hb : b ∈ path) (hworld : b.before.world = k.world)
      (hedge : (k.state, b.after.state) ∈ event.edges) (hin : InHooks k.stack m)

theorem Progress.move {k m : Machine} {event : Lifecycle.Event} {path : List Beat} {mv : Move}
    {s : Stepped} (h : m.move? mv = some s) (hback : ¬ m.BackAt k.stack)
    (hprogress : Progress k event path m) :
    Progress k event (path ++ [⟨m, mv, s.machine, s.events⟩]) s.machine := by
  cases hprogress with
  | refused hnone hmachine => exact absurd (by rw [hmachine]; exact ⟨rfl, rfl⟩) hback
  | taken b hb hworld hedge hin =>
    exact .taken b (List.mem_append_left _ hb) hworld hedge (hin.move h hback)
  | asking hasks hworld hstack htrace =>
    have hstate : m.state = k.state := by rw [state, hworld]; rfl
    have hstep := step_of_move h
      (by rcases hasks with hf | hf | ⟨-, hf⟩ | ⟨-, hf⟩ <;> simp [isIdle, hf, Focus.isFinal])
      (by rcases hasks with hf | hf | ⟨-, hf⟩ | ⟨-, hf⟩ <;> simp [hf])
    -- a command turns to the lifecycle and says nothing
    have hturn (c : Command) (hfocus : m.focus = .command c)
        (hperform : perform m.world m.stack c = turnTo m.world m.stack (.moving event)) :
        Progress k event (path ++ [⟨m, mv, s.machine, s.events⟩]) s.machine := by
      simp only [step?, hfocus, hperform] at hstep
      obtain rfl := Option.some.inj hstep
      exact .asking (Or.inl rfl) hworld hstack (by simp [turnTo, htrace])
    rcases hasks with hfocus | hfocus | ⟨rfl, hfocus⟩ | ⟨rfl, hfocus⟩
    · cases moving_cases hfocus hstep with
      | refused hnone hmachine hpasses hcalled =>
        refine .refused (hstate ▸ hnone) (by rw [hmachine, hworld, hstack]) ?_ ?_
        · simpa [htrace] using hpasses
        · simpa [htrace] using hcalled
      | moved target hedge _ hmachine =>
        refine .taken ⟨m, mv, s.machine, s.events⟩ (by simp) hworld ?_ ?_
        · rw [← hstate, hmachine]; exact hedge
        · exact .finished (by rw [hmachine]) (by rw [hmachine, hstack])
      | notifying target hook hedge _ hmachine =>
        refine .taken ⟨m, mv, s.machine, s.events⟩ (by simp) hworld ?_ ?_
        · rw [← hstate, hmachine]; exact hedge
        · exact .calling hook 0 _ (by rw [hmachine]) (by rw [hmachine, hstack])
    · exact hturn _ hfocus rfl
    · exact hturn _ hfocus rfl
    · exact hturn _ hfocus rfl

/-- **A call answers whether it took its edge.**  It has one at its entry or it has none; if it has
none, nothing changes and nobody is called, and if it has one, it takes it at once and says so in
the end, whatever the hooks do meanwhile. -/
theorem call_returns {k n : Machine} {event : Lifecycle.Event} {path : List Beat}
    (hasks : k.Asks event) (hcall : Call k.stack k path n) (hback : n.BackAt k.stack) :
    (n.focus = .reply (.flag true) ∧
      ∃ b ∈ path, b.before.world = k.world ∧ (k.state, b.after.state) ∈ event.edges) ∨
    (n.focus = .reply (.flag false) ∧ (∀ target, (k.state, target) ∉ event.edges) ∧
      n.world = k.world ∧ hookPasses (trace path) = [] ∧
      ∀ hook index listener, .called hook index listener ∉ trace path) := by
  have hprogress : Progress k event path n :=
    hcall.keeps (.asking hasks rfl rfl rfl) fun hb => Progress.move hb
  obtain ⟨hstack, hfinal⟩ := hback
  cases hprogress with
  | asking hasks =>
    rcases hasks with hf | hf | ⟨-, hf⟩ | ⟨-, hf⟩ <;> rw [hf] at hfinal <;> cases hfinal
  | refused hnone hmachine hpasses hcalled =>
    obtain rfl := hmachine
    exact Or.inr ⟨rfl, hnone, rfl, hpasses, hcalled⟩
  | taken b hb hworld hedge hin =>
    refine Or.inl ⟨?_, b, hb, hworld, hedge⟩
    cases hin with
    | calling hook index rest hfocus => rw [hfocus] at hfinal; cases hfinal
    | inside above hook body index rest hs =>
      have hlength := congrArg List.length (hstack.symm.trans hs)
      rw [List.length_append, List.length_cons] at hlength
      omega
    | finished hfocus => exact hfocus

end Machine

/-! ## 4. Counting -/

/-- A move that begins no hook pass counts no session, and neither enters the running state nor
leaves it. -/
theorem Beat.Valid.session_of_no_pass {b : Beat} (hb : b.Valid) (hpasses : hookPasses b.events = []) :
    b.after.session = b.before.session ∧
      (b.after.state = .running ↔ b.before.state = .running) := by
  obtain ⟨hstate, hsession, hpass⟩ := Machine.edge_of_move hb
  simp only at hstate hsession hpass
  rcases hstate with hstate | hedge
  · rw [hstate, if_neg (fun hc => hc.1 hc.2)] at hsession
    exact ⟨hsession, by rw [hstate]⟩
  · have hnone := Option.toList_eq_nil_iff.mp (hpass.symm.trans hpasses)
    obtain ⟨hbefore, hafter⟩ := Lifecycle.ne_running_of_passOn_none hedge hnone
    rw [if_neg (fun hc => hafter hc.2)] at hsession
    exact ⟨hsession, iff_of_false hafter hbefore⟩

/-- A start pass begins when the session begins to run, and then the session is counted. -/
theorem Beat.Valid.session_of_start_pass {b : Beat} (hb : b.Valid)
    (hpasses : hookPasses b.events = [.start]) :
    b.after.session = b.before.session + 1 ∧ b.before.state ≠ .running ∧
      b.after.state = .running := by
  obtain ⟨-, hsession, hpass⟩ := Machine.edge_of_move hb
  simp only at hsession hpass
  obtain ⟨hbefore, hafter⟩ :=
    Lifecycle.passOn_eq_start (Option.toList_eq_singleton_iff.mp (hpass.symm.trans hpasses))
  rw [if_pos ⟨hbefore, hafter⟩] at hsession
  exact ⟨hsession, hbefore, hafter⟩

/-- A stop pass begins when the session stops to run. -/
theorem Beat.Valid.session_of_stop_pass {b : Beat} (hb : b.Valid) (hpasses : hookPasses b.events = [.stop]) :
    b.after.session = b.before.session ∧ b.before.state = .running ∧ b.after.state ≠ .running := by
  obtain ⟨-, hsession, hpass⟩ := Machine.edge_of_move hb
  simp only at hsession hpass
  obtain ⟨hbefore, hafter⟩ :=
    Lifecycle.passOn_eq_stop (Option.toList_eq_singleton_iff.mp (hpass.symm.trans hpasses))
  rw [if_neg (fun hc => hc.1 hbefore)] at hsession
  exact ⟨hsession, hbefore, by rw [hafter]; nofun⟩

/-- Whether a move enters the running state. -/
def Beat.startsSession (b : Beat) : Bool := b.before.state != .running && b.after.state == .running

/-- The hook passes begun in a run, in order, each with the number of the session at that moment. -/
def hookPassesOf (path : List Beat) : List (Lifecycle.Hook × Nat) :=
  path.flatMap fun b => (hookPasses b.events).map fun hook => (hook, b.after.session)

/-- What hook pass comes after `i` others: start and stop in turns, both for the first session, then
both for the second, and so on. -/
def alternating (i : Nat) : Lifecycle.Hook × Nat := (if i % 2 = 0 then .start else .stop, i / 2 + 1)

/-- **The invariant.**  There were `n` hook passes, in turns, and their number tells that of the
session, and whether it is running. -/
structure Tally (path : List Beat) (m : Machine) (n : Nat) : Prop where
  /-- The passes so far. -/
  passes : hookPassesOf path = (List.range n).map alternating
  /-- The sessions so far. -/
  session : m.session = (n + 1) / 2
  /-- The session is running just after a start pass and before the stop pass. -/
  running : m.state = .running ↔ n % 2 = 1
  /-- Every session was entered. -/
  entries : m.session = path.countP Beat.startsSession

/-- A move without a hook pass keeps the tally. -/
theorem Tally.keep {path : List Beat} {m : Machine} {n : Nat} {b : Beat} (h : Tally path m n)
    (hpasses : hookPasses b.events = []) (hsession : b.after.session = m.session)
    (hrunning : b.after.state = .running ↔ m.state = .running) (hentry : b.startsSession = false) :
    Tally (path ++ [b]) b.after n where
  passes := by simp [hookPassesOf, hpasses, ← h.passes]
  session := hsession.trans h.session
  running := hrunning.trans h.running
  entries := by rw [hsession, h.entries, List.countP_append, List.countP_singleton, hentry]; rfl

/-- A move with a hook pass counts it. -/
theorem Tally.count {path : List Beat} {m : Machine} {n : Nat} {b : Beat} (h : Tally path m n)
    (hpasses : (hookPasses b.events).map (·, b.after.session) = [alternating n])
    (hsession : b.after.session = (n + 2) / 2)
    (hrunning : b.after.state = .running ↔ n % 2 = 0)
    (hentry : b.after.session = m.session + if b.startsSession then 1 else 0) :
    Tally (path ++ [b]) b.after (n + 1) where
  passes := by
    rw [List.range_succ, List.map_append, ← h.passes]
    simp [hookPassesOf, hpasses]
  session := hsession
  running := hrunning.trans (by omega)
  entries := by rw [hentry, h.entries, List.countP_append, List.countP_singleton]

theorem Tally.move {path : List Beat} {b : Beat} {n : Nat} (h : Tally path b.before n)
    (hb : b.Valid) : ∃ n', Tally (path ++ [b]) b.after n' := by
  obtain ⟨-, -, hpasses⟩ := Machine.edge_of_move hb
  simp only at hpasses
  have hrun := h.running
  have hn := h.session
  cases hpass : passOn b.before.state b.after.state with
  | none =>
    rw [hpass] at hpasses
    obtain ⟨hsession, hrunning⟩ := hb.session_of_no_pass hpasses
    exact ⟨n, h.keep hpasses hsession hrunning (by simp [Beat.startsSession, hrunning])⟩
  | some hook =>
    rw [hpass] at hpasses
    cases hook with
    | start =>
      obtain ⟨hsession, hbefore, hafter⟩ := hb.session_of_start_pass hpasses
      have heven : n % 2 = 0 :=
        (Nat.mod_two_eq_zero_or_one n).resolve_right fun hodd => hbefore (hrun.mpr hodd)
      refine ⟨n + 1, h.count ?_ (by omega) (by simp [hafter, heven]) ?_⟩
      · simp only [hpasses, alternating, if_pos heven]
        have : n / 2 + 1 = b.after.session := by omega
        rw [this]; rfl
      · simp [Beat.startsSession, hbefore, hafter, hsession]
    | stop =>
      obtain ⟨hsession, hbefore, hafter⟩ := hb.session_of_stop_pass hpasses
      have hodd : n % 2 = 1 := hrun.mp hbefore
      refine ⟨n + 1, h.count ?_ (by omega) (by simp [hafter, hodd]) ?_⟩
      · simp only [hpasses, alternating, hodd]
        have : n / 2 + 1 = b.after.session := by omega
        rw [this]; rfl
      · simp [Beat.startsSession, hafter, hsession]

/-- The tally of a whole run. -/
theorem Run.tally {w : World} (hw : w.Fresh) {path : List Beat} {m : Machine}
    (hrun : Run (Machine.idle w) path m) : ∃ n, Tally path m n := by
  induction hrun with
  | nil => exact ⟨0, rfl, hw.session, by simp [Machine.idle, Machine.state, hw.state], hw.session⟩
  | snoc _ hb ih =>
    obtain ⟨rfl, hvalid, rfl⟩ := hb
    obtain ⟨n, hn⟩ := ih
    exact hn.move hvalid

/-- **Sessions.**  In every run from a fresh world, with whatever hooks do:

* the state changes along the edges only, and nothing leads back to where no session has started;
* a call that asks for a move answers `true` if it had an edge at its entry, which it then took, and
  otherwise it answers `false`, changes nothing and calls nobody;
* the number of the session is how often the running state was entered;
* the hook passes that begin in a move are those of the edge it takes;
* one after the other, the hook passes are start, stop, start, stop, and so on, the first two in
  session 1, the next two in session 2, and so on. -/
theorem sessions_of_run {w : World} (hw : w.Fresh) {path : List Beat} {m : Machine}
    (hrun : Run (Machine.idle w) path m) :
    (∀ b ∈ path,
      (b.before.state = b.after.state ∨ (b.before.state, b.after.state) ∈ Lifecycle.edges) ∧
      (b.after.state = .unstarted → b.before.state = .unstarted)) ∧
    (∀ (k n : Machine) (event : Lifecycle.Event) (call : List Beat),
      k.Asks event → Call k.stack k call n → n.BackAt k.stack →
      (n.focus = .reply (.flag true) ∧
        ∃ b ∈ call, b.before.world = k.world ∧ (k.state, b.after.state) ∈ event.edges) ∨
      (n.focus = .reply (.flag false) ∧ (∀ target, (k.state, target) ∉ event.edges) ∧
        n.world = k.world ∧ hookPasses (trace call) = [] ∧
        ∀ hook index listener, .called hook index listener ∉ trace call)) ∧
    m.session = path.countP Beat.startsSession ∧
    (∀ b ∈ path, hookPasses b.events = (passOn b.before.state b.after.state).toList) ∧
    ∃ n, hookPassesOf path = (List.range n).map alternating := by
  obtain ⟨n, htally⟩ := hrun.tally hw
  refine ⟨?_, ?_, htally.entries, ?_, n, htally.passes⟩
  · intro b hb
    rcases (Machine.edge_of_move (hrun.valid b hb)).1 with hsame | hedge
    · exact ⟨Or.inl hsame.symm, hsame.symm.trans⟩
    · have hne : b.after.state ≠ .unstarted := Lifecycle.target_ne_unstarted hedge
      exact ⟨Or.inr hedge, fun h => absurd h hne⟩
  · intro k n event call hasks hcall hback
    exact Machine.call_returns hasks hcall hback
  · intro b hb
    exact (Machine.edge_of_move (hrun.valid b hb)).2.2

/-- A session with a listener that stops it from its start hook, and ends it from its stop hook
before that panics. -/
def restless : List Beat × Machine :=
  (Machine.idle (World.parts 10 10)).played <|
    [.command (.addListener "restless" .both [.notifyStop] [.handle .stopped, .panic .other]
      none none 1), .step, .command .notifyStart] ++ List.replicate 20 .step

/-- The session is over before its start hooks are. -/
theorem sessions_of_restless :
    (World.parts 10 10).Fresh ∧ Run (Machine.idle (World.parts 10 10)) restless.1 restless.2 ∧
    restless.2.isIdle = true ∧ restless.2.state = .stopped ∧ restless.2.session = 1 ∧
    hookPassesOf restless.1 = [alternating 0, alternating 1] := by
  have hrun : Run (Machine.idle (World.parts 10 10)) restless.1 restless.2 :=
    Machine.played_run _ _
  obtain ⟨-, -, hsession, -, n, hpasses⟩ := sessions_of_run (World.parts_fresh 10 10) hrun
  have hlength : (hookPassesOf restless.1).length = n := by rw [hpasses]; simp
  obtain rfl : 2 = n := hlength
  exact ⟨World.parts_fresh 10 10, hrun, rfl, rfl, hsession, hpasses⟩

end TickHost
