import TickHost.Proofs.Calls
import TickHost.Proofs.Sessions
import TickHost.Proofs.Steps.Wiring

/-!
# Events that are handed to the proxy

The proxy hands an event to the lifecycle, waits for its word, and drops what is pending if a
stopped session is to leave nothing behind.  `Call.settles` takes such a call apart: a move that
turns to the lifecycle, the call of the lifecycle with whatever hooks do in it, and the move that
settles the matter.  The lifecycle takes its edge at once (`Call.takes`), so an event whose hooks
leave the state alone comes to that edge and no other (`Call.settled`).  `Call.moves_at_once` is
about events for which no hook is called.
-/

namespace TickHost

theorem Lifecycle.State.next?_eq_none_iff {source : State} {event : Event} :
    source.next? event = none ↔ ∀ target, (source, target) ∉ event.edges := by
  simp only [Option.eq_none_iff_forall_ne_some, ne_eq, next?_eq_some_iff]

/-- The state that an event leads to; one without an edge here leaves the state as it is. -/
def Lifecycle.State.on (s : State) (event : Event) : State := (s.next? event).getD s

namespace Machine

/-- A call that hands an event to the proxy: the command for it, or what that and a run of the host
turn to. -/
def Hands (m : Machine) (event : Lifecycle.Event) : Prop :=
  m.focus = .settling event ∨
    m.world.proxy.isSome = true ∧ m.focus = .command (.proxyLifecycle event)

/-- An event that is handed to the lifecycle leads where it leads, whether or not hooks are called.
-/
theorem Moving.state {m : Machine} {event : Lifecycle.Event} {s : Stepped} (h : Moving m event s) :
    s.machine.state = m.state.on event := by
  cases h with
  | refused hnone hmachine =>
    rw [hmachine, Lifecycle.State.on, Lifecycle.State.next?_eq_none_iff.mpr hnone]
    rfl
  | moved target hedge _ hmachine | notifying target _ hedge _ hmachine =>
    rw [hmachine, Lifecycle.State.on, Lifecycle.State.next?_eq_some_iff.mpr hedge]
    rfl

/-- What the proxy makes of the word of the lifecycle. -/
theorem resume_settling (w : World) (S : List Frame) (accepted : Bool) (event : Lifecycle.Event) :
    (resume w S (.flag accepted) (.settling event)).machine =
      ⟨if accepted && w.discardsOn event then { w with scheduler := w.scheduler.clear } else w,
        .reply .done, S⟩ := by
  cases accepted with
  | false => rfl
  | true =>
    simp only [resume, Bool.true_and]
    split <;> rfl

/-- A hook is running that the lifecycle has called for an event handed to the proxy on `S`. -/
def InHookOf (S : List Frame) (event : Lifecycle.Event) (m : Machine) : Prop :=
  ∃ above hook body index rest,
    m.stack = above ++ .hooking hook body index rest :: .settling event :: S

/-- What an event that was handed to the proxy comes to if hooks leave the state alone: the state it
leads to, and the hook pass of that edge. -/
structure Settled (k : Machine) (event : Lifecycle.Event) (path : List Beat) (n : Machine) :
    Prop where
  state : n.state = k.state.on event
  session : n.session = k.session + if k.state ≠ .running ∧ n.state = .running then 1 else 0
  passes : hookPasses (trace path) = (Lifecycle.passOn k.state n.state).toList

end Machine

variable {k n : Machine} {event : Lifecycle.Event} {path : List Beat}

/-- A command for the proxy says nothing and changes nothing before it turns to the proxy. -/
theorem Machine.Hands.call (h : k.Hands event) (hcall : Call k.stack k path n)
    (hback : n.BackAt k.stack) :
    ∃ before rest, path = before ++ rest ∧ trace before = [] ∧
      (∀ b ∈ before, b.before = k ∧ b.after.world = k.world) ∧
      Call k.stack ⟨k.world, .settling event, k.stack⟩ rest n := by
  obtain ⟨w, focus, S⟩ := k
  rcases h with hfocus | ⟨hproxy, hfocus⟩
  · obtain rfl : focus = .settling event := hfocus
    exact ⟨[], path, rfl, rfl, by simp, hcall⟩
  · obtain rfl : focus = .command (.proxyLifecycle event) := hfocus
    obtain ⟨first, rest, rfl, hbefore, hstep, hrest⟩ := hcall.begins rfl rfl hback
    simp only [Machine.step?, Machine.perform, Option.isNone_iff_eq_none,
      Option.isSome_iff_ne_none.mp hproxy, if_false] at hstep
    obtain ⟨hafter, hevents⟩ := Stepped.mk.inj (Option.some.inj hstep)
    rw [← hafter] at hrest
    exact ⟨[first], rest, rfl, by simp [← hevents], by simp [hbefore, ← hafter], hrest⟩

/-- **A call of the proxy**: it turns to the lifecycle, gets its word, and settles the matter. -/
theorem Call.settles (hk : k.focus = .settling event) (hcall : Call k.stack k path n)
    (hback : n.BackAt k.stack) :
    ∃ first inner last accepted, path = first :: (inner ++ [last]) ∧ first.before = k ∧
      first.after = ⟨k.world, .moving event, .settling event :: k.stack⟩ ∧ first.events = [] ∧
      Call (.settling event :: k.stack) first.after inner last.before ∧
      last.before = ⟨last.before.world, .reply (.flag accepted), .settling event :: k.stack⟩ ∧
      (⟨last.after, last.events⟩ : Stepped) =
        Machine.resume last.before.world k.stack (.flag accepted) (.settling event) ∧
      n = last.after := by
  obtain ⟨w, focus, S⟩ := k
  obtain rfl : focus = .settling event := hk
  obtain ⟨first, path, rfl, hbefore, hstep, hrest⟩ := hcall.begins rfl rfl hback
  obtain ⟨hmoving, hevents⟩ := Stepped.mk.inj (Option.some.inj hstep)
  rw [← hmoving] at hrest
  obtain ⟨inner, last, rest, r, rfl, hinner, hlast, hresume, hrest⟩ := hrest.replies rfl rfl hback
  -- the lifecycle answers whether it has accepted the event
  obtain ⟨accepted, rfl⟩ : ∃ accepted, r = .flag accepted := by
    have hreply : last.before.focus = .reply r := by rw [hlast]
    have hreturn := Machine.call_returns (k := ⟨w, .moving event, .settling event :: S⟩)
      (Or.inl rfl) hinner (by rw [hlast]; exact ⟨rfl, rfl⟩)
    rcases hreturn with ⟨hflag, -⟩ | ⟨hflag, -⟩
    · exact ⟨true, Focus.reply.inj (hreply.symm.trans hflag)⟩
    · exact ⟨false, Focus.reply.inj (hreply.symm.trans hflag)⟩
  have hafter : last.after = _ :=
    (congrArg Stepped.machine hresume).trans (Machine.resume_settling _ _ _ _)
  obtain rfl := hrest.eq_nil (by rw [hafter]; exact ⟨rfl, rfl⟩)
  refine ⟨first, inner, last, accepted, rfl, hbefore, hmoving.symm, hevents.symm, ?_, hlast,
    hresume, hrest.run.eq_of_nil.symm⟩
  exact hmoving ▸ hinner

/-- A run in which no move changes the state has no session begin and no hook pass. -/
theorem Run.steady (hrun : Run k path n) (h : ∀ b ∈ path, b.after.state = b.before.state) :
    n.state = k.state ∧ n.session = k.session ∧ hookPasses (trace path) = [] := by
  induction hrun with
  | nil => exact ⟨rfl, rfl, rfl⟩
  | @snoc path m _ b _ hb ih =>
    obtain ⟨hpath, hlast⟩ := List.forall_mem_append.mp h
    obtain ⟨hstate, hsession, hpasses⟩ := ih hpath
    have hsame := List.forall_mem_singleton.mp hlast
    obtain ⟨-, hsession', hpasses'⟩ := Machine.edge_of_move hb.valid
    simp only at hsession' hpasses'
    rw [hsame, if_neg fun hc => hc.1 hc.2] at hsession'
    rw [hsame, Lifecycle.passOn_self] at hpasses'
    obtain ⟨rfl, -, rfl⟩ := hb
    refine ⟨hsame.trans hstate, hsession'.trans hsession, ?_⟩
    rw [trace_append, hookPasses_append, hpasses, trace_cons, trace_nil, List.append_nil, hpasses']
    rfl

/-- What changes nothing about the state may follow. -/
theorem Machine.Settled.steady {q : List Beat} {m : Machine} (h : k.Settled event path m)
    (hrun : Run m q n) (hq : ∀ b ∈ q, b.after.state = b.before.state) :
    k.Settled event (path ++ q) n := by
  obtain ⟨hstate, hsession, hpasses⟩ := hrun.steady hq
  refine ⟨hstate.trans h.state, ?_, ?_⟩
  · rw [hsession, hstate]
    exact h.session
  · rw [trace_append, hookPasses_append, hpasses, List.append_nil, hstate]
    exact h.passes

/-- **The lifecycle takes its edge at once**, if it has one.  After that listeners are called and
their hooks run, until the proxy settles the matter. -/
theorem Call.takes (hk : k.focus = .settling event) (hcall : Call k.stack k path n)
    (hback : n.BackAt k.stack) :
    ∃ first taking inner last accepted, path = first :: taking :: (inner ++ [last]) ∧
      first.before = k ∧ first.after = ⟨k.world, .moving event, .settling event :: k.stack⟩ ∧
      taking.before = first.after ∧ taking.after.state = k.state.on event ∧
      (∀ b ∈ inner, (∃ hook index rest, b.before.focus = .hooking hook index rest) ∨
        b.before.InHookOf k.stack event) ∧
      last.after = (Machine.resume last.before.world k.stack (.flag accepted)
        (.settling event)).machine := by
  obtain ⟨first, inner, last, accepted, rfl, rfl, hafter, -, hinner, hlast, hresume, rfl⟩ :=
    hcall.settles hk hback
  obtain ⟨taking, inner, rfl, htaking, hstep, hinner⟩ :=
    hinner.begins (by rw [hafter]; rfl) (by rw [hafter]; rfl) (by rw [hlast]; exact ⟨rfl, rfl⟩)
  have hmoving := Machine.moving_cases (by rw [hafter]) hstep
  refine ⟨first, taking, inner, last, accepted, rfl, rfl, hafter, htaking, ?_, ?_,
    congrArg Stepped.machine hresume⟩
  · rw [hmoving.state, hafter]
    rfl
  cases hmoving with
  | refused _ hmachine | moved _ _ _ hmachine =>
    simp only at hmachine
    obtain rfl := hinner.eq_nil (by rw [hmachine, hafter]; exact ⟨rfl, rfl⟩)
    simp
  | notifying target hook _ _ hmachine =>
    simp only at hmachine
    refine (hinner.invariant (P := Machine.InHooks (.settling event :: first.before.stack))
      (.calling hook 0 _ (by rw [hmachine]) (by rw [hmachine, hafter])) ?_).2
    intro b _ hvalid hpending hin
    refine ⟨hin.move hvalid hpending, ?_⟩
    cases hin with
    | calling hook index rest hfocus => exact Or.inl ⟨hook, index, rest, hfocus⟩
    | inside above hook body index rest hstack =>
      exact Or.inr ⟨above, hook, body, index, rest, hstack⟩
    | finished hfocus hstack => exact absurd ⟨hstack, by rw [hfocus]; rfl⟩ hpending

/-- Calling a listener leaves the state to its hook. -/
theorem Beat.Valid.state_of_hooking {b : Beat} (hb : b.Valid) {hook : Lifecycle.Hook} {index : Nat}
    {rest : List Listener} (hfocus : b.before.focus = .hooking hook index rest) :
    b.after.state = b.before.state := by
  cases Machine.move_session hb with
  | elsewhere _ hsame => exact hsame
  | moving event hfocus' => rw [hfocus] at hfocus'; cases hfocus'

/-- **An event comes to its edge and no other**, if its hooks leave the state alone. -/
theorem Call.settled (hk : k.focus = .settling event) (hcall : Call k.stack k path n)
    (hback : n.BackAt k.stack)
    (hkeeps : ∀ b ∈ path, b.before.InHookOf k.stack event → b.after.state = b.before.state) :
    k.Settled event path n := by
  obtain ⟨first, taking, inner, last, accepted, rfl, rfl, hafter, htaking, htaken, hinner, hlast⟩ :=
    hcall.takes hk hback
  have hfirst : first.after.state = first.before.state := by rw [hafter]; rfl
  obtain ⟨hfirstRun, hrun⟩ := Run.cut (p := []) hcall.run
  obtain ⟨-, hrestRun⟩ := Run.cut (p := []) hrun
  obtain ⟨-, hsession, hpasses⟩ := hfirstRun.steady (List.forall_mem_singleton.mpr hfirst)
  have hrest : ∀ b ∈ inner ++ [last], b.after.state = b.before.state := by
    refine List.forall_mem_append.mpr ⟨fun b hb => ?_, List.forall_mem_singleton.mpr ?_⟩
    · rcases hinner b hb with ⟨hook, index, rest, hfocus⟩ | hin
      · exact (hcall.run.valid b (by simp [hb])).state_of_hooking hfocus
      · exact hkeeps b (by simp [hb]) hin
    · rw [hlast, Machine.resume_settling]
      split <;> rfl
  obtain ⟨hstate, hsession', hpasses'⟩ := hrestRun.steady hrest
  -- the one move that may take an edge
  obtain ⟨-, hsession₁, hpasses₁⟩ := Machine.edge_of_move (hcall.run.valid taking (by simp))
  simp only [htaking, hfirst, ← hstate] at hsession₁ hpasses₁
  refine ⟨hstate.trans htaken, ?_, ?_⟩
  · rw [hsession', hsession₁, hsession]
    split <;> rfl
  · rw [List.nil_append] at hpasses
    rw [trace_cons, trace_cons, hookPasses_append, hookPasses_append, hpasses', hpasses₁,
      List.append_nil]
    simpa using hpasses

/-- An event for which no hook is called is refused or accepted in one move. -/
theorem Call.moves_at_once (hk : k.focus = .moving event)
    (hquiet : ∀ target, (k.state, target) ∈ event.edges → Lifecycle.passOn k.state target = none)
    (hcall : Call k.stack k path n) (hback : n.BackAt k.stack) :
    ∃ b, path = [b] ∧ b.before = k ∧
      (k.state.next? event = none ∧ n = ⟨k.world, .reply (.flag false), k.stack⟩ ∨
      ∃ target, k.state.next? event = some target ∧
        n = ⟨{ k.world with coordinator := k.world.coordinator.enter target },
          .reply (.flag true), k.stack⟩) := by
  obtain ⟨b, path, rfl, hb, hstep, hrest⟩ :=
    hcall.begins (by rw [hk]; rfl) (by rw [hk]; rfl) hback
  cases Machine.moving_cases hk hstep with
  | refused hnone hmachine =>
    simp only at hmachine
    obtain rfl := hrest.eq_nil (by rw [hmachine]; exact ⟨rfl, rfl⟩)
    exact ⟨b, rfl, hb, Or.inl ⟨Lifecycle.State.next?_eq_none_iff.mpr hnone,
      hrest.run.eq_of_nil.symm.trans hmachine⟩⟩
  | moved target hedge _ hmachine =>
    simp only at hmachine
    obtain rfl := hrest.eq_nil (by rw [hmachine]; exact ⟨rfl, rfl⟩)
    exact ⟨b, rfl, hb, Or.inr ⟨target, Lifecycle.State.next?_eq_some_iff.mpr hedge,
      hrest.run.eq_of_nil.symm.trans hmachine⟩⟩
  | notifying target hook hedge hhook =>
    rw [hquiet target hedge] at hhook
    cases hhook

end TickHost
