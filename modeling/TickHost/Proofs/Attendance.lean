import TickHost.Proofs.Calls
import TickHost.Proofs.Fate
import TickHost.Proofs.Steps.Deliveries
import TickHost.Proofs.Steps.Wiring

/-!
# Ticks and passes

A proxy registers the scheduler before anybody else, and for the end of server ticks only.  So,
unless a command goes past the proxy, passes and deliveries of such ticks are the same thing seen
twice:

* `Call.opens` and `Call.opens_none`: every delivery of the end of a server tick begins a pass,
  before any other handler is called and only once; no other delivery begins one.
* `Run.opened`: no pass begins otherwise.
* `Run.inStep`: as many ends of server ticks were delivered as passes have begun, also at the moment
  when a task is accepted.
-/

namespace TickHost

/-! ## 1. The table of a proxy -/

/-- Whether an event is the end of a tick of the server, when the scheduler runs a pass. -/
def Tick.Event.isServerEnd (event : Tick.Event) : Bool :=
  event.kind == .server && event.phase == .finish

/-- Whether a handler is the scheduler. -/
def Handler.isScheduler : Handler → Bool
  | scheduler => true
  | _ => false

/-- The scheduler is not among these handlers. -/
def WithoutScheduler (handlers : List Handler) : Prop := ∀ h ∈ handlers, h.isScheduler = false

namespace HandlerTable

variable {η : Type}

theorem entries_append (t : HandlerTable η) (handler : η) (kind kind' : Tick.Kind) :
    (t.append handler kind).entries kind' =
      t.entries kind' ++ List.replicate ([kind].count kind') handler := by
  cases kind <;> cases kind' <;> simp [append, entries]

/-- A handler comes after those that were registered before, once for each occurrence of a kind. -/
theorem entries_register (t : HandlerTable η) (handler : η) (kinds : List Tick.Kind)
    (kind : Tick.Kind) :
    (t.register handler kinds).entries kind =
      t.entries kind ++ List.replicate (kinds.count kind) handler := by
  induction kinds generalizing t with
  | nil => simp [register]
  | cons first kinds ih =>
    have hcount : (first :: kinds).count kind = [first].count kind + kinds.count kind := by
      rw [← List.count_append, List.singleton_append]
    rw [register, List.foldl_cons, ← register, ih, entries_append, hcount, List.append_assoc,
      List.replicate_append_replicate]

/-- **The scheduler is the first handler of server ticks**, and it is in no other place. -/
def Wired (t : HandlerTable Handler) : Prop :=
  ∀ kind, ∃ others, WithoutScheduler others ∧
    t.entries kind = (if kind = .server then [.scheduler] else []) ++ others

/-- Other handlers may be registered. -/
theorem Wired.register {t : HandlerTable Handler} {handler : Handler} (h : t.Wired)
    (hhandler : handler.isScheduler = false) (kinds : List Tick.Kind) :
    (t.register handler kinds).Wired := by
  intro kind
  obtain ⟨others, hothers, hentries⟩ := h kind
  refine ⟨others ++ List.replicate (kinds.count kind) handler, ?_, ?_⟩
  · refine List.forall_mem_append.mpr ⟨hothers, ?_⟩
    intro h' hmem
    rw [List.eq_of_mem_replicate hmem, hhandler]
  · rw [entries_register, hentries, List.append_assoc]

/-- **An event is for the scheduler just if it is the end of a server tick**, and then the scheduler
comes first. -/
theorem Wired.targets {t : HandlerTable Handler} (h : t.Wired) (event : Tick.Event) :
    ∃ others, WithoutScheduler others ∧
      t.targets Handler.accepts event =
        (if event.isServerEnd then [.scheduler] else []) ++ others := by
  obtain ⟨kind, phase, number⟩ := event
  obtain ⟨others, hothers, hentries⟩ := h kind
  refine ⟨others.filter (·.accepts phase),
    fun h' hmem => hothers h' (List.mem_filter.mp hmem).1, ?_⟩
  rw [HandlerTable.targets, hentries, List.filter_append]
  congr 1
  cases kind <;> cases phase <;> rfl

end HandlerTable

/-- The worlds that are set up around a proxy: the proxy alone, a host, or a host with a limit for
its runs. -/
inductive World.OfProxy : World → Prop
  | proxied (config : Config) : OfProxy (proxied config).world
  | hosted (config : Config) (sampler : Sampler) : OfProxy (hosted config sampler).world
  | limited {host : Turn Unit} (h : OfProxy host.world) : OfProxy (World.limited host).world

namespace World.OfProxy

variable {w : World}

theorem fresh (h : w.OfProxy) : w.Fresh := by
  induction h with
  | proxied config => exact proxied_fresh config
  | hosted config sampler => exact hosted_fresh config sampler
  | limited _ ih => exact ih.limited

theorem wired (h : w.OfProxy) : w.handlers.Wired := by
  have hproxied (config : Config) : (World.proxied config).world.handlers.Wired := by
    intro kind
    exact ⟨[], by simp [WithoutScheduler], by cases kind <;> rfl⟩
  induction h with
  | proxied config => exact hproxied config
  | hosted config sampler =>
    exact (hproxied config).register (show Handler.sampler.isScheduler = false from rfl) _
  | limited _ ih => exact ih.register (show Handler.runLimit.isScheduler = false from rfl) _

end World.OfProxy

/-- The beat carries out no command that goes past the proxy. -/
def Beat.UsesProxy (b : Beat) : Prop := b.before.focus.bypassesProxy = false

instance (b : Beat) : Decidable b.UsesProxy := inferInstanceAs (Decidable (_ = false))

theorem Beat.Valid.wired {b : Beat} (hb : b.Valid) (huses : b.UsesProxy)
    (h : b.before.world.handlers.Wired) : b.after.world.handlers.Wired := by
  have hhandlers := (Machine.move_wiring hb).handlers
  rw [hhandlers]
  split
  · rename_i handler hregisters
    refine h.register ?_ handler.kinds
    simp only [Machine.registers?] at hregisters
    split at hregisters
    · rename_i c hfocus
      rw [Beat.UsesProxy, hfocus] at huses
      cases c with
      | register => obtain rfl := Option.some.inj hregisters; rfl
      | registerScheduler => cases huses
      | _ => cases hregisters
    · cases hregisters
  · exact h

/-! ## 2. Ticks are counted as passes are -/

/-- Whether an event delivers the end of a server tick. -/
def Event.isServerEnd (e : Event) : Bool := e.deliveredTick?.any Tick.Event.isServerEnd

/-- How many ends of server ticks were delivered. -/
def serverEnds (events : List Event) : Nat := events.countP Event.isServerEnd

theorem serverEnds_append (p q : List Event) : serverEnds (p ++ q) = serverEnds p + serverEnds q :=
  List.countP_append

theorem DeliversNone.serverEnds_eq_zero {events : List Event} (h : DeliversNone events) :
    serverEnds events = 0 := by
  refine List.countP_eq_zero.mpr fun e he => ?_
  rw [Event.isServerEnd, h e he]
  exact Bool.false_ne_true

namespace Machine

/-- Whether the scheduler is about to be called for a tick, or has been and is about to begin the
pass. -/
def owesPass (m : Machine) : Bool :=
  match m.focus with
  | .handling _ (.scheduler :: _) _ | .passing => true
  | _ => false

/-- **Where the scheduler is in deliveries**: nowhere, except when the end of a server tick has just
been delivered, or the scheduler has just been called for it. -/
inductive Attended (m : Machine) : Prop
  | elsewhere (hpassing : m.focus ≠ .passing)
      (hothers : ∀ d ∈ m.deliveries, WithoutScheduler d.2)
  | delivered (event : Tick.Event) (rest : List Handler) (count : Nat)
      (hfocus : m.focus = .handling event (.scheduler :: rest) count)
      (hend : event.isServerEnd = true)
      (hothers : ∀ d ∈ (event, rest) :: m.stack.filterMap Frame.delivery?, WithoutScheduler d.2)
  | called (event : Tick.Event) (rest : List Handler) (count : Nat) (S : List Frame)
      (hfocus : m.focus = .passing) (hstack : m.stack = .handling .scheduler event rest count :: S)
      (hend : event.isServerEnd = true)
      (hothers : ∀ d ∈ m.deliveries, WithoutScheduler d.2)

variable {m : Machine}

/-- Once the next handler is called, the scheduler is in no delivery. -/
theorem Attended.rest (h : m.Attended) {event : Tick.Event} {handler : Handler}
    {rest : List Handler} {count : Nat}
    (hfocus : m.focus = .handling event (handler :: rest) count) :
    ∀ d ∈ (event, rest) :: m.stack.filterMap Frame.delivery?, WithoutScheduler d.2 := by
  cases h with
  | called _ _ _ _ hfocus' => rw [hfocus] at hfocus'; cases hfocus'
  | delivered event' rest' count' hfocus' hend hothers =>
    obtain ⟨rfl, hrest, rfl⟩ := Focus.handling.inj (hfocus.symm.trans hfocus')
    obtain ⟨rfl, rfl⟩ := List.cons.inj hrest
    exact hothers
  | elsewhere hpassing hothers =>
    have hall : ∀ d ∈ (event, handler :: rest) :: m.stack.filterMap Frame.delivery?,
        WithoutScheduler d.2 := by
      simpa [deliveries, hfocus, Focus.delivery?] using hothers
    obtain ⟨hhere, hstack⟩ := List.forall_mem_cons.mp hall
    exact List.forall_mem_cons.mpr ⟨(List.forall_mem_cons.mp hhere).2, hstack⟩

/-- The scheduler is in the innermost delivery only for the end of a server tick. -/
theorem Attended.serverEnd (h : m.Attended) {event : Tick.Event} {rest : List Handler} {count : Nat}
    (hfocus : m.focus = .handling event (.scheduler :: rest) count) : event.isServerEnd = true := by
  cases h with
  | called _ _ _ _ hfocus' => rw [hfocus] at hfocus'; cases hfocus'
  | delivered event' rest' count' hfocus' hend hothers =>
    obtain ⟨rfl, -, -⟩ := Focus.handling.inj (hfocus.symm.trans hfocus')
    exact hend
  | elsewhere hpassing hothers =>
    have hmem : (event, .scheduler :: rest) ∈ m.deliveries := by
      simp [deliveries, hfocus, Focus.delivery?]
    cases hothers _ hmem _ List.mem_cons_self

/-- A machine without the scheduler in its deliveries owes no pass. -/
theorem owesPass_eq_false (hpassing : m.focus ≠ .passing)
    (hothers : ∀ d ∈ m.deliveries, WithoutScheduler d.2) : m.owesPass = false := by
  obtain ⟨w, focus, stack⟩ := m
  cases focus with
  | passing => exact absurd rfl hpassing
  | handling event rest count =>
    cases rest with
    | nil => rfl
    | cons handler rest =>
      cases handler with
      | scheduler =>
        cases hothers (event, .scheduler :: rest) List.mem_cons_self _ List.mem_cons_self
      | _ => rfl
  | _ => rfl

/-- Once it is called, a handler is no longer among those to be called. -/
theorem call_deliveries (w : World) (S : List Frame) (handler : Handler) (event : Tick.Event)
    (rest : List Handler) (count : Nat) :
    (call w S handler event rest count).deliveries =
      (event, rest) :: S.filterMap Frame.delivery? := by
  cases handler <;> rfl

end Machine

/-- A pass begins where the focus is on it, and nowhere else. -/
theorem Beat.Valid.drains_eq_zero {b : Beat} (hb : b.Valid) (hpassing : b.before.focus ≠ .passing) :
    drains b.events = 0 := by
  refine List.countP_eq_zero.mpr fun e he hdrain => ?_
  obtain rfl : e = .drained := by cases e <;> first | rfl | cases hdrain
  obtain ⟨errand, herrand, hposts⟩ := hb.errand_of_mem he rfl
  obtain rfl : errand = .beginPass := by cases errand <;> first | rfl | cases hposts
  exact hpassing ((Machine.focus_of_errand herrand).1 rfl)

theorem serverEnds_delivered (event : Tick.Event) :
    serverEnds [.delivered event] = event.isServerEnd.toNat := by
  cases h : event.isServerEnd <;> simp [serverEnds, Event.isServerEnd, Event.deliveredTick?, h]

namespace Machine

/-- A move after which the scheduler is in no delivery, and that delivers no end of a server tick,
leaves no pass owed. -/
theorem Attended.quiet {b : Beat} (hserver : serverEnds b.events = 0)
    (hpassing : b.after.focus ≠ .passing)
    (hothers : ∀ d ∈ b.after.deliveries, WithoutScheduler d.2) :
    b.after.Attended ∧ serverEnds b.events = b.after.owesPass.toNat := by
  refine ⟨.elsewhere hpassing hothers, ?_⟩
  rw [hserver, owesPass_eq_false hpassing hothers]
  rfl

/-- A delivery that begins has the scheduler to call for the end of a server tick, and for no other
event. -/
theorem Attended.begin {b : Beat} {event : Tick.Event}
    (hwired : b.before.world.handlers.Wired)
    (hothers : ∀ d ∈ b.before.stack.filterMap Frame.delivery?, WithoutScheduler d.2)
    (hmachine : b.after = ⟨b.before.world, .handling event (b.before.world.targets event)
      (b.before.world.targets event).length, b.before.stack⟩)
    (hevents : b.events = [.delivered event]) :
    b.after.Attended ∧ serverEnds b.events = b.after.owesPass.toNat := by
  obtain ⟨others, hnone, htargets⟩ := hwired.targets event
  have htargets : b.before.world.targets event = _ := htargets
  cases hend : event.isServerEnd with
  | true =>
    rw [hmachine, htargets, hevents, serverEnds_delivered, hend]
    exact ⟨.delivered event others _ rfl hend (List.forall_mem_cons.mpr ⟨hnone, hothers⟩), rfl⟩
  | false =>
    refine quiet (by rw [hevents, serverEnds_delivered, hend]; rfl) (by simp [hmachine]) ?_
    rw [hmachine, htargets, hend]
    exact List.forall_mem_cons.mpr ⟨hnone, hothers⟩

/-- Where the scheduler is not in any delivery, a move owes a pass just if it delivers the end of a
server tick. -/
theorem Attended.move_elsewhere {b : Beat} (hb : b.Valid) (huses : b.UsesProxy)
    (hwired : b.before.world.handlers.Wired)
    (hothers : ∀ d ∈ b.before.deliveries, WithoutScheduler d.2) (h : b.before.Attended) :
    b.after.Attended ∧ serverEnds b.events = b.after.owesPass.toNat := by
  cases move_delivery hb with
  | elsewhere hfocus hdeliveries hpasses hevents =>
    exact quiet hevents.serverEnds_eq_zero (Focus.ne_passing (hpasses huses))
      (hdeliveries ▸ hothers)
  | began event hfocus hmachine hevents =>
    refine begin hwired ?_ hmachine hevents
    simpa [deliveries, hfocus, Focus.delivery?] using hothers
  | called event handler rest count hfocus hmachine hevents =>
    simp only at hmachine hevents
    have hhandler : handler.isScheduler = false :=
      hothers (event, handler :: rest) (by simp [deliveries, hfocus, Focus.delivery?]) _
        List.mem_cons_self
    refine quiet (by rw [hevents]; rfl) ?_ ?_
    · rw [hmachine]
      cases handler with
      | scheduler => cases hhandler
      | _ => exact Focus.ne_passing rfl
    · rw [hmachine, call_deliveries]
      exact h.rest hfocus
  | ended event count hfocus hmachine hevents =>
    simp only at hmachine hevents
    refine quiet (by rw [hevents]; rfl) (by simp [hmachine]) ?_
    rw [hmachine]
    intro d hd
    exact hothers d (List.mem_append_right _ hd)

/-- **A move keeps the scheduler attended to**, and every end of a server tick that it delivers is a
pass that it owes. -/
theorem Attended.move {b : Beat} (hb : b.Valid) (huses : b.UsesProxy)
    (hwired : b.before.world.handlers.Wired) (h : b.before.Attended) :
    b.after.Attended ∧
      serverEnds b.events + b.before.owesPass.toNat = drains b.events + b.after.owesPass.toNat := by
  have hrest := @h.rest
  cases h with
  | called event rest count S hfocus hstack hend hothers =>
    have hstep := step_of_move hb (by simp [isIdle, hfocus, Focus.isFinal]) (by simp [hfocus])
    simp only [step?, hfocus, Option.some.injEq] at hstep
    obtain ⟨hafter, hevents⟩ := Stepped.mk.inj hstep
    have hdeliveries : b.after.deliveries = b.before.deliveries := by
      simp [← hafter, deliveries, hfocus, Focus.delivery?]
    refine ⟨.elsewhere (by simp [← hafter]) (hdeliveries ▸ hothers), ?_⟩
    simp only [← hevents, ← hafter, owesPass, hfocus]
    rfl
  | delivered event rest count hfocus hend hothers =>
    cases move_delivery hb with
    | called event' handler rest' count' hfocus' hmachine hevents =>
      simp only at hmachine hevents
      obtain ⟨rfl, hsame, rfl⟩ := Focus.handling.inj (hfocus.symm.trans hfocus')
      obtain ⟨rfl, rfl⟩ := List.cons.inj hsame
      refine ⟨.called event rest count b.before.stack ?_ ?_ hend ?_, ?_⟩
      · rw [hmachine]; rfl
      · rw [hmachine]; rfl
      · rw [hmachine, call_deliveries]
        exact hrest hfocus
      · simp only [hevents, hmachine, owesPass, hfocus]
        rfl
    | elsewhere hfocus' => rw [hfocus] at hfocus'; cases hfocus'
    | began _ hfocus' | ended _ _ hfocus' => rw [hfocus] at hfocus'; cases hfocus'
  | elsewhere hpassing hothers =>
    rw [hb.drains_eq_zero hpassing, owesPass_eq_false hpassing hothers]
    obtain ⟨hattended, howes⟩ :=
      move_elsewhere hb huses hwired hothers (.elsewhere hpassing hothers)
    exact ⟨hattended, by rw [howes, Nat.zero_add]; rfl⟩

end Machine

/-- What is accepted is accepted while no pass is owed, and the move tells of no tick or pass. -/
theorem Beat.Valid.accepts {b : Beat} (hb : b.Valid) {h : Handle} {delay : Nat} {action : Action}
    (he : .accepted h delay action ∈ b.events) :
    b.before.owesPass = false ∧ serverEnds b.events = 0 ∧ drains b.events = 0 := by
  obtain ⟨errand, herrand, hposts⟩ := hb.errand_of_mem he rfl
  obtain ⟨c, hfocus⟩ :=
    (Machine.focus_of_errand herrand).2 (by cases errand <;> first | rfl | cases hposts)
  refine ⟨by rw [Machine.owesPass, hfocus], ?_, hb.drains_eq_zero (by simp [hfocus])⟩
  cases Machine.move_delivery hb with
  | elsewhere _ _ _ hevents => exact hevents.serverEnds_eq_zero
  | began _ hfocus' | called _ _ _ _ hfocus' | ended _ _ hfocus' =>
    rw [hfocus] at hfocus'
    cases hfocus'

/-- **Ticks and passes are in step**, now and whenever a task was accepted. -/
structure Machine.InStep (path : List Beat) (m : Machine) : Prop where
  wired : m.world.handlers.Wired
  attended : m.Attended
  passes : serverEnds (trace path) = drains (trace path) + m.owesPass.toNat
  accepted : ∀ {pre since h delay action}, trace path = pre ++ .accepted h delay action :: since →
    serverEnds pre = drains pre

theorem Run.inStep {w : World} (hw : w.handlers.Wired) {path : List Beat} {m : Machine}
    (hrun : Run (Machine.idle w) path m) (huses : ∀ b ∈ path, b.UsesProxy) : m.InStep path := by
  induction hrun with
  | nil => exact ⟨hw, .elsewhere (by simp [Machine.idle]) (List.forall_mem_nil _), rfl, by simp⟩
  | @snoc path _ _ b _ hb ih =>
    obtain ⟨rfl, hvalid, rfl⟩ := hb
    obtain ⟨hpath, hlast⟩ := List.forall_mem_append.mp huses
    have huse := List.forall_mem_singleton.mp hlast
    obtain ⟨hwired, hattended, hpasses, haccepted⟩ := ih hpath
    obtain ⟨hattended', hmove⟩ := hattended.move hvalid huse hwired
    refine ⟨hvalid.wired huse hwired, hattended', ?_, ?_⟩
    · simp only [trace_append, trace_cons, trace_nil, List.append_nil, serverEnds_append,
        drains_append]
      omega
    · intro pre since h delay action hsplit
      have hhere {before : List Event}
          (hevents : b.events = before ++ .accepted h delay action :: since) :
          serverEnds (trace path ++ before) = drains (trace path ++ before) := by
        have hmem : .accepted h delay action ∈ b.events := by simp [hevents]
        obtain ⟨howes, hserver, hdrains⟩ := hvalid.accepts hmem
        rw [hevents, serverEnds_append] at hserver
        rw [hevents, drains_append] at hdrains
        rw [howes] at hpasses
        rw [serverEnds_append, drains_append, hpasses]
        simp only [Bool.toNat_false]
        omega
      simp only [trace_append, trace_cons, trace_nil, List.append_nil] at hsplit
      rcases List.append_eq_append_iff.mp hsplit with
        ⟨before, rfl, hevents⟩ | ⟨after, htrace, hafter⟩
      · exact hhere hevents
      · cases after with
        | nil =>
          rw [List.append_nil] at htrace
          have hnow := @hhere [] hafter.symm
          rwa [List.append_nil, htrace] at hnow
        | cons e after =>
          obtain ⟨rfl, rfl⟩ := List.cons.inj hafter
          exact haccepted htrace

/-! ## 3. Deliveries and passes -/

/-- The beat begins a pass for the delivery of this event on this stack. -/
def Beat.OpensPass (S : List Frame) (event : Tick.Event) (b : Beat) : Prop :=
  b.before.focus = .passing ∧
    ∃ rest count, b.before.stack = .handling .scheduler event rest count :: S

/-- The scheduler gets into a delivery only when that begins. -/
theorem Beat.Valid.delivers {b : Beat} (hb : b.Valid) (h : b.before.Attended) {event : Tick.Event}
    {rest : List Handler} {count : Nat}
    (hafter : b.after.focus = .handling event (.scheduler :: rest) count) :
    b.before.focus = .dispatching event ∧ b.after.stack = b.before.stack := by
  have hmem : (event, .scheduler :: rest) ∈ b.after.deliveries := by
    simp [Machine.deliveries, hafter, Focus.delivery?]
  cases Machine.move_delivery hb with
  | elsewhere hfocus hdeliveries =>
    simp only at hdeliveries
    rw [hdeliveries] at hmem
    cases h with
    | elsewhere _ hothers | called _ _ _ _ _ _ _ hothers =>
      cases hothers _ hmem _ List.mem_cons_self
    | delivered _ _ _ hfocus' => rw [hfocus'] at hfocus; cases hfocus
  | called event' handler rest' count' hfocus hmachine =>
    simp only at hmachine
    rw [hmachine, Machine.call_deliveries] at hmem
    cases h.rest hfocus _ hmem _ List.mem_cons_self
  | began event' hfocus hmachine =>
    simp only at hmachine
    rw [hmachine] at hafter
    obtain ⟨rfl, -, -⟩ := Focus.handling.inj hafter
    exact ⟨hfocus, by rw [hmachine]⟩
  | ended _ _ _ hmachine =>
    simp only at hmachine
    rw [hmachine] at hafter
    cases hafter

/-- **No pass begins but for the end of a server tick**, in the second move after the delivery
began. -/
theorem Run.opened {w : World} (hw : w.handlers.Wired) {p : List Beat} {m : Machine}
    (hrun : Run (Machine.idle w) p m) (huses : ∀ b ∈ p, b.UsesProxy) (hm : m.focus = .passing) :
    ∃ p' b c event rest count, p = p' ++ [b, c] ∧ b.before.focus = .dispatching event ∧
      event.isServerEnd = true ∧
      m.stack = .handling .scheduler event rest count :: b.before.stack := by
  -- the scheduler was called
  rcases hrun.unsnoc with ⟨-, rfl⟩ | ⟨p, c, rfl, hp, hvalid, rfl⟩
  · cases hm
  obtain ⟨hp', hlast⟩ := List.forall_mem_append.mp huses
  have hcalled : ∃ event rest count, c.before.focus = .handling event (.scheduler :: rest) count ∧
      c.after.stack = .handling .scheduler event rest count :: c.before.stack := by
    cases Machine.move_delivery hvalid with
    | elsewhere _ _ hpasses =>
      exact absurd hm (Focus.ne_passing (hpasses (hlast c List.mem_cons_self)))
    | called event handler rest count hfocus hmachine =>
      simp only at hmachine
      rw [hmachine] at hm ⊢
      cases handler with
      | scheduler => exact ⟨event, rest, count, hfocus, rfl⟩
      | _ => cases hm
    | began _ _ hmachine | ended _ _ _ hmachine =>
      simp only at hmachine
      rw [hmachine] at hm
      cases hm
  obtain ⟨event, rest, count, hfocus, hstack⟩ := hcalled
  -- because a tick was delivered
  have hend := (Run.inStep hw hp hp').attended.serverEnd hfocus
  rcases hp.unsnoc with ⟨-, hnone⟩ | ⟨p, b, rfl, hp, hvalid', hafter⟩
  · rw [← hnone] at hfocus
    cases hfocus
  have hattended := (Run.inStep hw hp (List.forall_mem_append.mp hp').1).attended
  rw [← hafter] at hfocus
  obtain ⟨hdispatching, hsame⟩ := hvalid'.delivers hattended hfocus
  refine ⟨p, b, c, event, rest, count, by simp, hdispatching, hend, ?_⟩
  rw [hstack, ← hafter, hsame]

/-- **How far a delivery on `S` is whose scheduler is not to be called any more**: it goes on with
its handlers, waits for one of them, or is over. -/
inductive Machine.Delivering (S : List Frame) (event : Tick.Event) (m : Machine) : Prop
  | calling (rest : List Handler) (count : Nat) (hfocus : m.focus = .handling event rest count)
      (hstack : m.stack = S) (hrest : WithoutScheduler rest)
  | inside (above : List Frame) (handler : Handler) (rest : List Handler) (count : Nat)
      (hstack : m.stack = above ++ .handling handler event rest count :: S)
      (hrest : WithoutScheduler rest) (hpassing : above = [] → m.focus ≠ .passing)
  | finished (hback : m.BackAt S)

open Machine in
theorem Machine.Delivering.move {S : List Frame} {event : Tick.Event} {b : Beat} (hb : b.Valid)
    (huses : b.UsesProxy) (hback : ¬ b.before.BackAt S) (h : b.before.Delivering S event) :
    b.after.Delivering S event ∧ ¬ b.OpensPass S event := by
  cases h with
  | finished h => exact absurd h hback
  | calling rest count hfocus hstack hrest =>
    refine ⟨?_, fun hopens => by rw [hopens.1] at hfocus; cases hfocus⟩
    cases move_delivery hb with
    | elsewhere hfocus' => rw [hfocus] at hfocus'; cases hfocus'
    | began _ hfocus' => rw [hfocus] at hfocus'; cases hfocus'
    | called event' handler rest' count' hfocus' hmachine =>
      simp only at hmachine
      obtain ⟨rfl, rfl, rfl⟩ := Focus.handling.inj (hfocus.symm.trans hfocus')
      obtain ⟨hhandler, hothers⟩ := List.forall_mem_cons.mp hrest
      rw [hmachine, hstack]
      cases handler with
      | scheduler => cases hhandler
      | script => exact .inside [] _ _ _ rfl hothers nofun
      | _ => exact .calling _ _ rfl rfl hothers
    | ended event' count' hfocus' hmachine =>
      simp only at hmachine
      exact .finished (by rw [hmachine]; exact ⟨hstack, rfl⟩)
  | inside above handler rest count hstack hrest hpassing =>
    constructor
    · rcases move_under hb hstack with ⟨above', hstack'⟩ | ⟨r, -, hs⟩ | ⟨outcome, -, hs⟩
      · refine .inside above' handler rest count hstack' hrest ?_
        rintro rfl hfocus
        cases move_delivery hb with
        | elsewhere _ _ hpasses => exact absurd hfocus (Focus.ne_passing (hpasses huses))
        | called event' handler' rest' count' hfocus' hmachine =>
          simp only at hmachine hstack'
          rw [hmachine] at hfocus hstack'
          cases handler' with
          | scheduler =>
            -- the scheduler is called for a delivery further up
            have hheight := congrArg List.length hstack'
            simp only [call, hstack, List.length_cons, List.length_append, List.nil_append]
              at hheight
            omega
          | _ => cases hfocus
        | began _ _ hmachine | ended _ _ _ hmachine =>
          simp only at hmachine
          rw [hmachine] at hfocus
          cases hfocus
      · have hafter : b.after = _ := congrArg Stepped.machine hs
        exact hafter ▸ .calling rest count rfl rfl hrest
      · have hafter : b.after = _ := congrArg Stepped.machine hs
        exact hafter ▸ .calling rest count rfl rfl hrest
    · rintro ⟨hfocus, rest', count', hstack'⟩
      cases above with
      | nil => exact hpassing rfl hfocus
      | cons f above =>
        have hheight := congrArg List.length (hstack.symm.trans hstack')
        simp only [List.length_cons, List.length_append] at hheight
        omega

/-- From then on such a delivery begins no pass. -/
theorem Machine.Delivering.call {S : List Frame} {event : Tick.Event} {m n : Machine}
    {path : List Beat} (h : m.Delivering S event) (hcall : Call S m path n)
    (huses : ∀ b ∈ path, b.UsesProxy) : ∀ b ∈ path, ¬ b.OpensPass S event :=
  (hcall.invariant h fun b hb hvalid hback hb' => hb'.move hvalid (huses b hb) hback).2

variable {k n : Machine} {event : Tick.Event} {call : List Beat}

/-- **Other deliveries begin no pass.** -/
theorem Call.opens_none (hk : k.focus = .dispatching event) (hwired : k.world.handlers.Wired)
    (hend : event.isServerEnd = false) (hcall : Call k.stack k call n)
    (huses : ∀ b ∈ call, b.UsesProxy) : ∀ b ∈ call, ¬ b.OpensPass k.stack event := by
  obtain ⟨w, focus, S⟩ := k
  obtain rfl : focus = .dispatching event := hk
  obtain ⟨others, hothers, htargets⟩ := hwired.targets event
  rw [hend] at htargets
  cases call with
  | nil => simp
  | cons b rest =>
    obtain ⟨hbefore, hstep, hrest⟩ := hcall.goes_on rfl rfl
    obtain ⟨hafter, -⟩ := Stepped.mk.inj (Option.some.inj hstep)
    have hdelivering : b.after.Delivering S event := by
      rw [← hafter]
      refine .calling _ _ rfl rfl ?_
      rw [World.targets, htargets]
      exact hothers
    refine List.forall_mem_cons.mpr ⟨?_, ?_⟩
    · rintro ⟨hfocus, -⟩
      rw [hbefore] at hfocus
      cases hfocus
    · exact hdelivering.call hrest fun b' hb' => huses b' (List.mem_cons_of_mem _ hb')

/-- The first moves of a delivery that begins a pass. -/
structure Machine.Opening (k : Machine) (event : Tick.Event) (b c d : Beat) : Prop where
  /-- The tick is delivered. -/
  delivered : b.events = [.delivered event]
  /-- The scheduler is the first handler to be called. -/
  called : c.events = [.handled .scheduler event]
  /-- It begins a pass for this delivery. -/
  begins : d.OpensPass k.stack event
  /-- The pass takes what is due. -/
  drained : d.events = World.holding .queue [.drained]
  /-- It goes on to fire that. -/
  firing : d.after.focus = .firing k.world.scheduler.due 0

/-- **The end of a server tick begins a pass**, before any other handler is called, and no other
pass: unless it gets no further, its delivery begins with these three moves. -/
theorem Call.opens (hk : k.focus = .dispatching event) (hwired : k.world.handlers.Wired)
    (hend : event.isServerEnd = true) (hcall : Call k.stack k call n)
    (huses : ∀ b ∈ call, b.UsesProxy) :
    call.length < 3 ∧ n.focus.isFinal = false ∨
    ∃ b c d rest, call = b :: c :: d :: rest ∧ k.Opening event b c d ∧
      Call k.stack d.after rest n ∧ ∀ b' ∈ rest, ¬ b'.OpensPass k.stack event := by
  obtain ⟨w, focus, S⟩ := k
  obtain rfl : focus = .dispatching event := hk
  obtain ⟨others, hothers, htargets⟩ := hwired.targets event
  rw [hend] at htargets
  cases call with
  | nil => exact Or.inl ⟨by simp, by rw [← hcall.run.eq_of_nil]; rfl⟩
  | cons b call =>
    obtain ⟨hb, hstep, hcall⟩ := hcall.goes_on rfl rfl
    obtain ⟨hafter, hdelivered⟩ := Stepped.mk.inj (Option.some.inj hstep)
    simp only [World.targets, htargets, if_true, List.singleton_append] at hafter
    rw [← hafter] at hcall
    cases call with
    | nil => exact Or.inl ⟨by simp, by rw [← hcall.run.eq_of_nil]; rfl⟩
    | cons c call =>
      obtain ⟨hc, hstep, hcall⟩ := hcall.goes_on rfl rfl
      obtain ⟨hafter, hcalled⟩ := Stepped.mk.inj (Option.some.inj hstep)
      rw [← hafter] at hcall
      cases call with
      | nil => exact Or.inl ⟨by simp, by rw [← hcall.run.eq_of_nil]; rfl⟩
      | cons d rest =>
        obtain ⟨hd, hstep, hcall⟩ := hcall.goes_on rfl rfl
        obtain ⟨hafter, hdrained⟩ := Stepped.mk.inj (Option.some.inj hstep)
        have hbegun : d.OpensPass S event := by
          rw [Beat.OpensPass, hd]
          exact ⟨rfl, others, _, rfl⟩
        refine Or.inr ⟨b, c, d, rest, rfl, ?_, hcall, ?_⟩
        · exact ⟨hdelivered.symm, hcalled.symm, hbegun, hdrained.symm, by rw [← hafter]; rfl⟩
        · refine Machine.Delivering.call
            (.inside [] .scheduler others (others.length + 1) ?_ hothers ?_) hcall
            fun b' hb' => huses b' (by simp [hb'])
          · rw [← hafter]; rfl
          · rw [← hafter]; exact nofun

end TickHost
