import Mathlib.Algebra.GroupWithZero.Nat
import Mathlib.Data.List.Basic
import TickHost.Proofs.Attendance
import TickHost.Proofs.Rounds

/-!
# Registrations and deliveries

The table of handlers is the history of registrations and nothing else: for each kind of tick it
has every handler as often as that kind stands among the kinds of the handler, in the order of
registration.  A delivery takes its handlers from the table when it begins, so whom it calls is told
by the registrations up to that moment.

* `HandlerTable.entries_ofHistory`: the entries for a kind, and so their number.
* `Handler.callsFor`: the calls that a registered handler gets from a delivery.
* `run_handlers`: handlers are registered in a run by the commands for it, and stay.

A delivery is a round of calls (`TickHost.Proofs.Rounds`), so handlers that are registered while it
is under way wait for the next one, and panics do not stop it.
-/

namespace TickHost

/-! ## 1. The table and its history -/

namespace HandlerTable

/-- The table that these registrations make, one after the other. -/
def ofHistory (handlers : List Handler) : HandlerTable Handler :=
  handlers.foldl (fun t handler => t.register handler handler.kinds) {}

theorem ofHistory_snoc (handlers : List Handler) (handler : Handler) :
    ofHistory (handlers ++ [handler]) = (ofHistory handlers).register handler handler.kinds := by
  rw [ofHistory, List.foldl_append]
  rfl

/-- **What a table holds**: a handler for every occurrence of the kind among its kinds. -/
theorem entries_ofHistory (handlers : List Handler) (kind : Tick.Kind) :
    (ofHistory handlers).entries kind =
      handlers.flatMap fun handler => List.replicate (handler.kinds.count kind) handler := by
  induction handlers using List.reverseRecOn with
  | nil => cases kind <;> rfl
  | append_singleton handlers handler ih =>
    rw [ofHistory_snoc, entries_register, ih, List.flatMap_append, List.flatMap_singleton]

/-- The number of entries counts all occurrences of a kind. -/
theorem count_ofHistory (handlers : List Handler) (kind : Tick.Kind) :
    (ofHistory handlers).count kind = (handlers.map (·.kinds.count kind)).sum := by
  rw [count, entries_ofHistory, List.length_flatMap]
  simp only [List.length_replicate]

end HandlerTable

/-- The calls that a registered handler gets from the delivery of an event: one for every occurrence
of the kind among its kinds, if it is for the phase. -/
def Handler.callsFor (event : Tick.Event) (handler : Handler) : List Event :=
  if handler.accepts event.phase then
    List.replicate (handler.kinds.count event.kind) (.handled handler event)
  else []

/-- The calls of a delivery to handlers that were registered in this order. -/
def deliveryCalls (handlers : List Handler) (event : Tick.Event) : List Event :=
  handlers.flatMap (Handler.callsFor event)

/-- A delivery calls handlers, and calls them for its event. -/
theorem handled_of_mem {handlers : List Handler} {event : Tick.Event} {e : Event}
    (h : e ∈ deliveryCalls handlers event) : ∃ handler, e = .handled handler event := by
  obtain ⟨handler, -, he⟩ := List.mem_flatMap.mp h
  rw [Handler.callsFor] at he
  split at he
  · exact ⟨handler, (List.mem_replicate.mp he).2⟩
  · cases he

/-- Whom a delivery calls is told by the history of the table. -/
theorem HandlerTable.map_targets_ofHistory (handlers : List Handler) (event : Tick.Event) :
    ((ofHistory handlers).targets Handler.accepts event).map (.handled · event) =
      deliveryCalls handlers event := by
  rw [targets, entries_ofHistory, List.filter_flatMap, List.map_flatMap, deliveryCalls]
  congr 1
  funext handler
  rw [List.filter_replicate, Handler.callsFor]
  split
  · exact List.map_replicate
  · rfl

/-! ## 2. Registrations in a run -/

/-- The handlers registered in a run, in order. -/
def registered (path : List Beat) : List Handler := path.filterMap (·.before.registers?)

theorem registered_append (p q : List Beat) : registered (p ++ q) = registered p ++ registered q :=
  List.filterMap_append

/-- **The table tells the registrations so far**, those made before the run included. -/
theorem run_handlers {k m : Machine} {path : List Beat} {handlers : List Handler}
    (hk : k.world.handlers = .ofHistory handlers) (hrun : Run k path m) :
    m.world.handlers = .ofHistory (handlers ++ registered path) := by
  induction hrun with
  | nil => rw [hk, registered, List.filterMap_nil, List.append_nil]
  | @snoc path _ _ b _ hb ih =>
    obtain ⟨rfl, hvalid, rfl⟩ := hb
    have hstep : b.after.world.handlers = _ := (Machine.move_wiring hvalid).handlers
    rw [hstep, ih, registered_append, ← List.append_assoc]
    cases hregisters : b.before.registers? with
    | none =>
      have hnone : registered [b] = [] := List.filterMap_cons_none hregisters
      rw [hnone, List.append_nil]
    | some handler =>
      have hone : registered [b] = [handler] := List.filterMap_cons_some hregisters
      rw [hone, HandlerTable.ofHistory_snoc]

/-- A handler that was registered gets its calls from every delivery that begins later. -/
theorem callsFor_infix {handlers : List Handler} {p q : List Beat} {b : Beat} {handler : Handler}
    (h : b.before.registers? = some handler) (event : Tick.Event) :
    handler.callsFor event <:+: deliveryCalls (handlers ++ registered (p ++ b :: q)) event := by
  have hlater : registered (b :: q) = handler :: registered q := List.filterMap_cons_some h
  have hsplit : registered (p ++ b :: q) = registered p ++ handler :: registered q := by
    rw [registered_append, hlater]
  rw [hsplit, ← List.append_assoc]
  refine ⟨deliveryCalls (handlers ++ registered p) event, deliveryCalls (registered q) event, ?_⟩
  simp only [deliveryCalls, List.flatMap_append, List.flatMap_cons, List.append_assoc]

/-! ## 3. Deliveries -/

/-- **Whom a delivery calls.**  A world begins with the handlers of some history, and a run leads to
any moment of any use that is made of it.

* The number of handlers for a kind is that of its occurrences in all registrations so far.
* A delivery that begins at that moment calls every handler registered by then whose phases allow
  it, once for every occurrence of the kind, in the order of registration, and nobody else.  When it
  is over it has called all of them and answers how many there were, and until then it goes on.
* The handler that runs right above the delivery is the one called last.
* Every handler that the run has registered, wherever it did, gets its calls. -/
theorem dispatch_of_run {w : World} {handlers : List Handler}
    (hw : w.handlers = .ofHistory handlers) {path : List Beat} {k : Machine}
    (hrun : Run (Machine.idle w) path k) :
    (∀ kind, (Machine.perform k.world k.stack (.handlerCount kind)).machine.focus =
      .reply (.count ((handlers ++ registered path).map (·.kinds.count kind)).sum)) ∧
    ∀ (event : Tick.Event) (call : List Beat) (n : Machine),
      k.focus = .dispatching event → Call k.stack k call n →
      callsAt k.stack.length call <+: deliveryCalls (handlers ++ registered path) event ∧
      (n.BackAt k.stack →
        callsAt k.stack.length call = deliveryCalls (handlers ++ registered path) event ∧
        n.focus = .reply (.count (callsAt k.stack.length call).length)) ∧
      (¬ n.BackAt k.stack → n.step?.isSome) ∧
      (∀ above frame, n.stack = above ++ frame :: k.stack → ∃ handler rest count earlier,
        frame = .handling handler event rest count ∧
        callsAt k.stack.length call = earlier ++ [.handled handler event]) ∧
      ∀ (p q : List Beat) (b : Beat) (handler : Handler),
        path = p ++ b :: q → b.before.registers? = some handler →
        handler.callsFor event <:+: deliveryCalls (handlers ++ registered path) event := by
  have hhandlers := run_handlers (k := Machine.idle w) hw hrun
  refine ⟨fun kind => ?_, ?_⟩
  · change Focus.reply (.count (k.world.handlers.count kind)) = _
    rw [hhandlers, HandlerTable.count_ofHistory]
  · intro event call n hk hcall
    have hround : k.round? = some ⟨deliveryCalls (handlers ++ registered path) event,
        .count (deliveryCalls (handlers ++ registered path) event).length⟩ := by
      rw [Machine.round?, hk, ← HandlerTable.map_targets_ofHistory, List.length_map, ← hhandlers]
      rfl
    refine ⟨hcall.round_calls hround, ?_, hcall.round_goes_on, ?_, ?_⟩
    · intro hback
      obtain ⟨hcalls, hreply⟩ := hcall.round_answers hround hback
      exact ⟨hcalls, hcalls ▸ hreply⟩
    · intro above frame hstack
      obtain ⟨done, rest, e, hcalls, hall, hcalled, hframe⟩ := hcall.round_frame hround hstack
      obtain ⟨handler, rfl⟩ := handled_of_mem (hall ▸ List.mem_append_right _ List.mem_cons_self)
      cases frame with
      | handling handler' event' targets count =>
        cases hcalled
        exact ⟨_, _, _, _, rfl, hcalls⟩
      | hooking => obtain ⟨_, -, hcalled⟩ := hcalled; cases hcalled
      | _ => cases hcalled
    · rintro p q b handler rfl hregisters
      exact callsFor_infix hregisters event

/-- A handler that panics, for two kinds of tick. -/
def echo : Handler := .script "echo" [.server, .world] [.start] [.panic .other]

/-- A handler that stands in the table twice.  It registers the other one, and delivers a tick that
the other one is for, too. -/
def lead : Handler :=
  .script "lead" [.server, .server] [.start]
    [.register "echo" [.server, .world] [.start] [.panic .other], .dispatch ⟨.world, .start, 7⟩]

/-- A delivery to these handlers is about to begin, and after so many steps. -/
def chorus (steps : Nat) : List Beat × Machine :=
  (Machine.idle (World.parts 5 5)).played <|
    [.command (.register "lead" [.server, .server] [.start]
        [.register "echo" [.server, .world] [.start] [.panic .other],
          .dispatch ⟨.world, .start, 7⟩]), .step,
      .command (.dispatch ⟨.server, .start, 1⟩), .step] ++ List.replicate steps .step

/-- The delivery calls `lead` twice and nobody else, though two more handlers are registered for its
event meanwhile.  The second delivery inside of it calls both, though the first of them panics. -/
theorem dispatch_of_chorus :
    (World.parts 5 5).handlers = .ofHistory [] ∧
    Run (Machine.idle (World.parts 5 5)) (chorus 0).1 (chorus 0).2 ∧
    Run (Machine.idle (World.parts 5 5)) (chorus 23).1 (chorus 23).2 ∧
    callsAt 0 ((chorus 0).2.played (List.replicate 39 .step)).1 =
      List.replicate 2 (.handled lead ⟨.server, .start, 1⟩) ∧
    callsAt 2 ((chorus 23).2.played (List.replicate 12 .step)).1 =
      List.replicate 2 (.handled echo ⟨.world, .start, 7⟩) ∧
    (Machine.perform (chorus 23).2.world (chorus 23).2.stack (.handlerCount .server)).machine.focus
      = .reply (.count 4) := by
  have hempty : (World.parts 5 5).handlers = .ofHistory [] := rfl
  have hrun (steps : Nat) : Run (Machine.idle (World.parts 5 5)) (chorus steps).1 (chorus steps).2 :=
    Machine.played_run _ _
  have houter : Call (chorus 0).2.stack (chorus 0).2
      ((chorus 0).2.played (List.replicate 39 .step)).1
      ((chorus 0).2.played (List.replicate 39 .step)).2 := .of_run (Machine.played_run _ _) (by decide)
  have hinner : Call (chorus 23).2.stack (chorus 23).2
      ((chorus 23).2.played (List.replicate 12 .step)).1
      ((chorus 23).2.played (List.replicate 12 .step)).2 := .of_run (Machine.played_run _ _) (by decide)
  obtain ⟨-, hfirst⟩ := dispatch_of_run hempty (hrun 0)
  obtain ⟨hcounts, hsecond⟩ := dispatch_of_run hempty (hrun 23)
  obtain ⟨-, hfirst, -⟩ := hfirst ⟨.server, .start, 1⟩ _ _ rfl houter
  obtain ⟨-, hsecond, -⟩ := hsecond ⟨.world, .start, 7⟩ _ _ rfl hinner
  exact ⟨hempty, hrun 0, hrun 23, (hfirst ⟨rfl, rfl⟩).1, (hsecond ⟨rfl, rfl⟩).1, hcounts .server⟩

end TickHost
