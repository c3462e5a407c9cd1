import Mathlib.Data.List.Basic
import TickHost.Proofs.Rounds
import TickHost.Proofs.Steps.Endings
import TickHost.Proofs.Steps.Listeners

/-!
# Whom a hook pass calls

The listeners stand in the order in which they were added, each as often as it was added, and none
is ever taken out.  A hook pass takes the whole list when it begins and calls it from the first to
the last, so whom it calls is told by the additions up to that moment.

* `run_listeners`: the list is the history of additions.
* `roll_split`: the call of a pass at an index is that of the listener at this position.
* `Beat.Valid.hook_of_failure`: a record of a failed hook is written about the hook that has just
  ended, with the index that its pass has called it by.

A hook pass is a round of calls (`TickHost.Proofs.Rounds`), so listeners that are added while it is
under way wait for the next one, and failures and panics do not stop it.
-/

namespace TickHost

/-! ## 1. The list and its history -/

/-- The listeners added in a run, in order. -/
def added (path : List Beat) : List Listener := path.flatMap (·.before.adds)

/-- **The list tells the additions so far**, after the listeners that there were before. -/
theorem run_listeners {k m : Machine} {path : List Beat} (hrun : Run k path m) :
    m.listeners = k.listeners ++ added path := by
  induction hrun with
  | nil => exact (List.append_nil _).symm
  | snoc _ hb ih =>
    obtain ⟨rfl, hvalid, rfl⟩ := hb
    have hstep : _ = _ := (Machine.move_listening hvalid).listeners
    rw [hstep, ih, added, added, List.flatMap_append, List.flatMap_singleton, List.append_assoc]

/-- At every moment of a run, the hooks that run are those of the listeners at their positions. -/
theorem run_atPost {w : World} {path : List Beat} {m : Machine}
    (hrun : Run (Machine.idle w) path m) : m.OnRoll ∧ m.AtPost := by
  induction hrun with
  | nil => exact ⟨List.forall_mem_nil _, List.forall_mem_nil _⟩
  | snoc _ hb ih =>
    obtain ⟨rfl, hvalid, rfl⟩ := hb
    obtain ⟨hroll, hposted⟩ := ih
    exact ⟨hroll.move hvalid, hposted.move hroll hvalid⟩

/-! ## 2. Positions -/

/-- The call of a pass after so many others is that of the listener at this position. -/
theorem roll_split {hook : Lifecycle.Hook} {index : Nat} {listeners : List Listener}
    {done rest : List Event} {e : Event} (h : done ++ e :: rest = roll hook index listeners) :
    ∃ listener, listeners[done.length]? = some listener ∧
      e = .called hook (index + done.length) listener ∧
      done ++ [e] = roll hook index (listeners.take (done.length + 1)) := by
  induction done generalizing index listeners with
  | nil =>
    cases listeners with
    | nil => cases h
    | cons listener listeners =>
      obtain ⟨rfl, -⟩ := List.cons.inj h
      exact ⟨listener, rfl, rfl, rfl⟩
  | cons d done ih =>
    cases listeners with
    | nil => cases h
    | cons first listeners =>
      obtain ⟨rfl, hrest⟩ := List.cons.inj h
      obtain ⟨listener, hat, he, hdone⟩ := ih hrest
      refine ⟨listener, hat, ?_, ?_⟩
      · rw [he, List.length_cons, Nat.add_assoc, Nat.add_comm 1]
      · rw [List.length_cons, List.take_succ_cons, roll_cons, ← hdone]
        rfl

/-! ## 3. Records of failures -/

/-- The failure of a hook that is recorded: the index that the record gives, and which hook. -/
def Event.hookFailure? : Event → Option (Nat × Lifecycle.Hook)
  | logged (.hookFailed index hook _) | logged (.hookPanicked index hook _) => some (index, hook)
  | _ => none

theorem Event.isError_of_hookFailure {e : Event} {failure : Nat × Lifecycle.Hook}
    (h : e.hookFailure? = some failure) : e.isError = true := by
  cases e with
  | logged record => cases record <;> first | rfl | cases h
  | _ => cases h

/-- Only a hook pass complains about a hook, and it names the index that it has called it by. -/
theorem Frame.hooking_of_complaint {frame : Frame} {outcome : Outcome} {e : Event} {index : Nat}
    {hook : Lifecycle.Hook} (h : e ∈ frame.release ++ frame.complaint outcome)
    (hfailure : e.hookFailure? = some (index, hook)) :
    ∃ body rest, frame = .hooking hook body index rest := by
  cases frame with
  | firing task due fired =>
    rcases List.mem_cons.mp h with rfl | h
    · cases hfailure
    · cases outcome with
      | panicked payload => obtain rfl := List.mem_singleton.mp h; cases hfailure
      | _ => cases h
  | handling handler event rest count =>
    cases outcome with
    | panicked payload => obtain rfl := List.mem_singleton.mp h; cases hfailure
    | _ => cases h
  | hooking hook' body index' rest =>
    refine ⟨body, rest, ?_⟩
    obtain ⟨script, failure⟩ := body
    cases outcome with
    | returned =>
      cases failure with
      | none => cases h
      | some failure =>
        obtain rfl := List.mem_singleton.mp h
        cases hfailure
        rfl
    | failed failure | panicked payload =>
      obtain rfl := List.mem_singleton.mp h
      cases hfailure
      rfl
  | _ => cases h

/-- **A record of a failed hook is about the hook that has just ended**, and has its index. -/
theorem Beat.Valid.hook_of_failure {b : Beat} (hb : b.Valid) {e : Event} {index : Nat}
    {hook : Lifecycle.Hook} (he : e ∈ b.events) (hfailure : e.hookFailure? = some (index, hook)) :
    ∃ body rest S outcome, b.before.focus = .ended outcome ∧
      b.before.stack = .hooking hook body index rest :: S ∧
      b.events = (Frame.hooking hook body index rest).complaint outcome := by
  cases hending : b.before.ending? with
  | none =>
    have hquiet := hb.quiet hending e he
    rw [Event.isError_of_hookFailure hfailure] at hquiet
    cases hquiet
  | some ending =>
    obtain ⟨frame, outcome⟩ := ending
    obtain ⟨hfocus, hstack, -⟩ := Machine.ending?_eq_some hending
    obtain ⟨-, hevents⟩ := hb.noted hending
    rw [hevents] at he
    obtain ⟨body, rest, rfl⟩ := Frame.hooking_of_complaint he hfailure
    exact ⟨body, rest, _, outcome, hfocus, hstack, hevents⟩

/-! ## 4. Hook passes -/

/-- **Whom a hook pass calls.**  At any moment of any run:

* the listeners are those there were before the run, and then those it has added, in order;
* a hook pass that begins at that moment calls every listener there is by then, each entry once and
  in order, for its hook and by its position, and nobody else.  When it is over it has called all of
  them, and until then it goes on;
* the hook that runs right above the pass is the one of the listener called last;
* a record of a failed hook, anywhere in the run, is about the hook that has just ended, and its
  index is the position of the listener whose hook that is. -/
theorem rollCall_of_run {w : World} {path : List Beat} {k : Machine}
    (hrun : Run (Machine.idle w) path k) :
    k.listeners = w.coordinator.listeners ++ added path ∧
    (∀ (event : Lifecycle.Event) (hook : Lifecycle.Hook) (call : List Beat) (n : Machine),
      k.focus = .moving event → (k.world.transition event).value = .hooks hook →
      Call k.stack k call n →
      callsAt k.stack.length call <+: roll hook 0 k.listeners ∧
      (n.BackAt k.stack →
        callsAt k.stack.length call = roll hook 0 k.listeners ∧ n.focus = .reply (.flag true)) ∧
      (¬ n.BackAt k.stack → n.step?.isSome) ∧
      ∀ above frame, n.stack = above ++ frame :: k.stack → ∃ body index rest listener,
        frame = .hooking hook body index rest ∧ k.listeners[index]? = some listener ∧
        listener.hook? hook = some body ∧
        callsAt k.stack.length call = roll hook 0 (k.listeners.take (index + 1))) ∧
    ∀ b ∈ path, ∀ e ∈ b.events, ∀ index hook, e.hookFailure? = some (index, hook) →
      ∃ body rest S outcome listener, b.before.focus = .ended outcome ∧
        b.before.stack = .hooking hook body index rest :: S ∧
        b.events = (Frame.hooking hook body index rest).complaint outcome ∧
        k.listeners[index]? = some listener ∧ listener.hook? hook = some body := by
  refine ⟨run_listeners hrun, ?_, ?_⟩
  · intro event hook call n hfocus hvalue hcall
    have hround : k.round? = some ⟨roll hook 0 k.listeners, .flag true⟩ := by
      simp only [Machine.round?, hfocus, hvalue]
    refine ⟨hcall.round_calls hround, hcall.round_answers hround, hcall.round_goes_on, ?_⟩
    intro above frame hstack
    obtain ⟨done, rest, e, hcalls, hall, hcalled, hframe⟩ := hcall.round_frame hround hstack
    obtain ⟨listener, hat, rfl, htake⟩ := roll_split hall
    cases frame with
    | hooking hook' body index targets =>
      obtain ⟨listener', hbody, he⟩ := hcalled
      obtain ⟨rfl, rfl, rfl⟩ := Event.called.inj he
      refine ⟨body, _, targets, listener, rfl, ?_, hbody, ?_⟩
      · rw [Nat.zero_add]
        exact hat
      · rw [Nat.zero_add, hcalls, htake]
    | _ => cases hcalled
  · intro b hb e he index hook hfailure
    obtain ⟨p, q, rfl⟩ := List.append_of_mem hb
    obtain ⟨hp, hvalid, hq⟩ := hrun.around
    obtain ⟨body, rest, S, outcome, hfocus, hstack, hevents⟩ := hvalid.hook_of_failure he hfailure
    have hcallee : ⟨hook, body, index⟩ ∈ b.before.callees := by
      rw [Machine.callees, hstack]
      exact List.mem_cons_self
    obtain ⟨listener, hat, hbody⟩ := (run_atPost hp).2 _ hcallee
    refine ⟨body, rest, S, outcome, listener, hfocus, hstack, hevents, ?_, hbody⟩
    have hgrown : k.listeners = b.before.listeners ++ added (b :: q) := by
      rw [run_listeners hrun, run_listeners hp, List.append_assoc, added, added,
        List.flatMap_append]
      rfl
    obtain ⟨hlt, -⟩ := List.getElem?_eq_some_iff.mp hat
    rw [hgrown, List.getElem?_append_left hlt, hat]

/-- A listener whose start hook adds another one twice and stops the session, and whose stop hook
fails. -/
def opener : Listener :=
  ⟨"first", .both, ⟨[.addListener "late" .both [] [] none none 2, .notifyStop], none⟩,
    ⟨[], some ⟨"torn", []⟩⟩⟩

/-- A listener for the start only, which panics. -/
def twin : Listener := ⟨"twin", .onStart, ⟨[.panic .other], none⟩, ⟨[], none⟩⟩

/-- A listener that does nothing. -/
def late : Listener := ⟨"late", .both, ⟨[], none⟩, ⟨[], none⟩⟩

/-- The first listener was added, and the second one twice.  The start pass is about to begin, and
after so many steps. -/
def reveille (steps : Nat) : List Beat × Machine :=
  (Machine.idle (World.parts 5 5)).played <|
    [.command (.addListener "first" .both
        [.addListener "late" .both [] [] none none 2, .notifyStop] [] none
          (some ⟨"torn", []⟩) 1), .step,
      .command (.addListener "twin" .onStart [.panic .other] [] none none 2), .step,
      .command .notifyStart, .step] ++ List.replicate steps .step

/-- The stop pass inside of the start pass calls two listeners more than that, for they were added
by then.  The last record is about the listener at position two. -/
theorem rollCall_of_reveille :
    Run (Machine.idle (World.parts 5 5)) (reveille 0).1 (reveille 0).2 ∧
    Run (Machine.idle (World.parts 5 5)) (reveille 7).1 (reveille 7).2 ∧
    Run (Machine.idle (World.parts 5 5)) (reveille 34).1 (reveille 34).2 ∧
    callsAt 0 ((reveille 0).2.played (List.replicate 34 .step)).1 =
      roll .start 0 [opener, twin, twin] ∧
    callsAt 2 ((reveille 7).2.played (List.replicate 13 .step)).1 =
      roll .stop 0 [opener, twin, twin, late, late] ∧
    (trace (reveille 34).1).filterMap Event.hookFailure? = [(0, .stop), (1, .start), (2, .start)] ∧
    ∃ listener body, (reveille 34).2.listeners[2]? = some listener ∧
      listener.hook? .start = some body := by
  have hrun (steps : Nat) :
      Run (Machine.idle (World.parts 5 5)) (reveille steps).1 (reveille steps).2 :=
    Machine.played_run _ _
  have houter : Call (reveille 0).2.stack (reveille 0).2
      ((reveille 0).2.played (List.replicate 34 .step)).1
      ((reveille 0).2.played (List.replicate 34 .step)).2 :=
    .of_run (Machine.played_run _ _) (by decide)
  have hinner : Call (reveille 7).2.stack (reveille 7).2
      ((reveille 7).2.played (List.replicate 13 .step)).1
      ((reveille 7).2.played (List.replicate 13 .step)).2 :=
    .of_run (Machine.played_run _ _) (by decide)
  obtain ⟨-, hfirst, -⟩ := rollCall_of_run (hrun 0)
  obtain ⟨-, hsecond, -⟩ := rollCall_of_run (hrun 7)
  obtain ⟨-, -, hrecords⟩ := rollCall_of_run (hrun 34)
  obtain ⟨-, hfirst, -⟩ := hfirst .started .start _ _ rfl rfl houter
  obtain ⟨-, hsecond, -⟩ := hsecond .stopping .stop _ _ rfl rfl hinner
  have hfailures : (trace (reveille 34).1).filterMap Event.hookFailure? =
      [(0, .stop), (1, .start), (2, .start)] := by decide
  have hmem : (2, .start) ∈ (trace (reveille 34).1).filterMap Event.hookFailure? := by
    rw [hfailures]
    decide
  obtain ⟨e, he, hfailure⟩ := List.mem_filterMap.mp hmem
  obtain ⟨b, hb, he⟩ := List.mem_flatMap.mp he
  obtain ⟨body, -, -, -, listener, -, -, -, hat, hbody⟩ := hrecords b hb e he 2 .start hfailure
  exact ⟨hrun 0, hrun 7, hrun 34, (hfirst ⟨rfl, rfl⟩).1, (hsecond ⟨rfl, rfl⟩).1, hfailures, listener,
    body, hat, hbody⟩

end TickHost
