import Mathlib.Algebra.GroupWithZero.Nat
import Mathlib.Data.List.Basic
import TickHost.Proofs.Admission
import TickHost.Proofs.Balance
import TickHost.Proofs.Calls
import TickHost.Proofs.Steps.Running

/-!
# Actions that request themselves anew

A task that is to run again and again has its action request it anew.  The queue may have been full
before the pass, and other passes may be nested in this one; still there is room for every such
request, as long as no action makes more than one.

The reason is a sum that no move makes larger (`Beat.Valid.load_le`): the pending tasks, the tasks
that passes have taken and not fired yet, and one for every running action that has not made its
request.  A pass that begins moves tasks from the first part to the second, firing a task moves one
to the third, and a request moves one back to the first.  When the outermost pass begins, the sum is
the length of the queue and what passes around it have yet to fire; so an action that has its request
left finds the queue shorter than it may be.
-/

namespace TickHost

/-! ## 1. Requests of running actions -/

/-- How many tasks a move requests.  A batch requests those it gets and the one that is refused. -/
def Beat.asks (b : Beat) : Nat :=
  match b.before.errand? with
  | some (.request ..) => 1
  | some (.fill ..) =>
    match b.after.focus with
    | .reply (.filled accepted refusal) => accepted + refusal.isSome.toNat
    | _ => 0
  | _ => 0

/-- What a move makes of the numbers of requests that the running actions have made, the innermost
first.  A request is one of the innermost action. -/
def Beat.charge (b : Beat) (counts : List Nat) : List Nat :=
  match b.before.errand? with
  | some (.fire _) => 0 :: counts
  | some (.settle ..) => counts.tail
  | some (.request ..) | some (.fill ..) => counts.modifyHead (· + b.asks)
  | _ => counts

/-- How many requests each action has made that runs at the end of a call, the innermost first. -/
def asked (call : List Beat) : List Nat := call.foldl (fun counts b => b.charge counts) []

theorem asked_snoc (call : List Beat) (b : Beat) : asked (call ++ [b]) = b.charge (asked call) := by
  rw [asked, List.foldl_append]
  rfl

/-- No action makes more than one request while it runs. -/
def AsksOnce (call : List Beat) : Prop :=
  ∀ i ≤ call.length, ∀ count ∈ asked (call.take i), count ≤ 1

instance (call : List Beat) : Decidable (AsksOnce call) :=
  inferInstanceAs (Decidable (∀ i ≤ call.length, _))

theorem AsksOnce.init {p q : List Beat} (h : AsksOnce (p ++ q)) : AsksOnce p := by
  intro i hi
  have hall := h i (by rw [List.length_append]; omega)
  rwa [List.take_append_of_le_length hi] at hall

theorem AsksOnce.now {call : List Beat} (h : AsksOnce call) : ∀ count ∈ asked call, count ≤ 1 := by
  have hall := h call.length (Nat.le_refl _)
  rwa [List.take_length] at hall

/-- The numbers are those of the actions that run. -/
theorem Beat.length_charge (b : Beat) {counts : List Nat}
    (h : b.before.settling ≠ [] → counts ≠ []) :
    (b.charge counts).length + b.before.settling.length =
      counts.length + b.before.firing.length := by
  simp only [charge, Machine.settling, Machine.firing] at h ⊢
  cases herrand : b.before.errand? with
  | none => rfl
  | some errand =>
    cases errand with
    | fire task => rfl
    | settle task outcome =>
      rw [herrand] at h
      cases counts with
      | nil => exact absurd rfl (h (List.cons_ne_nil _ _))
      | cons count counts => rfl
    | request | fill => exact congrArg (· + 0) (List.length_modifyHead)
    | _ => rfl

/-- A move that is done with an action lets none run. -/
theorem Machine.firing_eq_nil {m : Machine} (h : m.settling ≠ []) : m.firing = [] := by
  simp only [settling, firing] at h ⊢
  cases herrand : m.errand? with
  | none => rfl
  | some errand =>
    rw [herrand] at h
    cases errand <;> first | rfl | exact absurd rfl h

/-! ## 2. The sum that does not grow -/

/-- How many running actions have not made their request. -/
def spare (counts : List Nat) : Nat := (counts.map (1 - ·)).sum

/-- How many tasks passes have taken and not fired yet. -/
def Machine.toFire (m : Machine) : Nat := (m.underway.map (·.1.length)).sum

/-- The pending tasks, those to be fired, and one for every request that is left. -/
def Machine.load (m : Machine) (counts : List Nat) : Nat :=
  m.world.scheduler.pending + m.toFire + spare counts

theorem spare_tail_le (counts : List Nat) : spare counts.tail ≤ spare counts := by
  cases counts with
  | nil => exact Nat.le_refl _
  | cons count counts => exact Nat.le_add_left _ _

/-- A request that is charged to an action takes at most what the action has left. -/
theorem spare_modifyHead {counts : List Nat} {n : Nat} (hne : counts ≠ [])
    (hone : ∀ count ∈ counts.modifyHead (· + n), count ≤ 1) :
    spare (counts.modifyHead (· + n)) + n = spare counts := by
  cases counts with
  | nil => exact absurd rfl hne
  | cons count counts =>
    have hle : count + n ≤ 1 := hone _ List.mem_cons_self
    simp only [List.modifyHead_cons, spare, List.map_cons, List.sum_cons]
    omega

section

variable {b : Beat}

theorem Beat.charge_of_request (hrequests : b.before.errand?.any Errand.requests = true)
    (counts : List Nat) : b.charge counts = counts.modifyHead (· + b.asks) := by
  rw [charge]
  cases herrand : b.before.errand? with
  | none => rw [herrand] at hrequests; cases hrequests
  | some errand =>
    rw [herrand] at hrequests
    cases errand <;> first | rfl | cases hrequests

/-- A move that requests tasks adds no more to the queue than it requests. -/
theorem Beat.Valid.pending_le_of_request (hb : b.Valid)
    (hrequests : b.before.errand?.any Errand.requests = true) :
    b.after.world.scheduler.pending ≤ b.before.world.scheduler.pending + b.asks ∧
      b.after.toFire = b.before.toFire := by
  cases Machine.move_scheduler hb with
  | requested delay action herrand hscheduler hunderway =>
    simp only at hscheduler hunderway
    rw [hscheduler, Machine.toFire, hunderway, asks, herrand]
    refine ⟨?_, rfl⟩
    rcases b.before.world.request_cases delay action with ⟨d, -, hrequest⟩ | ⟨refusal, hrequest⟩
    · rw [hrequest, Scheduler.pending, Scheduler.enqueue, List.length_append]
      exact Nat.le_refl _
    · rw [hrequest]
      exact Nat.le_succ _
  | filled n delay herrand hscheduler hunderway _ hreply =>
    simp only at hscheduler hunderway hreply
    rw [hscheduler, Machine.toFire, hunderway, asks, herrand, hreply]
    refine ⟨?_, rfl⟩
    obtain ⟨refusal, more, -, hfill⟩ := b.before.world.fill_cases n delay
    rw [hfill, Scheduler.pending, Scheduler.fill, List.length_append, Scheduler.batch,
      List.length_map, List.length_range, Scheduler.pending, ← Nat.add_assoc]
    exact Nat.le_add_right _ _
  | elsewhere herrand | cancelled _ herrand | discarded _ herrand | began herrand
  | fired _ _ _ _ herrand | settled _ _ herrand | ended _ _ herrand =>
    rw [herrand] at hrequests
    cases hrequests

/-- **No move makes the sum larger**, if no action makes a second request. -/
theorem Beat.Valid.load_le (hb : b.Valid) {counts : List Nat}
    (hasking : b.before.errand?.any Errand.requests = true → counts ≠ [])
    (hone : ∀ count ∈ b.charge counts, count ≤ 1) :
    b.after.load (b.charge counts) ≤ b.before.load counts := by
  cases hrequests : b.before.errand?.any Errand.requests with
  | true =>
    obtain ⟨hpending, htoFire⟩ := hb.pending_le_of_request hrequests
    rw [Beat.charge_of_request hrequests] at hone ⊢
    have hspare := spare_modifyHead (hasking hrequests) hone
    simp only [Machine.load, htoFire]
    omega
  | false =>
    simp only [Machine.load, Machine.toFire]
    cases Machine.move_scheduler hb with
    | requested _ _ herrand | filled _ _ herrand => rw [herrand] at hrequests; cases hrequests
    | elsewhere herrand hscheduler hunderway =>
      simp only at hscheduler hunderway
      refine Nat.le_of_eq ?_
      rw [hscheduler, hunderway, charge, herrand]
    | cancelled h herrand hscheduler hunderway =>
      simp only at hscheduler hunderway
      have hpending : (b.before.world.cancel h).world.scheduler.pending ≤
          b.before.world.scheduler.pending := by
        rw [World.cancel]
        split
        · exact List.length_eraseP_le
        · exact Nat.le_refl _
      rw [hscheduler, hunderway, charge, herrand]
      simp only
      omega
    | discarded _ herrand _ hscheduler hunderway =>
      simp only at hscheduler hunderway
      rw [hscheduler, hunderway, charge, herrand]
      simp only [Scheduler.pending, Scheduler.clear, List.length_nil]
      omega
    | began herrand hscheduler hunderway =>
      -- the tasks that the pass takes are those that leave the queue
      simp only at hscheduler hunderway
      have hsplit := b.before.world.scheduler.queue.length_eq_length_filter_add (·.isDue)
      rw [hscheduler, hunderway, charge, herrand]
      simp only [Scheduler.pending, Scheduler.drain, Scheduler.due, List.length_map, List.map_cons,
        List.sum_cons]
      omega
    | fired task due k passes herrand hscheduler hbefore hafter =>
      -- the task that is fired may be requested anew
      simp only at hscheduler hafter
      rw [hscheduler, hbefore, hafter, charge, herrand]
      simp only [spare, List.map_cons, List.sum_cons, List.length_cons]
      omega
    | settled task outcome herrand hscheduler hunderway =>
      simp only at hscheduler hunderway
      have htail := spare_tail_le counts
      rw [hscheduler, hunderway, charge, herrand]
      simp only
      omega
    | ended k passes herrand hscheduler hbefore hafter =>
      simp only at hscheduler hafter
      rw [hscheduler, hbefore, hafter, charge, herrand]
      simp only [Scheduler.pending, Scheduler.completePass, List.map_cons, List.sum_cons,
        List.length_nil]
      omega

/-- The room of the scheduler stays the same. -/
theorem Beat.Valid.maxPending_eq (hb : b.Valid) :
    b.after.world.scheduler.maxPending = b.before.world.scheduler.maxPending := by
  cases Machine.move_scheduler hb with
  | requested delay action _ hscheduler =>
    simp only at hscheduler
    rw [hscheduler]
    rcases b.before.world.request_cases delay action with ⟨d, -, hrequest⟩ | ⟨refusal, hrequest⟩
    · rw [hrequest]
      rfl
    · rw [hrequest]
  | filled n delay _ hscheduler =>
    simp only at hscheduler
    obtain ⟨_, _, -, hfill⟩ := b.before.world.fill_cases n delay
    rw [hscheduler, hfill]
    rfl
  | cancelled h _ hscheduler =>
    simp only at hscheduler
    rw [hscheduler, World.cancel]
    split <;> rfl
  | elsewhere _ hscheduler | discarded _ _ _ hscheduler | began _ hscheduler
  | fired _ _ _ _ _ hscheduler | settled _ _ _ hscheduler | ended _ _ _ hscheduler =>
    have hsame := congrArg Scheduler.maxPending hscheduler
    exact hsame

end

/-! ## 3. Passes -/

/-- **What a pass keeps**, begun at `k`: its frames stay, requests are charged to the actions that
run in it, and the sum is no larger than it was in the beginning. -/
structure InBudget (k : Machine) (path : List Beat) (m : Machine) : Prop where
  /-- What was under way when the pass began waits below it. -/
  above : ∃ above, m.stack = above ++ k.stack
  /-- The room is still the same. -/
  room : m.world.scheduler.maxPending = k.world.scheduler.maxPending
  /-- Every action that runs in the pass has a number of requests. -/
  runners : m.running.length = (asked path).length + k.running.length
  /-- The sum has not grown. -/
  load : m.load (asked path) ≤ k.load []

theorem InBudget.move {k : Machine} {path : List Beat} {b : Beat} (hb : b.Valid)
    (hback : ¬ b.before.BackAt k.stack)
    (hasking : b.before.errand?.any Errand.requests = true → asked path ≠ [])
    (honce : AsksOnce (path ++ [b])) (h : InBudget k path b.before) :
    InBudget k (path ++ [b]) b.after := by
  obtain ⟨above, hstack⟩ := h.above
  obtain ⟨above', hstack'⟩ := Machine.move_above hb hstack hback
  have hrunning := Machine.move_running hb
  simp only at hstack' hrunning
  have hlengths := congrArg List.length hrunning
  simp only [List.length_append] at hlengths
  have hbelow : k.running.length ≤ b.after.running.length := by
    rw [Machine.running, Machine.running, hstack', List.filterMap_append, List.length_append]
    exact Nat.le_add_left _ _
  have hrunners := h.runners
  -- an action that is over was one of this pass
  have hsettling : b.before.settling ≠ [] → asked path ≠ [] := by
    intro hne hnil
    have hpos := List.length_pos_iff.mpr hne
    have hfiring := Machine.firing_eq_nil hne
    rw [hfiring, List.length_nil] at hlengths
    rw [hnil, List.length_nil] at hrunners
    omega
  have hcharge := b.length_charge hsettling
  have hone := honce.now
  rw [asked_snoc] at hone
  refine ⟨⟨above', hstack'⟩, hb.maxPending_eq.trans h.room, ?_, ?_⟩
  · rw [asked_snoc]
    omega
  · rw [asked_snoc]
    exact Nat.le_trans (hb.load_le hasking hone) h.load

/-- Within a pass, whatever requests a task does so while an action runs. -/
theorem InBudget.asking {k : Machine} {path : List Beat} {m : Machine} (hk : k.focus = .passing)
    (hin : Machine.InPass k path m) (h : InBudget k path m)
    (hrequests : m.errand?.any Errand.requests = true) : asked path ≠ [] := by
  have hcommand : ∃ c, m.focus = .command c := by
    cases herrand : m.errand? with
    | none => rw [herrand] at hrequests; cases hrequests
    | some errand =>
      rw [herrand] at hrequests
      exact (Machine.focus_of_errand herrand).2 hrequests
  obtain ⟨c, hfocus⟩ := hcommand
  cases hin with
  | beginning hm => rw [hm, hk] at hfocus; cases hfocus
  | going due fired hfocus' => rw [hfocus'] at hfocus; cases hfocus
  | finished inner last fired _ _ _ hfocus' => rw [hfocus'] at hfocus; cases hfocus
  | inside above task due fired hstack =>
    have hrunning : m.running = above.filterMap Frame.running? ++ task :: k.running := by
      rw [Machine.running, hstack, List.filterMap_append]
      rfl
    have hrunners := h.runners
    rw [hrunning, List.length_append, List.length_cons] at hrunners
    intro hnil
    rw [hnil, List.length_nil] at hrunners
    omega

/-- A pass keeps to its budget as long as no action makes a second request. -/
theorem Call.inBudget {k n : Machine} {call : List Beat} (hk : k.focus = .passing)
    (hcall : Call k.stack k call n) (honce : AsksOnce call) :
    Machine.InPass k call n ∧ InBudget k call n := by
  have hkept : AsksOnce call → Machine.InPass k call n ∧ InBudget k call n := by
    refine hcall.keeps (P := fun path m => AsksOnce path → _ ∧ _) ?_ ?_
    · intro _
      refine ⟨.beginning rfl rfl, ⟨[], rfl⟩, rfl, ?_, Nat.le_refl _⟩
      exact (Nat.zero_add _).symm
    · intro p b hb hback hp honce
      obtain ⟨hin, hbudget⟩ := hp honce.init
      exact ⟨hin.move hk hb hback, hbudget.move hb hback (hbudget.asking hk hin) honce⟩
  exact hkept honce

/-! ## 4. Room for every request -/

/-- What passes around this one have yet to fire is still to be fired. -/
theorem InBudget.toFire_le {k : Machine} {path : List Beat} {m : Machine}
    (hk : k.focus = .passing) (h : InBudget k path m) : k.toFire ≤ m.toFire := by
  obtain ⟨inner, hm⟩ := Machine.underway_of_stack h.above
  have hk : k.underway = k.stack.filterMap Frame.pass? := by
    rw [Machine.underway, hk]
    rfl
  rw [Machine.toFire, Machine.toFire, hm, hk, List.map_append, List.sum_append]
  exact Nat.le_add_left _ _

/-- **An action that has not made its request finds room for it.** -/
theorem InBudget.has_room {k : Machine} {path : List Beat} {m : Machine} (hk : k.focus = .passing)
    (hfits : k.world.scheduler.pending ≤ k.world.scheduler.maxPending) (h : InBudget k path m)
    {counts : List Nat} (hasked : asked path = 0 :: counts) :
    m.world.scheduler.pending < m.world.scheduler.maxPending := by
  have htoFire := h.toFire_le hk
  have hroom := h.room
  have hload := h.load
  simp only [Machine.load, hasked, spare, List.map_cons, List.map_nil, List.sum_cons,
    List.sum_nil] at hload
  omega

/-- A scheduler that may get one task more refuses nothing for lack of room. -/
theorem Scheduler.vet_ne_full {α : Type} {s : Scheduler α} (h : s.pending < s.maxPending)
    (delay : Int) (n : Nat) : s.vet delay ≠ .error (.queueFull n) := by
  intro hvet
  cases delay with
  | negSucc d => cases hvet
  | ofNat d =>
    simp only [vet] at hvet
    split at hvet
    · cases hvet
    · split at hvet
      · omega
      · cases hvet

theorem Beat.Valid.filled_reply {b : Beat} (hb : b.Valid) {n : Nat} {delay : Int}
    (h : b.before.errand? = some (.fill n delay)) :
    b.after.focus = .reply (b.before.world.fill n delay).value := by
  cases Machine.move_scheduler hb with
  | filled _ _ herrand _ _ _ hreply =>
    rw [h] at herrand
    cases herrand
    exact hreply
  | elsewhere herrand | requested _ _ herrand | cancelled _ herrand | discarded _ herrand
  | began herrand | fired _ _ _ _ herrand | settled _ _ herrand | ended _ _ herrand =>
    rw [h] at herrand
    cases herrand

/-- A batch of which nothing was accepted is refused for lack of room only if there is none. -/
theorem World.fill_ne_full {w : World} (h : w.scheduler.pending < w.scheduler.maxPending)
    (n : Nat) (delay : Int) (pending : Nat) :
    (w.fill n delay).value ≠ .filled 0 (some (.queueFull pending)) := by
  intro hvalue
  have hnone : w.scheduler.capacityFor delay n = 0 := by
    obtain ⟨refusal, more, -, hfill⟩ := w.fill_cases n delay
    rw [hfill] at hvalue
    exact (Reply.filled.inj hvalue).1
  have hsame : w.scheduler.fill delay .idle n = w.scheduler := by
    rw [Scheduler.fill, hnone]
    simp only [Scheduler.batch, List.range_zero, List.map_nil, List.append_nil, Nat.add_zero]
  simp only [fill] at hvalue
  split at hvalue
  · split at hvalue
    · rename_i refusal hvet
      obtain ⟨-, hrefusal⟩ := Reply.filled.inj hvalue
      obtain rfl := Option.some.inj hrefusal
      rw [hsame] at hvet
      exact Scheduler.vet_ne_full h delay pending hvet
    · cases (Reply.filled.inj hvalue).2
  · cases (Reply.filled.inj hvalue).2

/-- The innermost action has not asked before, where a move makes a request. -/
theorem asked_of_ask {path : List Beat} {b : Beat} (honce : AsksOnce (path ++ [b]))
    (hasking : asked path ≠ []) (hrequests : b.before.errand?.any Errand.requests = true)
    (hasks : 0 < b.asks) : ∃ counts, asked path = 0 :: counts ∧ b.asks = 1 := by
  have hone := honce.now
  rw [asked_snoc, Beat.charge_of_request hrequests] at hone
  cases hcounts : asked path with
  | nil => exact absurd hcounts hasking
  | cons count counts =>
    rw [hcounts, List.modifyHead_cons] at hone
    have hle : count + b.asks ≤ 1 := hone _ List.mem_cons_self
    obtain rfl : count = 0 := by omega
    exact ⟨counts, rfl, by omega⟩

/-- **Whoever requests a task anew has room for it.**  A pass is about to begin whose scheduler has
no more tasks than it may have, and from there the run goes any way it likes, with other passes
inside of this one, as long as no action makes a second request while it runs.

* Whatever requests a task then does so while an action runs, and counts as a request of the
  innermost.
* No such request is refused for lack of room, be it for one task or for a batch, and one whose
  delay is neither negative nor too long is accepted. -/
theorem rearming_of_pass {k n : Machine} {call : List Beat} (hk : k.focus = .passing)
    (hfits : k.world.scheduler.pending ≤ k.world.scheduler.maxPending)
    (hcall : Call k.stack k call n) (honce : AsksOnce call) :
    ∀ (p q : List Beat) (b : Beat), call = p ++ b :: q →
      b.before.running.length = (asked p).length + k.running.length ∧
      (b.before.errand?.any Errand.requests = true → asked p ≠ []) ∧
      (∀ delay action, b.before.errand? = some (.request delay action) →
        (∀ pending, b.after.focus ≠ .reply (.refused (.queueFull pending))) ∧
        (0 ≤ delay → delay ≤ b.before.world.scheduler.maxDelay →
          b.after.focus = .reply (.accepted b.before.world.scheduler.nextHandle))) ∧
      ∀ tasks delay, b.before.errand? = some (.fill tasks delay) →
        ∀ accepted pending, b.after.focus ≠ .reply (.filled accepted (some (.queueFull pending))) := by
  rintro p q b rfl
  obtain ⟨hrun, hvalid, -⟩ := hcall.run.around
  have hp : Call k.stack k p b.before :=
    ⟨hrun, fun c hc => hcall.pending c (List.mem_append_left _ hc)⟩
  rw [List.append_cons] at honce
  obtain ⟨hin, hbudget⟩ := hp.inBudget hk honce.init.init
  have hasking := hbudget.asking hk hin
  refine ⟨hbudget.runners, hasking, ?_, ?_⟩
  · intro delay action herrand
    have hrequests : b.before.errand?.any Errand.requests = true := by rw [herrand]; rfl
    have hasks : b.asks = 1 := by rw [Beat.asks, herrand]
    obtain ⟨counts, hasked, -⟩ :=
      asked_of_ask honce.init (hasking hrequests) hrequests (by rw [hasks]; exact Nat.one_pos)
    have hroom := hbudget.has_room hk hfits hasked
    have hruling := World.request_value_iff b.before.world delay action (Nat.le_of_lt hroom)
    rw [hvalid.answered herrand]
    constructor
    · intro pending hreply
      have hvalue : (b.before.world.request delay action).value = .error (.queueFull pending) :=
        Reply.ofRequest_injective (Focus.reply.inj hreply)
      cases (hruling _).mp hvalue with
      | full d _ hfull => exact absurd hfull (Nat.ne_of_lt hroom)
    · intro hsign hlong
      obtain ⟨d, rfl⟩ := Int.eq_ofNat_of_zero_le hsign
      rw [(hruling _).mpr (.admitted d (Int.ofNat_le.mp hlong) hroom)]
      rfl
  · intro tasks delay herrand accepted pending hreply
    have hrequests : b.before.errand?.any Errand.requests = true := by rw [herrand]; rfl
    have hasks : b.asks = accepted + 1 := by rw [Beat.asks, herrand, hreply]; rfl
    obtain ⟨counts, hasked, hone⟩ :=
      asked_of_ask honce.init (hasking hrequests) hrequests (by rw [hasks]; exact Nat.succ_pos _)
    have hroom := hbudget.has_room hk hfits hasked
    obtain rfl : accepted = 0 := by omega
    have hvalue := (hvalid.filled_reply herrand).symm.trans hreply
    exact World.fill_ne_full hroom tasks delay pending (Focus.reply.inj hvalue)

/-- The queue is full, and a pass is about to begin that takes all tasks but the last.  The first
action requests a task and runs another pass, whose action requests one as well.  The second one
requests a task and panics, and the third one requests a batch of one and drops everything. -/
def reprise : Machine :=
  ((Machine.idle (World.parts 5 4)).played
    [.command (.schedule "first" none false .goOn
        [.schedule "inner" none false .goOn [.schedule "later" (some 2) false .goOn []],
          .runPass]), .step,
      .command (.schedule "second" none false .goOn
        [.schedule "anew" (some 5) false .goOn [], .panic .other]), .step,
      .command (.schedule "third" none false .goOn [.fill 1 3, .discard]), .step,
      .command (.schedule "waiting" (some 4) false .goOn []), .step,
      .command .runPass, .step]).2

/-- The whole pass. -/
def rehearsal : List Beat × Machine := reprise.played (List.replicate 36 .step)

/-- The request in the inner pass is accepted, and so is the batch, which fills the queue again. -/
theorem rearming_of_reprise :
    reprise.focus = .passing ∧ reprise.world.scheduler.pending = 4 ∧
    reprise.world.scheduler.maxPending = 4 ∧
    Call reprise.stack reprise rehearsal.1 rehearsal.2 ∧ AsksOnce rehearsal.1 ∧
    (∃ b ∈ rehearsal.1, b.before.underway.length = 2 ∧
      (∃ action, b.before.errand? = some (.request 2 action)) ∧
      b.after.focus = .reply (.accepted b.before.world.scheduler.nextHandle)) ∧
    ∃ b ∈ rehearsal.1, b.before.errand? = some (.fill 1 3) ∧
      b.after.world.scheduler.pending = 4 ∧
      ∀ accepted pending, b.after.focus ≠ .reply (.filled accepted (some (.queueFull pending))) := by
  have hcall : Call reprise.stack reprise rehearsal.1 rehearsal.2 :=
    .of_run (Machine.played_run _ _) (by decide)
  have honce : AsksOnce rehearsal.1 := by decide
  have hroom := rearming_of_pass rfl (by decide) hcall honce
  have hsplit {i : Nat} (hi : i < rehearsal.1.length) :
      rehearsal.1 = rehearsal.1.take i ++ rehearsal.1[i] :: rehearsal.1.drop (i + 1) := by
    rw [← List.drop_eq_getElem_cons hi, List.take_append_drop]
  have hinner : 10 < rehearsal.1.length := by decide
  have hbatch : 28 < rehearsal.1.length := by decide
  obtain ⟨-, -, hrequest, -⟩ := hroom _ _ _ (hsplit hinner)
  obtain ⟨-, -, -, hfill⟩ := hroom _ _ _ (hsplit hbatch)
  refine ⟨rfl, by decide, by decide, hcall, honce, ?_, ?_⟩
  · have hlongest : rehearsal.1[10].before.world.scheduler.maxDelay = 5 := rfl
    exact ⟨_, List.getElem_mem hinner, rfl, ⟨_, rfl⟩,
      (hrequest 2 _ rfl).2 (by decide) (by rw [hlongest]; decide)⟩
  · exact ⟨_, List.getElem_mem hbatch, rfl, rfl, hfill 1 3 rfl⟩

end TickHost
