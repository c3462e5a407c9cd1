import TickHost.Proofs.Docket

/-!
# Chains of tasks

An action may request the next task of its kind, with the delay that it had itself, and so on: a
chain.  Each link is accepted in the middle of a pass, and is counted down from the next pass on.
So no pass is counted twice and none is left out, and the links run at even distances, whatever
other tasks request, cancel or suffer in the same passes.

* `Chain` says of a trace that these tasks are the links of a chain, by their numbers in the docket.
* `Docket.Stage` is where a chain is between two links: the next one waits, or is due, or is about
  to be requested.  In each of these the pass that is to run it is known.
* `Docket.Progress.step`: every event takes a chain from one stage to the next or leaves it where it
  is; nothing else can happen to it.
-/

namespace TickHost

namespace Docket

/-! ## 1. Chains -/

/-- The action of a task is over. -/
def IsOver (d : Docket) (c : Nat) : Prop := d.HasRun c ∧ d.current? ≠ some c

instance (d : Docket) (c : Nat) : Decidable (d.IsOver c) := inferInstanceAs (Decidable (_ ∧ _))

/-- The action of the task `c` requests the task `c'`, with this delay, before it is over. -/
def Continues (d : Docket) (delay c c' : Nat) : Prop :=
  (c' < d.origins.length → d.origins[c']? = some ⟨delay, some c⟩) ∧
    (d.IsOver c → c' < d.origins.length)

instance (d : Docket) (delay c c' : Nat) : Decidable (d.Continues delay c c') :=
  inferInstanceAs (Decidable ((_ → _) ∧ (_ → _)))

/-- Each of the first `n` links but the last continues with the next one. -/
def Linked (d : Docket) (delay n : Nat) (link : Nat → Nat) : Prop :=
  ∀ k < n, k + 1 < n → d.Continues delay (link k) (link (k + 1))

instance (d : Docket) (delay n : Nat) (link : Nat → Nat) : Decidable (d.Linked delay n link) :=
  inferInstanceAs (Decidable (∀ k < n, _ → _))

end Docket

/-- **These tasks are a chain** of `n` links with this delay: at every moment so far the action of
each link has requested the next one, if it is over, and none was cancelled or discarded. -/
structure Chain (events : List Event) (delay n : Nat) (link : Nat → Nat) : Prop where
  linked : ∀ j ≤ events.length, (docket (events.take j)).Linked delay n link
  kept : ∀ k < n, link k ∉ (docket events).removed

namespace Docket

variable {d : Docket} {e : Event} {base delay n : Nat} {link : Nat → Nat} {k : Nat}

/-- **Where a chain is**, the first `k` links of which have run.  It goes on from there in pass
`base + (k + 1) * (delay + 1)`. -/
inductive Stage (d : Docket) (base delay n : Nat) (link : Nat → Nat) : Nat → Prop
  /-- The next link waits. -/
  | waiting {k : Nat} (hk : k < n) (slip : Slip) (hslip : slip ∈ d.pending)
      (hnumber : slip.number = link k) (hleft : slip.task.remaining ≤ delay)
      (htime : base + (k + 1) * (delay + 1) = d.begun + slip.task.remaining + 1) :
      Stage d base delay n link k
  /-- A pass has taken the next link. -/
  | due {k : Nat} (hk : k < n) (shift : Shift) (hshift : shift ∈ d.underway) (slip : Slip)
      (hslip : slip ∈ shift.due) (hnumber : slip.number = link k)
      (htime : base + (k + 1) * (delay + 1) = d.begun) : Stage d base delay n link k
  /-- The action of a link is running, and has not requested the next one. -/
  | running {k : Nat} (hk : k + 1 < n) (hcurrent : d.current? = some (link k))
      (hnew : d.origins.length ≤ link (k + 1))
      (htime : base + (k + 1) * (delay + 1) = d.begun) : Stage d base delay n link (k + 1)
  /-- No link is left. -/
  | done : Stage d base delay n link n

/-- The first `k` links have run, each in its pass, and the chain goes on from there. -/
structure Progress (d : Docket) (base delay n : Nat) (link : Nat → Nat) (k : Nat) : Prop where
  ran : ∀ j < k, ∃ firing ∈ d.ran,
    firing.slip.number = link j ∧ firing.pass = base + (j + 1) * (delay + 1)
  stage : d.Stage base delay n link k

/-- If a pass is under way, it is the latest, and no other one is. -/
def Alone (d : Docket) : Prop :=
  d.underway = [] ∨ ∃ shift, d.underway = [shift] ∧ shift.pass = d.begun

/-! ## 2. Events -/

theorem Alone.of_mem (h : d.Alone) {shift : Shift} (hshift : shift ∈ d.underway) :
    d.underway = [shift] ∧ shift.pass = d.begun := by
  rcases h with hnone | ⟨shift', hone, hpass⟩
  · rw [hnone] at hshift
    cases hshift
  · rw [hone] at hshift
    obtain rfl := List.mem_singleton.mp hshift
    exact ⟨hone, hpass⟩

/-- No pass is nested in another one if none begins while one is under way. -/
theorem Alone.step (h : d.Alone) (hapart : e = .drained → d.underway = []) :
    (d.after e).Alone := by
  cases e with
  | drained => exact Or.inr ⟨_, congrArg _ (hapart rfl), rfl⟩
  | fired =>
    rw [after]
    split
    · rename_i pass slip due current shifts hunderway
      obtain ⟨hone, hpass⟩ := h.of_mem (hunderway ▸ List.mem_cons_self)
      obtain ⟨-, rfl⟩ := List.cons.inj (hunderway.symm.trans hone)
      exact Or.inr ⟨_, rfl, hpass⟩
    · exact h
  | passEnded k =>
    rcases h with hnone | ⟨shift, hone, -⟩
    · exact Or.inl (congrArg List.tail hnone)
    · exact Or.inl (congrArg List.tail hone)
  | _ => exact h

/-- The task whose action is running has begun to run. -/
theorem Sound.hasRun_of_current (hd : d.Sound) {c : Nat} (hc : d.current? = some c) :
    d.HasRun c := by
  obtain ⟨shift, hshift, hlast⟩ := Option.bind_eq_some_iff.mp hc
  exact hd.current shift (List.mem_of_mem_head? hshift) c hlast

/-- A link that waits is left waiting, or a pass takes it. -/
theorem Stage.step_waiting (hallows : d.Allows e) (hk : k < n) {slip : Slip}
    (hslip : slip ∈ d.pending) (hnumber : slip.number = link k)
    (hleft : slip.task.remaining ≤ delay)
    (htime : base + (k + 1) * (delay + 1) = d.begun + slip.task.remaining + 1)
    (hkept : link k ∉ (d.after e).removed) : (d.after e).Stage base delay n link k := by
  cases hallows with
  | accepted => exact .waiting hk slip (List.mem_append_left _ hslip) hnumber hleft htime
  | drained =>
    cases hdue : slip.task.isDue with
    | true =>
      have hzero : slip.task.remaining = 0 := beq_iff_eq.mp hdue
      refine .due hk _ List.mem_cons_self slip (List.mem_filter.mpr ⟨hslip, hdue⟩) hnumber ?_
      rw [hzero] at htime
      exact htime
    | false =>
      have hpos : slip.task.remaining ≠ 0 := beq_eq_false_iff_ne.mp hdue
      refine .waiting hk slip.countDown (List.mem_map_of_mem (List.mem_filter.mpr ⟨hslip, ?_⟩))
        hnumber (Nat.le_trans (Nat.sub_le _ _) hleft) ?_
      · rw [hdue]
        rfl
      · have hless : slip.countDown.task.remaining + 1 = slip.task.remaining :=
          Nat.sub_add_cancel (Nat.pos_of_ne_zero hpos)
        simp only [after]
        omega
  | fired pass slip' due current shifts h =>
    simp only [after, h]
    exact .waiting hk slip hslip hnumber hleft htime
  | passEnded => exact .waiting hk slip hslip hnumber hleft htime
  | cancelled slip' before rest h hfirst =>
    rw [after_cancelled h hfirst] at hkept ⊢
    refine .waiting hk slip ?_ hnumber hleft htime
    rw [h] at hslip
    rcases List.mem_append.mp hslip with hmem | hmem
    · exact List.mem_append_left _ hmem
    · rcases List.mem_cons.mp hmem with rfl | hmem
      · exact absurd (hnumber ▸ List.mem_cons_self) hkept
      · exact List.mem_append_right _ hmem
  | discarded =>
    exact absurd (List.mem_append_left _ (hnumber ▸ List.mem_map_of_mem hslip)) hkept
  | other e h =>
    rw [after_of_not_posted h]
    exact .waiting hk slip hslip hnumber hleft htime

/-- A link that is due stays so until it runs. -/
theorem Stage.step_due (hd : d.Sound) (hallows : d.Allows e) (halone : d.Alone)
    (hapart : e = .drained → d.underway = []) (hlinked : d.Linked delay n link) (hk : k < n)
    {shift : Shift} (hshift : shift ∈ d.underway) {slip : Slip} (hslip : slip ∈ shift.due)
    (hnumber : slip.number = link k) (htime : base + (k + 1) * (delay + 1) = d.begun) :
    (d.after e).Stage base delay n link k ∨
      (d.after e).Stage base delay n link (k + 1) ∧
        (d.after e).ran = d.ran ++ [⟨slip, d.begun⟩] := by
  obtain ⟨hone, hpass⟩ := halone.of_mem hshift
  cases hallows with
  | drained => rw [hapart rfl] at hshift; cases hshift
  | passEnded _ _ _ _ h =>
    rw [hone] at h
    obtain ⟨rfl, -⟩ := List.cons.inj h
    cases hslip
  | fired pass slip' due current shifts h =>
    rw [hone] at h
    obtain ⟨rfl, rfl⟩ := List.cons.inj h
    rw [after_fired hone]
    rcases List.mem_cons.mp hslip with rfl | hslip'
    · obtain rfl : pass = d.begun := hpass
      refine Or.inr ⟨?_, rfl⟩
      rcases Nat.lt_or_eq_of_le (Nat.succ_le_of_lt hk) with hmore | hlast
      · refine .running hmore (congrArg some hnumber) (Nat.le_of_not_lt fun hold => ?_) htime
        -- if the next link were there already, this one would have run
        have horigin := (hlinked k hk hmore).1 hold
        have hparent := hd.parents _ (List.mem_of_getElem? horigin) _ rfl
        exact hd.not_hasRun_of_due hshift hslip (hnumber ▸ hparent)
      · rw [← hlast]
        exact .done
    · exact Or.inl (.due hk _ (List.mem_singleton_self _) slip hslip' hnumber htime)
  | accepted => exact Or.inl (.due hk shift hshift slip hslip hnumber htime)
  | cancelled | discarded => exact Or.inl (.due hk shift hshift slip hslip hnumber htime)
  | other e h =>
    rw [after_of_not_posted h]
    exact Or.inl (.due hk shift hshift slip hslip hnumber htime)

/-- While an action is to request the next link, it goes on running, or does so. -/
theorem Stage.step_running (hd : d.Sound) (hallows : d.Allows e) (halone : d.Alone)
    (hapart : e = .drained → d.underway = []) (hlinked : (d.after e).Linked delay n link)
    (hk : k + 1 < n) (hcurrent : d.current? = some (link k))
    (hnew : d.origins.length ≤ link (k + 1))
    (htime : base + (k + 1) * (delay + 1) = d.begun) :
    (d.after e).Stage base delay n link (k + 1) := by
  have hran := (hd.hasRun_of_current hcurrent).mono (d.ran_after e)
  obtain ⟨horigin, hover⟩ := hlinked k (Nat.lt_of_succ_lt hk) hk
  -- the action cannot end here, since the next link is not there
  have hstill (hother : (d.after e).current? ≠ some (link k))
      (hsame : (d.after e).origins = d.origins) : False := by
    have hthere := hover ⟨hran, hother⟩
    rw [hsame] at hthere
    omega
  obtain ⟨shift, hshift, -⟩ := Option.bind_eq_some_iff.mp hcurrent
  obtain ⟨hone, -⟩ := halone.of_mem (List.mem_of_mem_head? hshift)
  cases hallows with
  | accepted handle delay' action =>
    rw [after] at horigin ⊢
    rcases Nat.lt_or_eq_of_le hnew with hlater | hnow
    · refine .running hk hcurrent ?_ htime
      rw [List.length_append]
      exact hlater
    · rw [← hnow, List.length_append, List.getElem?_concat_length] at horigin
      obtain ⟨rfl, -⟩ := Origin.mk.inj (Option.some.inj (horigin (Nat.lt_succ_self _)))
      refine .waiting hk _ (List.mem_append_right _ (List.mem_singleton_self _)) hnow
        (Nat.le_refl _) ?_
      rw [Nat.succ_mul, ← Nat.add_assoc, htime]
      rfl
  | drained => rw [hapart rfl] at hone; cases hone
  | fired pass slip due current shifts h =>
    have hslip := hd.not_hasRun_of_due (h ▸ List.mem_cons_self) List.mem_cons_self
    refine (hstill (fun hsame => hslip ?_) (origins_after rfl d)).elim
    rw [after_fired h] at hsame
    have hnumber : slip.number = link k := Option.some.inj hsame
    exact hnumber ▸ hd.hasRun_of_current hcurrent
  | passEnded =>
    refine (hstill ?_ rfl).elim
    rw [after, hone]
    rintro ⟨⟩
  | cancelled | discarded => exact .running hk hcurrent hnew htime
  | other e h =>
    rw [after_of_not_posted h]
    exact .running hk hcurrent hnew htime

/-- **Every event leaves a chain where it is or takes it on**, by one link. -/
theorem Progress.step (hd : d.Sound) (hallows : d.Allows e) (halone : d.Alone)
    (hapart : e = .drained → d.underway = []) (hbefore : d.Linked delay n link)
    (hafter : (d.after e).Linked delay n link)
    (hkept : ∀ k < n, link k ∉ (d.after e).removed) (h : d.Progress base delay n link k) :
    ∃ k', (d.after e).Progress base delay n link k' := by
  obtain ⟨hran, hstage⟩ := h
  have hran' : ∀ j < k, ∃ firing ∈ (d.after e).ran,
      firing.slip.number = link j ∧ firing.pass = base + (j + 1) * (delay + 1) := by
    intro j hj
    obtain ⟨firing, hmem, hfiring⟩ := hran j hj
    exact ⟨firing, (d.ran_after e).subset hmem, hfiring⟩
  cases hstage with
  | waiting hk slip hslip hnumber hleft htime =>
    exact ⟨k, hran', .step_waiting hallows hk hslip hnumber hleft htime (hkept k hk)⟩
  | due hk shift hshift slip hslip hnumber htime =>
    rcases Stage.step_due hd hallows halone hapart hbefore hk hshift hslip hnumber htime with
      hstage | ⟨hstage, hfired⟩
    · exact ⟨k, hran', hstage⟩
    · refine ⟨k + 1, fun j hj => ?_, hstage⟩
      rcases Nat.lt_or_eq_of_le (Nat.le_of_lt_succ hj) with hj | rfl
      · exact hran' j hj
      · exact ⟨_, hfired ▸ List.mem_append_right _ (List.mem_singleton_self _), hnumber, htime.symm⟩
  | running hk hcurrent hnew htime =>
    exact ⟨_, hran', .step_running hd hallows halone hapart hafter hk hcurrent hnew htime⟩
  | done => exact ⟨_, hran', .done⟩

end Docket

/-! ## 3. Traces -/

theorem Chain.init {p q : List Event} {delay n : Nat} {link : Nat → Nat}
    (h : Chain (p ++ q) delay n link) : Chain p delay n link := by
  refine ⟨fun j hj => ?_, fun k hk hmem => h.kept k hk (Docket.removed_append p q hmem)⟩
  have hlinked := h.linked j (by rw [List.length_append]; omega)
  rwa [List.take_append_of_le_length hj] at hlinked

/-- The links of a chain are linked at this moment. -/
theorem Chain.now {events : List Event} {delay n : Nat} {link : Nat → Nat}
    (h : Chain events delay n link) : (docket events).Linked delay n link := by
  have hlinked := h.linked events.length (Nat.le_refl _)
  rwa [List.take_length] at hlinked

namespace Docket

variable {events pre post : List Event} {h : Handle} {action : Action} {delay n : Nat}
  {link : Nat → Nat}

/-- Where passes are apart, one begins when none is under way. -/
theorem underway_of_apart {e : Event} (hapart : PassesApart (events ++ [e])) :
    e = .drained → (docket events).underway = [] := by
  rintro rfl
  have hnone := hapart.split
  rw [passLog_eq_docket] at hnone
  exact List.map_eq_nil_iff.mp hnone

theorem alone_of_apart (hapart : PassesApart events) : (docket events).Alone := by
  induction events using List.reverseRecOn with
  | nil => exact Or.inl rfl
  | append_singleton events e ih =>
    rw [docket_snoc]
    exact (ih hapart.init).step (underway_of_apart hapart)

/-- **A chain goes on from link to link**, from the acceptance of the first one. -/
theorem progress_of_trail (htrail : Trail Step {} (pre ++ .accepted h delay action :: post)
      (docket (pre ++ .accepted h delay action :: post)))
    (hapart : PassesApart (pre ++ .accepted h delay action :: post))
    (hfirst : link 0 = acceptances pre)
    (hchain : Chain (pre ++ .accepted h delay action :: post) delay n link) :
    ∃ k,
      (docket (pre ++ .accepted h delay action :: post)).Progress (drains pre) delay n link k := by
  induction post using List.reverseRecOn with
  | nil =>
    refine ⟨0, fun j hj => absurd hj (Nat.not_lt_zero j), ?_⟩
    rw [docket_snoc, after]
    rcases Nat.eq_zero_or_pos n with rfl | hn
    · exact .done
    · refine .waiting hn _ (List.mem_append_right _ (List.mem_singleton_self _)) ?_
        (Nat.le_refl _) ?_
      · rw [hfirst, acceptances_eq_docket]
      · rw [drains_eq_docket, Nat.zero_add, Nat.one_mul]
        rfl
  | append_singleton post e ih =>
    rw [← List.cons_append, ← List.append_assoc] at htrail hapart hchain ⊢
    obtain ⟨hinit, hallows⟩ := last_of_trail htrail
    obtain ⟨k, hprogress⟩ := ih hinit hapart.init hchain.init
    have hnow := hchain.now
    have hkept := hchain.kept
    rw [docket_snoc] at hnow hkept ⊢
    exact hprogress.step (sound_of_trail hinit) hallows (alone_of_apart hapart.init)
      (underway_of_apart hapart) hchain.init.now hnow hkept

/-! ## 4. What has run -/

section

variable {d : Docket} {base k : Nat}

/-- The links that the chain has yet to come to have not run. -/
theorem Progress.not_hasRun (h : d.Progress base delay n link k) (hd : d.Sound)
    (hlinked : d.Linked delay n link) {j : Nat} (hkj : k ≤ j) (hj : j < n) :
    ¬ d.HasRun (link j) := by
  induction hkj with
  | refl =>
    cases h.stage with
    | waiting _ slip hslip hnumber => exact hnumber ▸ hd.not_hasRun_of_pending hslip
    | due _ shift hshift slip hslip hnumber => exact hnumber ▸ hd.not_hasRun_of_due hshift hslip
    | running _ _ hnew => exact fun hran => absurd (hd.lt_of_hasRun hran) (Nat.not_lt_of_le hnew)
    | done => exact absurd hj (Nat.lt_irrefl _)
  | @step j _ ih =>
    -- a link that has run was requested by the one before, which would have run as well
    intro hran
    have horigin := (hlinked j (Nat.lt_of_succ_lt hj) hj).1 (hd.lt_of_hasRun hran)
    exact ih (Nat.lt_of_succ_lt hj) (hd.parents _ (List.mem_of_getElem? horigin) _ rfl)

/-- A link that the chain has come by has run once, in its pass. -/
theorem Progress.passesOf_eq (h : d.Progress base delay n link k) (hd : d.Sound) {j : Nat}
    (hj : j < k) : d.passesOf (link j) = [base + (j + 1) * (delay + 1)] := by
  obtain ⟨firing, hmem, hnumber, hpass⟩ := h.ran j hj
  rw [← hnumber, ← hpass]
  exact hd.passesOf_eq hmem

/-- A pass that has ended is no pass of a link that the chain has yet to come to. -/
theorem Progress.lt_of_ended (h : d.Progress base delay n link k) (halone : d.Alone) {j : Nat}
    (hj : j < n) (hbegun : base + (j + 1) * (delay + 1) ≤ d.begun)
    (hended : base + (j + 1) * (delay + 1) ∉ d.underway.map Shift.pass) : j < k := by
  refine Nat.lt_of_not_le fun hkj => ?_
  have htimes : (k + 1) * (delay + 1) ≤ (j + 1) * (delay + 1) :=
    Nat.mul_le_mul_right _ (Nat.succ_le_succ hkj)
  cases h.stage with
  | waiting _ slip _ _ _ htime => omega
  | due _ shift hshift _ _ _ htime =>
    have hpass : base + (j + 1) * (delay + 1) = shift.pass := by
      rw [(halone.of_mem hshift).2]
      omega
    exact hended (hpass ▸ List.mem_map_of_mem hshift)
  | @running k _ _ _ htime =>
    rw [Nat.succ_mul (k + 1)] at htimes
    omega
  | done => omega

/-- When no pass is under way, the number of passes tells how far the chain is. -/
theorem Progress.eq_min (h : d.Progress base delay n link k) (hd : d.Sound)
    (hidle : d.underway = []) : k = min n ((d.begun - base) / (delay + 1)) := by
  cases h.stage with
  | due _ shift hshift =>
    rw [hidle] at hshift
    cases hshift
  | running _ hcurrent =>
    rw [current?, hidle] at hcurrent
    cases hcurrent
  | waiting hk slip _ _ hleft htime =>
    rw [Nat.succ_mul] at htime
    have hquotient : (d.begun - base) / (delay + 1) = k :=
      Nat.div_eq_of_lt_le (by omega) (by rw [Nat.succ_mul]; omega)
    rw [hquotient]
    omega
  | done =>
    have hall : n * (delay + 1) ≤ d.begun - base := by
      cases n with
      | zero => rw [Nat.zero_mul]; exact Nat.zero_le _
      | succ n =>
        obtain ⟨firing, hmem, -, hpass⟩ := h.ran n (Nat.lt_succ_self n)
        have hfired := hd.fired firing hmem
        omega
    exact (Nat.min_eq_left ((Nat.le_div_iff_mul_le (Nat.succ_pos delay)).mpr hall)).symm

end

end Docket

theorem countP_lt_range (n k : Nat) : (List.range n).countP (· < k) = min n k := by
  induction n with
  | zero => exact (Nat.zero_min k).symm
  | succ n ih =>
    rw [List.range_succ, List.countP_append, ih, List.countP_singleton]
    split <;> rename_i hlt <;> simp only [decide_eq_true_eq] at hlt <;> omega

/-! ## 5. Runs -/

/-- **A chain keeps its time.**  In a run from a fresh world no pass begins while another one is
under way, and after `pre` a task with delay `i` is accepted; it is the first of the `n` links of a
chain.  Whatever else is requested, cancelled or fails:

* the docket has the tasks of the machine, and has entered every action that has begun to run;
* each link runs in no other pass than the one that is due for it, every `i + 1` passes, and not
  twice;
* once that pass has ended, the link has run;
* so when no pass is under way, one link has run for every `i + 1` passes since the first was
  accepted, until there is none left. -/
theorem chain_of_run {w : World} (hw : w.Fresh) {path : List Beat} {m : Machine}
    (hrun : Run (Machine.idle w) path m) (hapart : PassesApart (trace path))
    {pre post : List Event} {h : Handle} {i : Nat} {action : Action}
    (hfirst : trace path = pre ++ .accepted h i action :: post) {n : Nat} {link : Nat → Nat}
    (hlink : link 0 = acceptances pre) (hchain : Chain (trace path) i n link) :
    (docket (trace path)).Matches m ∧
    turns (trace path) =
      (docket (trace path)).ran.map (fun firing => (firing.pass, firing.slip.task.handle)) ∧
    (∀ k < n, (docket (trace path)).passesOf (link k) <+: [drains pre + (k + 1) * (i + 1)]) ∧
    (∀ k < n, drains pre + (k + 1) * (i + 1) ≤ drains (trace path) →
      drains pre + (k + 1) * (i + 1) ∉ (passLog (trace path)).underway →
      (docket (trace path)).passesOf (link k) = [drains pre + (k + 1) * (i + 1)]) ∧
    (m.underway = [] →
      (List.range n).countP (fun k => (docket (trace path)).HasRun (link k)) =
        min n (drains post / (i + 1))) := by
  obtain ⟨htrail, hmatches⟩ := docket_of_run hw hrun
  have hsound := Docket.sound_of_trail htrail
  have halone := Docket.alone_of_apart hapart
  have hlinked := hchain.now
  obtain ⟨k, hprogress⟩ : ∃ k, (docket (trace path)).Progress (drains pre) i n link k := by
    have hall := hchain
    rw [hfirst] at htrail hapart hall ⊢
    exact Docket.progress_of_trail htrail hapart hlink hall
  refine ⟨hmatches, turns_eq_docket htrail, ?_, ?_, ?_⟩
  · intro j hj
    rcases Nat.lt_or_ge j k with hjk | hkj
    · exact hprogress.passesOf_eq hsound hjk ▸ List.prefix_rfl
    · have hnot := hprogress.not_hasRun hsound hlinked hkj hj
      rw [Docket.hasRun_iff_passesOf, ne_eq, Decidable.not_not] at hnot
      rw [hnot]
      exact List.nil_prefix
  · intro j hj hbegun hended
    rw [drains_eq_docket (trace path)] at hbegun
    rw [passLog_eq_docket] at hended
    exact hprogress.passesOf_eq hsound (hprogress.lt_of_ended halone hj hbegun hended)
  · intro hidle
    have hnone : (docket (trace path)).underway = [] := by
      have hunderway := hmatches.underway
      rw [hidle] at hunderway
      exact List.map_eq_nil_iff.mp hunderway
    have hpasses : drains post = (docket (trace path)).begun - drains pre := by
      have hsplit : drains (trace path) = drains pre + drains post := by
        rw [hfirst, drains_append]
        rfl
      rw [← drains_eq_docket, hsplit, Nat.add_sub_cancel_left]
    have hran : ∀ j ∈ List.range n,
        decide ((docket (trace path)).HasRun (link j)) = true ↔ decide (j < k) = true := by
      intro j hj
      rw [decide_eq_true_eq, decide_eq_true_eq]
      constructor
      · intro hran
        exact Nat.lt_of_not_le fun hkj =>
          hprogress.not_hasRun hsound hlinked hkj (List.mem_range.mp hj) hran
      · intro hjk
        rw [Docket.hasRun_iff_passesOf, hprogress.passesOf_eq hsound hjk]
        exact List.cons_ne_nil _ _
    rw [List.countP_congr hran, countP_lt_range, hpasses, hprogress.eq_min hsound hnone]
    omega

/-- Five passes.  The chain has three links, of which the second one is requested in the second
pass, where another task cancels a third, requests a fourth and panics. -/
def convoy : List Beat × Machine :=
  (Machine.idle (World.parts 10 10)).played <|
    [.command (.schedule "first" (some 1) false .goOn
        [.schedule "second" (some 1) false .goOn
          [.schedule "third" (some 1) false .goOn []]]), .step,
      .command (.fill 2 2), .step,
      .command (.schedule "rival" (some 1) false .goOn
        [.cancel 1, .schedule "more" (some 0) false .goOn [], .panic .other]), .step]
      ++ [3, 20, 9, 9, 3].flatMap fun steps => .command .runPass :: List.replicate steps .step

/-- The links, by their numbers. -/
def convoyLink (k : Nat) : Nat := [0, 4, 6].getD k 0

/-- The first link has run in the second pass, and the second one in the fourth. -/
theorem chain_of_convoy :
    (World.parts 10 10).Fresh ∧ Run (Machine.idle (World.parts 10 10)) convoy.1 convoy.2 ∧
    PassesApart (trace convoy.1) ∧ convoyLink 0 = acceptances ((trace convoy.1).take 1) ∧
    Chain (trace convoy.1) 1 3 convoyLink ∧ convoy.2.underway = [] ∧
    (docket (trace convoy.1)).passesOf 0 = [2] ∧ (docket (trace convoy.1)).passesOf 4 = [4] ∧
    (List.range 3).countP (fun k => (docket (trace convoy.1)).HasRun (convoyLink k)) =
      min 3 (5 / 2) := by
  have hrun : Run (Machine.idle (World.parts 10 10)) convoy.1 convoy.2 := Machine.played_run _ _
  have hapart : PassesApart (trace convoy.1) := by decide
  have hchain : Chain (trace convoy.1) 1 3 convoyLink := ⟨by decide, by decide⟩
  have hfirst : trace convoy.1 =
      (trace convoy.1).take 1 ++ .accepted (.ofNat 0) 1 _ :: (trace convoy.1).drop 2 := rfl
  have hlink : convoyLink 0 = acceptances ((trace convoy.1).take 1) := rfl
  have hidle : convoy.2.underway = [] := rfl
  obtain ⟨-, -, -, hpasses, hcount⟩ :=
    chain_of_run (World.parts_fresh 10 10) hrun hapart hfirst hlink hchain
  exact ⟨World.parts_fresh 10 10, hrun, hapart, hlink, hchain, hidle,
    hpasses 0 (by decide) (by decide) (by decide), hpasses 1 (by decide) (by decide) (by decide),
    hcount hidle⟩

end TickHost
