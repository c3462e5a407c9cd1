import TickHost.Proofs.Calls
import TickHost.Proofs.Steps.Rounds

/-!
# Rounds of calls

A pass, a delivery and a hook pass are rounds of calls.  While a callback of a round runs, it may
begin other rounds, change the lists that rounds are taken from, fail or panic.  A round does not
notice: it goes by what it settled when it began.

* `InRound` follows a round through whatever its callbacks do, nested rounds included.  What it has
  called and what it has ahead are at every moment the calls that it began with.
* So it makes those calls, once each and in order, and then answers (`Call.round_calls`,
  `Call.round_answers`); it cannot get stuck (`Call.round_goes_on`); and the callback that runs
  right above it is that of its last call (`Call.round_frame`).

Rounds are told apart by the height of the stack: what goes on inside of a round is above it.
-/

namespace TickHost

/-! ## 1. Calls of a round -/

/-- The calls that a move makes, if it is one of an operation with so many frames below it. -/
def Beat.callsAt (height : Nat) (b : Beat) : List Event :=
  if b.before.stack.length = height then b.events.filter Event.isCall else []

/-- The calls made by operations with so many frames below them. -/
def callsAt (height : Nat) (path : List Beat) : List Event := path.flatMap (·.callsAt height)

theorem callsAt_snoc (height : Nat) (path : List Beat) (b : Beat) :
    callsAt height (path ++ [b]) = callsAt height path ++ b.callsAt height := by
  simp [callsAt]

theorem Beat.callsAt_of_length {height : Nat} {b : Beat} (h : b.before.stack.length = height) :
    b.callsAt height = b.events.filter Event.isCall := if_pos h

theorem Beat.callsAt_of_ne {height : Nat} {b : Beat} (h : b.before.stack.length ≠ height) :
    b.callsAt height = [] := if_neg h

/-- **How far a round is** that was begun at `k`: it has not begun yet, it is about to make its next
call, the callback of its last call is running, or it has answered.  The calls made so far and those
ahead are always the calls that it began with. -/
inductive InRound (k : Machine) (r : Round) (path : List Beat) (m : Machine) : Prop
  | beginning (hm : m = k) (hpath : path = [])
  | going (rest : List Event) (hstack : m.stack = k.stack)
      (hfocus : m.focus.round? = some ⟨rest, r.answer⟩)
      (hcalls : callsAt k.stack.length path ++ rest = r.ahead)
  | inside (above : List Frame) (frame : Frame) (done rest : List Event) (e : Event)
      (hstack : m.stack = above ++ frame :: k.stack)
      (hframe : frame.round? = some ⟨rest, r.answer⟩) (hcalled : frame.CalledBy e)
      (hcalls : callsAt k.stack.length path = done ++ [e]) (hall : done ++ e :: rest = r.ahead)
  | answered (hstack : m.stack = k.stack) (hfocus : m.focus = .reply r.answer)
      (hcalls : callsAt k.stack.length path = r.ahead)

theorem InRound.move {k : Machine} {r : Round} {path : List Beat} {b : Beat}
    (hk : k.round? = some r) (hb : b.Valid) (hback : ¬ b.before.BackAt k.stack)
    (hin : InRound k r path b.before) : InRound k r (path ++ [b]) b.after := by
  cases hin with
  | beginning hm hpath =>
    subst hpath
    obtain ⟨hfocus, hstack, hevents⟩ := Machine.round_begins hb (hm ▸ hk)
    rw [hm] at hstack
    refine .going r.ahead hstack hfocus ?_
    rw [callsAt_snoc, Beat.callsAt_of_length (by rw [hm]), hevents]
    rfl
  | going rest hstack hfocus hcalls =>
    have hhere := Beat.callsAt_of_length (b := b) (congrArg List.length hstack)
    cases rest with
    | nil =>
      obtain ⟨hreply, hstack', hevents⟩ := Machine.round_ends hb hfocus
      refine .answered (hstack'.trans hstack) hreply ?_
      rw [callsAt_snoc, hhere, hevents, hcalls]
    | cons e rest =>
      obtain ⟨hevents, hnext⟩ := Machine.round_calls hb hfocus
      have hmade : callsAt k.stack.length (path ++ [b]) = callsAt k.stack.length path ++ [e] := by
        rw [callsAt_snoc, hhere, hevents]
      rcases hnext with ⟨hstack', hfocus'⟩ | ⟨frame, hstack', hframe, hcalled⟩
      · refine .going rest (hstack'.trans hstack) hfocus' ?_
        rw [hmade, List.append_assoc]
        exact hcalls
      · exact .inside [] frame _ rest e (hstack'.trans (congrArg _ hstack)) hframe hcalled hmade
          hcalls
  | inside above frame done rest e hstack hframe hcalled hcalls hall =>
    -- whatever goes on above the frame is no call of this round
    have hdeep : b.before.stack.length ≠ k.stack.length := by
      rw [hstack, List.length_append, List.length_cons]
      omega
    have hsame : callsAt k.stack.length (path ++ [b]) = done ++ [e] := by
      rw [callsAt_snoc, Beat.callsAt_of_ne hdeep, List.append_nil, hcalls]
    rcases Machine.round_back hb hstack hframe with ⟨above', hstack'⟩ | ⟨hstack', hfocus⟩
    · exact .inside above' frame done rest e hstack' hframe hcalled hsame hall
    · refine .going rest hstack' hfocus ?_
      rw [hsame, List.append_assoc]
      exact hall
  | answered hstack hfocus => exact absurd ⟨hstack, by rw [hfocus]; rfl⟩ hback

/-! ## 2. Whole rounds -/

/-- While something is under way, the machine makes a step. -/
theorem Machine.step?_isSome {m : Machine} (h : m.isIdle = false) : m.step?.isSome := by
  obtain ⟨w, focus, stack⟩ := m
  cases focus with
  | script commands => cases commands <;> rfl
  | looping left body rest replies => cases rest <;> cases left <;> rfl
  | firing due => cases due <;> rfl
  | handling _ rest => cases rest <;> rfl
  | hooking _ _ rest => cases rest <;> rfl
  | moving event =>
    simp only [step?]
    split <;> rfl
  | reply | ended => cases stack <;> first | rfl | cases h
  | _ => rfl

namespace Call

variable {k n : Machine} {call : List Beat} {r : Round}

/-- **A round makes its calls and no others**, whatever its callbacks do. -/
theorem inRound (hcall : Call k.stack k call n) (hk : k.round? = some r) : InRound k r call n :=
  hcall.keeps (.beginning rfl rfl) fun hb => InRound.move hk hb

/-- What a round has called so far are the first of its calls. -/
theorem round_calls (hcall : Call k.stack k call n) (hk : k.round? = some r) :
    callsAt k.stack.length call <+: r.ahead := by
  cases hcall.inRound hk with
  | beginning _ hpath => subst hpath; exact List.nil_prefix
  | going rest _ _ hcalls => exact ⟨rest, hcalls⟩
  | inside _ _ done rest e _ _ _ hcalls hall =>
    rw [hcalls]
    exact ⟨rest, by rw [← hall, List.append_assoc, List.singleton_append]⟩
  | answered _ _ hcalls => exact hcalls ▸ List.prefix_rfl

/-- A round that is back has made all its calls, and answers. -/
theorem round_answers (hcall : Call k.stack k call n) (hk : k.round? = some r)
    (hback : n.BackAt k.stack) :
    callsAt k.stack.length call = r.ahead ∧ n.focus = .reply r.answer := by
  obtain ⟨hstack, hfinal⟩ := hback
  cases hcall.inRound hk with
  | beginning hm => rw [hm, Machine.isFinal_of_round hk] at hfinal; cases hfinal
  | going _ _ hfocus => rw [Focus.isFinal_of_round hfocus] at hfinal; cases hfinal
  | inside above frame _ _ _ hstack' =>
    have hlength := congrArg List.length (hstack.symm.trans hstack')
    rw [List.length_append, List.length_cons] at hlength
    omega
  | answered _ hfocus hcalls => exact ⟨hcalls, hfocus⟩

/-- The callback that runs right above a round is that of its last call. -/
theorem round_frame (hcall : Call k.stack k call n) (hk : k.round? = some r) {above : List Frame}
    {frame : Frame} (hstack : n.stack = above ++ frame :: k.stack) :
    ∃ done rest e, callsAt k.stack.length call = done ++ [e] ∧ done ++ e :: rest = r.ahead ∧
      frame.CalledBy e ∧ frame.round? = some ⟨rest, r.answer⟩ := by
  have hdeep (hstack' : n.stack = k.stack) : False := by
    have hlength := congrArg List.length (hstack'.symm.trans hstack)
    rw [List.length_append, List.length_cons] at hlength
    omega
  cases hcall.inRound hk with
  | beginning hm => exact (hdeep (hm ▸ rfl)).elim
  | going _ hstack' | answered hstack' => exact (hdeep hstack').elim
  | inside above' frame' done rest e hstack' hframe hcalled hcalls hall =>
    rw [hstack, List.append_cons, List.append_cons above'] at hstack'
    obtain ⟨-, hsame⟩ := List.append_inj' (List.append_cancel_right hstack') rfl
    obtain rfl := List.singleton_inj.mp hsame
    exact ⟨done, rest, e, hcalls, hall, hcalled, hframe⟩

/-- A round that is not back goes on. -/
theorem round_goes_on (hcall : Call k.stack k call n) (hback : ¬ n.BackAt k.stack) :
    n.step?.isSome := by
  refine Machine.step?_isSome (Bool.eq_false_iff.mpr fun hidle => hback ?_)
  obtain ⟨⟨above, hstack⟩, -⟩ := hcall.above ⟨[], rfl⟩
  simp only [Machine.isIdle, Bool.and_eq_true, List.isEmpty_iff] at hidle
  obtain ⟨-, hnil⟩ := List.append_eq_nil_iff.mp (hstack.symm.trans hidle.1)
  exact ⟨hidle.1.trans hnil.symm, hidle.2⟩

end Call

end TickHost
