import TickHost.Proofs.Shelter

/-!
# Calls within calls

An operation that is under way calls others: the host delivers ticks, the proxy turns to the
lifecycle, a run goes through its stages.  The caller waits in a frame, and what it has called is a
call on top of that frame.

* `Call.returns`: a call that waits in a frame gets back to that frame before it comes to its end,
  so it is the call above the frame, the move that takes note of its end, and the rest.
* `Call.replies`: what was called answers, whatever callbacks do in it, so that move hands a reply
  to the frame.

With these a call can be taken apart along the rules of the operation that makes it.
-/

namespace TickHost

variable {S : List Frame} {frame : Frame} {m n : Machine} {path : List Beat} {b : Beat}

/-! ## 1. The first move of a call -/

theorem Call.uncons (h : Call S m (b :: path) n) :
    b.Leads m b.after ∧ ¬ m.BackAt S ∧ Call S b.after path n := by
  obtain ⟨k, hb, hrest⟩ := h.run.uncons
  obtain rfl := hb.after
  refine ⟨hb, ?_, hrest, fun c hc => h.pending c (List.mem_cons_of_mem _ hc)⟩
  rw [← hb.before]
  exact h.pending b List.mem_cons_self

theorem Call.nil (m : Machine) : Call S m [] m := ⟨.nil, by simp⟩

theorem Call.cons (hb : b.Leads m b.after) (hback : ¬ m.BackAt S) (h : Call S b.after path n) :
    Call S m (b :: path) n := by
  refine ⟨.cons hb h.run, List.forall_mem_cons.mpr ⟨?_, h.pending⟩⟩
  rw [hb.before]
  exact hback

theorem Call.append {k : Machine} {p q : List Beat} (h : Call S m p k) (h' : Call S k q n) :
    Call S m (p ++ q) n :=
  ⟨h.run.append h'.run, List.forall_mem_append.mpr ⟨h.pending, h'.pending⟩⟩

/-- A call can be cut after each of its beats. -/
theorem Call.cut {p q : List Beat} (h : Call S m (p ++ b :: q) n) :
    Call S m (p ++ [b]) b.after ∧ Call S b.after q n := by
  obtain ⟨hp, hq⟩ := Run.cut h.run
  have hpending := h.pending
  rw [List.append_cons] at hpending
  obtain ⟨hinit, hrest⟩ := List.forall_mem_append.mp hpending
  exact ⟨⟨hp, hinit⟩, hq, hrest⟩

/-- A run that is never back is a call.  Stacks of another height are not that of the call. -/
theorem Call.of_run (h : Run m path n) (hpending : ∀ b ∈ path,
    b.before.stack.length ≠ S.length ∨ b.before.focus.isFinal = false) : Call S m path n := by
  refine ⟨h, ?_⟩
  rintro b hb ⟨hstack, hfinal⟩
  rcases hpending b hb with hheight | hfocus
  · exact hheight (congrArg List.length hstack)
  · rw [hfinal] at hfocus
    cases hfocus

/-- A call that is back has no moves to make. -/
theorem Call.eq_nil (h : Call S m path n) (hback : m.BackAt S) : path = [] := by
  cases path with
  | nil => rfl
  | cons b path => exact absurd hback h.uncons.2.1

/-- A call that is not back yet has a move to make before it is. -/
theorem Call.ne_nil (h : Call S m path n) (hm : m.focus.isFinal = false) (hback : n.BackAt S) :
    path ≠ [] := by
  rintro rfl
  obtain rfl := h.run.eq_of_nil
  rw [hback.2] at hm
  cases hm

/-- A call goes on with a step of the machine, unless a callback is to go on. -/
theorem Call.goes_on (h : Call S m (b :: path) n) (hm : m.focus.isFinal = false)
    (hscript : m.focus.isScript = false) :
    b.before = m ∧ m.step? = some ⟨b.after, b.events⟩ ∧ Call S b.after path n := by
  obtain ⟨hb, -, hrest⟩ := h.uncons
  have hvalid := hb.valid
  obtain rfl := hb.before
  refine ⟨rfl, Machine.step_of_move hvalid ?_ ?_, hrest⟩
  · rw [Machine.isIdle, hm, Bool.and_false]
  · intro commands hfocus
    rw [hfocus] at hscript
    cases hscript

/-- **A call begins with a step of the machine**, unless a callback is to go on. -/
theorem Call.begins (h : Call S m path n) (hm : m.focus.isFinal = false)
    (hscript : m.focus.isScript = false) (hback : n.BackAt S) :
    ∃ first rest, path = first :: rest ∧ first.before = m ∧
      m.step? = some ⟨first.after, first.events⟩ ∧ Call S first.after rest n := by
  cases path with
  | nil => exact absurd rfl (h.ne_nil hm hback)
  | cons first rest => exact ⟨first, rest, rfl, h.goes_on hm hscript⟩

/-- What every move of a call keeps holds after every move, and what every move does then is true of
every beat. -/
theorem Call.invariant {P : Machine → Prop} {Q : Beat → Prop} (h : Call S m path n) (h₀ : P m)
    (hmove : ∀ b ∈ path, b.Valid → ¬ b.before.BackAt S → P b.before → P b.after ∧ Q b) :
    P n ∧ ∀ b ∈ path, Q b := by
  induction path generalizing m with
  | nil => exact ⟨h.run.eq_of_nil ▸ h₀, by simp⟩
  | cons b path ih =>
    obtain ⟨⟨rfl, hvalid, -⟩, hback, hrest⟩ := h.uncons
    obtain ⟨hhere, hmove⟩ := List.forall_mem_cons.mp hmove
    obtain ⟨hP, hQ⟩ := hhere hvalid hback h₀
    obtain ⟨hn, hpath⟩ := ih hrest hP hmove
    exact ⟨hn, List.forall_mem_cons.mpr ⟨hQ, hpath⟩⟩

/-- What was begun on a stack stays on it. -/
theorem Call.above (h : Call S m path n) (hm : ∃ above, m.stack = above ++ S) :
    (∃ above, n.stack = above ++ S) ∧ ∀ b ∈ path, ∃ above, b.before.stack = above ++ S := by
  refine h.invariant (P := fun m => ∃ above, m.stack = above ++ S) hm ?_
  intro b _ hvalid hback hb
  obtain ⟨above, hstack⟩ := hb
  exact ⟨Machine.move_above hvalid hstack hback, above, hstack⟩

/-! ## 2. Calls within calls -/

/-- **A call gets back to the frame it waits in**, if it comes to its end: up to then it is a call
on top of that frame. -/
theorem Call.returns (h : Call S m path n) (hstack : ∃ above, m.stack = above ++ frame :: S)
    (hback : n.BackAt S) :
    ∃ inner last rest, path = inner ++ last :: rest ∧ last.Valid ∧
      last.before.BackAt (frame :: S) ∧ Call (frame :: S) m inner last.before ∧
      Call S last.after rest n := by
  induction path generalizing m with
  | nil =>
    obtain rfl := h.run.eq_of_nil
    obtain ⟨above, hstack⟩ := hstack
    have hlength := congrArg List.length (hback.1.symm.trans hstack)
    rw [List.length_append, List.length_cons] at hlength
    omega
  | cons b path ih =>
    obtain ⟨hb, hpending, hrest⟩ := h.uncons
    obtain rfl := hb.before
    by_cases hframe : b.before.BackAt (frame :: S)
    · exact ⟨[], b, path, rfl, hb.valid, hframe, .nil _, hrest⟩
    · obtain ⟨above, hstack⟩ := hstack
      obtain ⟨inner, last, rest, rfl, hvalid, hlast, hinner, hrest⟩ :=
        ih hrest (Machine.move_above hb.valid hstack hframe)
      exact ⟨b :: inner, last, rest, rfl, hvalid, hlast, hinner.cons hb hframe, hrest⟩

/-- **What was called answers**: a call that waits for something other than user code hands its
reply to the frame, and goes on from there. -/
theorem Call.replies (h : Call S m path n) (hstack : m.stack = frame :: S)
    (huser : m.focus.isUserCode = false) (hback : n.BackAt S) :
    ∃ inner last rest r, path = inner ++ last :: rest ∧ Call (frame :: S) m inner last.before ∧
      last.before = ⟨last.before.world, .reply r, frame :: S⟩ ∧
      (⟨last.after, last.events⟩ : Stepped) = Machine.resume last.before.world S r frame ∧
      Call S last.after rest n := by
  obtain ⟨inner, last, rest, rfl, hvalid, hlast, hinner, hrest⟩ :=
    h.returns ⟨[], hstack⟩ hback
  obtain ⟨r, hreply⟩ := Machine.call_replies huser (hstack ▸ hinner) (hstack ▸ hlast)
  obtain ⟨⟨w, focus, stack⟩, mv, after, events⟩ := last
  obtain rfl : stack = frame :: S := hlast.1
  obtain rfl : focus = .reply r := hreply
  have hstep := Machine.step_of_move hvalid rfl nofun
  exact ⟨inner, _, rest, r, rfl, hinner, rfl, (Option.some.inj hstep).symm, hrest⟩

end TickHost
