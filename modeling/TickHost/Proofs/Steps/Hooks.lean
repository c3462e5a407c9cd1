import TickHost.Proofs.Sessions
import TickHost.Proofs.Steps.RollCalls

/-!
# Steps and hook passes

A hook pass begins when the session takes an edge that calls for it, and it ends once all listeners
have been called.  No other step touches the hook passes under way (`move_hooks`).  So whoever is
called in the course of an operation is called by a pass that has begun in its course
(`Call.calls_of_passes`).
-/

namespace TickHost

open Lifecycle (passOn)

/-- The hook pass that waits in a frame. -/
def Frame.hook? : Frame → Option Lifecycle.Hook
  | hooking hook .. => some hook
  | _ => none

/-- The hook pass that is gone on with. -/
def Focus.hook? : Focus → Option Lifecycle.Hook
  | hooking hook .. => some hook
  | _ => none

/-- The hook that a listener is called for in a beat. -/
def Beat.calls? (b : Beat) : Option Lifecycle.Hook :=
  match b.before.focus with
  | .hooking hook _ (_ :: _) => some hook
  | _ => none

theorem Beat.hook?_of_calls {b : Beat} {hook : Lifecycle.Hook} (h : b.calls? = some hook) :
    b.before.focus.hook? = some hook := by
  rw [Beat.calls?] at h
  split at h
  · rename_i hfocus
    rw [hfocus, Focus.hook?, Option.some.inj h]
  · cases h

theorem hookPasses_filter (events : List Event) :
    hookPasses (events.filter Event.isRollCall) = hookPasses events := by
  rw [hookPasses, hookPasses, List.filterMap_filter]
  congr 1
  funext e
  cases e <;> rfl

namespace Machine

/-- The hook passes under way, the innermost first. -/
def hooks (m : Machine) : List Lifecycle.Hook :=
  m.focus.hook?.toList ++ m.stack.filterMap Frame.hook?

/-- What a step makes of the hook passes under way. -/
inductive HookStep (m : Machine) (s : Stepped) : Prop
  /-- They stay. -/
  | elsewhere (hhooks : s.machine.hooks = m.hooks)
  /-- A pass begins. -/
  | began (hook : Lifecycle.Hook) (hpasses : hookPasses s.events = [hook])
      (hhooks : s.machine.hooks = hook :: m.hooks)
  /-- The innermost pass ends. -/
  | ended (hook : Lifecycle.Hook) (hhooks : m.hooks = hook :: s.machine.hooks)

theorem hooks_eq (m : Machine) : m.hooks = m.rollCalls.map RollCall.hook := by
  have hfocus : m.focus.hook? = m.focus.rollCall?.map RollCall.hook := by cases m.focus <;> rfl
  have hframe : Frame.hook? = fun frame => frame.rollCall?.map RollCall.hook := by
    funext frame
    cases frame <;> rfl
  rw [hooks, rollCalls, List.map_append, List.map_filterMap, hfocus, hframe, Option.toList_map]

/-- **A move begins a hook pass, ends the innermost, or leaves them as they are.** -/
theorem move_hooks {m : Machine} {mv : Move} {s : Stepped} (h : m.move? mv = some s) :
    HookStep m s := by
  cases move_rollCalls h with
  | elsewhere _ hcalls => exact .elsewhere (by rw [hooks_eq, hooks_eq, hcalls])
  | began hook _ hcalls hevents =>
    refine .began hook ?_ (by rw [hooks_eq, hooks_eq, hcalls]; rfl)
    rw [← hookPasses_filter, hevents]
    rfl
  | called hook index listener rest others _ hbefore hafter =>
    exact .elsewhere (by rw [hooks_eq, hooks_eq, hbefore, hafter]; rfl)
  | ended hook index _ hbefore => exact .ended hook (by rw [hooks_eq, hooks_eq, hbefore]; rfl)

/-- A hook pass that is under way after a move was so before, or has begun in it. -/
theorem mem_hooks_of_move {b : Beat} {xs ys rest : List Lifecycle.Hook} (hb : b.Valid)
    (hbefore : b.before.hooks = xs ++ rest) (hafter : b.after.hooks = ys ++ rest) :
    ∀ hook ∈ ys, hook ∈ xs ∨ hook ∈ hookPasses b.events := by
  intro hook hmem
  cases move_hooks hb with
  | elsewhere hhooks =>
    simp only at hhooks
    rw [hbefore, hafter] at hhooks
    exact Or.inl (List.append_cancel_right hhooks ▸ hmem)
  | began hook' hpasses hhooks =>
    simp only at hpasses hhooks
    rw [hbefore, hafter, ← List.cons_append] at hhooks
    rw [List.append_cancel_right hhooks] at hmem
    rw [hpasses, List.mem_singleton]
    exact (List.mem_cons.mp hmem).symm
  | ended hook' hhooks =>
    simp only at hhooks
    rw [hbefore, hafter, ← List.cons_append] at hhooks
    rw [List.append_cancel_right hhooks]
    exact Or.inl (List.mem_cons_of_mem _ hmem)

end Machine

/-- **Whoever is called in a call is called by a pass that has begun in it**, if none was under way
in the beginning. -/
theorem Call.calls_of_passes {S above : List Frame} {m n : Machine} {path : List Beat}
    (h : Call S m path n) (hstack : m.stack = above ++ S) (hfocus : m.focus.hook? = none)
    (habove : above.filterMap Frame.hook? = []) :
    ∀ b ∈ path, ∀ hook, b.calls? = some hook → hook ∈ hookPasses (trace path) := by
  refine (h.keeps (P := fun path m => (∃ above, m.stack = above ++ S ∧
    ∀ hook ∈ m.focus.hook?.toList ++ above.filterMap Frame.hook?, hook ∈ hookPasses (trace path)) ∧
    ∀ b ∈ path, ∀ hook, b.calls? = some hook → hook ∈ hookPasses (trace path))
    ⟨⟨above, hstack, by simp [hfocus, habove]⟩, by simp⟩ ?_).2
  rintro p b hvalid hback ⟨⟨above, hstack, hhooks⟩, hcalls⟩
  obtain ⟨above', hstack'⟩ := Machine.move_above hvalid hstack hback
  simp only at hstack'
  have htrace : hookPasses (trace (p ++ [b])) = hookPasses (trace p) ++ hookPasses b.events := by
    rw [trace_append, hookPasses_append, trace_cons, trace_nil, List.append_nil]
  rw [htrace]
  refine ⟨⟨above', hstack', ?_⟩, List.forall_mem_append.mpr ⟨?_, List.forall_mem_singleton.mpr ?_⟩⟩
  · intro hook hmem
    have hbefore : b.before.hooks = (b.before.focus.hook?.toList ++ above.filterMap Frame.hook?)
        ++ S.filterMap Frame.hook? := by
      rw [Machine.hooks, hstack, List.filterMap_append, List.append_assoc]
    have hafter : b.after.hooks = (b.after.focus.hook?.toList ++ above'.filterMap Frame.hook?)
        ++ S.filterMap Frame.hook? := by
      rw [Machine.hooks, hstack', List.filterMap_append, List.append_assoc]
    rcases Machine.mem_hooks_of_move hvalid hbefore hafter hook hmem with hold | hnew
    · exact List.mem_append_left _ (hhooks hook hold)
    · exact List.mem_append_right _ hnew
  · intro c hc hook hcall
    exact List.mem_append_left _ (hcalls c hc hook hcall)
  · intro hook hcall
    refine List.mem_append_left _ (hhooks hook ?_)
    rw [Beat.hook?_of_calls hcall]
    exact List.mem_cons_self

/-- So nobody is called for a hook of which no pass has begun. -/
theorem Call.calls_none {S above : List Frame} {m n : Machine} {path : List Beat}
    {hook : Lifecycle.Hook} (h : Call S m path n) (hstack : m.stack = above ++ S)
    (hfocus : m.focus.hook? = none) (habove : above.filterMap Frame.hook? = [])
    (hnone : hook ∉ hookPasses (trace path)) : ∀ b ∈ path, b.calls? ≠ some hook :=
  fun b hb hcalls => hnone (h.calls_of_passes hstack hfocus habove b hb hook hcalls)

end TickHost
