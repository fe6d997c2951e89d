import Mathlib.Data.List.Nodup

namespace PipewireGobject

/-- The emissions of signals that do not recurse, innermost first, and those of them that start
over once the handler that runs returns. -/
structure Emissions (P : Type) where
  running : List P := []
  restarted : List P := []
  deriving DecidableEq

namespace Emissions

variable {P : Type} [DecidableEq P]

/-- The signal is emitted. Within an emission of it that one is restarted, and otherwise handlers
run. -/
def emit (p : P) (e : Emissions P) : Emissions P × Bool :=
  if p ∈ e.running then ({ e with restarted := p :: e.restarted }, false)
  else ({ e with running := p :: e.running }, true)

/-- The handlers have returned, and run again where the emission was restarted. -/
def handled (p : P) (e : Emissions P) : Emissions P × Bool :=
  if p ∈ e.restarted then ({ e with restarted := e.restarted.filter (· ≠ p) }, true)
  else ({ e with running := e.running.erase p }, false)

/-- The emissions are those of the handlers on the stack, and no other is to be restarted. -/
structure Follows (e : Emissions P) (stack : List P) : Prop where
  running : e.running = stack
  nodup : stack.Nodup
  restarted : ∀ p ∈ e.restarted, p ∈ stack

variable {e : Emissions P} {stack : List P} {p q : P}

omit [DecidableEq P] in
theorem follows_nil : Follows ({} : Emissions P) [] :=
  ⟨rfl, .nil, fun _ hp => hp⟩

theorem Follows.emit (h : e.Follows stack) :
    (e.emit p).1.Follows (if (e.emit p).2 then p :: stack else stack) := by
  unfold Emissions.emit
  split
  next inside =>
    refine ⟨h.running, h.nodup, fun q hq => ?_⟩
    rcases List.mem_cons.mp hq with rfl | hq
    · rw [← h.running]
      exact inside
    · exact h.restarted q hq
  next outside =>
    rw [h.running] at outside
    refine ⟨congrArg _ h.running, List.nodup_cons.mpr ⟨outside, h.nodup⟩, fun q hq => ?_⟩
    exact List.mem_cons_of_mem p (h.restarted q hq)

theorem Follows.handled (h : e.Follows (p :: stack)) :
    (e.handled p).1.Follows (if (e.handled p).2 then p :: stack else stack) := by
  unfold Emissions.handled
  split
  next => exact ⟨h.running, h.nodup, fun q hq => h.restarted q (List.mem_filter.mp hq).1⟩
  next ended =>
    refine ⟨?_, (List.nodup_cons.mp h.nodup).2, fun q hq => ?_⟩
    · show e.running.erase p = stack
      rw [h.running, List.erase_cons_head]
    · rcases List.mem_cons.mp (h.restarted q hq) with rfl | hq
      · exact absurd hq ended
      · exact hq

/-- Handlers that run begin an emission of their own. -/
theorem Follows.emit_began (h : e.Follows stack) (began : (e.emit p).2 = true) :
    p ∉ e.restarted := by
  unfold Emissions.emit at began
  split at began
  next => cases began
  next outside =>
    intro hp
    rw [h.running] at outside
    exact outside (h.restarted p hp)

theorem mem_restarted_emit :
    q ∈ (e.emit p).1.restarted ↔ q ∈ e.restarted ∨ q = p ∧ (e.emit p).2 = false := by
  unfold Emissions.emit
  split
  next => simp [or_comm]
  next => simp

theorem mem_restarted_handled : q ∈ (e.handled p).1.restarted ↔ q ∈ e.restarted ∧ q ≠ p := by
  unfold Emissions.handled
  split
  next => simp
  next ended =>
    refine ⟨fun hq => ⟨hq, ?_⟩, And.left⟩
    rintro rfl
    exact ended hq

theorem handled_again : (e.handled p).2 = true ↔ p ∈ e.restarted := by
  unfold Emissions.handled
  split <;> simp [*]

end Emissions

end PipewireGobject
