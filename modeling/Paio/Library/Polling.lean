import Mathlib.Algebra.Order.Ring.Nat
import Mathlib.Order.Lattice.Nat

/-!
# Paio.Library.Polling

A loop that looks at a clock until a deadline has passed. Between two looks the loop reads the
clock for other purposes, so a look takes place at every `stride`-th reading only. The clock need
not be monotone: it is enough that from some reading on it stays beyond any given time.
-/

namespace Polling

variable {α : Type} [LinearOrder α]

/-- Whatever the time, from some reading on the clock shows it or a later one. -/
def Advances (clock : Nat → α) : Prop := ∀ t, ∃ first, ∀ k, first ≤ k → t ≤ clock k

/-- The looks that come too early: the number of the first look that finds the deadline passed. -/
noncomputable def misses (clock : Nat → α) (stride start : Nat) (deadline : α) : Nat :=
  sInf {j | deadline ≤ clock (start + stride * j)}

variable {clock : Nat → α} {stride : Nat} {start : Nat} {deadline : α}

theorem exists_due (hclock : Advances clock) (hstride : 0 < stride) (start : Nat) (deadline : α) :
    ∃ j, deadline ≤ clock (start + stride * j) := by
  obtain ⟨first, hfirst⟩ := hclock deadline
  refine ⟨first, hfirst _ ?_⟩
  calc first ≤ stride * first := Nat.le_mul_of_pos_left first hstride
    _ ≤ start + stride * first := Nat.le_add_left _ start

theorem due_at_misses (hclock : Advances clock) (hstride : 0 < stride) (start : Nat)
    (deadline : α) : deadline ≤ clock (start + stride * misses clock stride start deadline) :=
  Nat.sInf_mem (exists_due hclock hstride start deadline)

/-- The first look comes in time. -/
theorem misses_eq_zero (hdue : deadline ≤ clock start) :
    misses clock stride start deadline = 0 :=
  Nat.sInf_eq_zero.mpr (.inl hdue)

/-- The first look comes too early; the rest is the same wait from the next look on. -/
theorem misses_eq_succ (hclock : Advances clock) (hstride : 0 < stride)
    (hearly : clock start < deadline) :
    misses clock stride start deadline = misses clock stride (start + stride) deadline + 1 := by
  have hshift : ∀ j, start + stride * (j + 1) = start + stride + stride * j := fun j => by
    rw [Nat.mul_succ]
    omega
  have hpos : misses clock stride start deadline ≠ 0 := by
    intro hzero
    have hdue := due_at_misses hclock hstride start deadline
    rw [hzero] at hdue
    exact absurd hdue (not_le.mpr hearly)
  obtain ⟨m, hm⟩ := Nat.exists_eq_succ_of_ne_zero hpos
  apply le_antisymm
  · apply Nat.sInf_le
    show deadline ≤ clock _
    rw [hshift]
    exact due_at_misses hclock hstride (start + stride) deadline
  · rw [hm]
    apply Nat.succ_le_succ
    apply Nat.sInf_le
    show deadline ≤ clock _
    rw [← hshift, ← Nat.succ_eq_add_one, ← hm]
    exact due_at_misses hclock hstride start deadline

end Polling
