import Mathlib.Algebra.Order.Field.Basic
import Mathlib.Tactic.Linarith

/-!
# Paio.Library.Meter

A meter that is read from time to time. Amounts are added to it; a reading reports what was added
since the reading before, as a rate over the time between, and sets the meter back. Who gets the
readings multiplies each rate by its interval again (`told`).

`Runs.told_add_pending`: what was told and what is still in the meter is everything that was added,
in every run and at every moment of it.
-/

/-- What is in the meter, and when it was last read. -/
structure Meter (K : Type*) where
  last : K
  pending : K

namespace Meter

variable {K : Type*}

/-- The time of the last reading. -/
def lastOf : K → List (K × K) → K
  | last, [] => last
  | _, (now, _) :: rest => lastOf now rest

theorem lastOf_concat (last now value : K) (readings : List (K × K)) :
    lastOf last (readings ++ [(now, value)]) = now := by
  induction readings generalizing last with
  | nil => rfl
  | cons reading rest ih => exact ih reading.1

variable [Field K] {scale : K → K}

/-- The sum of the values that were read, each times the scale of its interval. -/
def told (scale : K → K) : K → List (K × K) → K
  | _, [] => 0
  | last, (now, value) :: rest => value * scale (now - last) + told scale now rest

theorem told_concat (last now value : K) (readings : List (K × K)) :
    told scale last (readings ++ [(now, value)]) =
      told scale last readings + value * scale (now - lastOf last readings) := by
  induction readings generalizing last with
  | nil => simp [told, lastOf]
  | cons reading rest ih =>
    rw [List.cons_append, told, told, ih, lastOf, add_assoc]

variable [LinearOrder K]

/-- The meters that additions and readings lead to, with the readings and the sum of what was
added. -/
inductive Runs (scale : K → K) (m₀ : Meter K) : Meter K → List (K × K) → K → Prop
  | start : Runs scale m₀ m₀ [] 0
  | add {m : Meter K} {readings : List (K × K)} {total : K} (h : Runs scale m₀ m readings total)
      {amount : K} (hamount : 0 ≤ amount) :
      Runs scale m₀ { m with pending := m.pending + amount } readings (total + amount)
  | read {m : Meter K} {readings : List (K × K)} {total : K} (h : Runs scale m₀ m readings total)
      {now value : K} (hvalue : value * scale (now - m.last) = m.pending) :
      Runs scale m₀ ⟨now, 0⟩ (readings ++ [(now, value)]) total

variable {m₀ m : Meter K} {readings : List (K × K)} {total : K}

theorem Runs.last_eq (h : Runs scale m₀ m readings total) : m.last = lastOf m₀.last readings := by
  induction h with
  | start => rfl
  | add _ _ ih => exact ih
  | read _ _ _ => exact (lastOf_concat _ _ _ _).symm

/-- Nothing that was added is lost or told twice. -/
theorem Runs.told_add_pending (h : Runs scale m₀ m readings total) :
    told scale m₀.last readings + m.pending = m₀.pending + total := by
  induction h with
  | start =>
    show 0 + _ = _ + 0
    rw [zero_add, add_zero]
  | add _ _ ih =>
    rw [← add_assoc, ih, add_assoc]
  | read h hvalue ih =>
    rw [told_concat, ← h.last_eq, hvalue, add_zero, ih]

variable [IsStrictOrderedRing K]

theorem Runs.total_nonneg (h : Runs scale m₀ m readings total) : 0 ≤ total := by
  induction h with
  | start => exact le_refl 0
  | add _ hamount ih => exact add_nonneg ih hamount
  | read _ _ ih => exact ih

/-- The meter never holds more than it had and was added. -/
theorem Runs.pending_le (h : Runs scale m₀ m readings total) (hnonneg : 0 ≤ m₀.pending) :
    m.pending ≤ m₀.pending + total := by
  induction h with
  | start => exact (add_zero _).ge
  | add _ _ ih =>
    rw [← add_assoc]
    exact add_le_add_left ih _
  | read h _ _ => exact add_nonneg hnonneg h.total_nonneg

end Meter
