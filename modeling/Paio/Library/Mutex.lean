import Mathlib.Init

/-!
# Paio.Library.Mutex

A mutex seen from the threads that use it: each thread is in its critical section or not, and the
lock has an owner or none. `Owned` says that the two views agree, so at most one thread is in the
section. It is kept by the step of one thread when the step changes the lock in the way `Moves`
says.
-/

namespace Mutex

variable {θ : Type} {lock lock' : Option θ} {holds holds' : θ → Bool} {t : θ}

def Owned (lock : Option θ) (holds : θ → Bool) : Prop := ∀ t, holds t = true ↔ lock = some t

/-- A thread that enters its section found the lock free and owns it now; a thread that leaves the
section has given the lock back; any other step leaves the lock as it was. -/
def Moves (t : θ) (before after : Bool) (lock lock' : Option θ) : Prop :=
  match before, after with
  | false, true => lock = none ∧ lock' = some t
  | true, false => lock' = none
  | _, _ => lock' = lock

theorem Owned.move (h : Owned lock holds) (hother : ∀ t', t' ≠ t → holds' t' = holds t')
    (hmoves : Moves t (holds t) (holds' t) lock lock') : Owned lock' holds' := by
  intro t'
  have ht' := h t'
  have ht := h t
  by_cases htt : t' = t
  · subst htt
    cases hb : holds t' <;> cases ha : holds' t' <;> simp_all [Moves]
  · rw [hother t' htt]
    have hne : t ≠ t' := fun heq => htt heq.symm
    cases hb : holds t <;> cases ha : holds' t <;> simp_all [Moves]

theorem Owned.eq_some (h : Owned lock holds) (ht : holds t = true) : lock = some t := (h t).mp ht

/-- Two threads in the section are the same thread. -/
theorem Owned.unique (h : Owned lock holds) {t t' : θ} (ht : holds t = true)
    (ht' : holds t' = true) : t = t' := by
  have heq := h.eq_some ht
  rw [h.eq_some ht'] at heq
  exact (Option.some.inj heq).symm

end Mutex
