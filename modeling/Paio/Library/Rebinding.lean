import Mathlib.Logic.Function.Basic
import Mathlib.Tactic.Convert

/-!
# Paio.Library.Rebinding

Calls that write their arguments into a shared state in one atomic step and, in a second one,
derive something from what is written there. Between its two steps a call can find the arguments
of another one in place, and derives from these.

* `Reachable.written_or_none`: what is written is always what some call has written.
* `Reachable.pending_or_derived`: as long as no call stands between its steps, what is derived
  fits what is written.
* `Reachable.converges`: so the two agree whenever no call is under way.
-/

namespace Rebinding

inductive Phase where
  | pending
  /-- The call has written its arguments and has not derived anything yet. -/
  | written
  | returned
  deriving DecidableEq, Repr

structure State (ι σ : Type) where
  shared : σ
  phase : ι → Phase

variable {ι σ α : Type} [DecidableEq ι]

inductive Step (write : α → σ → σ) (derive : σ → σ) (args : ι → α) :
    State ι σ → State ι σ → Prop
  | write {s : State ι σ} (i : ι) (hi : s.phase i = .pending) :
      Step write derive args s
        ⟨write (args i) s.shared, Function.update s.phase i .written⟩
  | derive {s : State ι σ} (i : ι) (hi : s.phase i = .written) :
      Step write derive args s ⟨derive s.shared, Function.update s.phase i .returned⟩

/-- The states of any interleaving of the calls. -/
inductive Reachable (write : α → σ → σ) (derive : σ → σ) (args : ι → α) (s₀ : σ) :
    State ι σ → Prop
  | start : Reachable write derive args s₀ ⟨s₀, fun _ => .pending⟩
  | step {s s' : State ι σ} (h : Reachable write derive args s₀ s)
      (hs : Step write derive args s s') : Reachable write derive args s₀ s'

/-- Writing puts the arguments in place, deriving leaves them there and fits them. -/
structure Laws (write : α → σ → σ) (derive : σ → σ) (Holds : α → σ → Prop)
    (Derived : σ → Prop) : Prop where
  holds_write : ∀ a s, Holds a (write a s)
  holds_derive : ∀ a s, Holds a s → Holds a (derive s)
  derived_derive : ∀ s, Derived (derive s)

variable {write : α → σ → σ} {derive : σ → σ} {args : ι → α} {s₀ : σ} {s : State ι σ}
  {Holds : α → σ → Prop} {Derived : σ → Prop}

theorem Reachable.written_or_none (laws : Laws write derive Holds Derived)
    (h : Reachable write derive args s₀ s) :
    (∀ i, s.phase i = .pending) ∨ ∃ i, s.phase i ≠ .pending ∧ Holds (args i) s.shared := by
  induction h with
  | start => exact .inl fun _ => rfl
  | step _ hs ih =>
    right
    cases hs with
    | write i _ => exact ⟨i, by simp, laws.holds_write _ _⟩
    | derive i hi =>
      obtain hnone | ⟨j, hj, hholds⟩ := ih
      · rw [hnone i] at hi
        cases hi
      · refine ⟨j, ?_, laws.holds_derive _ _ hholds⟩
        by_cases hji : j = i
        · subst hji
          simp
        · simpa [hji] using hj

theorem Reachable.pending_or_derived (laws : Laws write derive Holds Derived)
    (h : Reachable write derive args s₀ s) :
    (∀ i, s.phase i = .pending) ∨ (∃ i, s.phase i = .written) ∨ Derived s.shared := by
  induction h with
  | start => exact .inl fun _ => rfl
  | step _ hs _ =>
    right
    cases hs with
    | write i _ => exact .inl ⟨i, by simp⟩
    | derive i _ => exact .inr (laws.derived_derive _)

/-- Some call has returned and none is between its steps: what is written are the arguments of
one of the calls that have returned, and what is derived fits them. -/
theorem Reachable.converges (laws : Laws write derive Holds Derived)
    (h : Reachable write derive args s₀ s) (hone : ∃ i, s.phase i = .returned)
    (hquiet : ∀ i, s.phase i ≠ .written) :
    (∃ i, s.phase i = .returned ∧ Holds (args i) s.shared) ∧ Derived s.shared := by
  obtain ⟨i, hi⟩ := hone
  have hsome : ¬ ∀ j, s.phase j = .pending := by
    intro hall
    rw [hall i] at hi
    cases hi
  constructor
  · obtain ⟨j, hj, hholds⟩ := (h.written_or_none laws).resolve_left hsome
    refine ⟨j, ?_, hholds⟩
    cases hp : s.phase j with
    | pending => exact absurd hp hj
    | written => exact absurd hp (hquiet j)
    | returned => rfl
  · obtain ⟨j, hj⟩ | hd := (h.pending_or_derived laws).resolve_left hsome
    · exact absurd hj (hquiet j)
    · exact hd

/-- The same when every call has returned. -/
theorem Reachable.all_returned (laws : Laws write derive Holds Derived) [Nonempty ι]
    (h : Reachable write derive args s₀ s) (hall : ∀ i, s.phase i = .returned) :
    (∃ i, Holds (args i) s.shared) ∧ Derived s.shared := by
  obtain ⟨i⟩ := ‹Nonempty ι›
  obtain ⟨⟨j, _, hj⟩, hd⟩ := h.converges laws ⟨i, hall i⟩ fun j hj => by simp [hall j] at hj
  exact ⟨⟨j, hj⟩, hd⟩

/-- Two calls that both write before either derives: the first one derives from the arguments of
the second. -/
theorem Reachable.crossing (write : α → σ → σ) (derive : σ → σ) (args : Bool → α) (s₀ : σ) :
    Reachable write derive args s₀
      ⟨derive (derive (write (args true) (write (args false) s₀))), fun _ => .returned⟩ := by
  have h₁ : Reachable write derive args s₀ _ := .step .start (.write false rfl)
  have h₂ : Reachable write derive args s₀ _ := h₁.step (.write true rfl)
  have h₃ : Reachable write derive args s₀ _ := h₂.step (.derive false rfl)
  have h₄ : Reachable write derive args s₀ _ := h₃.step (.derive true rfl)
  convert h₄ using 2
  funext i
  cases i <;> rfl

end Rebinding
