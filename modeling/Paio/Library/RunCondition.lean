import Mathlib.Data.List.Induction
import Mathlib.Order.Basic

/-!
# Paio.Library.RunCondition

Runs that stay good exactly when each of their steps meets a condition. `after run s` says that `s`
is a state after the run. The invariant says what the good runs keep: it gives the good states, a
step under the condition keeps it, and a step that leads to good states only meets the condition.
-/

namespace RunCondition

variable {σ ι : Type} {after : List ι → σ → Prop} {step : σ → ι → σ → Prop} {Inv Good : σ → Prop}
  {Cond : σ → ι → Prop}

/-- A run keeps the invariant when every step of it does. -/
theorem inv_of_steps (hnil : ∀ s, after [] s → Inv s)
    (hsnoc : ∀ run i s', after (run ++ [i]) s' ↔ ∃ s, after run s ∧ step s i s')
    {steps : List ι}
    (hkeep : ∀ run i, run ++ [i] <+: steps → ∀ s s', after run s → Inv s → step s i s' → Inv s')
    (run : List ι) (hrun : run <+: steps) : ∀ s, after run s → Inv s := by
  induction run using List.reverseRecOn with
  | nil => exact hnil
  | append_singleton run i ih =>
    intro s' hs'
    obtain ⟨s, hs, hstep⟩ := (hsnoc run i s').mp hs'
    exact hkeep run i hrun s s' hs (ih ((List.prefix_append run [i]).trans hrun) s hs) hstep

theorem good_iff_cond (after : List ι → σ → Prop) (step : σ → ι → σ → Prop) (Inv : σ → Prop)
    (hnil : ∀ s, after [] s → Inv s)
    (hsnoc : ∀ run i s', after (run ++ [i]) s' ↔ ∃ s, after run s ∧ step s i s')
    (hgood : ∀ s, Inv s → Good s)
    (hkeep : ∀ s i s', Inv s → Cond s i → step s i s' → Inv s')
    (hneed : ∀ s i, Inv s → (∀ s', step s i s' → Good s') → Cond s i) (steps : List ι) :
    (∀ run, run <+: steps → ∀ s, after run s → Good s) ↔
      ∀ run i, run ++ [i] <+: steps → ∀ s, after run s → Cond s i := by
  constructor
  · intro h
    have hcond : ∀ run i, run ++ [i] <+: steps → ∀ s, after run s → Inv s → Cond s i := by
      intro run i hrun s hs hinv
      apply hneed s i hinv
      intro s' hstep
      exact h _ hrun s' ((hsnoc run i s').mpr ⟨s, hs, hstep⟩)
    intro run i hrun s hs
    apply hcond run i hrun s hs
    refine inv_of_steps hnil hsnoc ?_ run ((List.prefix_append run [i]).trans hrun) s hs
    intro run i hrun s s' hs hinv hstep
    exact hkeep s i s' hinv (hcond run i hrun s hs hinv) hstep
  · intro h run hrun s hs
    apply hgood
    refine inv_of_steps hnil hsnoc ?_ run hrun s hs
    intro run i hrun s s' hs hinv hstep
    exact hkeep s i s' hinv (h run i hrun s hs) hstep

/-- The last of the calls that may fail. -/
theorem foldlM_concat {ε : Type} {call : σ → ι → Except ε σ} (run : List ι) (i : ι) (s₀ s' : σ) :
    (run ++ [i]).foldlM call s₀ = .ok s' ↔
      ∃ s, run.foldlM call s₀ = .ok s ∧ call s i = .ok s' := by
  rw [List.foldlM_append]
  cases run.foldlM call s₀ with
  | error f => simp [Bind.bind, Except.bind]
  | ok s =>
    simp only [Bind.bind, Except.bind, Except.ok.injEq, exists_eq_left', List.foldlM_cons,
      List.foldlM_nil]
    cases call s i with
    | error f => simp
    | ok s' => simp [Pure.pure, Except.pure]

/-- A run of calls that may fail comes back exactly when each call meets the condition, if the
condition says when one call comes back. -/
theorem comes_iff_cond {ε : Type} {call : σ → ι → Except ε σ} {s₀ : σ} {calls : List ι}
    (hcall : ∀ run i, run ++ [i] <+: calls → ∀ s, run.foldlM call s₀ = .ok s →
      ((∃ s', call s i = .ok s') ↔ Cond s i)) :
    (∃ s, calls.foldlM call s₀ = .ok s) ↔
      ∀ run i, run ++ [i] <+: calls → ∀ s, run.foldlM call s₀ = .ok s → Cond s i := by
  induction calls using List.reverseRecOn with
  | nil =>
    refine ⟨fun _ run i hrun => ?_, fun _ => ⟨s₀, rfl⟩⟩
    simp at hrun
  | append_singleton calls last ih =>
    have hprefix : calls <+: calls ++ [last] := List.prefix_append calls [last]
    have ih := ih fun run i hrun => hcall run i (hrun.trans hprefix)
    constructor
    · rintro ⟨s', hs'⟩ run i hrun s hs
      obtain ⟨s₁, hs₁, hlast⟩ := (foldlM_concat calls last s₀ s').mp hs'
      rcases List.prefix_concat_iff.mp hrun with heq | hrun
      · obtain ⟨rfl, hi⟩ := List.append_inj' heq rfl
        cases hi
        rw [hs] at hs₁
        cases hs₁
        exact (hcall run last hrun s hs).mp ⟨s', hlast⟩
      · exact ih.mp ⟨s₁, hs₁⟩ run i hrun s hs
    · intro hcond
      obtain ⟨s, hs⟩ := ih.mpr fun run i hrun => hcond run i (hrun.trans hprefix)
      obtain ⟨s', hs'⟩ := (hcall calls last (List.prefix_refl _) s hs).mpr
        (hcond calls last (List.prefix_refl _) s hs)
      exact ⟨s', (foldlM_concat calls last s₀ s').mpr ⟨s, hs, hs'⟩⟩

end RunCondition
