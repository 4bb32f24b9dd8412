import Mathlib.Data.List.Basic

/-!
# Paio.Library.CallSequence

Sequences of calls on a deterministic component: each call comes back with a new state and a
reply, or does not come back. `run` makes the calls one after the other and collects the replies.

`run_filter` is the unwinding argument for isolation. Some calls matter to an observer, the others
do not; a relation between states says that the observer cannot tell them apart. If calls that do
not matter keep the relation on one side, and calls that matter give the same reply on both sides
and keep it, then a run and the run of only the calls that matter give the same replies to these
calls and end in related states.
-/

namespace CallSequence

variable {σ κ ρ φ : Type}

def run (step : σ → κ → Except φ (σ × ρ)) : σ → List κ → Except φ (σ × List ρ)
  | s, [] => .ok (s, [])
  | s, c :: cs =>
    match step s c with
    | .error f => .error f
    | .ok (s', r) =>
      match run step s' cs with
      | .error f => .error f
      | .ok (s'', rs) => .ok (s'', r :: rs)

variable {step : σ → κ → Except φ (σ × ρ)}

theorem run_cons {s s'' : σ} {c : κ} {cs : List κ} {rs : List ρ}
    (h : run step s (c :: cs) = .ok (s'', rs)) :
    ∃ s' r rs', step s c = .ok (s', r) ∧ run step s' cs = .ok (s'', rs') ∧ rs = r :: rs' := by
  simp only [run] at h
  split at h
  · cases h
  · rename_i s' r hs
    split at h
    · cases h
    · rename_i s₁ rs' hr
      cases h
      exact ⟨s', r, rs', hs, hr, rfl⟩

theorem run_cons_ok {s s' s'' : σ} {c : κ} {cs : List κ} {r : ρ} {rs : List ρ}
    (hs : step s c = .ok (s', r)) (hr : run step s' cs = .ok (s'', rs)) :
    run step s (c :: cs) = .ok (s'', r :: rs) := by
  simp only [run, hs, hr]

theorem run_snoc {s s' s'' : σ} {c : κ} {cs : List κ} {r : ρ} {rs : List ρ}
    (hr : run step s cs = .ok (s', rs)) (hs : step s' c = .ok (s'', r)) :
    run step s (cs ++ [c]) = .ok (s'', rs ++ [r]) := by
  induction cs generalizing s rs with
  | nil =>
    cases hr
    exact run_cons_ok hs rfl
  | cons c' cs ih =>
    obtain ⟨s₁, r', rs', hs', hr', rfl⟩ := run_cons hr
    exact run_cons_ok hs' (ih hr')

/-- The replies to the calls that matter, in order. -/
def repliesTo (relevant : κ → Bool) (cs : List κ) (rs : List ρ) : List ρ :=
  ((cs.zip rs).filter fun p => relevant p.1).map Prod.snd

theorem run_filter (relevant : κ → Bool) (R : σ → σ → Prop)
    (hirrelevant : ∀ {s s' t : σ} {c : κ} {r : ρ}, relevant c = false → R s t →
      step s c = .ok (s', r) → R s' t)
    (hrelevant : ∀ {s s' t : σ} {c : κ} {r : ρ}, relevant c = true → R s t →
      step s c = .ok (s', r) → ∃ t', step t c = .ok (t', r) ∧ R s' t')
    {s s' t : σ} {cs : List κ} {rs : List ρ} (hR : R s t) (h : run step s cs = .ok (s', rs)) :
    ∃ t', run step t (cs.filter relevant) = .ok (t', repliesTo relevant cs rs) ∧ R s' t' := by
  induction cs generalizing s t rs with
  | nil =>
    simp only [run] at h
    cases h
    exact ⟨t, rfl, hR⟩
  | cons c cs ih =>
    obtain ⟨s₁, r, rs', hs, hr, rfl⟩ := run_cons h
    cases hc : relevant c with
    | false =>
      obtain ⟨t', ht, hR'⟩ := ih (hirrelevant hc hR hs) hr
      refine ⟨t', ?_, hR'⟩
      simpa [repliesTo, List.filter_cons, hc] using ht
    | true =>
      obtain ⟨t₁, hst, hR₁⟩ := hrelevant hc hR hs
      obtain ⟨t', ht, hR'⟩ := ih hR₁ hr
      refine ⟨t', ?_, hR'⟩
      simpa [repliesTo, List.filter_cons, hc] using run_cons_ok hst ht

end CallSequence
