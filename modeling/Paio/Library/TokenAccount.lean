import Mathlib.Algebra.Order.Field.Basic
import Mathlib.Algebra.BigOperators.Group.List.Basic
import Mathlib.Algebra.Order.Floor.Semiring
import Mathlib.Logic.Relation
import Mathlib.Tactic.Linarith
import Mathlib.Tactic.Positivity

/-!
# Paio.Library.TokenAccount

What a token bucket is for, without its code. An account has a balance, an instant from which it
may be refilled, the present instant and a history of what was spent when. It can be refilled to
the capacity `C` once the due instant is reached, which puts the next due instant a period `P`
later; an amount can be spent when the balance covers it; and time can pass, as a relation `R`
between instants allows.

Two facts hold over every run. The balance stays between zero and the capacity, whatever the clock
does. And if time never goes back, then whatever the window, at most `C * (T / P + 2)` is spent in
a window of length `T`: one balance that was there when the window opened, and one for each of the
at most `T / P + 1` refills in it.
-/

namespace TokenAccount

variable {𝕜 : Type} [Field 𝕜] [LinearOrder 𝕜]

structure Account (𝕜 : Type) where
  balance : 𝕜
  due : Int
  now : Int
  spent : List (Int × 𝕜) := []

inductive Step (C : 𝕜) (P : Int) (R : Int → Int → Prop) : Account 𝕜 → Account 𝕜 → Prop
  | refill {a : Account 𝕜} (h : a.due ≤ a.now) :
      Step C P R a { a with balance := C, due := a.now + P }
  | spend {a : Account 𝕜} {x : 𝕜} (hx : 0 ≤ x) (h : x ≤ a.balance) :
      Step C P R a { a with balance := a.balance - x, spent := (a.now, x) :: a.spent }
  | pass {a : Account 𝕜} {t : Int} (h : R a.now t) : Step C P R a { a with now := t }

abbrev Run (C : 𝕜) (P : Int) (R : Int → Int → Prop) : Account 𝕜 → Account 𝕜 → Prop :=
  Relation.ReflTransGen (Step C P R)

variable {C : 𝕜} {P : Int} {R : Int → Int → Prop} {a a' : Account 𝕜}

/-- What is preserved by a step is preserved by a run. -/
theorem Run.preserves {I : Account 𝕜 → Prop} (hstep : ∀ a a', Step C P R a a' → I a → I a')
    (h : Run C P R a a') (ha : I a) : I a' := by
  induction h with
  | refl => exact ha
  | tail _ hs ih => exact hstep _ _ hs ih

/-- Nothing negative is ever spent. -/
theorem Run.spent_nonneg (h : Run C P R a a') (ha : ∀ e ∈ a.spent, 0 ≤ e.2) :
    ∀ e ∈ a'.spent, 0 ≤ e.2 := by
  refine h.preserves (I := fun a => ∀ e ∈ a.spent, 0 ≤ e.2) ?_ ha
  intro a a' hs ha
  cases hs with
  | refill _ => exact ha
  | spend hx _ =>
    intro e he
    rcases List.mem_cons.mp he with rfl | hold
    · exact hx
    · exact ha e hold
  | pass _ => exact ha

/-! ## The balance -/

variable [IsStrictOrderedRing 𝕜]

def Bounded (C : 𝕜) (a : Account 𝕜) : Prop := 0 ≤ a.balance ∧ a.balance ≤ C

theorem Bounded.step (hC : 0 ≤ C) (hs : Step C P R a a') (h : Bounded C a) : Bounded C a' := by
  cases hs with
  | refill _ => exact ⟨hC, le_refl C⟩
  | spend hx hle => exact ⟨sub_nonneg.mpr hle, (sub_le_self _ hx).trans h.2⟩
  | pass _ => exact h

theorem Bounded.run (hC : 0 ≤ C) (hr : Run C P R a a') (h : Bounded C a) : Bounded C a' :=
  hr.preserves (fun _ _ hs hb => hb.step hC hs) h

/-! ## Spending in a window -/

/-- What was spent from `start` to `stop`, both included. -/
def spentIn (start stop : Int) (spent : List (Int × 𝕜)) : 𝕜 :=
  ((spent.filter fun e => start ≤ e.1 ∧ e.1 ≤ stop).map Prod.snd).sum

omit [LinearOrder 𝕜] [IsStrictOrderedRing 𝕜] in
theorem spentIn_cons (start stop : Int) (t : Int) (x : 𝕜) (spent : List (Int × 𝕜)) :
    spentIn start stop ((t, x) :: spent) =
      (if start ≤ t ∧ t ≤ stop then x else 0) + spentIn start stop spent := by
  simp only [spentIn, List.filter_cons]
  split <;> rename_i h <;> simp_all

/-- The state of the accounts of a window. Before it opens nothing is spent in it. While it is open,
`n` refills have been made in it, each a period after the one before, and what was spent and what
is left come from these and from the balance at the opening. After it has closed the bound
stands. -/
inductive Budget (C : 𝕜) (P start T : Int) (a : Account 𝕜) : Prop
  | early (hnow : a.now < start) (hspent : spentIn start (start + T) a.spent = 0)
      (hbal : a.balance ≤ C)
  | opened (n : Nat) (hnow : start ≤ a.now)
      (hspent : spentIn start (start + T) a.spent + max a.balance 0 ≤ C * (n + 1))
      (hdue : n ≠ 0 → start + n * P ≤ a.due)
      (hlast : n ≠ 0 → (n - 1 : Int) * P ≤ T)
  | closed (hnow : start + T < a.now)
      (hspent : spentIn start (start + T) a.spent ≤ C * ((T / P : Int) + 2))

theorem Budget.spent_le {start T : Int} (hC : 0 < C) (hP : 0 < P) (hT : 0 ≤ T)
    (h : Budget C P start T a) :
    spentIn start (start + T) a.spent ≤ C * ((T / P : Int) + 2) := by
  have hq : (0 : 𝕜) ≤ ((T / P : Int) : 𝕜) := by
    exact_mod_cast Int.ediv_nonneg hT hP.le
  cases h with
  | early _ hspent _ =>
    rw [hspent]
    positivity
  | opened n _ hspent _ hlast =>
    have hn : (n : Int) ≤ T / P + 1 := by
      by_cases h0 : n = 0
      · have := Int.ediv_nonneg hT hP.le
        omega
      · have := (Int.le_ediv_iff_mul_le hP).mpr (hlast h0)
        omega
    have hn' : (n : 𝕜) + 1 ≤ ((T / P : Int) : 𝕜) + 2 := by
      have hcast : ((n : Int) : 𝕜) ≤ ((T / P + 1 : Int) : 𝕜) := by exact_mod_cast hn
      push_cast at hcast
      linarith
    calc spentIn start (start + T) a.spent
        ≤ spentIn start (start + T) a.spent + max a.balance 0 :=
          le_add_of_nonneg_right (le_max_right _ _)
      _ ≤ C * (n + 1) := hspent
      _ ≤ C * ((T / P : Int) + 2) := mul_le_mul_of_nonneg_left hn' hC.le
  | closed _ hspent => exact hspent

theorem Budget.refill {start T : Int} (hC : 0 < C) (hP : 0 < P) (hT : 0 ≤ T)
    (h : Budget C P start T a) (hdue : a.due ≤ a.now) :
    Budget C P start T { a with balance := C, due := a.now + P } := by
  have hle := h.spent_le hC hP hT
  cases h with
  | early hnow hspent _ => exact .early hnow hspent (le_refl C)
  | opened n hnow hspent hdue' _ =>
    rcases lt_or_ge (start + T) a.now with hout | hin
    · exact .closed hout hle
    · have hprev : start + n * P ≤ a.now := by
        by_cases h0 : n = 0
        · simpa [h0] using hnow
        · exact (hdue' h0).trans hdue
      refine .opened (n + 1) hnow ?_ ?_ ?_
      · have hpos : spentIn start (start + T) a.spent ≤ C * (n + 1) :=
          (le_add_of_nonneg_right (le_max_right _ _)).trans hspent
        rw [max_eq_left hC.le]
        push_cast
        linarith
      · intro _
        push_cast
        linarith
      · intro _
        push_cast
        linarith
  | closed hnow hspent => exact .closed hnow hspent

theorem Budget.spend {start T : Int} {x : 𝕜} (h : Budget C P start T a) (hx : 0 ≤ x)
    (hbal : x ≤ a.balance) :
    Budget C P start T
      { a with balance := a.balance - x, spent := (a.now, x) :: a.spent } := by
  cases h with
  | early hnow hspent hC =>
    refine .early hnow ?_ ((sub_le_self _ hx).trans hC)
    rw [spentIn_cons, if_neg (fun hin => absurd hin.1 (not_le.mpr hnow)), hspent, zero_add]
  | opened n hnow hspent hdue hlast =>
    refine .opened n hnow ?_ hdue hlast
    have hcount : (if start ≤ a.now ∧ a.now ≤ start + T then x else 0) ≤ x := by
      split
      · exact le_refl x
      · exact hx
    rw [max_eq_left (hx.trans hbal)] at hspent
    rw [spentIn_cons, max_eq_left (sub_nonneg.mpr hbal)]
    linarith
  | closed hnow hspent =>
    refine .closed hnow ?_
    rw [spentIn_cons, if_neg (fun hin => absurd hin.2 (not_le.mpr hnow)), zero_add]
    exact hspent

omit [IsStrictOrderedRing 𝕜] in
theorem Budget.pass {start T t : Int} (hC : 0 < C) (h : Budget C P start T a) (ht : a.now ≤ t) :
    Budget C P start T { a with now := t } := by
  cases h with
  | early hnow hspent hbal =>
    rcases lt_or_ge t start with hlt | hge
    · exact .early hlt hspent hbal
    · refine .opened 0 hge ?_ (fun h0 => absurd rfl h0) (fun h0 => absurd rfl h0)
      rw [hspent]
      simpa using ⟨hbal, hC.le⟩
  | opened n hnow hspent hdue hlast => exact .opened n (hnow.trans ht) hspent hdue hlast
  | closed hnow hspent => exact .closed (hnow.trans_le ht) hspent

theorem Budget.step {start T : Int} (hC : 0 < C) (hP : 0 < P) (hT : 0 ≤ T)
    (hs : Step C P (· ≤ ·) a a') (h : Budget C P start T a) : Budget C P start T a' := by
  cases hs with
  | refill hdue => exact h.refill hC hP hT hdue
  | spend hx hbal => exact h.spend hx hbal
  | pass ht => exact h.pass hC ht

omit [IsStrictOrderedRing 𝕜] in
theorem budget_init {start T : Int} (hC : 0 < C) (hbal : a.balance ≤ C) (hspent : a.spent = []) :
    Budget C P start T a := by
  rcases lt_or_ge a.now start with hlt | hge
  · exact .early hlt (by simp [hspent, spentIn]) hbal
  · refine .opened 0 hge ?_ (fun h0 => absurd rfl h0) (fun h0 => absurd rfl h0)
    simpa [hspent, spentIn] using ⟨hbal, hC.le⟩

/-- Whatever the window, at most `T / P + 2` capacities are spent in it. -/
theorem Run.spentIn_le {start T : Int} (hC : 0 < C) (hP : 0 < P) (hT : 0 ≤ T)
    (hbal : a.balance ≤ C) (hspent : a.spent = []) (hr : Run C P (· ≤ ·) a a') :
    spentIn start (start + T) a'.spent ≤ C * ((T / P : Int) + 2) :=
  (hr.preserves (fun _ _ hs hb => Budget.step hC hP hT hs hb)
    (budget_init hC hbal hspent)).spent_le hC hP hT

end TokenAccount
