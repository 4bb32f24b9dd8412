import Paio.Library.TokenAccount

/-!
# Paio.Library.TunedAccount

A token account whose capacity and period are changed while it is in use. A refill fills it to the
capacity of the moment and puts the next one a period of the moment later; besides, the balance may
be set anew at any time (`fill`), or be cut down (`lower`).

When no capacity is larger than `C` and no period shorter than `P`, an account without `fill` is
bounded as the account of `TokenAccount` is, and each `fill` in a window allows one capacity more:
at most `C * (T / P + 2 + n)` is spent in a window of length `T` with `n` of them
(`Run.spentIn_le`). Nothing is asked of how often capacity and period change.
-/

namespace TunedAccount

open TokenAccount

variable {𝕜 : Type} [Field 𝕜] [LinearOrder 𝕜]

/-- `fills` are the instants at which the balance was set. -/
structure Tuned (𝕜 : Type) extends Account 𝕜 where
  fills : List Int := []

inductive Step (C : 𝕜) (P : Int) : Tuned 𝕜 → Tuned 𝕜 → Prop
  | refill {a : Tuned 𝕜} {c : 𝕜} {p : Int} (hc : 0 ≤ c) (hle : c ≤ C) (hp : P ≤ p)
      (h : a.due ≤ a.now) : Step C P a { a with balance := c, due := a.now + p }
  | fill {a : Tuned 𝕜} {c : 𝕜} (hc : 0 ≤ c) (hle : c ≤ C) :
      Step C P a { a with balance := c, fills := a.now :: a.fills }
  | lower {a : Tuned 𝕜} {b : 𝕜} (h : b ≤ a.balance) : Step C P a { a with balance := b }
  | spend {a : Tuned 𝕜} {x : 𝕜} (hx : 0 ≤ x) (h : x ≤ a.balance) :
      Step C P a { a with balance := a.balance - x, spent := (a.now, x) :: a.spent }
  | pass {a : Tuned 𝕜} {t : Int} (h : a.now ≤ t) : Step C P a { a with now := t }

abbrev Run (C : 𝕜) (P : Int) : Tuned 𝕜 → Tuned 𝕜 → Prop := Relation.ReflTransGen (Step C P)

variable {C : 𝕜} {P : Int}

/-- The same account after more was spent before. -/
def after (earlier : List (Int × 𝕜)) (fills : List Int) (a : Account 𝕜) : Tuned 𝕜 :=
  { a with spent := a.spent ++ earlier, fills := fills }

/-- A run under one capacity and one period, with what was spent before it. -/
theorem run_of_account {c : 𝕜} {p : Int} (hc : 0 ≤ c) (hle : c ≤ C) (hp : P ≤ p)
    (earlier : List (Int × 𝕜)) (fills : List Int) {a a' : Account 𝕜}
    (h : TokenAccount.Run c p (· ≤ ·) a a') :
    Run C P (after earlier fills a) (after earlier fills a') := by
  induction h with
  | refl => exact .refl
  | tail _ hs ih =>
    refine ih.tail ?_
    cases hs with
    | refill hdue =>
      exact .refill (a := after earlier fills _) hc hle hp hdue
    | spend hx hbal => exact .spend (a := after earlier fills _) hx hbal
    | pass ht => exact .pass (a := after earlier fills _) ht

/-! ## Spending in a window -/

/-- How many of the instants are from `start` to `stop`, both included. -/
def fillsIn (start stop : Int) (fills : List Int) : Nat :=
  (fills.filter fun t => start ≤ t ∧ t ≤ stop).length

theorem fillsIn_cons (start stop t : Int) (fills : List Int) :
    fillsIn start stop (t :: fills) =
      (if start ≤ t ∧ t ≤ stop then 1 else 0) + fillsIn start stop fills := by
  simp only [fillsIn, List.filter_cons]
  by_cases h : start ≤ t ∧ t ≤ stop
  · simp [h, Nat.add_comm]
  · simp [h]

variable [IsStrictOrderedRing 𝕜]

/-- The phases of a window, as for an account that is not tuned: `n` refills were made in it, and
one capacity was added for each `fill`. -/
inductive Budget (C : 𝕜) (P start T : Int) (a : Tuned 𝕜) : Prop
  | early (hnow : a.now < start) (hspent : spentIn start (start + T) a.spent = 0)
      (hbal : a.balance ≤ C)
  | opened (n : Nat) (hnow : start ≤ a.now)
      (hspent : spentIn start (start + T) a.spent + max a.balance 0 ≤
        C * (n + 1 + fillsIn start (start + T) a.fills))
      (hdue : n ≠ 0 → start + n * P ≤ a.due)
      (hlast : n ≠ 0 → (n - 1 : Int) * P ≤ T)
  | closed (hnow : start + T < a.now)
      (hspent : spentIn start (start + T) a.spent ≤
        C * ((T / P : Int) + 2 + fillsIn start (start + T) a.fills))

variable {start T : Int} {a a' : Tuned 𝕜}

theorem Budget.spent_le (hC : 0 ≤ C) (hP : 0 < P) (hT : 0 ≤ T) (h : Budget C P start T a) :
    spentIn start (start + T) a.spent ≤
      C * ((T / P : Int) + 2 + fillsIn start (start + T) a.fills) := by
  have hdiv := Int.ediv_nonneg hT hP.le
  have hq : (0 : 𝕜) ≤ ((T / P : Int) : 𝕜) := by exact_mod_cast hdiv
  cases h with
  | early _ hspent _ =>
    rw [hspent]
    positivity
  | opened n _ hspent _ hlast =>
    have hn : (n : Int) ≤ T / P + 1 := by
      by_cases h0 : n = 0
      · omega
      · have hquot := (Int.le_ediv_iff_mul_le hP).mpr (hlast h0)
        omega
    have hcast : ((n : Int) : 𝕜) ≤ ((T / P + 1 : Int) : 𝕜) := by exact_mod_cast hn
    push_cast at hcast
    calc spentIn start (start + T) a.spent
        ≤ spentIn start (start + T) a.spent + max a.balance 0 :=
          le_add_of_nonneg_right (le_max_right _ _)
      _ ≤ C * (n + 1 + fillsIn start (start + T) a.fills) := hspent
      _ ≤ C * ((T / P : Int) + 2 + fillsIn start (start + T) a.fills) :=
          mul_le_mul_of_nonneg_left (by linarith) hC
  | closed _ hspent => exact hspent

theorem Budget.refill (hC : 0 ≤ C) (hP : 0 < P) (hT : 0 ≤ T) (h : Budget C P start T a) {c : 𝕜}
    {p : Int} (hc : 0 ≤ c) (hle : c ≤ C) (hp : P ≤ p) (hdue : a.due ≤ a.now) :
    Budget C P start T { a with balance := c, due := a.now + p } := by
  have hbound := h.spent_le hC hP hT
  cases h with
  | early hnow hspent _ => exact .early hnow hspent hle
  | opened n hnow hspent hdue' _ =>
    rcases lt_or_ge (start + T) a.now with hout | hin
    · exact .closed hout hbound
    · have hprev : start + n * P ≤ a.now := by
        by_cases h0 : n = 0
        · simpa [h0] using hnow
        · exact (hdue' h0).trans hdue
      refine .opened (n + 1) hnow ?_ ?_ ?_
      · have hpos : spentIn start (start + T) a.spent ≤
            C * (n + 1 + fillsIn start (start + T) a.fills) :=
          (le_add_of_nonneg_right (le_max_right _ _)).trans hspent
        rw [max_eq_left hc]
        push_cast
        linarith
      · intro _
        push_cast
        linarith
      · intro _
        push_cast
        linarith
  | closed hnow hspent => exact .closed hnow hspent

theorem Budget.fill (hC : 0 ≤ C) (hP : 0 < P) (hT : 0 ≤ T) (h : Budget C P start T a) {c : 𝕜}
    (hc : 0 ≤ c) (hle : c ≤ C) :
    Budget C P start T { a with balance := c, fills := a.now :: a.fills } := by
  have hbound := h.spent_le hC hP hT
  cases h with
  | early hnow hspent _ => exact .early hnow hspent hle
  | opened n hnow hspent hdue hlast =>
    rcases lt_or_ge (start + T) a.now with hout | hin
    · refine .closed hout ?_
      rwa [fillsIn_cons, if_neg (fun hwithin => absurd hwithin.2 (not_le.mpr hout)), zero_add]
    · refine .opened n hnow ?_ hdue hlast
      have hpos : spentIn start (start + T) a.spent ≤
          C * (n + 1 + fillsIn start (start + T) a.fills) :=
        (le_add_of_nonneg_right (le_max_right _ _)).trans hspent
      rw [fillsIn_cons, if_pos ⟨hnow, hin⟩, max_eq_left hc]
      push_cast
      linarith
  | closed hnow hspent =>
    refine .closed hnow ?_
    rwa [fillsIn_cons, if_neg (fun hwithin => absurd hwithin.2 (not_le.mpr hnow)), zero_add]

theorem Budget.lower (h : Budget C P start T a) {b : 𝕜} (hb : b ≤ a.balance) :
    Budget C P start T { a with balance := b } := by
  cases h with
  | early hnow hspent hbal => exact .early hnow hspent (hb.trans hbal)
  | opened n hnow hspent hdue hlast =>
    have hmax : max b 0 ≤ max a.balance 0 := max_le_max_right 0 hb
    exact .opened n hnow (by linarith) hdue hlast
  | closed hnow hspent => exact .closed hnow hspent

theorem Budget.spend (h : Budget C P start T a) {x : 𝕜} (hx : 0 ≤ x) (hbal : x ≤ a.balance) :
    Budget C P start T
      { a with balance := a.balance - x, spent := (a.now, x) :: a.spent } := by
  cases h with
  | early hnow hspent hC =>
    refine .early hnow ?_ ((sub_le_self _ hx).trans hC)
    rw [spentIn_cons, if_neg (fun hin => absurd hin.1 (not_le.mpr hnow)), hspent, zero_add]
  | opened n hnow hspent hdue hlast =>
    refine .opened n hnow ?_ hdue hlast
    have hcount : (if start ≤ a.now ∧ a.now ≤ start + T then x else 0) ≤ x := by
      split
      · exact le_refl x
      · exact hx
    rw [max_eq_left (hx.trans hbal)] at hspent
    rw [spentIn_cons, max_eq_left (sub_nonneg.mpr hbal)]
    linarith
  | closed hnow hspent =>
    refine .closed hnow ?_
    rw [spentIn_cons, if_neg (fun hin => absurd hin.2 (not_le.mpr hnow)), zero_add]
    exact hspent

theorem budget_open (hC : 0 ≤ C) {t : Int} (hspent : spentIn start (start + T) a.spent = 0)
    (hbal : a.balance ≤ C) : Budget C P start T { a with now := t } := by
  rcases lt_or_ge t start with hlt | hge
  · exact .early hlt hspent hbal
  · refine .opened 0 hge ?_ (fun h0 => absurd rfl h0) (fun h0 => absurd rfl h0)
    have hmax : max a.balance 0 ≤ C := max_le hbal hC
    have hextra : 0 ≤ C * (fillsIn start (start + T) a.fills : 𝕜) :=
      mul_nonneg hC (Nat.cast_nonneg _)
    rw [hspent]
    push_cast
    linarith

theorem Budget.pass (hC : 0 ≤ C) (h : Budget C P start T a) {t : Int} (ht : a.now ≤ t) :
    Budget C P start T { a with now := t } := by
  cases h with
  | early hnow hspent hbal => exact budget_open hC hspent hbal
  | opened n hnow hspent hdue hlast => exact .opened n (hnow.trans ht) hspent hdue hlast
  | closed hnow hspent => exact .closed (hnow.trans_le ht) hspent

theorem Budget.step (hC : 0 ≤ C) (hP : 0 < P) (hT : 0 ≤ T) (hs : Step C P a a')
    (h : Budget C P start T a) : Budget C P start T a' := by
  cases hs with
  | refill hc hle hp hdue => exact h.refill hC hP hT hc hle hp hdue
  | fill hc hle => exact h.fill hC hP hT hc hle
  | lower hb => exact h.lower hb
  | spend hx hbal => exact h.spend hx hbal
  | pass ht => exact h.pass hC ht

/-- Whatever the window, at most `T / P + 2` of the largest capacities are spent in it, and one more
for each time that the balance was set anew in it. -/
theorem Run.spentIn_le (start : Int) (hC : 0 ≤ C) (hP : 0 < P) (hT : 0 ≤ T) (hbal : a.balance ≤ C)
    (hspent : a.spent = []) (hr : Run C P a a') :
    spentIn start (start + T) a'.spent ≤
      C * ((T / P : Int) + 2 + fillsIn start (start + T) a'.fills) := by
  have hbudget : Budget C P start T a' := by
    induction hr with
    | refl => exact budget_open hC (by simp [hspent, spentIn]) hbal
    | tail _ hs ih => exact ih.step hC hP hT hs
  exact hbudget.spent_le hC hP hT

omit [IsStrictOrderedRing 𝕜] in
/-- Everything that a run spends, it spends between its two ends. -/
theorem Run.between (hspent : a.spent = []) (hr : Run C P a a') :
    a.now ≤ a'.now ∧ ∀ e ∈ a'.spent, a.now ≤ e.1 ∧ e.1 ≤ a'.now := by
  induction hr with
  | refl => simp [hspent]
  | tail _ hs ih =>
    obtain ⟨hnow, hwithin⟩ := ih
    cases hs with
    | refill _ _ _ _ => exact ⟨hnow, hwithin⟩
    | fill _ _ => exact ⟨hnow, hwithin⟩
    | lower _ => exact ⟨hnow, hwithin⟩
    | spend _ _ =>
      refine ⟨hnow, ?_⟩
      rintro e (_ | ⟨_, he⟩)
      · exact ⟨hnow, le_refl _⟩
      · exact hwithin e he
    | pass ht => exact ⟨hnow.trans ht, fun e he => ⟨(hwithin e he).1, (hwithin e he).2.trans ht⟩⟩

/-- All that is spent in a run. -/
theorem Run.total_le (hC : 0 ≤ C) (hP : 0 < P) (hbal : a.balance ≤ C) (hspent : a.spent = [])
    (hr : Run C P a a') : (a'.spent.map Prod.snd).sum ≤
      C * (((a'.now - a.now) / P : Int) + 2 + a'.fills.length) := by
  obtain ⟨hnow, hwithin⟩ := hr.between hspent
  have hbound := hr.spentIn_le a.now hC hP (sub_nonneg.mpr hnow) hbal hspent
  have hall : spentIn a.now (a.now + (a'.now - a.now)) a'.spent =
      (a'.spent.map Prod.snd).sum := by
    rw [spentIn, List.filter_eq_self.mpr]
    intro e he
    simpa using hwithin e he
  have hfills : (fillsIn a.now (a.now + (a'.now - a.now)) a'.fills : 𝕜) ≤ a'.fills.length := by
    exact_mod_cast List.length_filter_le _ _
  rw [hall] at hbound
  refine hbound.trans (mul_le_mul_of_nonneg_left ?_ hC)
  linarith

end TunedAccount
