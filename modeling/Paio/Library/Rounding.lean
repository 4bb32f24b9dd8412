import Mathlib.Algebra.Order.Archimedean.Basic
import Mathlib.Algebra.Order.Field.Power
import Mathlib.Data.Int.Log
import Mathlib.Data.Rat.Floor
import Mathlib.Logic.Function.Iterate
import Mathlib.Tactic.FieldSimp
import Mathlib.Tactic.Linarith
import Mathlib.Tactic.Ring

/-!
# Paio.Library.Rounding

Binary floating point with significands of `p` digits. A number of the format is a rational, and an
operation gives the number nearest to its exact result, of two such numbers the one with the even
significand. The exponents have no bounds.

A loop that takes the same amount off again and again need not end: what is no more than half the
distance to the next smaller number (`gap`) can leave the number as it was. `takeOff_ends_iff` says
exactly when the loop ends.
-/

namespace Rounding

/-! ## Numbers and rounding -/

/-- The nearest integer, of two such integers the even one. -/
def halfEven (q : ℚ) : ℤ :=
  if q - ⌊q⌋ < 1 / 2 then ⌊q⌋
  else if 1 / 2 < q - ⌊q⌋ then ⌊q⌋ + 1
  else ⌊q⌋ + ⌊q⌋ % 2

/-- The distance between the numbers around `q`. -/
def ulp (p : Nat) (q : ℚ) : ℚ := 2 ^ (Int.log 2 |q| + 1 - p)

/-- The number nearest to `q`. -/
def round (p : Nat) (q : ℚ) : ℚ := halfEven (q / ulp p q) * ulp p q

/-- The numbers of the format. -/
def Representable (p : Nat) (x : ℚ) : Prop := ∃ m e : ℤ, |m| ≤ 2 ^ p ∧ x = m * 2 ^ e

/-- The distance from a positive number to the next smaller one. -/
def gap (p : Nat) (x : ℚ) : ℚ := 2 ^ (Int.clog 2 x - p)

section

variable {p : Nat} {q x : ℚ} {k : ℤ}

@[simp] theorem halfEven_intCast (k : ℤ) : halfEven (k : ℚ) = k := by
  simp [halfEven]

theorem halfEven_le (h : q < k + 1 / 2) : halfEven q ≤ k := by
  have hlow := Int.floor_le q
  have hfloor : ⌊q⌋ ≤ k := Int.floor_le_iff.mpr (by linarith)
  rcases hfloor.lt_or_eq with hlt | heq
  · unfold halfEven
    split_ifs <;> omega
  · rw [halfEven, if_pos, heq]
    rw [heq]
    linarith

theorem le_halfEven (h : (k : ℚ) - 1 / 2 < q) : k ≤ halfEven q := by
  have hfloor : k - 1 ≤ ⌊q⌋ := Int.le_floor.mpr (by push_cast; linarith)
  rcases hfloor.lt_or_eq with hlt | heq
  · unfold halfEven
    split_ifs <;> omega
  · have hfar : 1 / 2 < q - ⌊q⌋ := by
      rw [← heq]
      push_cast
      linarith
    rw [halfEven, if_neg (not_lt.mpr hfar.le), if_pos hfar]
    omega

/-- Halfway between two integers. -/
theorem halfEven_half (k : ℤ) : halfEven ((k : ℚ) - 1 / 2) = k - 1 + (k - 1) % 2 := by
  have hfloor : ⌊(k : ℚ) - 1 / 2⌋ = k - 1 := by
    rw [Int.floor_eq_iff]
    push_cast
    constructor <;> linarith
  have hmid : (k : ℚ) - 1 / 2 - ⌊(k : ℚ) - 1 / 2⌋ = 1 / 2 := by
    rw [hfloor]
    push_cast
    ring
  rw [halfEven, hmid, if_neg (lt_irrefl _), if_neg (lt_irrefl _), hfloor]

theorem ulp_pos (p : Nat) (q : ℚ) : 0 < ulp p q := by
  unfold ulp
  positivity

theorem gap_pos (p : Nat) (x : ℚ) : 0 < gap p x := by
  unfold gap
  positivity

@[simp] theorem round_zero (p : Nat) : round p 0 = 0 := by
  rw [round, zero_div, ← Int.cast_zero, halfEven_intCast, Int.cast_zero, zero_mul]

/-- The numbers between two powers of two have one distance. -/
theorem ulp_eq (hlow : 2 ^ k ≤ q) (hhigh : q < 2 ^ (k + 1)) : ulp p q = 2 ^ (k + 1 - p) := by
  have hq : 0 < q := lt_of_lt_of_le (by positivity) hlow
  have hlog : Int.log 2 |q| = k := by
    rw [abs_of_pos hq]
    apply le_antisymm
    · have hlt := (Int.lt_zpow_iff_log_lt (b := 2) (by decide) hq).mp (by exact_mod_cast hhigh)
      exact Int.lt_add_one_iff.mp hlt
    · exact (Int.zpow_le_iff_le_log (by decide) hq).mp (by exact_mod_cast hlow)
  rw [ulp, hlog]

/-- A positive number lies between two powers of two. -/
theorem exists_binade (hq : 0 < q) : ∃ k : ℤ, 2 ^ k ≤ q ∧ q < 2 ^ (k + 1) := by
  refine ⟨Int.log 2 q, ?_, ?_⟩
  · exact_mod_cast Int.zpow_log_le_self (b := 2) (by decide) hq
  · exact_mod_cast Int.lt_zpow_succ_log_self (b := 2) (by decide) q

theorem two_pow_mul_ulp (p : Nat) (k : ℤ) : (2 : ℚ) ^ p * 2 ^ (k - p) = 2 ^ k := by
  rw [← zpow_natCast, ← zpow_add₀ two_ne_zero]
  congr 1
  omega

/-- Rounding does not pass a power of two. -/
theorem round_le_two_pow (hq : 0 < q) (hlt : q < 2 ^ k) : round p q ≤ 2 ^ k := by
  obtain ⟨j, hlow, hhigh⟩ := exists_binade hq
  have hjk : j + 1 ≤ k := by
    have hpow : (2 : ℚ) ^ j < 2 ^ k := hlow.trans_lt hlt
    exact (zpow_lt_zpow_iff_right₀ one_lt_two).mp hpow
  have hulp := ulp_pos p q
  have hsig : halfEven (q / ulp p q) ≤ 2 ^ p := by
    apply halfEven_le
    rw [div_lt_iff₀ hulp, ulp_eq hlow hhigh]
    have hpow := two_pow_mul_ulp p (j + 1)
    have hunit : (0 : ℚ) < 2 ^ (j + 1 - p) := by positivity
    push_cast
    nlinarith
  calc round p q ≤ 2 ^ p * ulp p q :=
        mul_le_mul_of_nonneg_right (by exact_mod_cast hsig) hulp.le
    _ = 2 ^ (j + 1) := by rw [ulp_eq hlow hhigh, two_pow_mul_ulp]
    _ ≤ 2 ^ k := zpow_le_zpow_right₀ one_le_two hjk

/-- Nor does it pass a multiple of the distance. -/
theorem mul_ulp_le_round (hle : k * ulp p q ≤ q) : k * ulp p q ≤ round p q := by
  have hulp := ulp_pos p q
  have hdiv : (k : ℚ) ≤ q / ulp p q := (le_div_iff₀ hulp).mpr hle
  have hsig : k ≤ halfEven (q / ulp p q) := le_halfEven (by linarith)
  exact mul_le_mul_of_nonneg_right (by exact_mod_cast hsig) hulp.le

/-- A power of two is a multiple of the distance at every number that is not smaller. -/
theorem two_pow_eq_mul_ulp (hp : 0 < p) (hlow : 2 ^ k ≤ q) (hhigh : q < 2 ^ (k + 1)) :
    (2 : ℚ) ^ k = ((2 ^ (p - 1) : ℤ) : ℚ) * ulp p q := by
  rw [ulp_eq hlow hhigh]
  push_cast
  rw [← zpow_natCast, ← zpow_add₀ two_ne_zero]
  congr 1
  omega

/-- Nor does it pass a number of the format. -/
theorem le_round (hp : 0 < p) (hx : Representable p x) (hq : 0 < q) (hxq : x ≤ q) :
    x ≤ round p q := by
  obtain ⟨k, hlow, hhigh⟩ := exists_binade hq
  obtain ⟨m, e, hm, rfl⟩ := hx
  rcases le_or_gt (k + 1 - p) e with he | he
  · -- a multiple of the distance at `q`
    have hmul : (m : ℚ) * 2 ^ e = ((m * 2 ^ (e - (k + 1 - p)).toNat : ℤ) : ℚ) * ulp p q := by
      rw [ulp_eq hlow hhigh]
      push_cast
      rw [← zpow_natCast, mul_assoc, ← zpow_add₀ two_ne_zero]
      congr 2
      omega
    rw [hmul] at hxq ⊢
    exact mul_ulp_le_round hxq
  · -- no larger than the power of two below `q`
    have hsmall : (m : ℚ) * 2 ^ e ≤ 2 ^ k := by
      have hm' : (m : ℚ) ≤ 2 ^ p := by exact_mod_cast (le_abs_self m).trans hm
      calc (m : ℚ) * 2 ^ e ≤ 2 ^ p * 2 ^ e := mul_le_mul_of_nonneg_right hm' (by positivity)
        _ ≤ 2 ^ p * 2 ^ (k - p) := by
          refine mul_le_mul_of_nonneg_left (zpow_le_zpow_right₀ one_le_two ?_) (by positivity)
          omega
        _ = 2 ^ k := two_pow_mul_ulp p k
    refine hsmall.trans ?_
    have hmul := two_pow_eq_mul_ulp hp hlow hhigh
    rw [hmul] at hlow ⊢
    exact mul_ulp_le_round hlow

theorem representable_round (hq : 0 < q) : Representable p (round p q) := by
  obtain ⟨k, hlow, hhigh⟩ := exists_binade hq
  refine ⟨halfEven (q / ulp p q), k + 1 - p, ?_, ?_⟩
  · have hulp := ulp_pos p q
    have hnonneg : 0 ≤ halfEven (q / ulp p q) := by
      apply le_halfEven
      have hdiv : 0 < q / ulp p q := div_pos hq hulp
      push_cast
      linarith
    rw [abs_of_nonneg hnonneg]
    apply halfEven_le
    rw [div_lt_iff₀ hulp, ulp_eq hlow hhigh]
    have hpow := two_pow_mul_ulp p (k + 1)
    have hunit : (0 : ℚ) < 2 ^ (k + 1 - p) := by positivity
    push_cast
    nlinarith
  · rw [round, ulp_eq hlow hhigh]

end

/-! ## The next smaller number -/

section

variable {p : Nat} {c q x : ℚ}

theorem gap_mono (hq : 0 < q) (hle : q ≤ x) : gap p q ≤ gap p x := by
  refine zpow_le_zpow_right₀ one_le_two ?_
  have hclog := Int.clog_mono_right (b := 2) hq hle
  omega

/-- A positive number of the format as a multiple of the distance to the next smaller one, with the
powers of two around it. -/
structure Significand (p : Nat) (x : ℚ) (k n : ℤ) : Prop where
  low : 2 ^ k < x
  high : x ≤ 2 ^ (k + 1)
  gap_eq : gap p x = 2 ^ (k + 1 - p)
  eq_mul : x = n * gap p x

theorem exists_significand (hx : Representable p x) (hpos : 0 < x) :
    ∃ k n, Significand p x k n := by
  have hlow : (2 : ℚ) ^ (Int.clog 2 x - 1) < x := by
    exact_mod_cast Int.zpow_pred_clog_lt_self (b := 2) (by decide) hpos
  have hhigh : x ≤ (2 : ℚ) ^ (Int.clog 2 x - 1 + 1) := by
    rw [sub_add_cancel]
    exact_mod_cast Int.self_le_zpow_clog (b := 2) (by decide) x
  have hgap : gap p x = 2 ^ (Int.clog 2 x - 1 + 1 - p) := by rw [gap, sub_add_cancel]
  obtain ⟨m, e, hm, hme⟩ := hx
  have he : Int.clog 2 x - p ≤ e := by
    by_contra hsmall
    have hm' : (m : ℚ) ≤ 2 ^ p := by exact_mod_cast (le_abs_self m).trans hm
    have hle : x ≤ 2 ^ (Int.clog 2 x - 1) := by
      calc x = m * 2 ^ e := hme
        _ ≤ 2 ^ p * 2 ^ e := mul_le_mul_of_nonneg_right hm' (by positivity)
        _ ≤ 2 ^ p * 2 ^ (Int.clog 2 x - 1 - p) := by
          refine mul_le_mul_of_nonneg_left (zpow_le_zpow_right₀ one_le_two ?_) (by positivity)
          omega
        _ = 2 ^ (Int.clog 2 x - 1) := two_pow_mul_ulp p _
    exact absurd hlow (not_lt.mpr hle)
  refine ⟨_, m * 2 ^ (e - (Int.clog 2 x - p)).toNat, hlow, hhigh, hgap, ?_⟩
  rw [gap]
  push_cast
  rw [← zpow_natCast, mul_assoc, ← zpow_add₀ two_ne_zero]
  conv_lhs => rw [hme]
  congr 2
  omega

theorem Significand.two_pow_eq {k n : ℤ} (h : Significand p x k n) (hp : 0 < p) :
    (2 : ℚ) ^ k = ((2 ^ (p - 1) : ℤ) : ℚ) * gap p x := by
  rw [h.gap_eq]
  push_cast
  rw [← zpow_natCast, ← zpow_add₀ two_ne_zero]
  congr 1
  omega

theorem Significand.le_sub_gap {k n : ℤ} (h : Significand p x k n) (hp : 0 < p) :
    2 ^ k ≤ x - gap p x := by
  have hgap := gap_pos p x
  have hpow := h.two_pow_eq hp
  have hlow := h.low
  rw [h.eq_mul, hpow, mul_lt_mul_iff_of_pos_right hgap, Int.cast_lt] at hlow
  have hle : ((2 ^ (p - 1) : ℤ) : ℚ) ≤ n - 1 := by exact_mod_cast Int.le_sub_one_of_lt hlow
  calc (2 : ℚ) ^ k = ((2 ^ (p - 1) : ℤ) : ℚ) * gap p x := hpow
    _ ≤ (n - 1) * gap p x := mul_le_mul_of_nonneg_right hle hgap.le
    _ = x - gap p x := by
      rw [sub_mul, one_mul, ← h.eq_mul]

/-- Below a number of the format the distance is its gap. -/
theorem Significand.ulp_eq_gap {k n : ℤ} (h : Significand p x k n) (hlow : 2 ^ k ≤ q)
    (hlt : q < x) : ulp p q = gap p x := by
  rw [ulp_eq hlow (hlt.trans_le h.high), h.gap_eq]

theorem Significand.sub_div_gap {k n : ℤ} (h : Significand p x k n) (c : ℚ) :
    (x - c) / gap p x = n - c / gap p x := by
  have hgap := (gap_pos p x).ne'
  rw [sub_div, div_left_inj' hgap |>.mpr h.eq_mul, mul_div_cancel_right₀ _ hgap]

/-- Numbers of the format stay as they are. -/
theorem round_eq_self (hp : 0 < p) (hx : Representable p x) (hpos : 0 < x) : round p x = x := by
  obtain ⟨k, n, h⟩ := exists_significand hx hpos
  obtain ⟨j, hj⟩ : ∃ j : ℤ, x = j * ulp p x := by
    rcases h.high.lt_or_eq with hlt | heq
    · refine ⟨n, ?_⟩
      rw [ulp_eq h.low.le hlt, ← h.gap_eq]
      exact h.eq_mul
    · have hlt : x < 2 ^ (k + 1 + 1) := by
        rw [heq]
        exact zpow_lt_zpow_right₀ one_lt_two (by omega)
      exact ⟨2 ^ (p - 1), heq.trans (two_pow_eq_mul_ulp hp heq.ge hlt)⟩
  rw [round, (div_eq_iff (ulp_pos p x).ne').mpr hj, halfEven_intCast]
  exact hj.symm

theorem representable_intCast {m : ℤ} (hm : |m| ≤ 2 ^ p) : Representable p (m : ℚ) :=
  ⟨m, 0, hm, by rw [zpow_zero, mul_one]⟩

theorem representable_two_zpow (p : Nat) (k : ℤ) : Representable p ((2 : ℚ) ^ k) := by
  refine ⟨1, k, ?_, ?_⟩
  · rw [abs_one]
    exact one_le_pow₀ one_le_two
  · rw [Int.cast_one, one_mul]

/-! ## Taking off the same amount -/

/-- Less than half the gap is lost in rounding. -/
theorem round_sub_lt_half (hp : 0 < p) (hx : Representable p x) (hpos : 0 < x) (hc : 0 < c)
    (hhalf : 2 * c < gap p x) : round p (x - c) = x := by
  obtain ⟨k, n, h⟩ := exists_significand hx hpos
  have hgap := gap_pos p x
  have hulp : ulp p (x - c) = gap p x := by
    apply h.ulp_eq_gap
    · linarith [h.le_sub_gap hp]
    · linarith
  have hfrac : 0 < c / gap p x ∧ c / gap p x < 1 / 2 := by
    refine ⟨div_pos hc hgap, ?_⟩
    rw [div_lt_iff₀ hgap]
    linarith
  have hsig : halfEven (n - c / gap p x) = n := by
    apply le_antisymm
    · apply halfEven_le
      linarith
    · apply le_halfEven
      linarith
  rw [round, hulp, h.sub_div_gap, hsig]
  exact h.eq_mul.symm

/-- Half the gap is lost when the significand is even, and else the whole gap is taken off. -/
theorem Significand.round_sub_half {k n : ℤ} (h : Significand p x k n) (hp : 0 < p)
    (hhalf : 2 * c = gap p x) :
    round p (x - c) = if n % 2 = 0 then x else x - gap p x := by
  have hgap := gap_pos p x
  have hulp : ulp p (x - c) = gap p x := by
    apply h.ulp_eq_gap
    · linarith [h.le_sub_gap hp]
    · linarith
  have hfrac : c / gap p x = 1 / 2 := by
    rw [div_eq_iff hgap.ne']
    linarith
  rw [round, hulp, h.sub_div_gap, hfrac, halfEven_half]
  split
  · have hodd : n - 1 + (n - 1) % 2 = n := by omega
    rw [hodd]
    exact h.eq_mul.symm
  · have heven : n - 1 + (n - 1) % 2 = n - 1 := by omega
    rw [heven, Int.cast_sub, Int.cast_one, sub_mul, one_mul, ← h.eq_mul]

/-- More than half the gap takes at least the gap off. -/
theorem round_sub_le (hp : 0 < p) (hx : Representable p x) (hc : c < x)
    (hhalf : gap p x < 2 * c) : round p (x - c) ≤ x - gap p x := by
  have hgap := gap_pos p x
  have hpos : 0 < x := by linarith
  obtain ⟨k, n, h⟩ := exists_significand hx hpos
  rcases lt_or_ge (x - c) (2 ^ k) with hlt | hge
  · exact (round_le_two_pow (sub_pos.mpr hc) hlt).trans (h.le_sub_gap hp)
  · have hulp : ulp p (x - c) = gap p x := h.ulp_eq_gap hge (by linarith)
    have hfrac : 1 / 2 < c / gap p x := by
      rw [lt_div_iff₀ hgap]
      linarith
    have hsig : halfEven (n - c / gap p x) ≤ n - 1 := by
      apply halfEven_le
      push_cast
      linarith
    calc round p (x - c) = halfEven (n - c / gap p x) * gap p x := by
          rw [round, hulp, h.sub_div_gap]
      _ ≤ ((n - 1 : ℤ) : ℚ) * gap p x :=
          mul_le_mul_of_nonneg_right (by exact_mod_cast hsig) hgap.le
      _ = x - gap p x := by
          rw [Int.cast_sub, Int.cast_one, sub_mul, one_mul, ← h.eq_mul]

/-- What is left after at most `c` was taken off. -/
def takeOff (p : Nat) (c left : ℚ) : ℚ := round p (left - min left c)

theorem takeOff_of_le (hle : x ≤ c) : takeOff p c x = 0 := by
  rw [takeOff, min_eq_left hle, sub_self, round_zero]

theorem takeOff_of_ge (hle : c ≤ x) : takeOff p c x = round p (x - c) := by
  rw [takeOff, min_eq_right hle]

theorem gap_lt (hp : 0 < p) (hpos : 0 < x) : gap p x < x := by
  have hlow : (2 : ℚ) ^ (Int.clog 2 x - 1) < x := by
    exact_mod_cast Int.zpow_pred_clog_lt_self (b := 2) (by decide) hpos
  refine lt_of_le_of_lt (zpow_le_zpow_right₀ one_le_two ?_) hlow
  omega

/-- An amount of more than half the gap is taken off again and again until nothing is left. -/
theorem takeOff_ends (hp : 0 < p) (hx : Representable p x) (hpos : 0 < x)
    (hhalf : gap p x < 2 * c) : ∃ k, (takeOff p c)^[k] x ≤ 0 := by
  have hc : 0 < c := by linarith [gap_pos p x]
  have hunit := gap_pos p c
  -- by induction on how often the gap of `c` fits into what is left
  obtain ⟨steps, hsteps⟩ : ∃ steps : Nat, x / gap p c ≤ steps := exists_nat_ge _
  rw [div_le_iff₀ hunit] at hsteps
  induction steps generalizing x with
  | zero =>
    rw [Nat.cast_zero, zero_mul] at hsteps
    exact absurd hpos (not_lt.mpr hsteps)
  | succ steps ih =>
    rcases le_or_gt x c with hle | hgt
    · exact ⟨1, (takeOff_of_le hle).le⟩
    · have hless : takeOff p c x ≤ x - gap p x := by
        rw [takeOff_of_ge hgt.le]
        exact round_sub_le hp hx hgt hhalf
      have hgap : gap p c ≤ gap p x := gap_mono hc hgt.le
      rcases le_or_gt (takeOff p c x) 0 with hdone | hmore
      · exact ⟨1, hdone⟩
      · have hx' : Representable p (takeOff p c x) := by
          rw [takeOff_of_ge hgt.le]
          exact representable_round (sub_pos.mpr hgt)
        have hle : takeOff p c x ≤ x := by linarith [gap_pos p x]
        have hsteps' : takeOff p c x ≤ steps * gap p c := by
          push_cast at hsteps
          linarith
        obtain ⟨k, hk⟩ := ih hx' hmore ((gap_mono hmore hle).trans_lt hhalf) hsteps'
        exact ⟨k + 1, by rwa [Function.iterate_succ_apply]⟩

/-- What is left as it was is left for ever. -/
theorem iterate_takeOff_pos (hfix : takeOff p c x = x) (hpos : 0 < x) (k : Nat) :
    0 < (takeOff p c)^[k] x := by
  rwa [Function.iterate_fixed hfix]

/-- The number before one that is not next to a power of two has the same gap. -/
theorem Significand.sub_gap {k n : ℤ} (h : Significand p x k n) (hlow : 2 ^ k < x - gap p x) :
    Significand p (x - gap p x) k (n - 1) := by
  have hgap := gap_pos p x
  have hhigh : x - gap p x ≤ 2 ^ (k + 1) := by linarith [h.high]
  have hclog : Int.clog 2 (x - gap p x) = k + 1 := by
    have hpos : 0 < x - gap p x := lt_trans (by positivity) hlow
    apply le_antisymm
    · exact (Int.le_zpow_iff_clog_le (by decide) hpos).mp (by exact_mod_cast hhigh)
    · exact (Int.zpow_lt_iff_lt_clog (by decide) hpos).mp (by exact_mod_cast hlow)
  have heq : gap p (x - gap p x) = gap p x := by rw [gap, hclog, h.gap_eq]
  refine ⟨hlow, hhigh, heq.trans h.gap_eq, ?_⟩
  rw [heq, Int.cast_sub, Int.cast_one, sub_mul, one_mul, ← h.eq_mul]

/-- Half the gap is taken off no more than once, unless a power of two comes next. -/
theorem Significand.takeOff_half_pos {k n : ℤ} (h : Significand p x k n) (hp : 0 < p)
    (hhalf : 2 * c = gap p x) (hfar : 2 ^ k < x - gap p x) (steps : Nat) :
    0 < (takeOff p c)^[steps] x := by
  have hgap := gap_pos p x
  have hpow : (0 : ℚ) < 2 ^ k := by positivity
  have hlt : gap p x < x := by linarith
  have htake : takeOff p c x = if n % 2 = 0 then x else x - gap p x := by
    rw [takeOff_of_ge (by linarith), h.round_sub_half hp hhalf]
  rcases Int.emod_two_eq_zero_or_one n with heven | hodd
  · rw [if_pos heven] at htake
    exact iterate_takeOff_pos htake (hgap.trans hlt) steps
  · rw [if_neg (by omega)] at htake
    have hnext := h.sub_gap hfar
    have heq : gap p (x - gap p x) = gap p x := hnext.gap_eq.trans h.gap_eq.symm
    have hpos : 0 < x - gap p x := hpow.trans hfar
    have hlt' : gap p (x - gap p x) < x - gap p x := gap_lt hp hpos
    have hstays : takeOff p c (x - gap p x) = x - gap p x := by
      rw [takeOff_of_ge (by linarith), hnext.round_sub_half hp (hhalf.trans heq.symm),
        if_pos (by omega)]
    cases steps with
    | zero => exact hgap.trans hlt
    | succ steps =>
      rw [Function.iterate_succ_apply, htake]
      exact iterate_takeOff_pos hstays hpos steps

/-- Next to a power of two it is taken off, and the gap is then half as wide. -/
theorem takeOff_half_ends (hp : 2 ≤ p) (hx : Representable p x) (hpos : 0 < x)
    (hhalf : 2 * c = gap p x) {j : ℤ} (hnext : x = 2 ^ j + gap p x) :
    ∃ k, (takeOff p c)^[k] x ≤ 0 := by
  have hp' : 0 < p := by omega
  have hgap := gap_pos p x
  obtain ⟨k, n, h⟩ := exists_significand hx hpos
  have hsub : x - gap p x = 2 ^ j := by linarith
  have hkj : k = j := by
    have hle : (2 : ℚ) ^ k ≤ 2 ^ j := hsub ▸ h.le_sub_gap hp'
    have hlt : (2 : ℚ) ^ j < 2 ^ (k + 1) := by linarith [h.high]
    have hle' := (zpow_le_zpow_iff_right₀ (one_lt_two (α := ℚ))).mp hle
    have hlt' := (zpow_lt_zpow_iff_right₀ (one_lt_two (α := ℚ))).mp hlt
    omega
  subst hkj
  -- the significand is odd, one more than a power of two
  have hodd : ¬ n % 2 = 0 := by
    have hn : (n : ℚ) = ((2 ^ (p - 1) + 1 : ℤ) : ℚ) := by
      have hmul : (n : ℚ) * gap p x = ((2 ^ (p - 1) + 1 : ℤ) : ℚ) * gap p x := by
        rw [← h.eq_mul, Int.cast_add, Int.cast_one, add_mul, one_mul, ← h.two_pow_eq hp']
        exact hnext
      exact mul_right_cancel₀ hgap.ne' hmul
    have hn' : n = 2 ^ (p - 1) + 1 := by exact_mod_cast hn
    obtain ⟨d, rfl⟩ := Nat.exists_eq_add_of_le' hp
    rw [hn', Nat.add_sub_assoc (by decide), pow_add]
    omega
  have hlt : gap p x < x := gap_lt hp' hpos
  have htake : takeOff p c x = 2 ^ k := by
    rw [takeOff_of_ge (by linarith), h.round_sub_half hp' hhalf, if_neg hodd, hsub]
  have hclog : gap p ((2 : ℚ) ^ k) < 2 * c := by
    rw [hhalf, h.gap_eq, gap]
    refine zpow_lt_zpow_right₀ one_lt_two ?_
    have hk : Int.clog 2 ((2 : ℚ) ^ k) = k := by
      exact_mod_cast Int.clog_zpow (R := ℚ) (b := 2) (by decide) k
    omega
  obtain ⟨steps, hsteps⟩ := takeOff_ends hp' (representable_two_zpow p k) (by positivity) hclog
  exact ⟨steps + 1, by rwa [Function.iterate_succ_apply, htake]⟩

/-- Nothing comes of taking off nothing, or less. -/
theorem takeOff_nonpos_pos (hp : 0 < p) (hc : c ≤ 0) (hx : Representable p x) (hpos : 0 < x)
    (k : Nat) : 0 < (takeOff p c)^[k] x := by
  induction k generalizing x with
  | zero => exact hpos
  | succ k ih =>
    have hsub : 0 < x - c := by linarith
    have htake : takeOff p c x = round p (x - c) := takeOff_of_ge (hc.trans hpos.le)
    rw [Function.iterate_succ_apply, htake]
    exact ih (representable_round hsub) (hpos.trans_le (le_round hp hx hsub (by linarith)))

/-- The loop ends if and only if the amount is more than half the gap, or just half of it while the
next smaller number is a power of two. -/
theorem takeOff_ends_iff (hp : 2 ≤ p) (hx : Representable p x) (hpos : 0 < x) :
    (∃ k, (takeOff p c)^[k] x ≤ 0) ↔
      gap p x < 2 * c ∨ gap p x = 2 * c ∧ ∃ j : ℤ, x = 2 ^ j + gap p x := by
  have hp' : 0 < p := by omega
  have hgap := gap_pos p x
  constructor
  · rintro ⟨steps, hsteps⟩
    by_contra hstuck
    rw [not_or, not_and, not_exists] at hstuck
    obtain ⟨hle, hnext⟩ := hstuck
    refine absurd hsteps (not_le.mpr ?_)
    rcases le_or_gt c 0 with hc | hc
    · exact takeOff_nonpos_pos hp' hc hx hpos steps
    · rcases (not_lt.mp hle).lt_or_eq with hlt | heq
      · have hfix : takeOff p c x = x := by
          rw [takeOff_of_ge (by linarith [gap_lt hp' hpos])]
          exact round_sub_lt_half hp' hx hpos hc hlt
        exact iterate_takeOff_pos hfix hpos steps
      · obtain ⟨k, n, h⟩ := exists_significand hx hpos
        have hfar : 2 ^ k < x - gap p x := by
          refine lt_of_le_of_ne (h.le_sub_gap hp') ?_
          intro heq'
          exact hnext heq.symm k (by linarith)
        exact h.takeOff_half_pos hp' heq hfar steps
  · rintro (hhalf | ⟨heq, j, hnext⟩)
    · exact takeOff_ends hp' hx hpos hhalf
    · exact takeOff_half_ends hp hx hpos heq.symm hnext

end

end Rounding
