import Mathlib.Data.Int.ConditionallyCompleteOrder
import Mathlib.Data.Rat.Cast.Order
import Paio.Library.TokenAccount
import Paio.TokenBucket

/-!
# Paio.RateBound

The token bucket is a token account: every call of `try_consume`, whether it returns or is cut off
in one of its loops, is a run of the account whose balance is `m_tokens` and whose due instant is
`m_next_refill_period`. What holds for accounts therefore holds for the bucket, in particular the
bound on the tokens that leave it in a window of time.
-/

namespace Paio

open TokenAccount

namespace Session

/-- A session as an account: the present is the instant the next reading will give. -/
def account (clock : Clock) (s : Session) : Account ℚ where
  balance := s.bucket.tokens
  due := s.bucket.nextRefillPeriod
  now := clock s.instant
  spent := s.consumed.map fun e => (clock e.1, e.2)

/-- `s'` comes from `s` by a run of the account; capacity and period stay as they are. -/
structure Refines (clock : Clock) (R : Int → Int → Prop) (s s' : Session) : Prop where
  capacity : s'.bucket.capacity = s.bucket.capacity
  refillPeriod : s'.bucket.refillPeriod = s.bucket.refillPeriod
  run : Run s.bucket.capacity s.bucket.refillPeriod R (s.account clock) (s'.account clock)

section

variable {clock : Clock} {R : Int → Int → Prop} {s s' s'' : Session}

theorem Refines.refl : Refines clock R s s := ⟨rfl, rfl, .refl⟩

theorem Refines.trans (h : Refines clock R s s') (h' : Refines clock R s' s'') :
    Refines clock R s s'' where
  capacity := h'.capacity.trans h.capacity
  refillPeriod := h'.refillPeriod.trans h.refillPeriod
  run := by
    have hr := h'.run
    rw [h.capacity, h.refillPeriod] at hr
    exact h.run.trans hr

variable (hclock : ∀ k, R (clock k) (clock (k + 1)))

include hclock

/-- A reading of the clock lets time pass. -/
theorem refines_read {bucket : TokenBucket} (hcap : bucket.capacity = s.bucket.capacity)
    (htokens : bucket.tokens = s.bucket.tokens)
    (hperiod : bucket.refillPeriod = s.bucket.refillPeriod)
    (hnext : bucket.nextRefillPeriod = s.bucket.nextRefillPeriod) :
    Refines clock R s { s with bucket := bucket, instant := s.instant + 1 } where
  capacity := hcap
  refillPeriod := hperiod
  run := by
    have hs : Step s.bucket.capacity s.bucket.refillPeriod R (s.account clock)
        { s.account clock with now := clock (s.instant + 1) } := .pass (hclock s.instant)
    refine .single ?_
    simpa only [account, htokens, hnext] using hs

theorem tryRefill_refines : Refines clock R s (s.tryRefill clock).2 := by
  simp only [tryRefill, isTimeToRefill]
  split
  · rename_i hdue
    -- the account is refilled at the instant of the first reading
    have hrefill : Refines clock R s
        { s with
          bucket := { s.bucket with
            tokens := s.bucket.capacity
            nextRefillPeriod := s.bucket.calcNextRefillPeriod (clock s.instant) } } :=
      ⟨rfl, rfl, .single (.refill (by simp only [account]; omega))⟩
    simp only [refillOperation]
    split
    · exact (hrefill.trans (refines_read hclock rfl rfl rfl rfl)).trans
        (refines_read hclock rfl rfl rfl rfl)
    · exact hrefill.trans (refines_read hclock rfl rfl rfl rfl)
  · exact refines_read hclock rfl rfl rfl rfl

theorem awaitRefill_refines (h : s.awaitRefill clock = .ok s') : Refines clock R s s' := by
  simp only [awaitRefill] at h
  split at h
  · split at h
    · rename_i bucket hb
      cases h
      simp only [TokenBucket.recordOutOfTokensStat] at hb
      split at hb
      · cases hb
        exact (refines_read hclock rfl rfl rfl rfl).trans (refines_read hclock rfl rfl rfl rfl)
      · cases hb
    · cases h
  · cases h
    exact .refl

theorem subtract_refines {x : ℚ} (hx : 0 ≤ x) (h : x ≤ s.bucket.tokens) :
    Refines clock R s (s.subtract x) := by
  refine ⟨rfl, rfl, .tail (.single (.spend hx h)) ?_⟩
  exact .pass (hclock s.instant)

theorem consumeOperation_refines {x : ℚ} (hx : 0 ≤ x) (fuel : Nat) (s : Session) :
    Refines clock R s (s.consumeOperation clock fuel x).session := by
  induction fuel generalizing s with
  | zero => exact .refl
  | succ fuel ih =>
    simp only [consumeOperation]
    split
    · have hr : Refines clock R s (s.tryRefill clock).2 := tryRefill_refines hclock
      split
      · split
        · rename_i s'' hs
          exact (hr.trans (awaitRefill_refines hclock hs)).trans (ih s'')
        · exact hr
      · exact hr.trans (ih _)
    · rename_i h
      exact subtract_refines hclock hx (not_lt.mp h)

/-- The chunks of a large request stay between zero and what is left of it. -/
theorem consumeChunks_refines {left chunk : ℚ} (hchunk : 0 ≤ chunk) (hleft : chunk ≤ left)
    (fuel : Nat) (s : Session) (hcap : chunk ≤ s.bucket.capacity) :
    Refines clock R s (s.consumeChunks clock fuel left chunk).session := by
  induction fuel generalizing left chunk s with
  | zero => exact .refl
  | succ fuel ih =>
    simp only [consumeChunks]
    split
    · have hc := consumeOperation_refines hclock hchunk fuel s
      split
      · rename_i f s' hs
        rwa [hs] at hc
      · rename_i s' hs
        rw [hs] at hc
        have hcap' : chunk ≤ s'.bucket.capacity := hcap.trans_eq hc.capacity.symm
        refine hc.trans ?_
        split
        · rename_i hlt
          exact ih (sub_nonneg.mpr hleft) (le_refl _) s' hlt.le
        · rename_i hge
          exact ih hchunk (hcap'.trans (not_lt.mp hge)) s' hcap'
    · exact .refl

/-- A call of `try_consume` is a run of the account, also when it is cut off. -/
theorem tryConsume_refines {x : ℚ} (hx : 0 ≤ x) (fuel : Nat) (hC : 0 ≤ s.bucket.capacity) :
    Refines clock R s (s.tryConsume clock fuel x).session := by
  simp only [tryConsume]
  split
  · rename_i hgt
    exact consumeChunks_refines hclock hC hgt.le fuel s (le_refl _)
  · exact consumeOperation_refines hclock hx fuel s

theorem tryConsumeAll_refines {amounts : List ℚ} (hnonneg : ∀ x ∈ amounts, 0 ≤ x) (fuel : Nat)
    (hC : 0 ≤ s.bucket.capacity) :
    Refines clock R s (s.tryConsumeAll clock fuel amounts).session := by
  induction amounts generalizing s with
  | nil => exact .refl
  | cons x rest ih =>
    have hx := tryConsume_refines hclock (s := s) (hnonneg x List.mem_cons_self) fuel hC
    simp only [tryConsumeAll]
    split
    · rename_i f s' hs
      rwa [hs] at hx
    · rename_i s' hs
      rw [hs] at hx
      have hC' : 0 ≤ s'.bucket.capacity := hC.trans_eq hx.capacity.symm
      exact hx.trans (ih (fun y hy => hnonneg y (List.mem_cons_of_mem x hy)) hC')

end

/-- The tokens that `consume_operation` subtracted from `start` to `stop`, both included. -/
def tokensConsumedIn (clock : Clock) (start stop : Int) (s : Session) : ℚ :=
  ((s.consumed.filter fun e => start ≤ clock e.1 ∧ clock e.1 ≤ stop).map Prod.snd).sum

theorem spentIn_account (clock : Clock) (start stop : Int) (s : Session) :
    spentIn start stop (s.account clock).spent = s.tokensConsumedIn clock start stop := by
  simp [spentIn, account, tokensConsumedIn, List.filter_map, Function.comp_def]

/-- The rate bound: in a window of length `T` a bucket gives away at most `T / P + 2` times its
capacity, whatever is asked of it and also while its calls are still waiting. -/
theorem tryConsumeAll_tokensConsumedIn_le {clock : Clock} (hclock : Monotone clock) {s : Session}
    (hC : 0 < s.bucket.capacity) (hP : 0 < s.bucket.refillPeriod)
    (htokens : s.bucket.tokens ≤ s.bucket.capacity) (hfresh : s.consumed = [])
    {amounts : List ℚ} (hnonneg : ∀ x ∈ amounts, 0 ≤ x) (fuel : Nat) (start : Int) {T : Int}
    (hT : 0 ≤ T) :
    (s.tryConsumeAll clock fuel amounts).session.tokensConsumedIn clock start (start + T) ≤
      s.bucket.capacity * ((T / s.bucket.refillPeriod : Int) + 2) := by
  have hr := tryConsumeAll_refines (R := (· ≤ ·)) (fun k => hclock (Nat.le_succ k)) hnonneg fuel
    hC.le
  rw [← spentIn_account]
  exact hr.run.spentIn_le hC hP hT htokens (by simp [account, hfresh])

/-- Ten tokens every 100 microseconds, and a request larger than the capacity. -/
theorem tryConsumeAll_tokensConsumedIn_ten :
    let s : Session :=
      { bucket :=
          { capacity := 10
            tokens := 10
            refillPeriod := 100
            nextRefillPeriod := 100
            lastRefillPeriod := 0 } }
    let clock : Clock := fun k => 30 * k
    (s.tryConsumeAll clock 40 [4, 25, 5]).session.tokensConsumedIn clock 0 (0 + 250) ≤
      10 * ((250 / 100 : Int) + 2) := by
  intro s clock
  refine tryConsumeAll_tokensConsumedIn_le ?_ ?_ ?_ (le_refl _) rfl ?_ 40 0 (by decide)
  · intro j k hjk
    simp only [clock]
    omega
  · simp [s]
  · simp [s]
  · simp

end Session

end Paio
