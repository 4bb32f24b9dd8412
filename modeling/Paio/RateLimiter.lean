import Mathlib.Tactic.FieldSimp
import Mathlib.Tactic.Ring
import Paio.EnforcementObject
import Paio.RateBound

/-!
# Paio.RateLimiter

The rate limiter over whole runs of `obj_configure` and `obj_enforce`. The three configurations
write period, capacity and tokens in different orders, and `configure_refill_window` has to recover
the rate from the capacity; `Consistent` is what they all keep: the tokens are within the capacity,
and the capacity is the rate times the period.
-/

namespace Paio

open TokenAccount

/-- The rate of a bucket that was not configured: the default capacity of 50000 tokens for the
default period of a second. -/
def defaultRate : Int := 50000

namespace DynamicRateLimiter

/-- The states of a rate limiter, with the rate that the last `init` or `rate` gave it. The default
constructor of the source makes the state `new 0 false`. -/
inductive Run : DynamicRateLimiter → Int → Prop
  | new (objectId : Int) (collectStatistics : Bool) (clock : Clock) :
      Run (new objectId collectStatistics clock) defaultRate
  | init {d d' : DynamicRateLimiter} {rate P R : Int} {status : PStatus} (h : Run d rate)
      (hP : 0 < P) (hR : 0 ≤ R)
      (hc : d.objConfigure DRLConfiguration.init.toInt [P, R] = .ok (d', status)) : Run d' R
  | rate {d d' : DynamicRateLimiter} {rate R : Int} {status : PStatus} (h : Run d rate)
      (hR : 0 ≤ R)
      (hc : d.objConfigure DRLConfiguration.rate.toInt [R] = .ok (d', status)) : Run d' R
  | refill {d d' : DynamicRateLimiter} {rate P : Int} {status : PStatus} (h : Run d rate)
      (hP : 0 < P)
      (hc : d.objConfigure DRLConfiguration.refill.toInt [P] = .ok (d', status)) : Run d' rate
  | enforce {d d' : DynamicRateLimiter} {rate : Int} {clock : Clock} {fuel : Nat} {t : Ticket}
      {r r' : Result} (h : Run d rate) (ht : 0 ≤ t.payload)
      (he : d.objEnforce clock fuel t r = .ok (d', r')) : Run d' rate

structure Consistent (d : DynamicRateLimiter) (rate : Int) : Prop where
  rate_nonneg : 0 ≤ rate
  period_pos : 0 < d.bucket.refillPeriod
  tokens_nonneg : 0 ≤ d.bucket.tokens
  tokens_le : d.bucket.tokens ≤ d.bucket.capacity
  capacity_eq : d.bucket.capacity * 10 ^ 6 = rate * d.bucket.refillPeriod

theorem Consistent.capacity_nonneg {d : DynamicRateLimiter} {rate : Int}
    (h : d.Consistent rate) : 0 ≤ d.bucket.capacity :=
  h.tokens_nonneg.trans h.tokens_le

theorem normalizeTokens_eq (b : TokenBucket) (throughput : ℚ) :
    b.normalizeTokens throughput * 10 ^ 6 = throughput * b.refillPeriod := by
  simp only [TokenBucket.normalizeTokens]
  ring

theorem normalizeTokens_nonneg {b : TokenBucket} (hP : 0 < b.refillPeriod) {rate : Int}
    (hR : 0 ≤ rate) : 0 ≤ b.normalizeTokens rate := by
  have hP' : (0 : ℚ) ≤ b.refillPeriod := by exact_mod_cast hP.le
  have hR' : (0 : ℚ) ≤ rate := by exact_mod_cast hR
  simp only [TokenBucket.normalizeTokens]
  positivity

/-- Dividing the capacity by the period gives back the rate, so cutting off the fraction loses
nothing. -/
theorem Consistent.getTokenBucketRate_eq {d : DynamicRateLimiter} {rate : Int}
    (h : d.Consistent rate) : d.getTokenBucketRate = rate := by
  have hP : (d.bucket.refillPeriod : ℚ) ≠ 0 := by exact_mod_cast h.period_pos.ne'
  have hq : d.bucket.capacity / ((d.bucket.refillPeriod : ℚ) / 1000 / 1000) = rate := by
    have hc := h.capacity_eq
    field_simp
    linarith
  rw [getTokenBucketRate, hq, truncate_intCast]

/-- A bucket whose tokens and capacity were both set to the same rate. -/
theorem consistent_fill (d : DynamicRateLimiter) {b : TokenBucket} {rate : Int}
    (hP : 0 < b.refillPeriod) (hR : 0 ≤ rate) :
    ({ d with bucket := (b.setTokenCount rate).setCapacity rate } : DynamicRateLimiter).Consistent
      rate where
  rate_nonneg := hR
  period_pos := hP
  tokens_nonneg := normalizeTokens_nonneg hP hR
  tokens_le := le_refl _
  capacity_eq := normalizeTokens_eq b rate

theorem Consistent.updateTokenBucketRate {d : DynamicRateLimiter} {rate : Int}
    (h : d.Consistent rate) : d.updateTokenBucketRate.Consistent rate :=
  ⟨h.rate_nonneg, h.period_pos, h.tokens_nonneg, h.tokens_le, h.capacity_eq⟩

theorem consistent_new (objectId : Int) (collectStatistics : Bool) (clock : Clock) :
    (new objectId collectStatistics clock).Consistent defaultRate := by
  refine ⟨by decide, ?_, ?_, ?_, ?_⟩ <;> norm_num [new, TokenBucket.new, defaultRate]

theorem Consistent.configureRate {d : DynamicRateLimiter} {rate R : Int} (h : d.Consistent rate)
    (hR : 0 ≤ R) : (d.configureRate R).Consistent R := by
  have hnn := normalizeTokens_nonneg h.period_pos hR
  simp only [DynamicRateLimiter.configureRate]
  split
  · exact ⟨hR, h.period_pos, hnn, le_refl _, normalizeTokens_eq _ _⟩
  · rename_i hle
    exact ⟨hR, h.period_pos, h.tokens_nonneg, not_lt.mp hle, normalizeTokens_eq _ _⟩

theorem Consistent.configureRefillWindow {d : DynamicRateLimiter} {rate P : Int}
    (h : d.Consistent rate) (hP : 0 < P) : (d.configureRefillWindow P).Consistent rate := by
  simp only [DynamicRateLimiter.configureRefillWindow, h.getTokenBucketRate_eq]
  exact consistent_fill d hP h.rate_nonneg

/-- Waiting and consuming keep the bucket within its bounds, whatever the clock shows. -/
theorem Consistent.objEnforce {d d' : DynamicRateLimiter} {rate : Int} {clock : Clock} {fuel : Nat}
    {t : Ticket} {r r' : Result} (h : d.Consistent rate) (ht : 0 ≤ t.payload)
    (he : d.objEnforce clock fuel t r = .ok (d', r')) : d'.Consistent rate := by
  have hcost : 0 ≤ d.basicIoCost t := d.basicIoCost_nonneg ht
  have hr : Session.Refines clock (fun _ _ => True) { bucket := d.bucket, instant := 0 }
      (d.consume clock fuel 0 t).session :=
    Session.tryConsume_refines (fun _ => trivial) hcost fuel h.capacity_nonneg
  simp only [DynamicRateLimiter.objEnforce] at he
  split at he
  · cases he
  · rename_i s hs
    cases he
    rw [hs] at hr
    obtain ⟨hnn, hle⟩ : Bounded d.bucket.capacity (s.account clock) :=
      Bounded.run h.capacity_nonneg hr.run ⟨h.tokens_nonneg, h.tokens_le⟩
    refine ⟨h.rate_nonneg, ?_, hnn, hle.trans_eq hr.capacity.symm, ?_⟩
    · exact h.period_pos.trans_eq hr.refillPeriod.symm
    · have hc := hr.capacity
      have hp := hr.refillPeriod
      simp only [Outcome.session] at hc hp
      simp only [hc, hp]
      exact h.capacity_eq

theorem Run.consistent {d : DynamicRateLimiter} {rate : Int} (h : Run d rate) :
    d.Consistent rate := by
  induction h with
  | new objectId collectStatistics clock => exact consistent_new objectId collectStatistics clock
  | @init d _ _ P R _ _ hP hR hc _ =>
    cases hc
    exact (consistent_fill (b := d.bucket.setRefillPeriod P) d hP hR).updateTokenBucketRate
  | rate _ hR hc ih =>
    cases hc
    exact (ih.configureRate hR).updateTokenBucketRate
  | refill _ hP hc ih =>
    cases hc
    exact (ih.configureRefillWindow hP).updateTokenBucketRate
  | enforce h ht he ih => exact ih.objEnforce ht he

/-- In every run the tokens are within the capacity and the capacity is the configured rate times
the current period, so the rate can be read back from the bucket whatever the period was set to. -/
theorem run_tokens_capacity {d : DynamicRateLimiter} {rate : Int} (h : Run d rate) :
    0 ≤ d.bucket.tokens ∧ d.bucket.tokens ≤ d.bucket.capacity ∧
      d.bucket.capacity * 10 ^ 6 = rate * d.bucket.refillPeriod ∧
      d.getTokenBucketRate = rate := by
  have hc := h.consistent
  exact ⟨hc.tokens_nonneg, hc.tokens_le, hc.capacity_eq, hc.getTokenBucketRate_eq⟩

/-- A limiter set to 10 tokens a second that is then given a period of 300 milliseconds. -/
theorem run_tokens_capacity_refill :
    let d := (new 1 false fun _ => 0).configureRate 10
    let d' := (d.updateTokenBucketRate.configureRefillWindow 300000).updateTokenBucketRate
    d'.bucket.capacity * 10 ^ 6 = (10 : Int) * (300000 : Int) ∧ d'.getTokenBucketRate = 10 := by
  intro d d'
  have h : Run d' 10 :=
    .refill (.rate (.new 1 false fun _ => 0) (by decide) rfl) (by decide) rfl
  exact (run_tokens_capacity h).2.2

end DynamicRateLimiter

end Paio
