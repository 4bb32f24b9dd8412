import Paio.RoundedChunks

/-!
# Paio.Termination

Whether an enforcement ends, for every history of configurations, in the arithmetic of the source.
No configuration looks at the values it is given. A rate or a period of zero leaves a bucket without
a capacity, and the loop of `try_consume` then takes nothing from what is left, over and over. A
capacity that is small beside the amount can do the same: what is left is a `double`, and a
subtraction that is lost in rounding leaves it as it was.
-/

namespace Paio

open Polling

/-- The loop gets on: the capacity is more than half the distance from the cost to the next smaller
`double`, or half of it where that one is a power of two. -/
def Reduces (capacity cost : ℚ) : Prop :=
  Rounding.gap 53 cost < 2 * capacity ∨
    Rounding.gap 53 cost = 2 * capacity ∧ ∃ j : ℤ, cost = 2 ^ j + Rounding.gap 53 cost

theorem toDouble_zero : toDouble 0 = 0 := Rounding.round_zero 53

/-- Integers of up to 53 digits are doubles. -/
theorem toDouble_intCast {z : Int} (hpos : 0 < z) (hle : z ≤ 2 ^ 53) :
    toDouble (z : ℚ) = (z : ℚ) := by
  apply Rounding.round_eq_self (by decide)
  · exact Rounding.representable_intCast (abs_le.mpr ⟨by omega, hle⟩)
  · exact_mod_cast hpos

theorem one_le_toDouble {z : Int} (hpos : 0 < z) : 1 ≤ toDouble (z : ℚ) := by
  have hone : Rounding.Representable 53 ((1 : Int) : ℚ) :=
    Rounding.representable_intCast (by norm_num)
  rw [Int.cast_one] at hone
  apply Rounding.le_round (by decide) hone
  · exact_mod_cast hpos
  · exact_mod_cast hpos

theorem remainingIn_toDouble (capacity : ℚ) (k : Nat) (x : ℚ) :
    remainingIn toDouble capacity k x = (Rounding.takeOff 53 capacity)^[k] x := by
  induction k generalizing x with
  | zero => rfl
  | succ k ih =>
    have hchunk : Session.chunkOf capacity x = min x capacity := by
      unfold Session.chunkOf
      split
      · rename_i hlt
        exact (min_eq_left hlt.le).symm
      · rename_i hge
        exact (min_eq_right (not_lt.mp hge)).symm
    rw [remainingIn, ih, Function.iterate_succ_apply, Rounding.takeOff, hchunk]
    rfl

/-- Nothing is left of an integer amount in the end exactly when there is none or the loop gets
on. -/
theorem drainsIn_toDouble_iff (capacity : ℚ) {z : Int} (hz : 0 ≤ z) :
    DrainsIn toDouble capacity (toDouble (z : ℚ)) ↔
      z = 0 ∨ Reduces capacity (toDouble (z : ℚ)) := by
  rcases hz.eq_or_lt with rfl | hpos
  · rw [Int.cast_zero, toDouble_zero]
    exact iff_of_true (.inr ⟨0, le_refl 0⟩) (.inl rfl)
  · have hcost : 0 < toDouble (z : ℚ) := zero_lt_one.trans_le (one_le_toDouble hpos)
    have hrep : Rounding.Representable 53 (toDouble (z : ℚ)) :=
      Rounding.representable_round (by exact_mod_cast hpos)
    have hends := Rounding.takeOff_ends_iff (c := capacity) (by decide) hrep hcost
    simp only [DrainsIn, remainingIn_toDouble]
    rw [hends, Reduces, or_iff_right hpos.ne', or_iff_right_iff_imp]
    -- an amount within the capacity is taken off at once
    intro hle
    exact hends.mp ⟨1, (Rounding.takeOff_of_le hle).le⟩

namespace DynamicRateLimiter

/-- `static_cast<long>` of a quotient is defined. -/
def CastsToLong (q : ℚ) : Prop := -2 ^ 63 ≤ truncate q ∧ truncate q < 2 ^ 63

/-- The limiters that configurations with non-negative values lead to, those only that return OK.
The rate that a `refill` recovers is not defined while the period is zero (an infinity or a NaN is
cast to `long`) or when it is out of the range of `long`: the `refill` then may find any rate. -/
inductive Configured : DynamicRateLimiter → Prop
  | new (objectId : Int) (collectStatistics : Bool) (clock : Clock) :
      Configured (new objectId collectStatistics clock)
  | configure {d d' : DynamicRateLimiter} {conf : Int} {confValues : List Int} (h : Configured d)
      (hvalues : ∀ v ∈ confValues, 0 ≤ v)
      (hc : d.objConfigureIn toDouble conf confValues = .ok (d', .ok)) : Configured d'
  | refillUndefined {d : DynamicRateLimiter} (h : Configured d)
      (hcast : d.bucket.refillPeriod = 0 ∨ ¬ CastsToLong (d.rateQuotientIn toDouble))
      {window : Int} (hwindow : 0 ≤ window) (rate : Int) :
      Configured ({ d with
        bucket := ((d.bucket.setRefillPeriod window).setTokenCountIn toDouble
          (toDouble rate)).setCapacityIn toDouble (toDouble rate)
      }.updateTokenBucketRateIn toDouble)

/-- A configuration does not touch the statistics of the bucket, nor the cost of a request. -/
theorem objConfigureIn_keeps {rnd : ℚ → ℚ} {d d' : DynamicRateLimiter} {conf : Int}
    {confValues : List Int} {status : PStatus}
    (h : d.objConfigureIn rnd conf confValues = .ok (d', status)) :
    d'.bucket.tokenBucketStatistics = d.bucket.tokenBucketStatistics ∧
      d'.costPerRequest = d.costPerRequest := by
  simp only [objConfigureIn] at h
  repeat' split at h
  all_goals cases h
  · exact ⟨rfl, rfl⟩
  · refine ⟨?_, rfl⟩
    simp only [updateTokenBucketRateIn, configureRateIn]
    split <;> rfl
  · exact ⟨rfl, rfl⟩
  · exact ⟨rfl, rfl⟩

theorem Configured.keeps {d : DynamicRateLimiter} (h : Configured d) :
    d.bucket.tokenBucketStatistics = {} ∧ d.costPerRequest = 1 := by
  induction h with
  | new objectId collectStatistics clock => exact ⟨rfl, rfl⟩
  | configure _ _ hc ih =>
    obtain ⟨hring, hcost⟩ := objConfigureIn_keeps hc
    exact ⟨hring.trans ih.1, hcost.trans ih.2⟩
  | refillUndefined _ _ _ _ ih => exact ih

/-- The cost of a ticket for a limiter that was only configured. -/
theorem Configured.basicIoCostIn_eq {d : DynamicRateLimiter} (h : Configured d) (t : Ticket) :
    d.basicIoCostIn toDouble t = toDouble (t.payload : ℚ) := by
  rw [basicIoCostIn, basicIoCost, h.keeps.2]
  simp

/-- The statistic entries that enforcing a ticket leaves, or would leave. -/
noncomputable def recordedFor (clock : Clock) (d : DynamicRateLimiter) (t : Ticket) : Nat :=
  Session.recordedByIn toDouble clock (d.basicIoCostIn toDouble t) { bucket := d.bucket }

theorem objEnforceIn_returns_iff {rnd : ℚ → ℚ} {clock : Clock} {d : DynamicRateLimiter} {t : Ticket}
    (r : Result) :
    (∃ fuel d' r', d.objEnforceIn rnd clock fuel t r = .ok (d', r')) ↔
      ∃ fuel s', Session.tryConsumeIn rnd clock fuel (d.basicIoCostIn rnd t)
        { bucket := d.bucket } = .returned s' := by
  constructor
  · rintro ⟨fuel, d', r', h⟩
    simp only [objEnforceIn] at h
    split at h
    · cases h
    · rename_i s' hs'
      exact ⟨fuel, s', hs'⟩
  · rintro ⟨fuel, s', hs'⟩
    refine ⟨fuel, { d with bucket := s'.bucket }, t.writeResult r, ?_⟩
    rw [objEnforceIn, hs']

/-- After any configurations, and under any clock that advances, a ticket is enforced in the end
exactly when it has no payload or the capacity reduces it, and the statistic entries of its waits
do not exceed what the counter of the ring can take. -/
theorem configured_ends_iff {clock : Clock} (hclock : Advances clock) {d : DynamicRateLimiter}
    (h : Configured d) {t : Ticket} (ht : 0 ≤ t.payload) (r : Result) :
    (∃ fuel d' r', d.objEnforceIn toDouble clock fuel t r = .ok (d', r')) ↔
      (t.payload = 0 ∨ Reduces d.bucket.capacity (toDouble t.payload)) ∧
        d.recordedFor clock t ≤ 2 ^ 31 := by
  obtain ⟨hring, -⟩ := h.keeps
  have hreachable : d.bucket.tokenBucketStatistics.Reachable [] := by
    rw [hring]
    exact .new
  have hstored : Session.Stored { bucket := d.bucket } 0 := ⟨[], hreachable.holds, rfl⟩
  rw [objEnforceIn_returns_iff, Session.tryConsumeIn_returns_iff hclock toDouble_zero hstored,
    h.basicIoCostIn_eq, drainsIn_toDouble_iff _ ht, Nat.zero_add, recordedFor, h.basicIoCostIn_eq]
  rfl

/-- The default limiter, asked for one token. -/
theorem configured_ends_default : ∃ fuel d' r',
    (new 1 false fun _ => 0).objEnforceIn toDouble (fun k => k) fuel {} {} = .ok (d', r') := by
  refine (configured_ends_iff Session.advances_natCast (.new 1 false fun _ => 0) ?_ {}).mpr ⟨?_, ?_⟩
  · decide
  · right
    left
    have hone : toDouble ((1 : Int) : ℚ) = ((1 : Int) : ℚ) :=
      toDouble_intCast (by decide) (by decide)
    have hgap : Rounding.gap 53 1 < 1 := Rounding.gap_lt (by decide) zero_lt_one
    show Rounding.gap 53 (toDouble ((1 : Int) : ℚ)) < 2 * 50000
    rw [hone, Int.cast_one]
    linarith
  · rw [recordedFor, Session.recordedByIn, BucketSetup.recorded,
      if_neg (by simp [TokenBucket.setup, new, TokenBucket.new])]
    norm_num

/-- Without reducing the cost the loop goes on, whatever the clock shows. -/
theorem Configured.objEnforceIn_endless {d : DynamicRateLimiter} (h : Configured d) {t : Ticket}
    (ht : 0 < t.payload) (hstuck : ¬ Reduces d.bucket.capacity (toDouble t.payload))
    (clock : Clock) (fuel : Nat) (r : Result) (d' : DynamicRateLimiter) (r' : Result) :
    d.objEnforceIn toDouble clock fuel t r ≠ .ok (d', r') := by
  intro he
  obtain ⟨fuel', s', hs'⟩ := (objEnforceIn_returns_iff r).mp ⟨fuel, d', r', he⟩
  refine Session.tryConsumeIn_endless toDouble_zero ?_ fuel' s' hs'
  rw [h.basicIoCostIn_eq, drainsIn_toDouble_iff _ ht.le, not_or]
  exact ⟨ht.ne', hstuck⟩

/-- The capacity of a bucket that is set to a rate for a period of a second. -/
theorem normalizeTokensIn_second {b : TokenBucket} (hP : b.refillPeriod = 1000000) (rate : ℚ) :
    b.normalizeTokensIn toDouble rate = toDouble rate := by
  have hmillion : toDouble ((1000000 : Int) : ℚ) = ((1000000 : Int) : ℚ) :=
    toDouble_intCast (by decide) (by decide)
  have hthousand : toDouble ((1000 : Int) : ℚ) = ((1000 : Int) : ℚ) :=
    toDouble_intCast (by decide) (by decide)
  have hone : toDouble ((1 : Int) : ℚ) = ((1 : Int) : ℚ) :=
    toDouble_intCast (by decide) (by decide)
  have hseconds : b.refillSecondsIn toDouble = 1 := by
    rw [TokenBucket.refillSecondsIn, hP, hmillion]
    norm_num at hthousand hone ⊢
    rw [hthousand]
    norm_num [hone]
  rw [TokenBucket.normalizeTokensIn, hseconds, mul_one]

/-- A capacity of one token does not reduce 2 ^ 54. -/
theorem not_reduces_one : ¬ Reduces 1 (2 ^ 54) := by
  have hgap : Rounding.gap 53 (2 ^ 54) = 2 := by
    have hclog : Int.clog 2 ((2 : ℚ) ^ (54 : ℤ)) = 54 := by
      exact_mod_cast Int.clog_zpow (R := ℚ) (b := 2) (by decide) 54
    have hpow : (2 : ℚ) ^ 54 = 2 ^ (54 : ℤ) := rfl
    rw [Rounding.gap, hpow, hclog]
    norm_num
  rw [Reduces, hgap]
  rintro (hlt | ⟨-, j, hj⟩)
  · norm_num at hlt
  · -- no power of two is two less than 2 ^ 54
    rcases lt_or_ge j 54 with hlt | hge
    · have hpow : (2 : ℚ) ^ j ≤ 2 ^ (53 : ℤ) := zpow_le_zpow_right₀ one_le_two (by omega)
      norm_num at hj hpow
      linarith
    · have hpow : (2 : ℚ) ^ (54 : ℤ) ≤ 2 ^ j := zpow_le_zpow_right₀ one_le_two hge
      norm_num at hj hpow
      linarith

/-- A new limiter that is initialized with the rate for a period of a second, which returns OK, and
then never lets the ticket pass. -/
def NeverEnds (rate : Int) (t : Ticket) : Prop :=
  ∃ d, Configured d ∧
    (new 1 false fun _ => 0).objConfigureIn toDouble DRLConfiguration.init.toInt [1000000, rate] =
      .ok (d, .ok) ∧
    ∀ clock fuel d' r', d.objEnforceIn toDouble clock fuel t {} ≠ .ok (d', r')

theorem neverEnds_of_not_reduces {rate : Int} {t : Ticket} (hrate : 0 ≤ rate)
    (hpayload : 0 < t.payload)
    (hstuck : ¬ Reduces (toDouble (toDouble rate)) (toDouble t.payload)) : NeverEnds rate t := by
  have hc : (new 1 false fun _ => 0).objConfigureIn toDouble DRLConfiguration.init.toInt
      [1000000, rate] = .ok (_, .ok) := rfl
  have hcapacity : ((new 1 false fun _ => 0).initializeBucketIn toDouble 1000000
      rate).bucket.capacity = toDouble (toDouble rate) := normalizeTokensIn_second rfl _
  have hconfigured := Configured.configure (.new 1 false fun _ => 0) (by simpa using hrate) hc
  refine ⟨_, hconfigured, hc, ?_⟩
  intro clock fuel d' r'
  refine hconfigured.objEnforceIn_endless hpayload ?_ clock fuel {} d' r'
  exact hcapacity ▸ hstuck

/-- With a rate of zero no request passes, and with a rate of one no request of 2 ^ 54. -/
theorem low_rates_never_end :
    NeverEnds 0 { payload := 1 } ∧ NeverEnds 1 { payload := 2 ^ 54 } := by
  have hone : toDouble ((1 : Int) : ℚ) = ((1 : Int) : ℚ) :=
    toDouble_intCast (by decide) (by decide)
  constructor
  · refine neverEnds_of_not_reduces (le_refl 0) (by decide) ?_
    have hgap := Rounding.gap_pos 53 (toDouble ((1 : Int) : ℚ))
    simp only [Int.cast_zero, toDouble_zero, Reduces]
    rintro (hlt | ⟨heq, -⟩) <;> linarith
  · refine neverEnds_of_not_reduces (by decide) (by decide) ?_
    have hlarge : toDouble ((2 ^ 54 : Int) : ℚ) = 2 ^ 54 := by
      rw [Int.cast_pow]
      exact Rounding.round_eq_self (by decide) (Rounding.representable_two_zpow 53 54)
        (by positivity)
    simp only [hone, hlarge]
    rw [Int.cast_one]
    exact not_reduces_one

end DynamicRateLimiter

end Paio
