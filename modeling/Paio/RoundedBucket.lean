import Paio.EnforcementObject
import Paio.Library.Rounding

/-!
# Paio.RoundedBucket

The token bucket and the rate limiter with the arithmetic of the source, where a token is a
`double`. Every operation on tokens passes its result through `rnd`: `toDouble` gives the numbers
that the source computes, and without rounding (`id`) these are the functions of
`Paio.TokenBucket` and `Paio.EnforcementObject` (`objEnforceIn_id`, `objConfigureIn_id`).

Comparisons are exact. The statistic entries of the waits are recorded as before, since nothing
depends on their numbers. Amounts and rates are made from 64-bit integers, so no result comes near
the ends of the exponents of a `double`.
-/

namespace Paio

/-- The nearest `double`. -/
def toDouble : ℚ → ℚ := Rounding.round 53

section

variable (rnd : ℚ → ℚ)

/-! ## The bucket -/

namespace TokenBucket

/-- `static_cast<double> (m_refill_period) / 1000 / 1000`. -/
def refillSecondsIn (b : TokenBucket) : ℚ := rnd (rnd (rnd b.refillPeriod / 1000) / 1000)

def normalizeTokensIn (b : TokenBucket) (throughput : ℚ) : ℚ :=
  rnd (throughput * b.refillSecondsIn rnd)

def setCapacityIn (b : TokenBucket) (capacity : ℚ) : TokenBucket :=
  { b with capacity := b.normalizeTokensIn rnd capacity }

def setTokenCountIn (b : TokenBucket) (tokens : ℚ) : TokenBucket :=
  { b with tokens := b.normalizeTokensIn rnd tokens }

end TokenBucket

namespace Session

/-- `m_tokens -= consume_tokens`. -/
def subtractIn (s : Session) (consumeTokens : ℚ) : Session :=
  { bucket := { s.bucket with tokens := rnd (s.bucket.tokens - consumeTokens) }
    instant := s.instant + 1
    consumed := (s.instant, consumeTokens) :: s.consumed }

def consumeOperationIn (clock : Clock) : Nat → ℚ → Session → Outcome
  | 0, _, s => .stopped .outOfFuel s
  | fuel + 1, consumeTokens, s =>
    if consumeTokens > s.bucket.tokens then
      let (timeLeft, s') := s.tryRefill clock
      if timeLeft > 0 then
        match s'.awaitRefill clock with
        | .ok s'' => consumeOperationIn clock fuel consumeTokens s''
        | .error f => .stopped f s'
      else consumeOperationIn clock fuel consumeTokens s'
    else .returned (s.subtractIn rnd consumeTokens)

def consumeChunksIn (clock : Clock) : Nat → ℚ → ℚ → Session → Outcome
  | 0, _, _, s => .stopped .outOfFuel s
  | fuel + 1, tokensLeft, iterationTokens, s =>
    if tokensLeft > 0 then
      match s.consumeOperationIn rnd clock fuel iterationTokens with
      | .stopped f s' => .stopped f s'
      | .returned s' =>
        let tokensLeft' := rnd (tokensLeft - iterationTokens)
        consumeChunksIn clock fuel tokensLeft'
          (if tokensLeft' < s'.bucket.capacity then tokensLeft' else iterationTokens) s'
    else .returned s

def tryConsumeIn (clock : Clock) (fuel : Nat) (consumeTokens : ℚ) (s : Session) : Outcome :=
  if consumeTokens > s.bucket.capacity then
    s.consumeChunksIn rnd clock fuel consumeTokens s.bucket.capacity
  else s.consumeOperationIn rnd clock fuel consumeTokens

end Session

/-! ## The rate limiter -/

namespace DynamicRateLimiter

/-- The product is one of integers, the `double` is made from it. -/
def basicIoCostIn (d : DynamicRateLimiter) (t : Ticket) : ℚ := rnd (d.basicIoCost t)

def objEnforceIn (clock : Clock) (fuel : Nat) (d : DynamicRateLimiter) (t : Ticket) (r : Result) :
    Except Fault (DynamicRateLimiter × Result) :=
  match Session.tryConsumeIn rnd clock fuel (d.basicIoCostIn rnd t) { bucket := d.bucket } with
  | .stopped f _ => .error f
  | .returned s => .ok ({ d with bucket := s.bucket }, t.writeResult r)

/-- What `get_token_bucket_rate` casts to `long`. -/
def rateQuotientIn (d : DynamicRateLimiter) : ℚ :=
  rnd (d.bucket.capacity / d.bucket.refillSecondsIn rnd)

def getTokenBucketRateIn (d : DynamicRateLimiter) : Int := truncate (d.rateQuotientIn rnd)

def initializeBucketIn (d : DynamicRateLimiter) (refillPeriod rate : Int) : DynamicRateLimiter :=
  { d with
    bucket := ((d.bucket.setRefillPeriod refillPeriod).setTokenCountIn rnd (rnd rate)).setCapacityIn
      rnd (rnd rate) }

def configureRateIn (d : DynamicRateLimiter) (rateValue : Int) : DynamicRateLimiter :=
  let tokens := d.bucket.normalizeTokensIn rnd (rnd rateValue)
  let bucket := d.bucket.setCapacityIn rnd (rnd rateValue)
  { d with
    bucket := if bucket.tokens > tokens then bucket.setTokenCountIn rnd (rnd rateValue) else bucket }

def configureRefillWindowIn (d : DynamicRateLimiter) (window : Int) : DynamicRateLimiter :=
  let rate := d.getTokenBucketRateIn rnd
  { d with
    bucket := ((d.bucket.setRefillPeriod window).setTokenCountIn rnd (rnd rate)).setCapacityIn
      rnd (rnd rate) }

def updateTokenBucketRateIn (d : DynamicRateLimiter) : DynamicRateLimiter :=
  { d with tokenBucketRate := rnd (d.bucket.capacity / rnd d.bucket.refillPeriod) }

def objConfigureIn (d : DynamicRateLimiter) (conf : Int) (confValues : List Int) :
    Except Fault (DynamicRateLimiter × PStatus) :=
  match DRLConfiguration.ofInt conf with
  | some .init =>
    match confValues with
    | refillPeriod :: rate :: _ =>
      .ok ((d.initializeBucketIn rnd refillPeriod rate).updateTokenBucketRateIn rnd, .ok)
    | _ => .error .outOfBounds
  | some .rate =>
    match confValues with
    | rateValue :: _ => .ok ((d.configureRateIn rnd rateValue).updateTokenBucketRateIn rnd, .ok)
    | _ => .error .outOfBounds
  | some .refill =>
    match confValues with
    | window :: _ => .ok ((d.configureRefillWindowIn rnd window).updateTokenBucketRateIn rnd, .ok)
    | _ => .error .outOfBounds
  | none => .ok (d.updateTokenBucketRateIn rnd, .notSupported)

end DynamicRateLimiter

end

/-! ## Without rounding -/

namespace Session

variable (clock : Clock) (fuel : Nat)

theorem consumeOperationIn_id (x : ℚ) (s : Session) :
    s.consumeOperationIn id clock fuel x = s.consumeOperation clock fuel x := by
  induction fuel generalizing s with
  | zero => rfl
  | succ fuel ih =>
    simp only [consumeOperationIn, consumeOperation, ih]
    rfl

theorem consumeChunksIn_id (left chunk : ℚ) (s : Session) :
    s.consumeChunksIn id clock fuel left chunk = s.consumeChunks clock fuel left chunk := by
  induction fuel generalizing left chunk s with
  | zero => rfl
  | succ fuel ih =>
    simp only [consumeChunksIn, consumeChunks, consumeOperationIn_id, ih]
    rfl

theorem tryConsumeIn_id (x : ℚ) (s : Session) :
    s.tryConsumeIn id clock fuel x = s.tryConsume clock fuel x := by
  simp only [tryConsumeIn, tryConsume, consumeChunksIn_id, consumeOperationIn_id]

end Session

namespace DynamicRateLimiter

theorem objEnforceIn_id (clock : Clock) (fuel : Nat) (d : DynamicRateLimiter) (t : Ticket)
    (r : Result) : d.objEnforceIn id clock fuel t r = d.objEnforce clock fuel t r := by
  simp only [objEnforceIn, objEnforce, consume, Session.tryConsumeIn_id]
  rfl

theorem objConfigureIn_id (d : DynamicRateLimiter) (conf : Int) (confValues : List Int) :
    d.objConfigureIn id conf confValues = d.objConfigure conf confValues := rfl

end DynamicRateLimiter

end Paio
