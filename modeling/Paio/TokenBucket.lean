import Mathlib.Algebra.Order.Field.Rat
import Paio.Basic

/-!
# Paio.TokenBucket

The token bucket of the rate limiter. Tokens are exact rationals, times are microseconds. The same
functions with the rounding of a `double` are in `Paio.RoundedBucket`.

The clock is a sequence of instants. Every reading of `system_clock::now` takes the next one,
and so does every subtraction in `consume_operation`, which reads no clock in the source but
happens at some time: the instant it takes here is that time. A `Session` carries the bucket, the
number of instants used and the subtractions made so far, each with its instant.

The loops of `consume_operation` and `try_consume` may run forever, so they take fuel. A run that
stops early (`Outcome.stopped`) keeps the session it had reached: what it subtracted counts.

Conversions between `uint64_t` and `long` of times are the identity here: a sum that left the
range of `long` would be a signed overflow, which the source gives no meaning.
-/

namespace Paio

/-! ## Statistics of the bucket -/

structure TBStatsEntry where
  normalizedEmptyBucket : ℚ := 0
  tokensLeft : ℚ := 0
  collectionTimestamp : Int := 0
  deriving DecidableEq

/-- The ring of the last statistic entries (`TBStats`). -/
structure TBStats where
  tbStatistics : List TBStatsEntry := List.replicate 100 {}
  totalStats : Int := 0
  position : Int := 0
  validEntryIndex : Int := -1
  maxStatistics : Int := 100
  deriving DecidableEq

/-- `store_stats_entry` at the reading `now`; `m_total_stats` is a 32-bit `int`. -/
def TBStats.storeStatsEntry (s : TBStats) (emptyBucketTime tokensLeft : ℚ) (now : Int) :
    Except Fault TBStats :=
  let position := s.totalStats.tmod s.maxStatistics
  if 0 ≤ position ∧ position < s.tbStatistics.length then
    .ok { s with
      position := position
      tbStatistics := s.tbStatistics.set position.toNat ⟨emptyBucketTime, tokensLeft, now⟩
      totalStats := toInt32 (s.totalStats + 1) }
  else .error .outOfBounds

/-! ## The bucket -/

structure TokenBucket where
  capacity : ℚ := 50000
  tokens : ℚ := 50000
  refillPeriod : Int := 1000000
  nextRefillPeriod : Int
  lastRefillPeriod : Int
  collectStatistics : Bool := false
  tokenBucketStatistics : TBStats := {}
  slidingWindowStatistics : Int := 5000000
  deriving DecidableEq

namespace TokenBucket

def calcNextRefillPeriod (b : TokenBucket) (time : Int) : Int := time + b.refillPeriod

/-- The constructor with the two statistics arguments: the other members keep their default
initialisers, two of which read the clock. -/
def new (collectStatistics : Bool) (slidingWindow : Int) (clock : Clock) : TokenBucket where
  nextRefillPeriod := clock 0 + 1000000
  lastRefillPeriod := clock 1
  collectStatistics := collectStatistics
  slidingWindowStatistics := slidingWindow

/-- The tokens that match a throughput: `m_refill_period` is in microseconds, the throughput in
tokens per second. -/
def normalizeTokens (b : TokenBucket) (throughput : ℚ) : ℚ :=
  throughput * ((b.refillPeriod : ℚ) / 1000 / 1000)

def setCapacity (b : TokenBucket) (capacity : ℚ) : TokenBucket :=
  { b with capacity := b.normalizeTokens capacity }

def setTokenCount (b : TokenBucket) (tokens : ℚ) : TokenBucket :=
  { b with tokens := b.normalizeTokens tokens }

def setRefillPeriod (b : TokenBucket) (period : Int) : TokenBucket :=
  { b with refillPeriod := period }

/-- `record_out_of_tokens_stat` followed by the reading `now` that `store_stats_entry` makes. The
subtractions are on `uint64_t`; the quotient, a `float` in the source, is exact here. A zero
divisor gives an infinity or a NaN there, which is not at most one. -/
def recordOutOfTokensStat (b : TokenBucket) (outOfTokensTime now : Int) :
    Except Fault TokenBucket :=
  let approximateNextRefillPeriod := (b.lastRefillPeriod + b.refillPeriod) % 2 ^ 64
  let elapsed : Int := (outOfTokensTime - b.lastRefillPeriod) % 2 ^ 64
  let window : Int := (approximateNextRefillPeriod - b.lastRefillPeriod) % 2 ^ 64
  let normalizedEmptyFactor : ℚ := elapsed / window
  match b.tokenBucketStatistics.storeStatsEntry
      (if window ≠ 0 ∧ normalizedEmptyFactor ≤ 1 then normalizedEmptyFactor else 1)
      b.tokens now with
  | .ok stats => .ok { b with tokenBucketStatistics := stats }
  | .error f => .error f

end TokenBucket

/-! ## Consuming tokens -/

/-- A bucket in use: the instants used so far and, as a history, the instant and the amount of
every subtraction of `consume_operation`, the newest first. -/
structure Session where
  bucket : TokenBucket
  instant : Nat := 0
  consumed : List (Nat × ℚ) := []
  deriving DecidableEq

inductive Outcome where
  | returned (s : Session)
  | stopped (f : Fault) (s : Session)
  deriving DecidableEq

def Outcome.session : Outcome → Session
  | .returned s => s
  | .stopped _ s => s

namespace Session

def isTimeToRefill (clock : Clock) (s : Session) : Int × Session :=
  let currentTime := clock s.instant
  let timeLeft := s.bucket.nextRefillPeriod - currentTime
  let bucket := if timeLeft ≤ 0
    then { s.bucket with nextRefillPeriod := s.bucket.calcNextRefillPeriod currentTime }
    else s.bucket
  (timeLeft, { s with bucket := bucket, instant := s.instant + 1 })

def refillOperation (clock : Clock) (s : Session) : Session :=
  let bucket := { s.bucket with tokens := s.bucket.capacity }
  if s.bucket.collectStatistics then
    { s with
      bucket := { bucket with lastRefillPeriod := clock s.instant }
      instant := s.instant + 1 }
  else { s with bucket := bucket }

def tryRefill (clock : Clock) (s : Session) : Int × Session :=
  let (timeLeft, s') := s.isTimeToRefill clock
  if timeLeft ≤ 0 then (timeLeft, s'.refillOperation clock) else (timeLeft, s')

/-- What `consume_operation` does when it is not yet time to refill: it records a statistic entry
if collection is enabled, and sleeps. -/
def awaitRefill (clock : Clock) (s : Session) : Except Fault Session :=
  if s.bucket.collectStatistics then
    match s.bucket.recordOutOfTokensStat (clock s.instant) (clock (s.instant + 1)) with
    | .ok bucket => .ok { s with bucket := bucket, instant := s.instant + 2 }
    | .error f => .error f
  else .ok s

/-- `m_tokens -= consume_tokens`. -/
def subtract (s : Session) (consumeTokens : ℚ) : Session :=
  { bucket := { s.bucket with tokens := s.bucket.tokens - consumeTokens }
    instant := s.instant + 1
    consumed := (s.instant, consumeTokens) :: s.consumed }

def consumeOperation (clock : Clock) : Nat → ℚ → Session → Outcome
  | 0, _, s => .stopped .outOfFuel s
  | fuel + 1, consumeTokens, s =>
    if consumeTokens > s.bucket.tokens then
      let (timeLeft, s') := s.tryRefill clock
      if timeLeft > 0 then
        match s'.awaitRefill clock with
        | .ok s'' => consumeOperation clock fuel consumeTokens s''
        | .error f => .stopped f s'
      else consumeOperation clock fuel consumeTokens s'
    else .returned (s.subtract consumeTokens)

/-- The loop of `try_consume` for a request larger than the capacity. -/
def consumeChunks (clock : Clock) : Nat → ℚ → ℚ → Session → Outcome
  | 0, _, _, s => .stopped .outOfFuel s
  | fuel + 1, tokensLeft, iterationTokens, s =>
    if tokensLeft > 0 then
      match s.consumeOperation clock fuel iterationTokens with
      | .stopped f s' => .stopped f s'
      | .returned s' =>
        let tokensLeft' := tokensLeft - iterationTokens
        consumeChunks clock fuel tokensLeft'
          (if tokensLeft' < s'.bucket.capacity then tokensLeft' else iterationTokens) s'
    else .returned s

def tryConsume (clock : Clock) (fuel : Nat) (consumeTokens : ℚ) (s : Session) : Outcome :=
  if consumeTokens > s.bucket.capacity then
    s.consumeChunks clock fuel consumeTokens s.bucket.capacity
  else s.consumeOperation clock fuel consumeTokens

/-- A sequence of `try_consume` calls; the first one that does not return ends it. -/
def tryConsumeAll (clock : Clock) (fuel : Nat) : List ℚ → Session → Outcome
  | [], s => .returned s
  | consumeTokens :: rest, s =>
    match s.tryConsume clock fuel consumeTokens with
    | .stopped f s' => .stopped f s'
    | .returned s' => tryConsumeAll clock fuel rest s'

end Session

end Paio
