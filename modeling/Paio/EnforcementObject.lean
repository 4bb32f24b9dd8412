import Mathlib.Algebra.Order.Ring.Cast
import Paio.Library.AssocList
import Paio.TokenBucket

/-!
# Paio.EnforcementObject

Tickets, Results and the two enforcement objects: the dynamic rate limiter (`drl`), which waits
for tokens, and `noop`, which lets every request pass. Both write the Result in the same way
(`Ticket.writeResult`): the status becomes `success` and, when the ticket carries a buffer, its
content is copied into the Result.
-/

namespace Paio

/-! ## Tickets and Results -/

/-- A pointer handed to the library: null, or the bytes at and after it. -/
abbrev Buffer := Option (Nat → UInt8)

/-- The `size` bytes at a pointer. -/
def readBytes (p : Nat → UInt8) (size : Nat) : List UInt8 := (List.range size).map p

@[simp] theorem length_readBytes (p : Nat → UInt8) (size : Nat) :
    (readBytes p size).length = size := by
  simp [readBytes]

/-- A ticket; its buffer always holds `bufferSize` bytes. -/
structure Ticket where
  ticketId : UInt64 := 0
  operations : Int := 0
  payload : Int := 1
  operationType : Int := noOp
  operationContext : Int := noOp
  bufferSize : Nat := 0
  buffer : List UInt8 := []
  buffer_length : buffer.length = bufferSize := by rfl
  deriving DecidableEq

inductive ResultStatus where
  | success
  | error
  | none
  deriving DecidableEq, Repr

/-- `content` is the array that `m_content` points to, `none` the null pointer. -/
structure Result where
  ticketId : UInt64 := 0
  resultStatus : ResultStatus := .none
  hasContent : Bool := false
  contentSize : Nat := 0
  content : Option (List UInt8) := none
  deriving DecidableEq, Repr

namespace Result

def setTicketId (r : Result) (ticketId : UInt64) : Result := { r with ticketId := ticketId }

def setResultStatus (r : Result) (status : ResultStatus) : Result :=
  { r with resultStatus := status }

def setHasContent (r : Result) (hasContent : Bool) : Result := { r with hasContent := hasContent }

def setContentSize (r : Result) (size : Nat) : Result :=
  if r.hasContent then { r with contentSize := size } else r

def setContent (r : Result) (size : Nat) (buffer : List UInt8) : Result :=
  if r.hasContent then { r with content := some (buffer.take size) } else r

/-- The copy constructor. -/
def copy (r : Result) : Result where
  ticketId := r.ticketId
  resultStatus := r.resultStatus
  hasContent := r.hasContent
  contentSize := if r.hasContent then r.contentSize else 0
  content := if r.hasContent then some ((r.content.getD []).take r.contentSize) else none

/-- `operator=` by copy: every member of the target is overwritten. -/
def assign (_target r : Result) : Result where
  ticketId := r.ticketId
  resultStatus := r.resultStatus
  hasContent := r.hasContent
  contentSize := if r.hasContent then r.contentSize else 0
  content := if r.hasContent then some ((r.content.getD []).take r.contentSize) else none

/-- The bytes that `get_content` points to. -/
def contentBytes (r : Result) : List UInt8 := r.content.getD []

end Result

/-- How `obj_enforce` leaves the Result. -/
def Ticket.writeResult (t : Ticket) (r : Result) : Result :=
  let hasContent := decide (0 < t.bufferSize)
  let r' := (r.setResultStatus .success).setHasContent hasContent
  if hasContent then (r'.setContentSize t.bufferSize).setContent t.bufferSize t.buffer else r'

/-- The Result that a ticket gives when nothing of an older one is left in it. -/
def Ticket.freshResult (t : Ticket) : Result where
  ticketId := t.ticketId
  resultStatus := .success
  hasContent := decide (0 < t.bufferSize)
  contentSize := t.bufferSize
  content := if 0 < t.bufferSize then some t.buffer else none

theorem Ticket.take_buffer (t : Ticket) : t.buffer.take t.bufferSize = t.buffer := by
  rw [← t.buffer_length, List.take_length]

theorem Ticket.writeResult_content {t : Ticket} (h : 0 < t.bufferSize) (r : Result) :
    t.writeResult r = { t.freshResult with ticketId := r.ticketId } := by
  simp [writeResult, freshResult, h, Result.setResultStatus, Result.setHasContent,
    Result.setContentSize, Result.setContent, t.take_buffer]

theorem Ticket.writeResult_noContent {t : Ticket} (h : t.bufferSize = 0) (r : Result) :
    t.writeResult r = { r with resultStatus := .success, hasContent := false } := by
  simp [writeResult, h, Result.setResultStatus, Result.setHasContent]

/-- On a Result that was just constructed nothing old can show through. -/
theorem Ticket.writeResult_new (t : Ticket) :
    t.writeResult { ticketId := t.ticketId } = t.freshResult := by
  rcases Nat.eq_zero_or_pos t.bufferSize with h | h
  · simp [writeResult_noContent h, freshResult, h]
  · simp [writeResult_content h, freshResult]

theorem Ticket.copy_freshResult (t : Ticket) : t.freshResult.copy = t.freshResult := by
  rcases Nat.eq_zero_or_pos t.bufferSize with h | h
  · simp [Result.copy, freshResult, h]
  · simp [Result.copy, freshResult, h, t.take_buffer]

theorem Ticket.assign_freshResult (t : Ticket) (r : Result) :
    r.assign t.freshResult = t.freshResult :=
  t.copy_freshResult

/-! ## The rate limiter -/

inductive DRLConfiguration where
  | init
  | rate
  | refill
  deriving DecidableEq, Repr

/-- `static_cast<DRLConfiguration>` of an `int`. -/
def DRLConfiguration.ofInt (conf : Int) : Option DRLConfiguration :=
  if conf = 1 then some .init else if conf = 2 then some .rate
  else if conf = 4 then some .refill else none

def DRLConfiguration.toInt : DRLConfiguration → Int
  | .init => 1
  | .rate => 2
  | .refill => 4

structure DynamicRateLimiter where
  objectId : Int := 0
  collectStatistics : Bool := false
  bucket : TokenBucket
  costPerRequest : UInt32 := 1
  tokenBucketRate : ℚ := 0
  deriving DecidableEq

/-- `static_cast<long>` of a double: the fraction is cut off. -/
def truncate (q : ℚ) : Int := q.num.tdiv q.den

@[simp] theorem truncate_intCast (z : Int) : truncate (z : ℚ) = z := by
  simp [truncate]

namespace DynamicRateLimiter

/-- The constructor; the sliding window is `drl_option_gc_sliding_window`. -/
def new (objectId : Int) (collectStatistics : Bool) (clock : Clock) : DynamicRateLimiter where
  objectId := objectId
  collectStatistics := collectStatistics
  bucket := TokenBucket.new collectStatistics 5000000 clock

def basicIoCost (d : DynamicRateLimiter) (t : Ticket) : ℚ :=
  ((d.costPerRequest.toNat * t.payload : Int) : ℚ)

theorem basicIoCost_nonneg (d : DynamicRateLimiter) {t : Ticket} (ht : 0 ≤ t.payload) :
    0 ≤ d.basicIoCost t := by
  rw [basicIoCost, Int.cast_nonneg_iff]
  exact Int.mul_nonneg (by omega) ht

/-- The critical section of `obj_enforce`, from the given instant on. -/
def consume (clock : Clock) (fuel instant : Nat) (d : DynamicRateLimiter) (t : Ticket) : Outcome :=
  Session.tryConsume clock fuel (d.basicIoCost t) { bucket := d.bucket, instant := instant }

def objEnforce (clock : Clock) (fuel : Nat) (d : DynamicRateLimiter) (t : Ticket) (r : Result) :
    Except Fault (DynamicRateLimiter × Result) :=
  match d.consume clock fuel 0 t with
  | .stopped f _ => .error f
  | .returned s => .ok ({ d with bucket := s.bucket }, t.writeResult r)

def getTokenBucketRate (d : DynamicRateLimiter) : Int :=
  truncate (d.bucket.capacity / ((d.bucket.refillPeriod : ℚ) / 1000 / 1000))

/-- `initialize`: period, then tokens, then capacity. -/
def initializeBucket (d : DynamicRateLimiter) (refillPeriod rate : Int) : DynamicRateLimiter :=
  { d with bucket := ((d.bucket.setRefillPeriod refillPeriod).setTokenCount rate).setCapacity rate }

def configureRate (d : DynamicRateLimiter) (rateValue : Int) : DynamicRateLimiter :=
  let tokens := d.bucket.normalizeTokens rateValue
  let bucket := d.bucket.setCapacity rateValue
  { d with bucket := if bucket.tokens > tokens then bucket.setTokenCount rateValue else bucket }

def configureRefillWindow (d : DynamicRateLimiter) (window : Int) : DynamicRateLimiter :=
  let rate := d.getTokenBucketRate
  { d with bucket := ((d.bucket.setRefillPeriod window).setTokenCount rate).setCapacity rate }

/-- The end of `obj_configure`; the value is not read again by the modelled code. -/
def updateTokenBucketRate (d : DynamicRateLimiter) : DynamicRateLimiter :=
  { d with tokenBucketRate := d.bucket.capacity / (d.bucket.refillPeriod : ℚ) }

def objConfigure (d : DynamicRateLimiter) (conf : Int) (confValues : List Int) :
    Except Fault (DynamicRateLimiter × PStatus) :=
  match DRLConfiguration.ofInt conf with
  | some .init =>
    match confValues with
    | refillPeriod :: rate :: _ =>
      .ok ((d.initializeBucket refillPeriod rate).updateTokenBucketRate, .ok)
    | _ => .error .outOfBounds
  | some .rate =>
    match confValues with
    | rateValue :: _ => .ok ((d.configureRate rateValue).updateTokenBucketRate, .ok)
    | _ => .error .outOfBounds
  | some .refill =>
    match confValues with
    | window :: _ => .ok ((d.configureRefillWindow window).updateTokenBucketRate, .ok)
    | _ => .error .outOfBounds
  | none => .ok (d.updateTokenBucketRate, .notSupported)

end DynamicRateLimiter

/-! ## The object that lets requests pass -/

structure NoopObject where
  objectId : Int := 0
  tagName : String := ""
  shared : Bool := false
  counter : UInt32 := 0
  deriving DecidableEq, Repr

namespace NoopObject

def incrementCounter (n : NoopObject) : NoopObject := { n with counter := n.counter + 1 }

def objEnforce (n : NoopObject) (t : Ticket) (r : Result) : NoopObject × Result :=
  (n.incrementCounter, t.writeResult r)

end NoopObject

/-! ## Objects -/

inductive EnforcementObject where
  | drl (d : DynamicRateLimiter)
  | noop (n : NoopObject)
  deriving DecidableEq

namespace EnforcementObject

def getEnforcementObjectId : EnforcementObject → Int
  | .drl d => d.objectId
  | .noop n => n.objectId

def objEnforce (clock : Clock) (fuel : Nat) (o : EnforcementObject) (t : Ticket) (r : Result) :
    Except Fault (EnforcementObject × Result) :=
  match o with
  | .drl d =>
    match d.objEnforce clock fuel t r with
    | .ok (d', r') => .ok (.drl d', r')
    | .error f => .error f
  | .noop n => .ok (.noop (n.objEnforce t r).1, (n.objEnforce t r).2)

def objConfigure (o : EnforcementObject) (conf : Int) (confValues : List Int) :
    Except Fault (EnforcementObject × PStatus) :=
  match o with
  | .drl d =>
    match d.objConfigure conf confValues with
    | .ok (d', s) => .ok (.drl d', s)
    | .error f => .error f
  | .noop n => .ok (.noop n, .ok)

theorem objEnforce_id {clock : Clock} {fuel : Nat} {o o' : EnforcementObject} {t : Ticket}
    {r r' : Result} (h : o.objEnforce clock fuel t r = .ok (o', r')) :
    o'.getEnforcementObjectId = o.getEnforcementObjectId := by
  cases o with
  | drl d =>
    simp only [objEnforce, DynamicRateLimiter.objEnforce] at h
    cases hc : d.consume clock fuel 0 t with
    | stopped f s => simp [hc] at h
    | returned s =>
      simp only [hc] at h
      cases h
      rfl
  | noop n => cases h; rfl

theorem objConfigure_id {o o' : EnforcementObject} {conf : Int} {confValues : List Int}
    {status : PStatus} (h : o.objConfigure conf confValues = .ok (o', status)) :
    o'.getEnforcementObjectId = o.getEnforcementObjectId := by
  cases o with
  | drl d =>
    simp only [objConfigure] at h
    split at h
    · rename_i d' s hd
      cases h
      simp only [DynamicRateLimiter.objConfigure] at hd
      repeat' split at hd
      all_goals cases hd <;> rfl
    · cases h
  | noop n => cases h; rfl

/-- Whatever the object, the Result is the one the ticket writes. -/
theorem objEnforce_result {clock : Clock} {fuel : Nat} {o o' : EnforcementObject} {t : Ticket}
    {r r' : Result} (h : o.objEnforce clock fuel t r = .ok (o', r')) : r' = t.writeResult r := by
  cases o with
  | drl d =>
    simp only [objEnforce, DynamicRateLimiter.objEnforce] at h
    cases hc : d.consume clock fuel 0 t with
    | stopped f s => simp [hc] at h
    | returned s => simp [hc] at h; exact h.2.symm
  | noop n => simp [objEnforce, NoopObject.objEnforce] at h; exact h.2.symm

/-- The effect of an object on its own state does not depend on the Result it is given. -/
theorem objEnforce_congr {clock : Clock} {fuel : Nat} {o o' : EnforcementObject} {t : Ticket}
    {r r' : Result} (r₂ : Result) (h : o.objEnforce clock fuel t r = .ok (o', r')) :
    o.objEnforce clock fuel t r₂ = .ok (o', t.writeResult r₂) := by
  cases o with
  | drl d =>
    simp only [objEnforce, DynamicRateLimiter.objEnforce] at h ⊢
    cases hc : d.consume clock fuel 0 t with
    | stopped f s => simp [hc] at h
    | returned s => simp [hc] at h ⊢; exact h.1
  | noop n => simp [objEnforce, NoopObject.objEnforce] at h ⊢; exact h.1

theorem objEnforce_error_congr {clock : Clock} {fuel : Nat} {o : EnforcementObject} {t : Ticket}
    {r : Result} {f : Fault} (r₂ : Result) (h : o.objEnforce clock fuel t r = .error f) :
    o.objEnforce clock fuel t r₂ = .error f := by
  cases o with
  | drl d =>
    simp only [objEnforce, DynamicRateLimiter.objEnforce] at h ⊢
    cases hc : d.consume clock fuel 0 t with
    | stopped f' s => simp [hc] at h ⊢; exact h
    | returned s => simp [hc] at h
  | noop n => simp [objEnforce] at h

end EnforcementObject

end Paio
