import Paio.Library.Polling
import Paio.Service
import Paio.StatisticsRing

/-!
# Paio.Waiting

What one `consume_operation` does under a clock that advances. It looks at the clock until the
refill is due, and every look that comes too early leaves an entry in the ring of statistics when
these are collected. How many looks that takes depends on the clock, on the time of the next refill
and on the instants used, and on nothing else (`Meter`). So an operation that asks for no more than
the capacity comes back, unless the ring gets one entry too many on the way.
-/

namespace Paio

open Polling

/-! ## The course of an operation -/

/-- What consuming leaves as it is in a bucket. -/
structure BucketSetup where
  capacity : ℚ
  refillPeriod : Int
  collects : Bool

def TokenBucket.setup (b : TokenBucket) : BucketSetup :=
  ⟨b.capacity, b.refillPeriod, b.collectStatistics⟩

namespace BucketSetup

/-- The readings from one look at the clock to the next: a statistic entry takes two more. -/
def stride (u : BucketSetup) : Nat := if u.collects then 3 else 1

/-- The readings of a look that finds the refill due. -/
def refillReadings (u : BucketSetup) : Nat := if u.collects then 2 else 1

/-- The statistic entries that so many waits leave. -/
def recorded (u : BucketSetup) (waits : Nat) : Nat := if u.collects then waits else 0

theorem stride_pos (u : BucketSetup) : 0 < u.stride := by
  unfold stride
  split <;> omega

theorem recorded_add (u : BucketSetup) (m n : Nat) :
    u.recorded (m + n) = u.recorded m + u.recorded n := by
  unfold recorded
  split <;> omega

end BucketSetup

/-- What the course of a request depends on. -/
structure Meter where
  tokens : ℚ
  next : Int
  instant : Nat

namespace Meter

/-- The looks at the clock that come too early for an amount. -/
noncomputable def waits (clock : Clock) (u : BucketSetup) (m : Meter) (x : ℚ) : Nat :=
  if x ≤ m.tokens then 0 else misses clock u.stride m.instant m.next

/-- After an amount was taken out, with the refill that it needed. -/
noncomputable def pay (clock : Clock) (u : BucketSetup) (m : Meter) (x : ℚ) : Meter :=
  let due := m.instant + u.stride * m.waits clock u x
  if x ≤ m.tokens then ⟨m.tokens - x, m.next, m.instant + 1⟩
  else ⟨u.capacity - x, clock due + u.refillPeriod, due + u.refillReadings + 1⟩

/-- The same over a list of amounts. -/
noncomputable def waitsAll (clock : Clock) (u : BucketSetup) : Meter → List ℚ → Nat
  | _, [] => 0
  | m, x :: rest => m.waits clock u x + (m.pay clock u x).waitsAll clock u rest

variable {clock : Clock} {u : BucketSetup} {m : Meter} {x : ℚ}

theorem waits_covered (hx : x ≤ m.tokens) : m.waits clock u x = 0 := if_pos hx

theorem pay_covered (hx : x ≤ m.tokens) :
    m.pay clock u x = ⟨m.tokens - x, m.next, m.instant + 1⟩ := if_pos hx

theorem waits_due (hdue : m.next ≤ clock m.instant) : m.waits clock u x = 0 := by
  unfold waits
  rw [misses_eq_zero hdue, ite_self]

theorem pay_due (hx : ¬ x ≤ m.tokens) (hdue : m.next ≤ clock m.instant) :
    m.pay clock u x = ⟨u.capacity - x, clock m.instant + u.refillPeriod,
      m.instant + u.refillReadings + 1⟩ := by
  unfold pay
  rw [waits_due hdue, Nat.mul_zero, Nat.add_zero, if_neg hx]

/-- A look that comes too early is one wait, and the rest is the same from the next look on. -/
theorem waits_early (hclock : Advances clock) (hx : ¬ x ≤ m.tokens)
    (hearly : clock m.instant < m.next) :
    m.waits clock u x = { m with instant := m.instant + u.stride }.waits clock u x + 1 := by
  unfold waits
  rw [if_neg hx, if_neg hx, misses_eq_succ hclock u.stride_pos hearly]

theorem pay_early (hclock : Advances clock) (hx : ¬ x ≤ m.tokens)
    (hearly : clock m.instant < m.next) :
    m.pay clock u x = { m with instant := m.instant + u.stride }.pay clock u x := by
  have hdue : m.instant + u.stride * m.waits clock u x = m.instant + u.stride +
      u.stride * { m with instant := m.instant + u.stride }.waits clock u x := by
    rw [waits_early hclock hx hearly, Nat.mul_succ]
    omega
  unfold pay
  rw [if_neg hx, if_neg hx, hdue]

end Meter

namespace Session

def meter (s : Session) : Meter := ⟨s.bucket.tokens, s.bucket.nextRefillPeriod, s.instant⟩

/-- The ring was given `n` entries since the last collection. -/
def Stored (s : Session) (n : Nat) : Prop :=
  ∃ stored, s.bucket.tokenBucketStatistics.Holds stored ∧ stored.length = n

/-- Between `s` and `s'` nothing was subtracted and the bucket was not set up anew. -/
structure Steady (s s' : Session) : Prop where
  setup : s'.bucket.setup = s.bucket.setup
  consumed : s'.consumed = s.consumed

theorem Steady.refl (s : Session) : Steady s s := ⟨rfl, rfl⟩

theorem Steady.trans {s s' s'' : Session} (h : Steady s s') (h' : Steady s' s'') : Steady s s'' :=
  ⟨h'.setup.trans h.setup, h'.consumed.trans h.consumed⟩

variable {clock : Clock} {s s' : Session} {x : ℚ} {n fuel fuel' : Nat}

/-! ## One turn of the loop -/

/-- Enough tokens. -/
theorem consumeOperation_covered (hx : x ≤ s.bucket.tokens) (fuel : Nat) :
    s.consumeOperation clock (fuel + 1) x = .returned (s.subtract x) := by
  rw [consumeOperation, if_neg (not_lt.mpr hx)]

/-- A look that finds the refill due. -/
theorem tryRefill_due (hdue : s.bucket.nextRefillPeriod ≤ clock s.instant) :
    (s.tryRefill clock).1 ≤ 0 ∧ Steady s (s.tryRefill clock).2 ∧
      (s.tryRefill clock).2.meter = ⟨s.bucket.capacity, clock s.instant + s.bucket.refillPeriod,
        s.instant + s.bucket.setup.refillReadings⟩ ∧
      (s.tryRefill clock).2.bucket.tokenBucketStatistics = s.bucket.tokenBucketStatistics := by
  have hle : s.bucket.nextRefillPeriod - clock s.instant ≤ 0 := by omega
  simp only [tryRefill, isTimeToRefill, refillOperation, if_pos hle, BucketSetup.refillReadings,
    TokenBucket.setup]
  split
  · rename_i hcollects
    exact ⟨hle, ⟨rfl, rfl⟩, by simp [meter, TokenBucket.calcNextRefillPeriod, hcollects], rfl⟩
  · rename_i hcollects
    exact ⟨hle, ⟨rfl, rfl⟩, by simp [meter, TokenBucket.calcNextRefillPeriod, hcollects], rfl⟩

/-- A look that comes too early. -/
theorem tryRefill_early (hearly : clock s.instant < s.bucket.nextRefillPeriod) :
    s.tryRefill clock = (s.bucket.nextRefillPeriod - clock s.instant,
      { s with instant := s.instant + 1 }) := by
  have hgt : ¬ s.bucket.nextRefillPeriod - clock s.instant ≤ 0 := by omega
  simp only [tryRefill, isTimeToRefill, if_neg hgt]

/-- A wait of which the ring can take the entry. -/
theorem awaitRefill_ok (hring : Stored s n)
    (hroom : n + s.bucket.setup.recorded 1 ≤ TBStats.entriesLimit) :
    ∃ s', s.awaitRefill clock = .ok s' ∧ Steady s s' ∧
      s'.bucket.tokens = s.bucket.tokens ∧
      s'.bucket.nextRefillPeriod = s.bucket.nextRefillPeriod ∧
      s'.instant + 1 = s.instant + s.bucket.setup.stride ∧
      Stored s' (n + s.bucket.setup.recorded 1) := by
  obtain ⟨stored, hholds, rfl⟩ := hring
  simp only [awaitRefill, TokenBucket.setup, BucketSetup.recorded, BucketSetup.stride,
    TokenBucket.recordOutOfTokensStat] at hroom ⊢
  split
  · rename_i hcollects
    simp only [hcollects, if_true] at hroom
    obtain ⟨ring, hstore, hring⟩ := hholds.store (Nat.lt_of_succ_le hroom)
      _ s.bucket.tokens (clock (s.instant + 1))
    rw [hstore]
    exact ⟨_, rfl, ⟨rfl, rfl⟩, rfl, rfl, by simp [hcollects], _, hring, by simp [hcollects]⟩
  · rename_i hcollects
    exact ⟨s, rfl, .refl s, rfl, rfl, by simp [hcollects], stored, hholds, by simp [hcollects]⟩

/-- A wait of which it cannot. -/
theorem awaitRefill_full (hring : Stored s n)
    (hfull : TBStats.entriesLimit < n + s.bucket.setup.recorded 1) :
    s.awaitRefill clock = .error .outOfBounds := by
  obtain ⟨stored, hholds, rfl⟩ := hring
  have hfew := hholds.few
  simp only [awaitRefill, TokenBucket.setup, BucketSetup.recorded,
    TokenBucket.recordOutOfTokensStat] at hfull ⊢
  split
  · rename_i hcollects
    simp only [hcollects, if_true] at hfull
    rw [hholds.store_full (by omega)]
  · rename_i hcollects
    simp only [hcollects, Bool.false_eq_true, if_false] at hfull
    omega

/-- A turn of the loop that waits. -/
theorem consumeOperation_early (hx : ¬ x ≤ s.bucket.tokens)
    (hearly : clock s.instant < s.bucket.nextRefillPeriod) (hring : Stored s n)
    (hroom : n + s.bucket.setup.recorded 1 ≤ TBStats.entriesLimit) :
    ∃ s', (∀ fuel, s.consumeOperation clock (fuel + 1) x = s'.consumeOperation clock fuel x) ∧
      Steady s s' ∧
      s'.meter = { s.meter with instant := s.instant + s.bucket.setup.stride } ∧
      Stored s' (n + s.bucket.setup.recorded 1) := by
  have hwaits : s.bucket.nextRefillPeriod - clock s.instant > 0 := by omega
  -- the look at the clock that told that it is too early
  obtain ⟨turned, hturned⟩ : ∃ turned : Session, turned = { s with instant := s.instant + 1 } :=
    ⟨_, rfl⟩
  obtain ⟨s', hawait, hsteady, htokens, hnext, hinstant, hstored⟩ :
      ∃ s', turned.awaitRefill clock = .ok s' ∧ Steady turned s' ∧
        s'.bucket.tokens = turned.bucket.tokens ∧
        s'.bucket.nextRefillPeriod = turned.bucket.nextRefillPeriod ∧
        s'.instant + 1 = turned.instant + turned.bucket.setup.stride ∧
        Stored s' (n + turned.bucket.setup.recorded 1) := by
    subst hturned
    exact awaitRefill_ok hring hroom
  subst hturned
  refine ⟨s', ?_, ⟨hsteady.setup, hsteady.consumed⟩, ?_, hstored⟩
  · intro fuel
    rw [consumeOperation, if_pos (not_le.mp hx), tryRefill_early hearly]
    simp only [if_pos hwaits, hawait]
  · have hmoved : s'.instant = s.instant + s.bucket.setup.stride := by
      have hmoved : s'.instant + 1 = s.instant + 1 + s.bucket.setup.stride := hinstant
      omega
    simp only [meter, htokens, hnext, hmoved]

/-- A turn of the loop that would have to store one entry too many. -/
theorem consumeOperation_full (hx : ¬ x ≤ s.bucket.tokens)
    (hearly : clock s.instant < s.bucket.nextRefillPeriod) (hring : Stored s n)
    (hfull : TBStats.entriesLimit < n + s.bucket.setup.recorded 1) (fuel : Nat) (s' : Session) :
    s.consumeOperation clock fuel x ≠ .returned s' := by
  have hwaits : s.bucket.nextRefillPeriod - clock s.instant > 0 := by omega
  cases fuel with
  | zero => simp [consumeOperation]
  | succ fuel =>
    rw [consumeOperation, if_pos (not_le.mp hx), tryRefill_early hearly]
    simp only [if_pos hwaits]
    rw [awaitRefill_full (s := { s with instant := s.instant + 1 }) hring hfull]
    simp

/-! ## The operation -/

/-- An operation that comes back, with the session in which the tokens are there. -/
structure Serves (clock : Clock) (x : ℚ) (s paid : Session) : Prop where
  returns : ∃ need, ∀ fuel, need ≤ fuel →
    s.consumeOperation clock fuel x = .returned (paid.subtract x)
  covered : x ≤ paid.bucket.tokens
  steady : Steady s paid
  meter_eq : (paid.subtract x).meter = s.meter.pay clock s.bucket.setup x

/-- The tokens are there at once. -/
theorem Serves.of_covered (hcovered : x ≤ s.bucket.tokens) : Serves clock x s s where
  returns := by
    refine ⟨1, ?_⟩
    intro fuel hfuel
    obtain ⟨fuel, rfl⟩ := Nat.exists_eq_add_of_le' hfuel
    exact consumeOperation_covered hcovered fuel
  covered := hcovered
  steady := .refl s
  meter_eq := (Meter.pay_covered (m := s.meter) hcovered).symm

/-- They are there after a refill that is due. -/
theorem Serves.of_due (hx : x ≤ s.bucket.capacity) (hcovered : ¬ x ≤ s.bucket.tokens)
    (hdue : s.bucket.nextRefillPeriod ≤ clock s.instant) :
    Serves clock x s (s.tryRefill clock).2 := by
  obtain ⟨hle, hsteady, hmeter, -⟩ := tryRefill_due hdue
  have htokens : (s.tryRefill clock).2.bucket.tokens = s.bucket.capacity :=
    congrArg Meter.tokens hmeter
  have hpaid : x ≤ (s.tryRefill clock).2.bucket.tokens := hx.trans_eq htokens.symm
  refine ⟨⟨2, ?_⟩, hpaid, hsteady, ?_⟩
  · intro fuel hfuel
    obtain ⟨fuel, rfl⟩ := Nat.exists_eq_add_of_le' hfuel
    rw [consumeOperation, if_pos (not_le.mp hcovered)]
    simp only [if_neg (not_lt.mpr hle)]
    exact consumeOperation_covered hpaid fuel
  · rw [Meter.pay_due (m := s.meter) hcovered hdue]
    simp only [meter, Meter.mk.injEq] at hmeter
    simp only [meter, subtract, hmeter, TokenBucket.setup]

/-- A turn that waits is followed by the rest of the operation. -/
theorem Serves.early {paid : Session} (h : Serves clock x s' paid) (hclock : Advances clock)
    (hx : ¬ x ≤ s.bucket.tokens) (hearly : clock s.instant < s.bucket.nextRefillPeriod)
    (hturn : ∀ fuel, s.consumeOperation clock (fuel + 1) x = s'.consumeOperation clock fuel x)
    (hsteady : Steady s s')
    (hmeter : s'.meter = { s.meter with instant := s.instant + s.bucket.setup.stride }) :
    Serves clock x s paid where
  returns := by
    obtain ⟨need, hneed⟩ := h.returns
    refine ⟨need + 1, ?_⟩
    intro fuel hfuel
    obtain ⟨fuel, rfl⟩ := Nat.exists_eq_add_of_le' (Nat.le_of_add_left_le hfuel)
    rw [hturn, hneed fuel (by omega)]
  covered := h.covered
  steady := hsteady.trans h.steady
  meter_eq := by
    rw [h.meter_eq, hsteady.setup, hmeter]
    exact (Meter.pay_early (m := s.meter) hclock hx hearly).symm

/-- With room for the entries of its waits, an operation within the capacity comes back. -/
theorem exists_serves (hclock : Advances clock) (hx : x ≤ s.bucket.capacity) (hring : Stored s n)
    (hroom : n + s.bucket.setup.recorded (s.meter.waits clock s.bucket.setup x) ≤
      TBStats.entriesLimit) :
    ∃ paid, Serves clock x s paid ∧
      Stored paid (n + s.bucket.setup.recorded (s.meter.waits clock s.bucket.setup x)) := by
  -- by induction on the looks that come too early
  generalize hw : s.meter.waits clock s.bucket.setup x = w at hroom ⊢
  induction w generalizing s n with
  | zero =>
    have hnone : s.bucket.setup.recorded 0 = 0 := by simp [BucketSetup.recorded]
    rw [hnone]
    by_cases hcovered : x ≤ s.bucket.tokens
    · exact ⟨s, .of_covered hcovered, hring⟩
    · have hdue : s.bucket.nextRefillPeriod ≤ clock s.instant := by
        by_contra hearly
        rw [Meter.waits_early (m := s.meter) hclock hcovered (not_le.mp hearly)] at hw
        omega
      obtain ⟨-, -, -, hstats⟩ := tryRefill_due hdue
      refine ⟨(s.tryRefill clock).2, .of_due hx hcovered hdue, ?_⟩
      rw [Stored, hstats]
      exact hring
  | succ w ih =>
    have hcovered : ¬ x ≤ s.bucket.tokens := by
      intro hcovered
      rw [Meter.waits_covered (m := s.meter) hcovered] at hw
      omega
    have hearly : clock s.instant < s.bucket.nextRefillPeriod := by
      by_contra hdue
      rw [Meter.waits_due (m := s.meter) (not_lt.mp hdue)] at hw
      omega
    rw [Nat.add_comm w 1, BucketSetup.recorded_add, ← Nat.add_assoc] at hroom ⊢
    obtain ⟨s', hturn, hsteady, hmeter, hstored⟩ :=
      consumeOperation_early hcovered hearly hring (Nat.le_of_add_right_le hroom)
    have hw' : s'.meter.waits clock s'.bucket.setup x = w := by
      rw [Meter.waits_early (m := s.meter) hclock hcovered hearly] at hw
      rw [hsteady.setup, hmeter]
      exact Nat.succ_injective hw
    have hx' : x ≤ s'.bucket.capacity :=
      hx.trans_eq (congrArg BucketSetup.capacity hsteady.setup).symm
    rw [← hsteady.setup] at hroom ⊢
    rw [← hsteady.setup] at hstored
    obtain ⟨paid, hserves, hpaid⟩ := ih hx' hstored hw' hroom
    exact ⟨paid, hserves.early hclock hcovered hearly hturn hsteady hmeter, hpaid⟩

/-- Without that room it does not. -/
theorem consumeOperation_ne_returned (hclock : Advances clock) (hring : Stored s n)
    (hfull : TBStats.entriesLimit <
      n + s.bucket.setup.recorded (s.meter.waits clock s.bucket.setup x)) (fuel : Nat)
    (s' : Session) : s.consumeOperation clock fuel x ≠ .returned s' := by
  generalize hw : s.meter.waits clock s.bucket.setup x = w at hfull
  induction w generalizing s n fuel with
  | zero =>
    obtain ⟨stored, hholds, rfl⟩ := hring
    have hfew := hholds.few
    simp only [BucketSetup.recorded, ite_self] at hfull
    omega
  | succ w ih =>
    have hcovered : ¬ x ≤ s.bucket.tokens := by
      intro hcovered
      rw [Meter.waits_covered (m := s.meter) hcovered] at hw
      omega
    have hearly : clock s.instant < s.bucket.nextRefillPeriod := by
      by_contra hdue
      rw [Meter.waits_due (m := s.meter) (not_lt.mp hdue)] at hw
      omega
    rcases lt_or_ge TBStats.entriesLimit (n + s.bucket.setup.recorded 1) with hnow | hroom
    · exact consumeOperation_full hcovered hearly hring hnow fuel s'
    · obtain ⟨s₁, hturn, hsteady, hmeter, hstored⟩ :=
        consumeOperation_early hcovered hearly hring hroom
      have hw' : s₁.meter.waits clock s₁.bucket.setup x = w := by
        rw [Meter.waits_early (m := s.meter) hclock hcovered hearly] at hw
        rw [hsteady.setup, hmeter]
        exact Nat.succ_injective hw
      rw [Nat.add_comm w 1, BucketSetup.recorded_add, ← Nat.add_assoc, ← hsteady.setup] at hfull
      rw [← hsteady.setup] at hstored
      cases fuel with
      | zero => simp [consumeOperation]
      | succ fuel =>
        rw [hturn]
        exact ih hstored fuel hw' hfull

/-- A clock that shows a microsecond more with every reading. -/
theorem advances_natCast : Advances fun k : Nat => (k : Int) := by
  intro t
  refine ⟨t.toNat, ?_⟩
  intro k hk
  show t ≤ (k : Int)
  omega

end Session

end Paio
