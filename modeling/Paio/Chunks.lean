import Paio.RateBound
import Paio.RoundedChunks

/-!
# Paio.Chunks

`try_consume` splits an amount that is larger than the capacity into pieces, each of them the
capacity but the last, which is what is then left. Under a clock that advances it makes one
`consume_operation` for each piece and comes back, for every bucket with a positive capacity, as
long as the ring of statistics can take an entry for every wait on the way
(`tryConsume_exactly_iff`).
-/

namespace Paio

open Polling

/-! ## The pieces of an amount -/

/-- The first pieces of what is left, at most `k` of them. -/
def pieces (capacity : ℚ) : Nat → ℚ → List ℚ
  | 0, _ => []
  | k + 1, left =>
    Session.chunkOf capacity left :: pieces capacity k (left - Session.chunkOf capacity left)

/-- The amounts that `try_consume` asks the bucket for, one after the other. -/
def requests (capacity x : ℚ) : List ℚ :=
  if x ≤ capacity then [x] else pieces capacity ⌈x / capacity⌉₊ x

section

variable {capacity left x : ℚ} {k : Nat}

/-- What is left after a chunk is covered by one chunk less. -/
theorem sub_chunkOf_le (hC : 0 < capacity) (hle : left ≤ (k + 1 : Nat) * capacity) :
    left - Session.chunkOf capacity left ≤ k * capacity := by
  have hnn : 0 ≤ (k : ℚ) * capacity := by positivity
  push_cast at hle
  unfold Session.chunkOf
  split <;> linarith

theorem sub_chunkOf_nonneg (capacity left : ℚ) : 0 ≤ left - Session.chunkOf capacity left := by
  unfold Session.chunkOf
  split
  · linarith
  · rename_i hge
    linarith [not_lt.mp hge]

/-- And by no fewer than that. -/
theorem lt_sub_chunkOf (hC : 0 < capacity) (hlt : (k + 1 : Nat) * capacity < left) :
    k * capacity < left - Session.chunkOf capacity left := by
  have hnn : 0 ≤ (k : ℚ) * capacity := by positivity
  push_cast at hlt
  unfold Session.chunkOf
  split <;> linarith

theorem piecesIn_id (capacity : ℚ) (k : Nat) (left : ℚ) :
    piecesIn id capacity k left = pieces capacity k left := by
  induction k generalizing left with
  | zero => rfl
  | succ k ih =>
    rw [piecesIn, pieces, ih]
    rfl

theorem remainingIn_id_nonpos (hC : 0 < capacity) (hle : left ≤ k * capacity) :
    remainingIn id capacity k left ≤ 0 := by
  induction k generalizing left with
  | zero =>
    rw [Nat.cast_zero, zero_mul] at hle
    exact hle
  | succ k ih => exact ih (sub_chunkOf_le hC hle)

theorem remainingIn_id_pos (hC : 0 < capacity) (hlt : k * capacity < left) :
    0 < remainingIn id capacity k left := by
  induction k generalizing left with
  | zero =>
    rw [Nat.cast_zero, zero_mul] at hlt
    exact hlt
  | succ k ih => exact ih (lt_sub_chunkOf hC hlt)

@[simp] theorem length_pieces (capacity left : ℚ) (k : Nat) :
    (pieces capacity k left).length = k := by
  induction k generalizing left with
  | zero => rfl
  | succ k ih => simp [pieces, ih]

theorem le_of_mem_pieces {a : ℚ} (ha : a ∈ pieces capacity k left) : a ≤ capacity := by
  induction k generalizing left with
  | zero => cases ha
  | succ k ih =>
    rcases List.mem_cons.mp ha with rfl | hrest
    · exact chunkOf_le capacity left
    · exact ih hrest

theorem sum_pieces (hC : 0 < capacity) (hleft : 0 ≤ left) (hle : left ≤ k * capacity) :
    (pieces capacity k left).sum = left := by
  induction k generalizing left with
  | zero =>
    rw [Nat.cast_zero, zero_mul] at hle
    exact (le_antisymm hle hleft).symm
  | succ k ih =>
    rw [pieces, List.sum_cons, ih (sub_chunkOf_nonneg capacity left) (sub_chunkOf_le hC hle)]
    exact add_sub_cancel _ _

/-- The number of pieces. -/
theorem ceil_bounds (hC : 0 < capacity) (hx : 0 < x) :
    x ≤ ⌈x / capacity⌉₊ * capacity ∧ ⌈x / capacity⌉₊ * capacity < x + capacity := by
  have hlt := Nat.ceil_lt_add_one (div_pos hx hC).le
  have hge := Nat.le_ceil (x / capacity)
  refine ⟨(div_le_iff₀ hC).mp hge, ?_⟩
  calc (⌈x / capacity⌉₊ : ℚ) * capacity < (x / capacity + 1) * capacity :=
        mul_lt_mul_of_pos_right hlt hC
    _ = x + capacity := by rw [add_mul, div_mul_cancel₀ x hC.ne', one_mul]

theorem pieceCountIn_id (hC : 0 < capacity) (hx : 0 < x) :
    pieceCountIn id capacity x = ⌈x / capacity⌉₊ := by
  obtain ⟨hhigh, hlow⟩ := ceil_bounds hC hx
  have hleast : IsLeast {k | remainingIn id capacity k x ≤ 0} ⌈x / capacity⌉₊ := by
    refine ⟨remainingIn_id_nonpos hC hhigh, ?_⟩
    intro k hk
    by_contra hfew
    have hk' : ((k + 1 : Nat) : ℚ) ≤ ⌈x / capacity⌉₊ := by exact_mod_cast not_le.mp hfew
    have hlt : k * capacity < x := by
      have hmul := mul_le_mul_of_nonneg_right hk' hC.le
      push_cast at hmul
      linarith
    exact absurd hk (not_le.mpr (remainingIn_id_pos hC hlt))
  exact hleast.csInf_eq

/-- Without rounding the pieces are those of the exact loop. -/
theorem requestsIn_id (hx : 0 ≤ x) (hC : 0 < x → 0 < capacity) :
    requestsIn id capacity x = requests capacity x := by
  unfold requestsIn requests
  split
  · rfl
  · rw [piecesIn_id]
    congr 1
    rcases hx.eq_or_lt with rfl | hpos
    · rw [zero_div, Nat.ceil_zero]
      have hnone : remainingIn id capacity 0 0 ≤ 0 := le_refl 0
      exact Nat.sInf_eq_zero.mpr (.inl hnone)
    · exact pieceCountIn_id (hC hpos) hpos

/-- And nothing is left in the end. -/
theorem drainsIn_id (hx : 0 ≤ x) (hC : 0 < x → 0 < capacity) : DrainsIn id capacity x := by
  right
  rcases hx.eq_or_lt with rfl | hpos
  · exact ⟨0, le_refl 0⟩
  · exact ⟨_, remainingIn_id_nonpos (hC hpos) (ceil_bounds (hC hpos) hpos).1⟩

theorem length_requests (hC : 0 < capacity) (x : ℚ) :
    (requests capacity x).length = max 1 ⌈x / capacity⌉₊ := by
  unfold requests
  split
  · rename_i hle
    have hone : ⌈x / capacity⌉₊ ≤ 1 := Nat.ceil_le.mpr (by
      rw [Nat.cast_one]
      exact (div_le_one hC).mpr hle)
    rw [max_eq_left hone, List.length_singleton]
  · rename_i hgt
    have hpos : 0 < x := hC.trans (not_le.mp hgt)
    rw [length_pieces, max_eq_right (Nat.ceil_pos.mpr (div_pos hpos hC))]

theorem sum_requests (hC : 0 < capacity) (hx : 0 ≤ x) : (requests capacity x).sum = x := by
  unfold requests
  split
  · exact List.sum_singleton
  · rename_i hgt
    exact sum_pieces hC hx (ceil_bounds hC (hC.trans (not_le.mp hgt))).1

theorem le_of_mem_requests {a : ℚ} (ha : a ∈ requests capacity x) : a ≤ capacity := by
  unfold requests at ha
  split at ha
  · rename_i hle
    exact List.mem_singleton.mp ha ▸ hle
  · exact le_of_mem_pieces ha

end

/-! ## The loop over the pieces -/

namespace Session

/-- A `consume_operation` for each of the amounts, one after the other. Each takes its amount from
a bucket that holds at least as much, and nothing else is taken. -/
inductive Operations (clock : Clock) : List ℚ → Session → Session → Prop
  | nil (s : Session) : Operations clock [] s s
  | cons {a : ℚ} {rest : List ℚ} {s paid s' : Session} {fuel : Nat}
      (hop : s.consumeOperation clock fuel a = .returned (paid.subtract a))
      (hcovered : a ≤ paid.bucket.tokens) (hsteady : Steady s paid)
      (hrest : Operations clock rest (paid.subtract a) s') : Operations clock (a :: rest) s s'

variable {clock : Clock} {s s' : Session} {x : ℚ} {n : Nat}

theorem OperationsIn.exact {amounts : List ℚ} (h : OperationsIn id clock amounts s s') :
    Operations clock amounts s s' := by
  induction h with
  | nil s => exact .nil s
  | cons hop hcovered hsteady _ ih =>
    rw [consumeOperationIn_id] at hop
    exact .cons hop hcovered hsteady ih

theorem Operations.consumed {amounts : List ℚ} (h : Operations clock amounts s s') :
    s'.consumed.map Prod.snd = amounts.reverse ++ s.consumed.map Prod.snd := by
  induction h with
  | nil s => rfl
  | cons _ _ hsteady _ ih =>
    rw [ih, subtract, hsteady.consumed]
    simp

theorem waitsAllIn_id (clock : Clock) (u : BucketSetup) (m : Meter) (amounts : List ℚ) :
    m.waitsAllIn id clock u amounts = m.waitsAll clock u amounts := by
  induction amounts generalizing m with
  | nil => rfl
  | cons a rest ih =>
    rw [Meter.waitsAllIn, Meter.waitsAll, ih]
    rfl

/-! ## The whole request -/

/-- The entries that a request leaves, or would leave, in the ring. -/
noncomputable def recordedBy (clock : Clock) (x : ℚ) (s : Session) : Nat :=
  s.bucket.setup.recorded
    (s.meter.waitsAll clock s.bucket.setup (requests s.bucket.capacity x))

theorem recordedByIn_id (clock : Clock) (hx : 0 ≤ x) (hC : 0 < x → 0 < s.bucket.capacity) :
    s.recordedByIn id clock x = s.recordedBy clock x := by
  rw [recordedByIn, recordedBy, requestsIn_id hx hC, waitsAllIn_id]

/-- A request that is not positive, or a positive one to a bucket with a positive capacity, comes
back after an operation for each piece when there is room for the entries of its waits. -/
theorem tryConsume_operations (hclock : Advances clock) (hx : 0 ≤ x)
    (hC : 0 < x → 0 < s.bucket.capacity) (hring : Stored s n)
    (hroom : n + s.recordedBy clock x ≤ TBStats.entriesLimit) :
    ∃ fuel s', s.tryConsume clock fuel x = .returned s' ∧
      Operations clock (requests s.bucket.capacity x) s s' := by
  rw [← recordedByIn_id clock hx hC] at hroom
  obtain ⟨fuel, s', hs', hops⟩ :=
    tryConsumeIn_operations hclock rfl (drainsIn_id hx hC) hring hroom
  rw [tryConsumeIn_id] at hs'
  rw [requestsIn_id hx hC] at hops
  exact ⟨fuel, s', hs', hops.exact⟩

/-- Without that room it does not come back. -/
theorem tryConsume_full (hclock : Advances clock) (hx : 0 ≤ x)
    (hC : 0 < x → 0 < s.bucket.capacity) (hring : Stored s n)
    (hfull : TBStats.entriesLimit < n + s.recordedBy clock x) (fuel : Nat) (s' : Session) :
    s.tryConsume clock fuel x ≠ .returned s' := by
  rw [← recordedByIn_id clock hx hC] at hfull
  rw [← tryConsumeIn_id]
  exact tryConsumeIn_full hclock rfl hring hfull fuel s'

/-- A request served exactly: one operation for each full or last piece, in all the amount that was
asked for, and a bucket within its bounds. -/
structure Exactly (x : ℚ) (clock : Clock) (amounts : List ℚ) (s s' : Session) : Prop where
  operations : Operations clock amounts s s'
  consumed : s'.consumed.map Prod.snd = amounts.reverse ++ s.consumed.map Prod.snd
  count : amounts.length = max 1 ⌈x / s.bucket.capacity⌉₊
  total : amounts.sum = x
  le_capacity : ∀ a ∈ amounts, a ≤ s.bucket.capacity
  tokens_nonneg : 0 ≤ s'.bucket.tokens
  tokens_le : s'.bucket.tokens ≤ s.bucket.capacity

/-- For every bucket with a positive capacity that holds no more than that, every amount and every
clock that advances, `try_consume` comes back and has served the amount exactly if and only if the
ring of statistics has room for the entries of the waits. -/
theorem tryConsume_exactly_iff {clock : Clock} (hclock : Advances clock) {b : TokenBucket}
    {stored : List TBStatsEntry} (hring : b.tokenBucketStatistics.Reachable stored)
    (hC : 0 < b.capacity) (htokens : 0 ≤ b.tokens) (hle : b.tokens ≤ b.capacity) {x : ℚ}
    (hx : 0 ≤ x) (instant : Nat) :
    (∃ fuel s' amounts, tryConsume clock fuel x { bucket := b, instant := instant } = .returned s' ∧
      Exactly x clock amounts { bucket := b, instant := instant } s') ↔
    stored.length + recordedBy clock x { bucket := b, instant := instant } ≤ 2 ^ 31 := by
  let s : Session := { bucket := b, instant := instant }
  have hstored : Stored s stored.length := ⟨stored, hring.holds, rfl⟩
  constructor
  · rintro ⟨fuel, s', -, hs', -⟩
    by_contra hfull
    exact tryConsume_full hclock hx (fun _ => hC) hstored (not_le.mp hfull) fuel s' hs'
  · intro hroom
    obtain ⟨fuel, s', hs', hops⟩ :=
      tryConsume_operations (s := s) hclock hx (fun _ => hC) hstored hroom
    have hrefines : Refines clock (fun _ _ => True) s (s.tryConsume clock fuel x).session :=
      tryConsume_refines (fun _ => trivial) hx fuel hC.le
    rw [hs'] at hrefines
    obtain ⟨hnn, hbound⟩ : TokenAccount.Bounded b.capacity (s'.account clock) :=
      TokenAccount.Bounded.run hC.le hrefines.run ⟨htokens, hle⟩
    exact ⟨fuel, s', requests b.capacity x, hs', hops, hops.consumed, length_requests hC x,
      sum_requests hC hx, fun a ha => le_of_mem_requests ha, hnn, hbound⟩

/-- 25 tokens from a bucket that holds ten of them. -/
theorem tryConsume_exactly_ten :
    let s : Session :=
      { bucket :=
          { capacity := 10
            tokens := 10
            refillPeriod := 100
            nextRefillPeriod := 100
            lastRefillPeriod := 0 } }
    ∃ fuel s' amounts, s.tryConsume (fun k => k) fuel 25 = .returned s' ∧
      Exactly 25 (fun k => k) amounts s s' := by
  intro s
  refine (tryConsume_exactly_iff advances_natCast .new ?_ ?_ (le_refl _) ?_ 0).mpr ?_
  · norm_num [s]
  · norm_num [s]
  · norm_num
  · rw [recordedBy, BucketSetup.recorded, if_neg (by simp [TokenBucket.setup])]
    norm_num

/-- A bucket that collects statistics and was not asked for them in the last 2^31 - 1 waits does
not survive the second wait of a request for one token. -/
theorem full_ring_not_exact :
    ∃ (ring : TBStats) (stored : List TBStatsEntry), ring.Reachable stored ∧
      stored.length = 2 ^ 31 - 1 ∧
      ∀ fuel s', tryConsume (fun k => k) fuel 1
        { bucket :=
            { capacity := 1
              tokens := 0
              refillPeriod := 10
              nextRefillPeriod := 10
              lastRefillPeriod := 0
              collectStatistics := true
              tokenBucketStatistics := ring } } ≠ .returned s' := by
  obtain ⟨stored, hlength⟩ : ∃ stored : List TBStatsEntry, stored.length = 2 ^ 31 - 1 :=
    ⟨List.replicate _ {}, List.length_replicate⟩
  obtain ⟨ring, hring⟩ := TBStats.exists_reachable stored (by rw [hlength]; decide)
  refine ⟨ring, stored, hring, hlength, ?_⟩
  refine tryConsume_full advances_natCast zero_le_one (fun _ => zero_lt_one)
    ⟨stored, hring.holds, rfl⟩ ?_
  have hwaits : 2 ≤ misses (fun k : Nat => (k : Int)) 3 0 10 := by
    rw [misses_eq_succ advances_natCast (by omega) (by decide),
      misses_eq_succ advances_natCast (by omega) (by decide)]
    omega
  have hrecorded : 2 ≤ recordedBy (fun k => k) 1
      { bucket :=
          { capacity := 1
            tokens := 0
            refillPeriod := 10
            nextRefillPeriod := 10
            lastRefillPeriod := 0
            collectStatistics := true
            tokenBucketStatistics := ring } } := by
    have hempty : ¬ (1 : ℚ) ≤ 0 := by norm_num
    simpa [recordedBy, requests, Meter.waitsAll, Meter.waits, meter, TokenBucket.setup,
      BucketSetup.recorded, BucketSetup.stride, hempty] using hwaits
  rw [hlength, TBStats.entriesLimit]
  omega

end Session

end Paio
