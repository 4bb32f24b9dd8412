import Paio.RoundedBucket
import Paio.Waiting

/-!
# Paio.RoundedChunks

The loop of `try_consume`, whatever the rounding. It takes off one piece after the other, each of
them the capacity but the last, which is what is then left, and rounds what is left each time. The
loop comes back when nothing is left in the end and the ring of statistics can take an entry for
every wait on the way, and else it does not (`tryConsumeIn_returns_iff`).
-/

namespace Paio

open Polling

/-! ## The pieces of an amount -/

section

variable (rnd : ℚ → ℚ)

/-- What is left after `k` pieces. -/
def remainingIn (capacity : ℚ) : Nat → ℚ → ℚ
  | 0, left => left
  | k + 1, left => remainingIn capacity k (rnd (left - Session.chunkOf capacity left))

/-- The first `k` pieces. -/
def piecesIn (capacity : ℚ) : Nat → ℚ → List ℚ
  | 0, _ => []
  | k + 1, left =>
    Session.chunkOf capacity left :: piecesIn capacity k (rnd (left - Session.chunkOf capacity left))

/-- After so many pieces nothing is left. -/
noncomputable def pieceCountIn (capacity x : ℚ) : Nat := sInf {k | remainingIn rnd capacity k x ≤ 0}

/-- The amounts that `try_consume` asks the bucket for, one after the other. -/
noncomputable def requestsIn (capacity x : ℚ) : List ℚ :=
  if x ≤ capacity then [x] else piecesIn rnd capacity (pieceCountIn rnd capacity x) x

/-- The amount is one piece, or nothing is left of it in the end. -/
def DrainsIn (capacity x : ℚ) : Prop := x ≤ capacity ∨ ∃ k, remainingIn rnd capacity k x ≤ 0

/-- What is left after `Meter.pay`, rounded. -/
noncomputable def Meter.payIn (clock : Clock) (u : BucketSetup) (m : Meter) (x : ℚ) : Meter :=
  { m.pay clock u x with tokens := rnd (m.pay clock u x).tokens }

/-- The waits for a list of amounts. -/
noncomputable def Meter.waitsAllIn (clock : Clock) (u : BucketSetup) : Meter → List ℚ → Nat
  | _, [] => 0
  | m, x :: rest => m.waits clock u x + (m.payIn rnd clock u x).waitsAllIn clock u rest

end

theorem chunkOf_le (capacity left : ℚ) : Session.chunkOf capacity left ≤ capacity := by
  unfold Session.chunkOf
  split
  · rename_i hlt
    exact hlt.le
  · exact le_refl _

namespace Session

/-- A `consume_operation` for each of the amounts, one after the other. Each takes its amount from
a bucket that holds at least as much, and nothing else is taken. -/
inductive OperationsIn (rnd : ℚ → ℚ) (clock : Clock) : List ℚ → Session → Session → Prop
  | nil (s : Session) : OperationsIn rnd clock [] s s
  | cons {a : ℚ} {rest : List ℚ} {s paid s' : Session} {fuel : Nat}
      (hop : s.consumeOperationIn rnd clock fuel a = .returned (paid.subtractIn rnd a))
      (hcovered : a ≤ paid.bucket.tokens) (hsteady : Steady s paid)
      (hrest : OperationsIn rnd clock rest (paid.subtractIn rnd a) s') :
      OperationsIn rnd clock (a :: rest) s s'

def roundTokens (rnd : ℚ → ℚ) (s : Session) : Session :=
  { s with bucket := { s.bucket with tokens := rnd s.bucket.tokens } }

end Session

def Outcome.roundTokens (rnd : ℚ → ℚ) : Outcome → Outcome
  | .returned s => .returned (s.roundTokens rnd)
  | .stopped f s => .stopped f s

namespace Session

variable {rnd : ℚ → ℚ} {clock : Clock} {s s' : Session} {x C left chunk : ℚ} {k n fuel : Nat}

/-! ## One operation -/

/-- An operation rounds at its end only. -/
theorem consumeOperationIn_eq (rnd : ℚ → ℚ) (clock : Clock) (fuel : Nat) (x : ℚ) (s : Session) :
    s.consumeOperationIn rnd clock fuel x = (s.consumeOperation clock fuel x).roundTokens rnd := by
  induction fuel generalizing s with
  | zero => rfl
  | succ fuel ih =>
    simp only [consumeOperationIn, consumeOperation]
    split
    · split
      · cases (s.tryRefill clock).2.awaitRefill clock with
        | ok s'' => exact ih s''
        | error f => rfl
      · exact ih _
    · rfl

theorem consumeOperationIn_ne_returned (hclock : Advances clock) (hring : Stored s n)
    (hfull : TBStats.entriesLimit <
      n + s.bucket.setup.recorded (s.meter.waits clock s.bucket.setup x)) (fuel : Nat)
    (s' : Session) : s.consumeOperationIn rnd clock fuel x ≠ .returned s' := by
  rw [consumeOperationIn_eq]
  cases hop : s.consumeOperation clock fuel x with
  | returned paid => exact absurd hop (consumeOperation_ne_returned hclock hring hfull fuel paid)
  | stopped f paid => simp [Outcome.roundTokens]

theorem consumeOperationIn_capacity
    (h : s.consumeOperationIn rnd clock fuel x = .returned s') :
    s'.bucket.capacity = s.bucket.capacity := by
  have hshape := consumeOperation_sameShape clock fuel x s
  rw [consumeOperationIn_eq] at h
  cases hop : s.consumeOperation clock fuel x with
  | returned paid =>
    rw [hop] at h hshape
    cases h
    exact hshape.capacity
  | stopped f paid =>
    rw [hop] at h
    cases h

theorem Serves.returnsIn {paid : Session} (h : Serves clock x s paid) (rnd : ℚ → ℚ) :
    ∃ need, ∀ fuel, need ≤ fuel →
      s.consumeOperationIn rnd clock fuel x = .returned (paid.subtractIn rnd x) := by
  obtain ⟨need, hneed⟩ := h.returns
  refine ⟨need, ?_⟩
  intro fuel hfuel
  rw [consumeOperationIn_eq, hneed fuel hfuel]
  rfl

theorem Serves.meterIn_eq {paid : Session} (h : Serves clock x s paid) (rnd : ℚ → ℚ) :
    (paid.subtractIn rnd x).meter = s.meter.payIn rnd clock s.bucket.setup x := by
  rw [Meter.payIn, ← h.meter_eq]
  rfl

/-- The bucket after an operation, as far as the next one is concerned. -/
theorem Serves.subtractIn_setup {paid : Session} (h : Serves clock x s paid) (rnd : ℚ → ℚ) :
    (paid.subtractIn rnd x).bucket.setup = s.bucket.setup :=
  h.steady.setup

/-- More fuel does not change what an operation returns. -/
theorem consumeOperation_mono {fuel' : Nat} (hle : fuel ≤ fuel')
    (h : s.consumeOperation clock fuel x = .returned s') :
    s.consumeOperation clock fuel' x = .returned s' := by
  induction fuel generalizing fuel' s with
  | zero => simp [consumeOperation] at h
  | succ fuel ih =>
    obtain ⟨fuel', rfl⟩ := Nat.exists_eq_add_of_le' (Nat.le_of_add_left_le hle)
    have hle' : fuel ≤ fuel' := Nat.le_of_succ_le_succ hle
    simp only [consumeOperation] at h ⊢
    split at h
    · rename_i hx
      rw [if_pos hx]
      split at h
      · rename_i hwait
        rw [if_pos hwait]
        split at h
        · exact ih hle' h
        · cases h
      · rename_i hdue
        rw [if_neg hdue]
        exact ih hle' h
    · rename_i hx
      rw [if_neg hx]
      exact h

theorem Serves.eq_of_returnedIn {paid : Session} (h : Serves clock x s paid)
    (hs' : s.consumeOperationIn rnd clock fuel x = .returned s') : s' = paid.subtractIn rnd x := by
  rw [consumeOperationIn_eq] at hs'
  obtain ⟨need, hneed⟩ := h.returns
  cases hop : s.consumeOperation clock fuel x with
  | returned served =>
    have hfuel := consumeOperation_mono (Nat.le_max_left fuel need) hop
    rw [hneed _ (Nat.le_max_right fuel need)] at hfuel
    cases hfuel
    rw [hop] at hs'
    exact (Outcome.returned.inj hs').symm
  | stopped f served =>
    rw [hop] at hs'
    cases hs'

/-! ## The loop over the pieces -/

/-- The chunk that the loop takes next is a piece of what is left. -/
theorem next_chunk (hzero : rnd 0 = 0) (hleft : 0 < rnd (left - chunkOf C left)) :
    (if rnd (left - chunkOf C left) < C then rnd (left - chunkOf C left) else chunkOf C left) =
      chunkOf C (rnd (left - chunkOf C left)) := by
  have hC : chunkOf C left = C := by
    rw [chunkOf, if_neg]
    intro hlt
    rw [chunkOf, if_pos hlt, sub_self, hzero] at hleft
    exact lt_irrefl 0 hleft
  rw [hC]
  rfl

/-- With room for the entries of its waits, the loop comes back after an operation for each of the
pieces that there are until nothing is left. -/
theorem consumeChunksIn_operations (hclock : Advances clock) (hzero : rnd 0 = 0)
    (hcap : s.bucket.capacity = C) (hlast : remainingIn rnd C k left ≤ 0)
    (hmore : ∀ j < k, 0 < remainingIn rnd C j left)
    (hchunk : 0 < left → chunk = chunkOf C left) (hring : Stored s n)
    (hroom : n + s.bucket.setup.recorded
      (s.meter.waitsAllIn rnd clock s.bucket.setup (piecesIn rnd C k left)) ≤
        TBStats.entriesLimit) :
    ∃ s', (∃ need, ∀ fuel, need ≤ fuel →
      s.consumeChunksIn rnd clock fuel left chunk = .returned s') ∧
      OperationsIn rnd clock (piecesIn rnd C k left) s s' := by
  induction k generalizing left chunk s n with
  | zero =>
    have hdone : ¬ left > 0 := not_lt.mpr hlast
    refine ⟨s, ⟨1, ?_⟩, .nil s⟩
    intro fuel hfuel
    obtain ⟨fuel, rfl⟩ := Nat.exists_eq_add_of_le' hfuel
    rw [consumeChunksIn, if_neg hdone]
  | succ k ih =>
    have hleft : 0 < left := hmore 0 (Nat.succ_pos k)
    have hchunk := hchunk hleft
    subst hchunk
    rw [piecesIn, Meter.waitsAllIn, BucketSetup.recorded_add, ← Nat.add_assoc] at hroom
    obtain ⟨paid, hserves, hstored⟩ := exists_serves hclock (hcap ▸ chunkOf_le C left) hring
      (Nat.le_of_add_right_le hroom)
    have hsetup := hserves.subtractIn_setup rnd
    have hcap' : (paid.subtractIn rnd (chunkOf C left)).bucket.capacity = C :=
      (congrArg BucketSetup.capacity hsetup).trans hcap
    rw [← hserves.meterIn_eq, ← hsetup] at hroom
    rw [← hsetup] at hstored
    obtain ⟨s', ⟨need, hneed⟩, hrest⟩ := ih hcap' hlast
      (fun j hj => hmore (j + 1) (Nat.succ_lt_succ hj)) (next_chunk hzero) hstored hroom
    obtain ⟨first, hfirst⟩ := hserves.returnsIn rnd
    refine ⟨s', ⟨max first need + 1, ?_⟩, ?_⟩
    · intro fuel hfuel
      obtain ⟨fuel, rfl⟩ := Nat.exists_eq_add_of_le' (Nat.le_of_add_left_le hfuel)
      have hmax : max first need ≤ fuel := Nat.le_of_succ_le_succ hfuel
      rw [consumeChunksIn, if_pos hleft, hfirst fuel (le_trans (Nat.le_max_left _ _) hmax)]
      simp only [hcap']
      exact hneed fuel (le_trans (Nat.le_max_right _ _) hmax)
    · exact .cons (hfirst first (le_refl _)) hserves.covered hserves.steady hrest

/-- Without that room it does not. -/
theorem consumeChunksIn_full (hclock : Advances clock) (hzero : rnd 0 = 0)
    (hcap : s.bucket.capacity = C) (hmore : ∀ j < k, 0 < remainingIn rnd C j left)
    (hchunk : 0 < left → chunk = chunkOf C left) (hring : Stored s n)
    (hfull : TBStats.entriesLimit < n + s.bucket.setup.recorded
      (s.meter.waitsAllIn rnd clock s.bucket.setup (piecesIn rnd C k left)))
    (fuel : Nat) (s' : Session) : s.consumeChunksIn rnd clock fuel left chunk ≠ .returned s' := by
  induction k generalizing left chunk s n fuel with
  | zero =>
    obtain ⟨stored, hholds, rfl⟩ := hring
    have hfew := hholds.few
    simp only [piecesIn, Meter.waitsAllIn, BucketSetup.recorded, ite_self] at hfull
    omega
  | succ k ih =>
    have hleft : 0 < left := hmore 0 (Nat.succ_pos k)
    have hchunk := hchunk hleft
    subst hchunk
    cases fuel with
    | zero => simp [consumeChunksIn]
    | succ fuel =>
      rw [consumeChunksIn, if_pos hleft]
      split
      · simp
      · rename_i s₁ hs₁
        rw [piecesIn, Meter.waitsAllIn, BucketSetup.recorded_add, ← Nat.add_assoc] at hfull
        rcases lt_or_ge TBStats.entriesLimit (n + s.bucket.setup.recorded
          (s.meter.waits clock s.bucket.setup (chunkOf C left))) with hnow | hroom
        · exact absurd hs₁ (consumeOperationIn_ne_returned hclock hring hnow fuel s₁)
        · obtain ⟨paid, hserves, hstored⟩ :=
            exists_serves hclock (hcap ▸ chunkOf_le C left) hring hroom
          have hsetup := hserves.subtractIn_setup rnd
          have hcap' : (paid.subtractIn rnd (chunkOf C left)).bucket.capacity = C :=
            (congrArg BucketSetup.capacity hsetup).trans hcap
          rw [hserves.eq_of_returnedIn hs₁]
          rw [← hserves.meterIn_eq, ← hsetup] at hfull
          rw [← hsetup] at hstored
          simp only [hcap']
          exact ih hcap' (fun j hj => hmore (j + 1) (Nat.succ_lt_succ hj)) (next_chunk hzero)
            hstored hfull fuel

/-- While something is left the loop goes on, whatever the clock shows. -/
theorem consumeChunksIn_endless (hzero : rnd 0 = 0) (hcap : s.bucket.capacity = C)
    (hmore : ∀ k, 0 < remainingIn rnd C k left) (hchunk : chunk = chunkOf C left) (fuel : Nat)
    (s' : Session) : s.consumeChunksIn rnd clock fuel left chunk ≠ .returned s' := by
  induction fuel generalizing left chunk s with
  | zero => simp [consumeChunksIn]
  | succ fuel ih =>
    subst hchunk
    have hleft : 0 < left := hmore 0
    rw [consumeChunksIn, if_pos hleft]
    split
    · simp
    · rename_i s₁ hs₁
      have hcap' : s₁.bucket.capacity = C := (consumeOperationIn_capacity hs₁).trans hcap
      simp only [hcap']
      exact ih hcap' (fun k => hmore (k + 1)) (next_chunk hzero (hmore 1))

/-! ## The whole request -/

/-- The entries that a request leaves, or would leave, in the ring. -/
noncomputable def recordedByIn (rnd : ℚ → ℚ) (clock : Clock) (x : ℚ) (s : Session) : Nat :=
  s.bucket.setup.recorded
    (s.meter.waitsAllIn rnd clock s.bucket.setup (requestsIn rnd s.bucket.capacity x))

theorem remainingIn_pos_of_lt_count (hk : k < pieceCountIn rnd C x) : 0 < remainingIn rnd C k x :=
  not_le.mp (Nat.notMem_of_lt_sInf hk)

theorem first_chunk (hgt : x > C) : C = chunkOf C x := by
  rw [chunkOf, if_neg (not_lt.mpr hgt.le)]

/-- A request of which nothing is left in the end comes back after an operation for each piece when
there is room for the entries of its waits. -/
theorem tryConsumeIn_operations (hclock : Advances clock) (hzero : rnd 0 = 0)
    (hdrains : DrainsIn rnd s.bucket.capacity x) (hring : Stored s n)
    (hroom : n + s.recordedByIn rnd clock x ≤ TBStats.entriesLimit) :
    ∃ fuel s', s.tryConsumeIn rnd clock fuel x = .returned s' ∧
      OperationsIn rnd clock (requestsIn rnd s.bucket.capacity x) s s' := by
  unfold recordedByIn requestsIn at hroom
  unfold tryConsumeIn requestsIn
  split
  · rename_i hgt
    rw [if_neg (not_le.mpr hgt)] at hroom ⊢
    have hends : remainingIn rnd s.bucket.capacity
        (pieceCountIn rnd s.bucket.capacity x) x ≤ 0 :=
      Nat.sInf_mem (hdrains.resolve_left (not_le.mpr hgt))
    obtain ⟨s', ⟨need, hneed⟩, hops⟩ := consumeChunksIn_operations hclock hzero rfl hends
      (fun _ => remainingIn_pos_of_lt_count) (fun _ => first_chunk hgt) hring hroom
    exact ⟨need, s', hneed need (le_refl _), hops⟩
  · rename_i hngt
    have hle : x ≤ s.bucket.capacity := not_lt.mp hngt
    rw [if_pos hle, Meter.waitsAllIn, BucketSetup.recorded_add, ← Nat.add_assoc] at hroom
    rw [if_pos hle]
    obtain ⟨paid, hserves, -⟩ := exists_serves hclock hle hring (Nat.le_of_add_right_le hroom)
    obtain ⟨need, hneed⟩ := hserves.returnsIn rnd
    exact ⟨need, paid.subtractIn rnd x, hneed need (le_refl _),
      .cons (hneed need (le_refl _)) hserves.covered hserves.steady (.nil _)⟩

/-- Without that room it does not come back. -/
theorem tryConsumeIn_full (hclock : Advances clock) (hzero : rnd 0 = 0) (hring : Stored s n)
    (hfull : TBStats.entriesLimit < n + s.recordedByIn rnd clock x) (fuel : Nat) (s' : Session) :
    s.tryConsumeIn rnd clock fuel x ≠ .returned s' := by
  unfold recordedByIn requestsIn at hfull
  unfold tryConsumeIn
  split
  · rename_i hgt
    rw [if_neg (not_le.mpr hgt)] at hfull
    exact consumeChunksIn_full hclock hzero rfl (fun _ => remainingIn_pos_of_lt_count)
      (fun _ => first_chunk hgt) hring hfull fuel s'
  · rename_i hngt
    rw [if_pos (not_lt.mp hngt), Meter.waitsAllIn, Meter.waitsAllIn, Nat.add_zero] at hfull
    exact consumeOperationIn_ne_returned hclock hring hfull fuel s'

/-- Nor does a request of which something is always left. -/
theorem tryConsumeIn_endless (hzero : rnd 0 = 0) (hdrains : ¬ DrainsIn rnd s.bucket.capacity x)
    (fuel : Nat) (s' : Session) : s.tryConsumeIn rnd clock fuel x ≠ .returned s' := by
  rw [DrainsIn, not_or, not_exists, not_le] at hdrains
  obtain ⟨hgt, hmore⟩ := hdrains
  rw [tryConsumeIn, if_pos hgt]
  exact consumeChunksIn_endless hzero rfl (fun k => not_le.mp (hmore k)) (first_chunk hgt) fuel s'

/-- A request comes back under a clock that advances exactly when nothing is left of it in the end
and the ring has room for the entries of its waits. -/
theorem tryConsumeIn_returns_iff (hclock : Advances clock) (hzero : rnd 0 = 0)
    (hring : Stored s n) :
    (∃ fuel s', s.tryConsumeIn rnd clock fuel x = .returned s') ↔
      DrainsIn rnd s.bucket.capacity x ∧
        n + s.recordedByIn rnd clock x ≤ TBStats.entriesLimit := by
  constructor
  · rintro ⟨fuel, s', hs'⟩
    constructor
    · by_contra hdrains
      exact tryConsumeIn_endless hzero hdrains fuel s' hs'
    · by_contra hfull
      exact tryConsumeIn_full hclock hzero hring (not_le.mp hfull) fuel s' hs'
  · rintro ⟨hdrains, hroom⟩
    obtain ⟨fuel, s', hs', -⟩ := tryConsumeIn_operations hclock hzero hdrains hring hroom
    exact ⟨fuel, s', hs'⟩

end Session

end Paio
