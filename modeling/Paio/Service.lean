import Mathlib.Algebra.Order.Archimedean.Basic
import Mathlib.Algebra.Order.Floor.Semiring
import Mathlib.Tactic.Linarith
import Paio.Channel

/-!
# Paio.Service

When the enforcement of a ticket comes back, if only for a suitable clock (`Passes`). In exact
arithmetic the loops of the token bucket do so exactly when the cost of the ticket is not positive
or the bucket has a positive capacity (`passes_drl_iff`): a rate limiter with no capacity keeps a
ticket with a cost forever. What enforcement does to the objects does not change this
(`Serviceable.enforce`).
-/

namespace Paio

namespace Session

variable {clock : Clock} {s s' : Session}

/-! ## What the loops keep -/

/-- Capacity and period are not touched by consuming. -/
structure SameShape (s s' : Session) : Prop where
  capacity : s'.bucket.capacity = s.bucket.capacity
  refillPeriod : s'.bucket.refillPeriod = s.bucket.refillPeriod

theorem SameShape.trans {s'' : Session} (h : SameShape s s') (h' : SameShape s' s'') :
    SameShape s s'' := ⟨h'.capacity.trans h.capacity, h'.refillPeriod.trans h.refillPeriod⟩

theorem tryRefill_sameShape : SameShape s (s.tryRefill clock).2 := by
  simp only [tryRefill, isTimeToRefill, refillOperation]
  split
  · split <;> exact ⟨rfl, rfl⟩
  · exact ⟨rfl, rfl⟩

theorem awaitRefill_sameShape (h : s.awaitRefill clock = .ok s') : SameShape s s' := by
  simp only [awaitRefill] at h
  split at h
  · split at h <;> cases h
    rename_i bucket hb
    simp only [TokenBucket.recordOutOfTokensStat] at hb
    split at hb <;> cases hb
    exact ⟨rfl, rfl⟩
  · cases h
    exact ⟨rfl, rfl⟩

/-- What every part of the loops keeps: a refill or the look at the time that comes before it, the
wait for the next one, and the subtraction of an amount that the bucket covers. -/
structure Kept (clock : Clock) (I : Session → Prop) : Prop where
  tryRefill : ∀ s, I s → I (s.tryRefill clock).2
  awaitRefill : ∀ s s', I s → s.awaitRefill clock = .ok s' → I s'
  subtract : ∀ s x, I s → x ≤ s.bucket.tokens → I (s.subtract x)

/-- The loop of `consume_operation`, also when it is cut off. -/
theorem Kept.consumeOperation {I : Session → Prop} (h : Kept clock I) (fuel : Nat) (x : ℚ)
    (hs : I s) : I (s.consumeOperation clock fuel x).session := by
  induction fuel generalizing s with
  | zero => exact hs
  | succ fuel ih =>
    have hrefill := h.tryRefill s hs
    simp only [Session.consumeOperation]
    split
    · split
      · split
        · rename_i s'' hawait
          exact ih (h.awaitRefill _ s'' hrefill hawait)
        · exact hrefill
      · exact ih hrefill
    · rename_i hcovered
      exact h.subtract s x hs (not_lt.mp hcovered)

/-- The loop of `try_consume`. -/
theorem Kept.consumeChunks {I : Session → Prop} (h : Kept clock I) (fuel : Nat) (left chunk : ℚ)
    (hs : I s) : I (s.consumeChunks clock fuel left chunk).session := by
  induction fuel generalizing left chunk s with
  | zero => exact hs
  | succ fuel ih =>
    simp only [Session.consumeChunks]
    split
    · have hc := h.consumeOperation fuel chunk hs
      split
      · rename_i f s' hs'
        rwa [hs'] at hc
      · rename_i s' hs'
        rw [hs'] at hc
        exact ih _ _ hc
    · exact hs

theorem Kept.tryConsume {I : Session → Prop} (h : Kept clock I) (fuel : Nat) (x : ℚ) (hs : I s) :
    I (s.tryConsume clock fuel x).session := by
  simp only [Session.tryConsume]
  split
  · exact h.consumeChunks fuel x s.bucket.capacity hs
  · exact h.consumeOperation fuel x hs

theorem kept_sameShape (clock : Clock) (s : Session) : Kept clock (SameShape s) where
  tryRefill := fun _ h => h.trans tryRefill_sameShape
  awaitRefill := fun _ _ h hawait => h.trans (awaitRefill_sameShape hawait)
  subtract := fun _ _ h _ => h.trans ⟨rfl, rfl⟩

theorem consumeOperation_sameShape (clock : Clock) (fuel : Nat) (x : ℚ) (s : Session) :
    SameShape s (s.consumeOperation clock fuel x).session :=
  (kept_sameShape clock s).consumeOperation fuel x ⟨rfl, rfl⟩

theorem tryConsume_sameShape (clock : Clock) (fuel : Nat) (x : ℚ) (s : Session) :
    SameShape s (s.tryConsume clock fuel x).session :=
  (kept_sameShape clock s).tryConsume fuel x ⟨rfl, rfl⟩

/-! ## When they end -/

/-- A clock on which every reading comes when the bucket is due again. -/
structure Punctual (clock : Clock) (s : Session) : Prop where
  due : ∀ k, s.instant ≤ k → s.bucket.nextRefillPeriod ≤ clock k
  advance : ∀ j k, j < k → clock j + s.bucket.refillPeriod ≤ clock k

theorem Punctual.tryRefill (h : Punctual clock s) :
    (s.tryRefill clock).1 ≤ 0 ∧ (s.tryRefill clock).2.bucket.tokens = s.bucket.capacity ∧
      Punctual clock (s.tryRefill clock).2 := by
  have hdue : s.bucket.nextRefillPeriod - clock s.instant ≤ 0 := by
    have hd := h.due s.instant (le_refl _)
    omega
  have hnext : ∀ k, s.instant + 1 ≤ k →
      s.bucket.calcNextRefillPeriod (clock s.instant) ≤ clock k :=
    fun k hk => h.advance s.instant k hk
  simp only [Session.tryRefill, isTimeToRefill, refillOperation, if_pos hdue]
  split
  · exact ⟨hdue, rfl, fun k hk => hnext k (by simp only at hk; omega), h.advance⟩
  · exact ⟨hdue, rfl, hnext, h.advance⟩

theorem Punctual.consumeOperation (h : Punctual clock s) {x : ℚ} (hx : x ≤ s.bucket.capacity)
    (fuel : Nat) :
    ∃ s', s.consumeOperation clock (fuel + 2) x = .returned s' ∧ Punctual clock s' := by
  have hsub : ∀ s : Session, Punctual clock s → Punctual clock (s.subtract x) :=
    fun s h => ⟨fun k hk => h.due k (Nat.le_of_succ_le hk), h.advance⟩
  simp only [Session.consumeOperation]
  split
  · obtain ⟨hle, htokens, hpunctual⟩ := h.tryRefill
    rw [if_neg (not_lt.mpr hle), if_neg (by rw [htokens]; exact not_lt.mpr hx)]
    exact ⟨_, rfl, hsub _ hpunctual⟩
  · exact ⟨_, rfl, hsub _ h⟩

/-- The chunk that the loop of `try_consume` takes next. -/
def chunkOf (capacity left : ℚ) : ℚ := if left < capacity then left else capacity

/-- `n` more chunks are enough when they cover what is left. -/
theorem Punctual.consumeChunks (h : Punctual clock s) (hC : 0 < s.bucket.capacity) {left chunk : ℚ}
    {n : Nat} (hleft : left ≤ n * s.bucket.capacity)
    (hchunk : 0 < left → chunk = chunkOf s.bucket.capacity left) :
    ∃ s', s.consumeChunks clock (n + 3) left chunk = .returned s' := by
  induction n generalizing left chunk s with
  | zero =>
    have hdone : ¬ left > 0 := by
      simp only [Nat.cast_zero, zero_mul] at hleft
      exact not_lt.mpr hleft
    simp only [Session.consumeChunks]
    rw [if_neg hdone]
    exact ⟨s, rfl⟩
  | succ n ih =>
    rw [Session.consumeChunks]
    split
    · rename_i hpos
      have hle : chunk ≤ s.bucket.capacity := by
        rw [hchunk hpos, chunkOf]
        split
        · rename_i hlt
          exact hlt.le
        · exact le_refl _
      obtain ⟨s', hs', hpunctual⟩ := h.consumeOperation hle (n + 1)
      have hcap : s'.bucket.capacity = s.bucket.capacity := by
        have hshape := consumeOperation_sameShape clock (n + 3) chunk s
        rw [hs'] at hshape
        exact hshape.capacity
      rw [hs']
      have hrest : left - chunk ≤ n * s'.bucket.capacity := by
        push_cast at hleft
        rw [hcap, hchunk hpos, chunkOf]
        split
        · have hnn : 0 ≤ (n : ℚ) * s.bucket.capacity := by positivity
          linarith
        · linarith
      refine ih hpunctual (by rwa [hcap]) hrest ?_
      intro hpos'
      rw [hcap, chunkOf]
      split
      · rfl
      · rename_i hge
        rw [hchunk hpos, chunkOf, if_neg]
        intro hlt
        rw [hchunk hpos, chunkOf, if_pos hlt] at hpos'
        linarith
    · exact ⟨s, rfl⟩

/-- A call of `try_consume` ends when its amount is not positive or the capacity is. -/
theorem Punctual.tryConsume (h : Punctual clock s) {x : ℚ} (hx : 0 < x → 0 < s.bucket.capacity) :
    ∃ fuel s', s.tryConsume clock fuel x = .returned s' := by
  simp only [Session.tryConsume]
  split
  · rename_i hgt
    by_cases hpos : 0 < x
    · have hC := hx hpos
      obtain ⟨n, hn⟩ := exists_nat_ge (x / s.bucket.capacity)
      have hcover : x ≤ n * s.bucket.capacity := (div_le_iff₀ hC).mp hn
      obtain ⟨s', hs'⟩ := h.consumeChunks hC hcover (fun _ => by
        rw [chunkOf, if_neg (not_lt.mpr hgt.le)])
      exact ⟨n + 3, s', hs'⟩
    · refine ⟨1, s, ?_⟩
      simp only [Session.consumeChunks]
      rw [if_neg hpos]
  · rename_i hle
    obtain ⟨s', hs', -⟩ := h.consumeOperation (not_lt.mp hle) 0
    exact ⟨2, s', hs'⟩

theorem exists_punctual (s : Session) : ∃ clock, Punctual clock s := by
  refine ⟨fun k => s.bucket.nextRefillPeriod + k * max s.bucket.refillPeriod 0, ?_, ?_⟩
  · intro k _
    have hnn : (0 : Int) ≤ k * max s.bucket.refillPeriod 0 := by positivity
    omega
  · intro j k hjk
    have hmul : ((j : Int) + 1) * max s.bucket.refillPeriod 0 ≤ k * max s.bucket.refillPeriod 0 := by
      apply mul_le_mul_of_nonneg_right
      · exact_mod_cast hjk
      · exact le_max_right _ _
    have hmax := le_max_left s.bucket.refillPeriod 0
    rw [add_mul, one_mul] at hmul
    show s.bucket.nextRefillPeriod + (j : Int) * max s.bucket.refillPeriod 0 +
      s.bucket.refillPeriod ≤ s.bucket.nextRefillPeriod + (k : Int) * max s.bucket.refillPeriod 0
    linarith

/-- Without a positive capacity the loop takes chunks that bring it no closer to its end. -/
theorem consumeChunks_ne_returned (fuel : Nat) {left : ℚ} {s : Session} (hleft : 0 < left)
    (hC : s.bucket.capacity ≤ 0) (s' : Session) :
    s.consumeChunks clock fuel left s.bucket.capacity ≠ .returned s' := by
  induction fuel generalizing left s with
  | zero => simp [consumeChunks]
  | succ fuel ih =>
    rw [consumeChunks, if_pos hleft]
    have hshape := consumeOperation_sameShape clock fuel s.bucket.capacity s
    split
    · simp
    · rename_i s₁ hs₁
      rw [hs₁] at hshape
      have hcap : s₁.bucket.capacity = s.bucket.capacity := hshape.capacity
      have hstays : ¬ left - s.bucket.capacity < s₁.bucket.capacity := by
        rw [hcap]
        linarith
      simp only [if_neg hstays]
      rw [← hcap]
      exact ih (by linarith) (by rwa [hcap])

theorem tryConsume_ne_returned {x : ℚ} (hx : 0 < x) (hC : s.bucket.capacity ≤ 0) (fuel : Nat)
    (s' : Session) : s.tryConsume clock fuel x ≠ .returned s' := by
  rw [tryConsume, if_pos (hC.trans_lt hx)]
  exact consumeChunks_ne_returned fuel hx hC s'

end Session

/-! ## Objects -/

namespace EnforcementObject

/-- Some clock brings the enforcement of the ticket to its end. -/
def Passes (o : EnforcementObject) (t : Ticket) : Prop :=
  ∃ clock fuel o' r, o.objEnforce clock fuel t {} = .ok (o', r)

theorem passes_drl_iff (d : DynamicRateLimiter) (t : Ticket) :
    (drl d).Passes t ↔ (0 < d.basicIoCost t → 0 < d.bucket.capacity) := by
  constructor
  · rintro ⟨clock, fuel, o', r, h⟩ hcost
    by_contra hC
    simp only [objEnforce, DynamicRateLimiter.objEnforce, DynamicRateLimiter.consume] at h
    split at h
    · rename_i hd
      split at hd
      · cases hd
      · rename_i s hs
        exact Session.tryConsume_ne_returned hcost (not_lt.mp hC) fuel s hs
    · cases h
  · intro hcapacity
    obtain ⟨clock, hclock⟩ := Session.exists_punctual { bucket := d.bucket, instant := 0 }
    obtain ⟨fuel, s, hs⟩ := hclock.tryConsume hcapacity
    refine ⟨clock, fuel, .drl { d with bucket := s.bucket }, t.writeResult {}, ?_⟩
    simp only [objEnforce, DynamicRateLimiter.objEnforce, DynamicRateLimiter.consume, hs]

/-- Whatever the Result. -/
theorem Passes.returns {o : EnforcementObject} {t : Ticket} (h : o.Passes t) (r : Result) :
    ∃ clock fuel o' r', o.objEnforce clock fuel t r = .ok (o', r') := by
  obtain ⟨clock, fuel, o', r', he⟩ := h
  exact ⟨clock, fuel, o', t.writeResult r, objEnforce_congr r he⟩

theorem Passes.objEnforce {o o' : EnforcementObject} {clock : Clock} {fuel : Nat} {t t' : Ticket}
    {r r' : Result} (h : o.Passes t') (he : o.objEnforce clock fuel t r = .ok (o', r')) :
    o'.Passes t' := by
  cases o with
  | drl d =>
    simp only [EnforcementObject.objEnforce, DynamicRateLimiter.objEnforce] at he
    split at he <;> cases he
    rename_i d' hd
    split at hd <;> cases hd
    rename_i s hs
    have hshape := Session.tryConsume_sameShape clock fuel (d.basicIoCost t)
      { bucket := d.bucket, instant := 0 }
    rw [DynamicRateLimiter.consume] at hs
    rw [hs] at hshape
    rw [passes_drl_iff] at h ⊢
    intro hcost
    exact (h hcost).trans_eq hshape.capacity.symm
  | noop n =>
    cases he
    exact ⟨fun _ => 0, 0, _, _, rfl⟩

end EnforcementObject

namespace SubmissionQueue

variable (hash : String → UInt32)

/-- The object that the ticket selects, if any, lets it pass at some time. -/
def Serviceable (q : SubmissionQueue) (t : Ticket) : Prop :=
  ∀ object, q.selectEnforcementObject (q.buildObjectToken hash t.objectPair) = some object →
    object.Passes t

variable {hash} {q q' : SubmissionQueue} {t t' : Ticket}

theorem Serviceable.returns (h : q.Serviceable hash t) (r : Result) :
    ∃ clock fuel q' r', q.enforceMechanism hash clock fuel t r = .ok (q', r') := by
  cases hsel : q.selectEnforcementObject (q.buildObjectToken hash t.objectPair) with
  | none =>
    refine ⟨fun _ => 0, 0, { q with noMatchObject := (q.noMatchObject.objEnforce t r).1 },
      (q.noMatchObject.objEnforce t r).2, ?_⟩
    simp only [enforceMechanism, hsel]
  | some object =>
    obtain ⟨clock, fuel, object', r', he⟩ := (h object hsel).returns r
    let token := q.buildObjectToken hash t.objectPair
    refine ⟨clock, fuel,
      { q with enfObjects := AssocList.replaceFirst token object' q.enfObjects }, r', ?_⟩
    simp only [enforceMechanism, hsel, he, token]

/-- Enforcing one ticket does not make another one wait forever. -/
theorem Serviceable.enforce {clock : Clock} {fuel : Nat} {r r' : Result}
    (h : q.Serviceable hash t') (he : q.enforceMechanism hash clock fuel t r = .ok (q', r')) :
    q'.Serviceable hash t' := by
  simp only [enforceMechanism] at he
  split at he
  · rename_i object hsel
    split at he <;> cases he
    rename_i object' hobject
    intro found hfound
    simp only [selectEnforcementObject, buildObjectToken] at h hfound hsel
    by_cases htoken : q.diffBuilder.buildDifferentiationToken hash t'.objectPair =
        q.diffBuilder.buildDifferentiationToken hash t.objectPair
    · have hmem := AssocList.exists_lookup_iff_mem.mp ⟨object, hsel⟩
      rw [htoken] at hfound
      simp only [AssocList.lookup_replaceFirst_self object' hmem, Option.some.injEq] at hfound
      subst hfound
      refine (h object ?_).objEnforce hobject
      simp only [selectEnforcementObject, buildObjectToken, htoken, hsel]
    · simp only [AssocList.lookup_replaceFirst_ne htoken] at hfound
      exact h found hfound
  · cases he
    exact h

end SubmissionQueue

end Paio
