import Paio.Library.TunedAccount
import Paio.RateLimiter
import Paio.RefillSchedule

/-!
# Paio.LimiterLife

What a rate limiter lets through over its whole life, while it is configured again and again.
`init` and `refill` fill the bucket at once and leave the time of the next refill alone; `rate`
only cuts the tokens down. So a limiter is a tuned account: calls of `obj_enforce` are runs of an
account under the capacity and the period of the moment, and configurations are the other steps.

`consumedIn_le`: whatever is called, in a window of length `T` no more leaves the bucket than
`T / P₁ + 2` times the tokens of the longest period at the highest rate, and once more for each
`init` and `refill` in the window, where `P₁` is the shortest period. A call that does not come
back counts with what it has consumed.
-/

namespace Paio

namespace DynamicRateLimiter

namespace Timed

open TokenAccount TunedAccount

/-- What a call subtracts from the bucket, also when it does not come back. -/
def consumedBy (clock : Clock) (s : Timed) : Call → List (Nat × ℚ)
  | .enforce fuel t => (s.limiter.consume clock fuel s.instant t).session.consumed
  | _ => []

/-- All subtractions of a life, the newest first; a call that does not come back is the last. -/
def consumedAll (clock : Clock) : List Call → Timed → List (Nat × ℚ)
  | [], _ => []
  | c :: calls, s =>
    match s.call clock c with
    | some s' => consumedAll clock calls s' ++ s.consumedBy clock c
    | none => s.consumedBy clock c

/-- The instant at which a call fills the bucket. -/
def filledBy (s : Timed) : Call → List Nat
  | .init _ _ | .refill _ => [s.instant]
  | _ => []

def filledAll (clock : Clock) : List Call → Timed → List Nat
  | [], _ => []
  | c :: calls, s =>
    match s.call clock c with
    | some s' => filledAll clock calls s' ++ s.filledBy c
    | none => s.filledBy c

/-- The tokens that were consumed from `start` to `stop`, both included. -/
def consumedIn (clock : Clock) (start stop : Int) (consumed : List (Nat × ℚ)) : ℚ :=
  ((consumed.filter fun e => start ≤ clock e.1 ∧ clock e.1 ≤ stop).map Prod.snd).sum

/-- The rates and periods that a limiter is given. -/
structure Limits where
  maxRate : Int
  minPeriod : Int
  maxPeriod : Int

/-- A call with a rate, a period and a payload in the limits. -/
def Limits.Allow (limits : Limits) : Call → Prop
  | .init P R => 0 ≤ R ∧ R ≤ limits.maxRate ∧ limits.minPeriod ≤ P ∧ P ≤ limits.maxPeriod
  | .rate R => 0 ≤ R ∧ R ≤ limits.maxRate
  | .refill P => limits.minPeriod ≤ P ∧ P ≤ limits.maxPeriod
  | .enforce _ t => 0 ≤ t.payload

instance (limits : Limits) : DecidablePred limits.Allow
  | .init _ _ => inferInstanceAs (Decidable (_ ∧ _ ∧ _ ∧ _))
  | .rate _ => inferInstanceAs (Decidable (_ ∧ _))
  | .refill _ => inferInstanceAs (Decidable (_ ∧ _))
  | .enforce _ t => inferInstanceAs (Decidable (0 ≤ t.payload))

/-- The tokens of the longest period at the highest rate. -/
def Limits.maxCapacity (limits : Limits) : ℚ :=
  limits.maxRate * limits.maxPeriod / 10 ^ 6

/-- What configurations and requests keep. -/
structure Within (limits : Limits) (d : DynamicRateLimiter) : Prop where
  consistent : ∃ rate, d.Consistent rate ∧ rate ≤ limits.maxRate
  minPeriod_le : limits.minPeriod ≤ d.bucket.refillPeriod
  le_maxPeriod : d.bucket.refillPeriod ≤ limits.maxPeriod

variable {clock : Clock} {limits : Limits} {s s' : Timed} {c : Call}

theorem capacity_le {d : DynamicRateLimiter} (h : Within limits d) :
    d.bucket.capacity ≤ limits.maxCapacity := by
  obtain ⟨rate, hc, hrate⟩ := h.consistent
  have hP : (0 : ℚ) ≤ d.bucket.refillPeriod := by exact_mod_cast hc.period_pos.le
  have hR : (rate : ℚ) ≤ limits.maxRate := by exact_mod_cast hrate
  have hP' : (d.bucket.refillPeriod : ℚ) ≤ limits.maxPeriod := by exact_mod_cast h.le_maxPeriod
  have hR' : (0 : ℚ) ≤ limits.maxRate := by exact_mod_cast hc.rate_nonneg.trans hrate
  have hmul := mul_le_mul hR hP' hP hR'
  rw [Limits.maxCapacity, le_div_iff₀ (by norm_num)]
  exact hc.capacity_eq.le.trans hmul

/-- A limiter at an instant as an account, with what was consumed and filled before. -/
def ledger (d : DynamicRateLimiter) (now : Int) (spent : List (Int × ℚ)) (fills : List Int) :
    Tuned ℚ where
  balance := d.bucket.tokens
  due := d.bucket.nextRefillPeriod
  now := now
  spent := spent
  fills := fills

/-! ### Configurations -/

/-- The limiter after a configuration; a request is none. -/
def tuned (d : DynamicRateLimiter) : Call → DynamicRateLimiter
  | .init refillPeriod rate => (d.initializeBucket refillPeriod rate).updateTokenBucketRate
  | .rate rateValue => (d.configureRate rateValue).updateTokenBucketRate
  | .refill window => (d.configureRefillWindow window).updateTokenBucketRate
  | .enforce _ _ => d

/-- The instants at which a call at the instant `now` fills the bucket. -/
def fillsAt (now : Int) : Call → List Int
  | .init _ _ | .refill _ => [now]
  | .rate _ | .enforce _ _ => []

/-! `rate` writes the capacity, and cuts the tokens down to it. -/

theorem refillPeriod_configureRate (d : DynamicRateLimiter) (R : Int) :
    (d.configureRate R).updateTokenBucketRate.bucket.refillPeriod = d.bucket.refillPeriod := by
  simp only [updateTokenBucketRate, configureRate]
  split <;> rfl

theorem nextRefillPeriod_configureRate (d : DynamicRateLimiter) (R : Int) :
    (d.configureRate R).updateTokenBucketRate.bucket.nextRefillPeriod =
      d.bucket.nextRefillPeriod := by
  simp only [updateTokenBucketRate, configureRate]
  split <;> rfl

theorem tokens_configureRate_le (d : DynamicRateLimiter) (R : Int) :
    (d.configureRate R).updateTokenBucketRate.bucket.tokens ≤ d.bucket.tokens := by
  simp only [updateTokenBucketRate, configureRate]
  split
  · rename_i hgt
    exact hgt.le
  · exact le_refl _

theorem Within.tuned {d : DynamicRateLimiter} (hw : Within limits d)
    (hpos : 0 < limits.minPeriod) (ha : limits.Allow c) : Within limits (tuned d c) := by
  obtain ⟨rate, hc, hrate⟩ := hw.consistent
  cases c with
  | init P R =>
    obtain ⟨hR, hRle, hP, hPle⟩ := ha
    have hfilled := (consistent_fill (b := d.bucket.setRefillPeriod P) d
      (hpos.trans_le hP) hR).updateTokenBucketRate
    exact ⟨⟨R, hfilled, hRle⟩, hP, hPle⟩
  | rate R =>
    obtain ⟨hR, hRle⟩ := ha
    refine ⟨⟨R, (hc.configureRate hR).updateTokenBucketRate, hRle⟩, ?_, ?_⟩
    · exact hw.minPeriod_le.trans_eq (refillPeriod_configureRate d R).symm
    · exact (refillPeriod_configureRate d R).trans_le hw.le_maxPeriod
  | refill P =>
    obtain ⟨hP, hPle⟩ := ha
    have hfilled := (hc.configureRefillWindow (hpos.trans_le hP)).updateTokenBucketRate
    exact ⟨⟨rate, hfilled, hrate⟩, hP, hPle⟩
  | enforce fuel t => exact hw

/-- A configuration that leaves a full bucket. -/
theorem step_fill {d d' : DynamicRateLimiter} (hd : Within limits d')
    (hfull : d'.bucket.tokens = d'.bucket.capacity)
    (hnext : d'.bucket.nextRefillPeriod = d.bucket.nextRefillPeriod) (now : Int)
    (spent : List (Int × ℚ)) (fills : List Int) :
    TunedAccount.Step limits.maxCapacity limits.minPeriod (ledger d now spent fills)
      (ledger d' now spent (now :: fills)) := by
  obtain ⟨rate, hc, _⟩ := hd.consistent
  have hfill : TunedAccount.Step limits.maxCapacity limits.minPeriod (ledger d now spent fills) _ :=
    .fill (hfull ▸ hc.tokens_nonneg) (capacity_le hd)
  simp only [ledger, hfull, hnext]
  exact hfill

/-- A configuration is a step of the account. -/
theorem run_tuned {d : DynamicRateLimiter} (hw : Within limits d)
    (hpos : 0 < limits.minPeriod) (ha : limits.Allow c) (now : Int) (spent : List (Int × ℚ))
    (fills : List Int) :
    TunedAccount.Run limits.maxCapacity limits.minPeriod (ledger d now spent fills)
      (ledger (tuned d c) now spent (fillsAt now c ++ fills)) := by
  have hw' := hw.tuned hpos ha
  cases c with
  | init P R => exact .single (step_fill (d := d) hw' rfl rfl now spent fills)
  | rate R =>
    have hlower : TunedAccount.Step limits.maxCapacity limits.minPeriod
        (ledger d now spent fills) _ := .lower (tokens_configureRate_le d R)
    refine .single ?_
    simp only [ledger, tuned, nextRefillPeriod_configureRate]
    exact hlower
  | refill P => exact .single (step_fill (d := d) hw' rfl rfl now spent fills)
  | enforce fuel t => exact .refl

/-! ### Requests -/

/-- A request keeps what a configured limiter has, wherever the clock is. -/
theorem consistent_of_refines {d : DynamicRateLimiter} {rate : Int} (h : d.Consistent rate)
    {R : Int → Int → Prop} {instant : Nat} {s' : Session}
    (hr : Session.Refines clock R { bucket := d.bucket, instant := instant } s') :
    ({ d with bucket := s'.bucket } : DynamicRateLimiter).Consistent rate := by
  obtain ⟨hnn, hle⟩ : Bounded d.bucket.capacity (s'.account clock) :=
    Bounded.run h.capacity_nonneg hr.run ⟨h.tokens_nonneg, h.tokens_le⟩
  have hcap : s'.bucket.capacity = d.bucket.capacity := hr.capacity
  have hper : s'.bucket.refillPeriod = d.bucket.refillPeriod := hr.refillPeriod
  refine ⟨h.rate_nonneg, h.period_pos.trans_eq hper.symm, hnn, hle.trans_eq hcap.symm, ?_⟩
  show s'.bucket.capacity * 10 ^ 6 = rate * s'.bucket.refillPeriod
  rw [hcap, hper]
  exact h.capacity_eq

/-- A request, whether it comes back or not, is a run of the account, and leaves the limiter within
the limits. -/
theorem run_enforced (hclock : Monotone clock) {d : DynamicRateLimiter} (hw : Within limits d)
    {t : Ticket} (ht : 0 ≤ t.payload) (fuel instant : Nat) (spent : List (Int × ℚ))
    (fills : List Int) {s' : Session} (hs' : (d.consume clock fuel instant t).session = s') :
    TunedAccount.Run limits.maxCapacity limits.minPeriod (ledger d (clock instant) spent fills)
        (ledger { d with bucket := s'.bucket } (clock s'.instant)
          (s'.consumed.map (fun e => (clock e.1, e.2)) ++ spent) fills) ∧
      Within limits { d with bucket := s'.bucket } := by
  obtain ⟨rate, hc, hrate⟩ := hw.consistent
  have hr : Session.Refines clock (· ≤ ·) { bucket := d.bucket, instant := instant } s' :=
    hs' ▸ Session.tryConsume_refines (fun k => hclock (Nat.le_succ k))
      (d.basicIoCost_nonneg ht) fuel hc.capacity_nonneg
  have hper : s'.bucket.refillPeriod = d.bucket.refillPeriod := hr.refillPeriod
  refine ⟨?_, ⟨rate, consistent_of_refines hc hr, hrate⟩, hw.minPeriod_le.trans_eq hper.symm,
    hper.trans_le hw.le_maxPeriod⟩
  exact run_of_account hc.capacity_nonneg (capacity_le hw) hw.minPeriod_le spent fills hr.run

/-! ### Lives -/

/-- The limiter between two calls as an account, with all that was consumed before. -/
def account (clock : Clock) (s : Timed) (consumed : List (Nat × ℚ)) (filled : List Nat) :
    Tuned ℚ :=
  ledger s.limiter (clock s.instant) (consumed.map fun e => (clock e.1, e.2)) (filled.map clock)

/-- A configuration takes an instant of the clock. -/
theorem run_call_tuned (hclock : Monotone clock) (hw : Within limits s.limiter)
    (ha : limits.Allow c) (hpos : 0 < limits.minPeriod) (consumed : List (Nat × ℚ))
    (filled : List Nat) (hfills : (s.filledBy c).map clock = fillsAt (clock s.instant) c) :
    TunedAccount.Run limits.maxCapacity limits.minPeriod (s.account clock consumed filled)
      (account clock ⟨tuned s.limiter c, s.instant + 1⟩ consumed (s.filledBy c ++ filled)) := by
  have hrun := run_tuned hw hpos ha (clock s.instant)
    (consumed.map fun e => (clock e.1, e.2)) (filled.map clock)
  rw [← hfills, ← List.map_append] at hrun
  exact hrun.tail (.pass (hclock (Nat.le_succ s.instant)))

/-- One call, whether it comes back or not, is a run of the account. -/
theorem run_call (hclock : Monotone clock) (hw : Within limits s.limiter) (ha : limits.Allow c)
    (hpos : 0 < limits.minPeriod) (consumed : List (Nat × ℚ)) (filled : List Nat) :
    ∃ a, TunedAccount.Run limits.maxCapacity limits.minPeriod
        (s.account clock consumed filled) a ∧
      a.spent = (s.consumedBy clock c ++ consumed).map (fun e => (clock e.1, e.2)) ∧
      a.fills = (s.filledBy c ++ filled).map clock ∧
      ∀ s', s.call clock c = some s' → Within limits s'.limiter ∧
        a = s'.account clock (s.consumedBy clock c ++ consumed) (s.filledBy c ++ filled) := by
  cases c with
  | init P R =>
    refine ⟨_, run_call_tuned hclock hw ha hpos consumed filled rfl, rfl, rfl, ?_⟩
    rintro _ ⟨⟩
    exact ⟨hw.tuned hpos ha, rfl⟩
  | rate R =>
    refine ⟨_, run_call_tuned hclock hw ha hpos consumed filled rfl, rfl, rfl, ?_⟩
    rintro _ ⟨⟩
    exact ⟨hw.tuned hpos ha, rfl⟩
  | refill P =>
    refine ⟨_, run_call_tuned hclock hw ha hpos consumed filled rfl, rfl, rfl, ?_⟩
    rintro _ ⟨⟩
    exact ⟨hw.tuned hpos ha, rfl⟩
  | enforce fuel t =>
    obtain ⟨hrun, hw'⟩ := run_enforced hclock hw ha fuel s.instant
      (consumed.map fun e => (clock e.1, e.2)) (filled.map clock) rfl
    refine ⟨_, hrun, (List.map_append ..).symm, rfl, ?_⟩
    intro s' hcall
    simp only [call] at hcall
    cases hout : s.limiter.consume clock fuel s.instant t with
    | stopped f out =>
      rw [hout] at hcall
      cases hcall
    | returned out =>
      rw [hout] at hcall hw'
      cases hcall
      refine ⟨hw', ?_⟩
      simp only [account, consumedBy, filledBy, hout, Outcome.session, List.map_append,
        List.nil_append]

theorem run_calls (hclock : Monotone clock) (hpos : 0 < limits.minPeriod) (calls : List Call) :
    ∀ (s : Timed) (consumed : List (Nat × ℚ)) (filled : List Nat), Within limits s.limiter →
      (∀ c ∈ calls, limits.Allow c) →
      ∃ a, TunedAccount.Run limits.maxCapacity limits.minPeriod
          (s.account clock consumed filled) a ∧
        a.spent = (consumedAll clock calls s ++ consumed).map (fun e => (clock e.1, e.2)) ∧
        a.fills = (filledAll clock calls s ++ filled).map clock := by
  induction calls with
  | nil =>
    intro s consumed filled _ _
    exact ⟨_, .refl, rfl, rfl⟩
  | cons c calls ih =>
    intro s consumed filled hw ha
    obtain ⟨a, hrun, hspent, hfills, hback⟩ := run_call hclock hw
      (ha c List.mem_cons_self) hpos consumed filled
    cases hcall : s.call clock c with
    | none =>
      refine ⟨a, hrun, ?_, ?_⟩
      · rw [hspent, consumedAll, hcall]
      · rw [hfills, filledAll, hcall]
    | some s' =>
      obtain ⟨hw', rfl⟩ := hback s' hcall
      obtain ⟨a', hrun', hspent', hfills'⟩ := ih s' _ _ hw' fun c' hc' =>
        ha c' (List.mem_cons_of_mem c hc')
      refine ⟨a', hrun.trans hrun', ?_, ?_⟩
      · rw [hspent', consumedAll, hcall, List.append_assoc]
      · rw [hfills', filledAll, hcall, List.append_assoc]

theorem spentIn_map (clock : Clock) (start stop : Int) (consumed : List (Nat × ℚ)) :
    spentIn start stop (consumed.map fun e => (clock e.1, e.2)) =
      consumedIn clock start stop consumed := by
  simp [spentIn, consumedIn, List.filter_map, Function.comp_def]

/-- In the whole life of a limiter that is configured within the limits, in a window of length `T`
no more than `T / P₁ + 2` times the tokens of the longest period at the highest rate leave the
bucket, and once more for each `init` and `refill` in the window. -/
theorem consumedIn_le (hclock : Monotone clock) (hpos : 0 < limits.minPeriod)
    (hw : Within limits s.limiter) {calls : List Call} (ha : ∀ c ∈ calls, limits.Allow c)
    (start : Int) {T : Int} (hT : 0 ≤ T) :
    consumedIn clock start (start + T) (consumedAll clock calls s) ≤
      limits.maxCapacity * ((T / limits.minPeriod : Int) + 2 +
        fillsIn start (start + T) ((filledAll clock calls s).map clock)) := by
  obtain ⟨rate, hc, _⟩ := hw.consistent
  have hcap := capacity_le hw
  obtain ⟨a, hrun, hspent, hfills⟩ := run_calls hclock hpos calls s [] [] hw ha
  have hbound := Run.spentIn_le start (hc.capacity_nonneg.trans hcap) hpos hT
    (hc.tokens_le.trans hcap) rfl hrun
  rwa [hspent, hfills, List.append_nil, List.append_nil, spentIn_map] at hbound

theorem within_new (objectId : Int) (collectStatistics : Bool) (clock : Clock)
    (hrate : defaultRate ≤ limits.maxRate) (hmin : limits.minPeriod ≤ 1000000)
    (hmax : 1000000 ≤ limits.maxPeriod) :
    Within limits (new objectId collectStatistics clock).limiter :=
  ⟨⟨defaultRate, consistent_new objectId collectStatistics clock, hrate⟩, hmin, hmax⟩

/-- A limiter that is used, slowed down, given a shorter period and used again. -/
theorem consumedIn_le_slower :
    let clock : Clock := fun k => 5000 * k
    let limits : Limits := { maxRate := 50000, minPeriod := 100000, maxPeriod := 1000000 }
    let calls : List Call := [.enforce 40 { payload := 60000 }, .rate 1000, .refill 100000,
      .enforce 40 { payload := 150 }]
    consumedIn clock 0 (0 + 400000) (consumedAll clock calls (new 1 false clock)) ≤
      limits.maxCapacity * ((400000 / limits.minPeriod : Int) + 2 +
        fillsIn 0 (0 + 400000) ((filledAll clock calls (new 1 false clock)).map clock)) := by
  intro clock limits calls
  have hclock : Monotone clock := by
    intro j k hjk
    simp only [clock]
    omega
  refine consumedIn_le hclock (by decide) (within_new 1 false clock (by decide) (by decide)
    (by decide)) ?_ 0 (by decide)
  simp [calls, Limits.Allow, limits]

end Timed

end DynamicRateLimiter

end Paio
