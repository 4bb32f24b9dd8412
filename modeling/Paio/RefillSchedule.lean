import Mathlib.Data.Int.ConditionallyCompleteOrder
import Paio.Library.RunCondition
import Paio.Service

/-!
# Paio.RefillSchedule

When the next refill is due, over whole runs of `obj_configure` and `obj_enforce` under one clock
that does not go back. The time of the next refill is written when the bucket is built and when it
is refilled; a configuration replaces the period and leaves that time alone. So a period that is
shorter than the time that is still left puts the next refill further away than one period.

`onSchedule_iff`: the next refill is never further away than the period in force, neither between
calls nor while a request waits, exactly when every `init` and every `refill` of the run comes with
a period at least as long as the time that is left when it is called.
-/

namespace Paio

namespace Session

/-- The next refill is at most a period away from the last instant used, and whoever looks at the
clock a period after that instant fills the bucket. -/
structure OnSchedule (clock : Clock) (s : Session) : Prop where
  next_le : s.bucket.nextRefillPeriod - clock (s.instant - 1) ≤ s.bucket.refillPeriod
  refills : ∀ k, clock (s.instant - 1) + s.bucket.refillPeriod ≤ clock k →
    (tryRefill clock { s with instant := k }).2.bucket.tokens = s.bucket.capacity

variable {clock : Clock} {s s' : Session}

/-- The second part follows from the first: by then the refill is due. -/
theorem onSchedule_iff_next_le : OnSchedule clock s ↔
    s.bucket.nextRefillPeriod - clock (s.instant - 1) ≤ s.bucket.refillPeriod := by
  refine ⟨OnSchedule.next_le, fun hnext => ⟨hnext, ?_⟩⟩
  intro k hk
  have hdue : s.bucket.nextRefillPeriod - clock k ≤ 0 := by omega
  simp only [tryRefill, isTimeToRefill, refillOperation, if_pos hdue]
  split <;> rfl

/-- Time passes, and the bucket keeps its schedule. -/
theorem OnSchedule.pass (hclock : Monotone clock) (h : OnSchedule clock s)
    (hinstant : s.instant ≤ s'.instant)
    (hnext : s'.bucket.nextRefillPeriod = s.bucket.nextRefillPeriod)
    (hperiod : s'.bucket.refillPeriod = s.bucket.refillPeriod) : OnSchedule clock s' := by
  have hle := h.next_le
  have hlater : clock (s.instant - 1) ≤ clock (s'.instant - 1) := hclock (by omega)
  rw [onSchedule_iff_next_le, hnext, hperiod]
  omega

/-- A look at the clock moves the next refill a period away from it, or leaves it where it was. -/
theorem OnSchedule.isTimeToRefill (hclock : Monotone clock) (h : OnSchedule clock s) :
    OnSchedule clock (s.isTimeToRefill clock).2 := by
  simp only [Session.isTimeToRefill]
  split
  · rw [onSchedule_iff_next_le]
    simp only [TokenBucket.calcNextRefillPeriod, Nat.add_sub_cancel]
    omega
  · exact h.pass hclock (Nat.le_succ _) rfl rfl

theorem OnSchedule.tryRefill (hclock : Monotone clock) (h : OnSchedule clock s) :
    OnSchedule clock (s.tryRefill clock).2 := by
  have hlook := h.isTimeToRefill hclock
  simp only [Session.tryRefill]
  split
  · refine hlook.pass hclock ?_ ?_ ?_ <;> simp only [refillOperation] <;> split <;> simp
  · exact hlook

theorem awaitRefill_onSchedule (hclock : Monotone clock) (h : OnSchedule clock s)
    (hawait : s.awaitRefill clock = .ok s') : OnSchedule clock s' := by
  simp only [awaitRefill] at hawait
  split at hawait
  · split at hawait <;> cases hawait
    rename_i bucket hrecord
    simp only [TokenBucket.recordOutOfTokensStat] at hrecord
    split at hrecord <;> cases hrecord
    exact h.pass hclock (Nat.le_add_right _ 2) rfl rfl
  · cases hawait
    exact h

/-- A request keeps the schedule from its first look at the clock to its last subtraction. -/
theorem kept_onSchedule (hclock : Monotone clock) : Kept clock (OnSchedule clock) where
  tryRefill := fun _ h => h.tryRefill hclock
  awaitRefill := fun _ _ h hawait => awaitRefill_onSchedule hclock h hawait
  subtract := fun _ _ h _ => h.pass hclock (Nat.le_succ _) rfl rfl

end Session

/-! ## Runs -/

namespace DynamicRateLimiter

/-- A rate limiter in use, with the number of instants of the clock that are used up. -/
structure Timed where
  limiter : DynamicRateLimiter
  instant : Nat

inductive Call where
  | init (refillPeriod rate : Int)
  | rate (rateValue : Int)
  | refill (window : Int)
  | enforce (fuel : Nat) (t : Ticket)

namespace Timed

/-- The constructor reads the clock twice. -/
def new (objectId : Int) (collectStatistics : Bool) (clock : Clock) : Timed :=
  ⟨DynamicRateLimiter.new objectId collectStatistics clock, 2⟩

/-- A configuration reads no clock; the instant it takes is the time at which it happens. -/
def configure (s : Timed) (conf : DRLConfiguration) (confValues : List Int) : Option Timed :=
  match s.limiter.objConfigure conf.toInt confValues with
  | .ok (d, _) => some ⟨d, s.instant + 1⟩
  | .error _ => none

/-- One call; an enforcement that does not come back has no state after it. -/
def call (clock : Clock) (s : Timed) : Call → Option Timed
  | .init refillPeriod rate => s.configure .init [refillPeriod, rate]
  | .rate rateValue => s.configure .rate [rateValue]
  | .refill window => s.configure .refill [window]
  | .enforce fuel t =>
    match s.limiter.consume clock fuel s.instant t with
    | .returned s' => some ⟨{ s.limiter with bucket := s'.bucket }, s'.instant⟩
    | .stopped _ _ => none

def callAll (clock : Clock) (calls : List Call) (s : Timed) : Option Timed :=
  calls.foldlM (call clock) s

/-- The limiter is on schedule, and so is every request that it may be asked for, at every point at
which that request may be looked at. -/
structure OnSchedule (clock : Clock) (s : Timed) : Prop where
  idle : Session.OnSchedule clock { bucket := s.limiter.bucket, instant := s.instant }
  waiting : ∀ fuel t, Session.OnSchedule clock (s.limiter.consume clock fuel s.instant t).session

/-- The period that a call brings is at least as long as the time left until the next refill. -/
def InTime (clock : Clock) (s : Timed) : Call → Prop
  | .init refillPeriod _ => s.limiter.bucket.nextRefillPeriod - clock s.instant ≤ refillPeriod
  | .refill window => s.limiter.bucket.nextRefillPeriod - clock s.instant ≤ window
  | .rate _ => True
  | .enforce _ _ => True

variable {clock : Clock} {s s' : Timed}

theorem onSchedule_iff_idle (hclock : Monotone clock) : OnSchedule clock s ↔
    Session.OnSchedule clock { bucket := s.limiter.bucket, instant := s.instant } := by
  refine ⟨OnSchedule.idle, fun hidle => ⟨hidle, ?_⟩⟩
  intro fuel t
  exact (Session.kept_onSchedule hclock).tryConsume fuel _ hidle

theorem onSchedule_new (hclock : Monotone clock) (objectId : Int) (collectStatistics : Bool) :
    OnSchedule clock (new objectId collectStatistics clock) := by
  rw [onSchedule_iff_idle hclock, Session.onSchedule_iff_next_le]
  have hle : clock 0 ≤ clock 1 := hclock (Nat.zero_le 1)
  show clock 0 + 1000000 - clock 1 ≤ 1000000
  omega

/-- A configuration, which leaves the time of the next refill where it is, keeps the schedule when
that time is at most the new period away. -/
theorem onSchedule_configured_iff (hclock : Monotone clock) {d : DynamicRateLimiter}
    (hnext : d.bucket.nextRefillPeriod = s.limiter.bucket.nextRefillPeriod) :
    OnSchedule clock ⟨d, s.instant + 1⟩ ↔
      s.limiter.bucket.nextRefillPeriod - clock s.instant ≤ d.bucket.refillPeriod := by
  rw [onSchedule_iff_idle hclock, Session.onSchedule_iff_next_le, hnext, Nat.add_sub_cancel]

/-- One call keeps the limiter on schedule when it is in time. -/
theorem OnSchedule.call (hclock : Monotone clock) (h : OnSchedule clock s) {c : Call}
    (hc : InTime clock s c) (hstep : s.call clock c = some s') : OnSchedule clock s' := by
  cases c with
  | init refillPeriod rate =>
    cases hstep
    exact Iff.mpr (onSchedule_configured_iff hclock rfl) hc
  | refill window =>
    cases hstep
    exact Iff.mpr (onSchedule_configured_iff hclock rfl) hc
  | rate rateValue =>
    cases hstep
    rw [onSchedule_iff_idle hclock] at h ⊢
    refine h.pass hclock (Nat.le_succ _) ?_ ?_ <;>
      simp only [updateTokenBucketRate, configureRate] <;> split <;> rfl
  | enforce fuel t =>
    have hwaiting := h.waiting fuel t
    simp only [Timed.call] at hstep
    split at hstep <;> cases hstep
    rename_i s' hs'
    rw [hs'] at hwaiting
    rw [onSchedule_iff_idle hclock]
    exact hwaiting.pass hclock (le_refl _) rfl rfl

/-- A call after which the limiter is on schedule was in time. -/
theorem inTime_of_onSchedule (hclock : Monotone clock) {c : Call}
    (h : ∀ s', s.call clock c = some s' → OnSchedule clock s') : InTime clock s c := by
  cases c with
  | init refillPeriod rate =>
    let d := (s.limiter.initializeBucket refillPeriod rate).updateTokenBucketRate
    exact (onSchedule_configured_iff (d := d) hclock rfl).mp (h _ rfl)
  | refill window =>
    let d := (s.limiter.configureRefillWindow window).updateTokenBucketRate
    exact (onSchedule_configured_iff (d := d) hclock rfl).mp (h _ rfl)
  | rate _ => trivial
  | enforce _ _ => trivial

theorem callAll_concat (calls : List Call) (c : Call) :
    callAll clock (calls ++ [c]) s = some s' ↔
      ∃ between, callAll clock calls s = some between ∧ between.call clock c = some s' := by
  simp only [callAll, List.foldlM_append, List.foldlM_cons, List.foldlM_nil, bind_pure]
  exact Option.bind_eq_some_iff

/-- Over every run under a clock that does not go back, the next refill is at most a period away in
every state, between the calls and inside of the requests, exactly when every period that a call
brings is at least as long as the time that was left. -/
theorem onSchedule_iff (hclock : Monotone clock) (objectId : Int) (collectStatistics : Bool)
    (calls : List Call) :
    (∀ run, run <+: calls → ∀ s,
      callAll clock run (new objectId collectStatistics clock) = some s → OnSchedule clock s) ↔
    ∀ run c, run ++ [c] <+: calls → ∀ s,
      callAll clock run (new objectId collectStatistics clock) = some s → InTime clock s c :=
  RunCondition.good_iff_cond
    (fun run s => callAll clock run (new objectId collectStatistics clock) = some s)
    (fun s c s' => s.call clock c = some s') (OnSchedule clock)
    (fun s hs => by cases hs; exact onSchedule_new hclock objectId collectStatistics)
    (fun run c _ => callAll_concat run c) (fun _ h => h)
    (fun _ _ _ h hc hstep => h.call hclock hc hstep)
    (fun _ _ _ h => inTime_of_onSchedule hclock h) calls

/-- A period of three seconds, with almost one second left. -/
theorem onSchedule_iff_longer_period : ∃ s,
    callAll (fun k => k) [.refill 3000000] (new 1 false fun k => k) = some s ∧
      OnSchedule (fun k => k) s := by
  have hclock : Monotone fun k : Nat => (k : Int) := Nat.mono_cast
  refine ⟨_, rfl, (onSchedule_iff hclock 1 false [.refill 3000000]).mpr ?_ _ (List.prefix_refl _)
    _ rfl⟩
  intro run c hrun s hs
  obtain ⟨rest, hrest⟩ := hrun
  obtain ⟨rfl, rfl, -⟩ : run = [] ∧ c = .refill 3000000 ∧ rest = [] := by
    simpa [List.append_eq_singleton_iff] using hrest
  cases hs
  show (0 : Int) + 1000000 - 2 ≤ 3000000
  decide

/-- A millisecond for the period, with almost a second left. -/
theorem short_period_off_schedule : ∃ s,
    callAll (fun k => k) [.init 1000 5] (new 1 false fun k => k) = some s ∧
      s.limiter.bucket.refillPeriod = 1000 ∧
      s.limiter.bucket.nextRefillPeriod - ((s.instant - 1 : Nat) : Int) = 999998 ∧
      ¬ OnSchedule (fun k => k) s := by
  refine ⟨_, rfl, rfl, rfl, ?_⟩
  intro h
  have hle := h.idle.next_le
  revert hle
  decide

end Timed

end DynamicRateLimiter

end Paio
