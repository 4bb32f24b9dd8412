import Mathlib.Data.NNRat.Defs
import Mathlib.Tactic.NormNum
import Paio.Library.RunCondition
import Paio.TokenBucket

/-!
# Paio.ThreadedBucket

The token bucket with a refill thread of its own. A consumer that finds too few tokens waits on a
condition variable, for one refill period at most. When the bucket is interrupted, a wait that
times out leaves the loop, and the tokens are subtracted all the same.

`m_refill_mutex` is held from the test of the loop to the next wait or to the subtraction, so each
such section is one step of the machine. `tokens_in_range_iff` says that a wait that ends in this
way with too few tokens is the only thing that takes the bucket below zero.
-/

namespace Paio

/-! ## The bucket -/

/-- The members that consuming and refilling use. -/
structure TokenBucketThreaded where
  capacity : ℚ := 50000
  tokens : ℚ := 50000
  refillPeriod : Int := 10000
  lastRefillPeriod : Int
  interrupted : Bool := false
  collectStatistics : Bool := false
  tokenBucketStatistics : TBStats := {}

namespace TokenBucketThreaded

/-- `record_out_of_tokens_stat`, on `uint64_t` as in `TokenBucket.recordOutOfTokensStat`. -/
def recordOutOfTokensStat (b : TokenBucketThreaded) (outOfTokensTime now : Int) :
    Except Fault TokenBucketThreaded :=
  let approximateNextRefillPeriod := (b.lastRefillPeriod + b.refillPeriod) % 2 ^ 64
  let elapsed : Int := (outOfTokensTime - b.lastRefillPeriod) % 2 ^ 64
  let window : Int := (approximateNextRefillPeriod - b.lastRefillPeriod) % 2 ^ 64
  let normalizedEmptyFactor : ℚ := elapsed / window
  match b.tokenBucketStatistics.storeStatsEntry
      (if window ≠ 0 ∧ normalizedEmptyFactor ≤ 1 then normalizedEmptyFactor else 1)
      b.tokens now with
  | .ok stats => .ok { b with tokenBucketStatistics := stats }
  | .error f => .error f

/-- What a consumer does before it waits. -/
def collectOutOfTokens (b : TokenBucketThreaded) (outOfTokensTime now : Int) :
    Except Fault TokenBucketThreaded :=
  if b.collectStatistics then b.recordOutOfTokensStat outOfTokensTime now else .ok b

/-- `m_tokens -= consume_tokens`. -/
def subtract (b : TokenBucketThreaded) (consumeTokens : ℚ) : TokenBucketThreaded :=
  { b with tokens := b.tokens - consumeTokens }

def refillOperation (b : TokenBucketThreaded) (now : Int) : TokenBucketThreaded :=
  let b' := { b with tokens := b.capacity }
  if b.collectStatistics then { b' with lastRefillPeriod := now } else b'

def setInterrupted (b : TokenBucketThreaded) (value : Bool) : TokenBucketThreaded :=
  { b with interrupted := value }

theorem collectOutOfTokens_keeps {b b' : TokenBucketThreaded} {outOfTokensTime now : Int}
    (h : b.collectOutOfTokens outOfTokensTime now = .ok b') :
    b'.tokens = b.tokens ∧ b'.capacity = b.capacity := by
  unfold collectOutOfTokens recordOutOfTokensStat at h
  split at h
  · dsimp only at h
    split at h <;> cases h
    exact ⟨rfl, rfl⟩
  · cases h
    exact ⟨rfl, rfl⟩

@[simp] theorem refillOperation_tokens (b : TokenBucketThreaded) (now : Int) :
    (b.refillOperation now).tokens = b.capacity := by
  unfold refillOperation
  split <;> rfl

@[simp] theorem refillOperation_capacity (b : TokenBucketThreaded) (now : Int) :
    (b.refillOperation now).capacity = b.capacity := by
  unfold refillOperation
  split <;> rfl

end TokenBucketThreaded

namespace ThreadedBucket

/-! ## The threads -/

/-- A call of `try_consume` that is in `consume_operation` with `iterationTokens`. `tokensLeft` is
the variable of its loop, when the request is served in parts. -/
structure Call where
  iterationTokens : ℚ
  tokensLeft : Option ℚ := none
  deriving DecidableEq

inductive Place where
  | idle
  | entering (call : Call)
  | waiting (call : Call)
  deriving DecidableEq

/-- The loop of `try_consume` at its condition. -/
def Place.ofLoop (tokensLeft iterationTokens : ℚ) : Place :=
  if tokensLeft > 0 then .entering ⟨iterationTokens, some tokensLeft⟩ else .idle

/-- `try_consume`, up to its first `consume_operation`. -/
def Place.tryConsume (capacity consumeTokens : ℚ) : Place :=
  if consumeTokens > capacity then .ofLoop consumeTokens capacity
  else .entering { iterationTokens := consumeTokens }

/-- `try_consume` after a `consume_operation`. -/
def Call.next (capacity : ℚ) (call : Call) : Place :=
  match call.tokensLeft with
  | none => .idle
  | some tokensLeft =>
    let tokensLeft' := tokensLeft - call.iterationTokens
    .ofLoop tokensLeft' (if tokensLeft' < capacity then tokensLeft' else call.iterationTokens)

inductive Refiller where
  | checking
  | sleeping
  | ended
  deriving DecidableEq

structure Machine where
  bucket : TokenBucketThreaded
  consumers : Nat → Place := fun _ => .idle
  refiller : Refiller := .checking

inductive CvStatus where
  | noTimeout
  | timeout
  deriving DecidableEq, Repr

/-- `now` and `stored` are the instants that the clock reads. A wait that ends with `noTimeout`
was notified, or woke up for no reason. -/
inductive Event where
  | tryConsume (thread : Nat) (consumeTokens : ℚ≥0)
  | enter (thread : Nat) (now stored : Int)
  | wake (thread : Nat) (status : CvStatus) (now stored : Int)
  /-- The refill thread looks whether it was interrupted, and goes to sleep if not. -/
  | check
  | refill (now : Int)
  | interrupt

/-- Why a step is not made: the thread is elsewhere, or it would write outside the ring. -/
inductive Stop where
  | elsewhere
  | fault (f : Fault)

namespace Machine

def goTo (m : Machine) (thread : Nat) (place : Place) : Machine :=
  { m with consumers := Function.update m.consumers thread place }

@[simp] theorem goTo_consumers_self (m : Machine) (thread : Nat) (place : Place) :
    (m.goTo thread place).consumers thread = place :=
  Function.update_self ..

@[simp] theorem goTo_consumers_of_ne (m : Machine) {thread other : Nat} (h : other ≠ thread)
    (place : Place) : (m.goTo thread place).consumers other = m.consumers other :=
  Function.update_of_ne h ..

/-- The end of `consume_operation`. -/
def subtract (m : Machine) (thread : Nat) (call : Call) : Machine :=
  { m.goTo thread (call.next m.bucket.capacity) with
    bucket := m.bucket.subtract call.iterationTokens }

/-- The condition of the loop of `consume_operation`, and what follows up to a wait or the end. -/
def tryServe (m : Machine) (thread : Nat) (call : Call) (now stored : Int) :
    Except Stop Machine :=
  if call.iterationTokens > m.bucket.tokens then
    match m.bucket.collectOutOfTokens now stored with
    | .ok bucket => .ok { m.goTo thread (.waiting call) with bucket := bucket }
    | .error f => .error (.fault f)
  else .ok (m.subtract thread call)

def step (m : Machine) : Event → Except Stop Machine
  | .tryConsume thread consumeTokens =>
    match m.consumers thread with
    | .idle => .ok (m.goTo thread (.tryConsume m.bucket.capacity consumeTokens))
    | _ => .error .elsewhere
  | .enter thread now stored =>
    match m.consumers thread with
    | .entering call => m.tryServe thread call now stored
    | _ => .error .elsewhere
  | .wake thread status now stored =>
    match m.consumers thread with
    | .waiting call =>
      -- the `break`
      if status = .timeout ∧ m.bucket.interrupted = true then .ok (m.subtract thread call)
      else m.tryServe thread call now stored
    | _ => .error .elsewhere
  | .check =>
    match m.refiller with
    | .checking => .ok { m with refiller := if m.bucket.interrupted then .ended else .sleeping }
    | _ => .error .elsewhere
  | .refill now =>
    match m.refiller with
    | .sleeping => .ok { m with bucket := m.bucket.refillOperation now, refiller := .checking }
    | _ => .error .elsewhere
  | .interrupt => .ok { m with bucket := m.bucket.setInterrupted true }

def run (m : Machine) (events : List Event) : Except Stop Machine := events.foldlM step m

end Machine

variable {m m' : Machine} {e : Event}

/-! ## What a step does -/

/-- The call that a consumer is in. -/
def Place.call : Place → Option Call
  | .idle => none
  | .entering call | .waiting call => some call

/-- The wait of the call times out after an interruption. -/
def BreaksOut (m : Machine) (e : Event) (thread : Nat) (call : Call) : Prop :=
  (∃ now stored, e = .wake thread .timeout now stored) ∧ m.bucket.interrupted = true ∧
    m.consumers thread = .waiting call

/-- The effects of a step: it begins a call, sends one to wait, ends a `consume_operation`, or
leaves the consumers alone. -/
inductive Effect (m : Machine) (e : Event) : Machine → Prop
  | begin (thread : Nat) (consumeTokens : ℚ≥0) :
      Effect m e (m.goTo thread (.tryConsume m.bucket.capacity consumeTokens))
  | wait (thread : Nat) (call : Call) (bucket : TokenBucketThreaded)
      (hcall : (m.consumers thread).call = some call) (htokens : bucket.tokens = m.bucket.tokens)
      (hcapacity : bucket.capacity = m.bucket.capacity) :
      Effect m e { m.goTo thread (.waiting call) with bucket := bucket }
  | subtract (thread : Nat) (call : Call) (hcall : (m.consumers thread).call = some call)
      (henough : call.iterationTokens ≤ m.bucket.tokens ∨ BreaksOut m e thread call) :
      Effect m e (m.subtract thread call)
  | keep (bucket : TokenBucketThreaded) (refiller : Refiller)
      (hcapacity : bucket.capacity = m.bucket.capacity)
      (htokens : bucket.tokens = m.bucket.tokens ∨ bucket.tokens = m.bucket.capacity) :
      Effect m e { m with bucket := bucket, refiller := refiller }

theorem tryServe_effect {thread : Nat} {call : Call} {now stored : Int}
    (hcall : (m.consumers thread).call = some call)
    (h : m.tryServe thread call now stored = .ok m') : Effect m e m' := by
  unfold Machine.tryServe at h
  split at h
  · split at h
    · rename_i bucket hcollect
      cases h
      obtain ⟨htokens, hcapacity⟩ := TokenBucketThreaded.collectOutOfTokens_keeps hcollect
      exact .wait thread call bucket hcall htokens hcapacity
    · cases h
  · rename_i henough
    cases h
    exact .subtract thread call hcall (.inl (not_lt.mp henough))

theorem step_effect (h : m.step e = .ok m') : Effect m e m' := by
  cases e with
  | tryConsume thread consumeTokens =>
    simp only [Machine.step] at h
    split at h <;> cases h
    exact .begin thread consumeTokens
  | enter thread now stored =>
    simp only [Machine.step] at h
    split at h
    · rename_i call hat
      exact tryServe_effect (by rw [hat]; rfl) h
    · cases h
  | wake thread status now stored =>
    simp only [Machine.step] at h
    split at h
    · rename_i call hat
      have hcall : (m.consumers thread).call = some call := by rw [hat]; rfl
      split at h
      · rename_i hbreak
        cases h
        exact .subtract thread call hcall
          (.inr ⟨⟨now, stored, by rw [hbreak.1]⟩, hbreak.2, hat⟩)
      · exact tryServe_effect hcall h
    · cases h
  | check =>
    simp only [Machine.step] at h
    split at h <;> cases h
    exact .keep m.bucket _ rfl (.inl rfl)
  | refill now =>
    simp only [Machine.step] at h
    split at h <;> cases h
    exact .keep _ _ (TokenBucketThreaded.refillOperation_capacity _ now)
      (.inr (TokenBucketThreaded.refillOperation_tokens _ now))
  | interrupt =>
    cases h
    exact .keep _ m.refiller rfl (.inl rfl)

/-! ## What holds in any run -/

/-- No `consume_operation` is called with a negative amount. -/
def Place.Nonneg (place : Place) : Prop :=
  ∀ call, place.call = some call → 0 ≤ call.iterationTokens

theorem Place.nonneg_entering {call : Call} (h : 0 ≤ call.iterationTokens) :
    (Place.entering call).Nonneg := by
  rintro _ ⟨⟩
  exact h

theorem Place.nonneg_idle : Place.idle.Nonneg := by
  rintro _ ⟨⟩

theorem Place.nonneg_ofLoop {tokensLeft iterationTokens : ℚ} (h : 0 ≤ iterationTokens) :
    (Place.ofLoop tokensLeft iterationTokens).Nonneg := by
  unfold Place.ofLoop
  split
  · exact nonneg_entering h
  · exact nonneg_idle

theorem Place.nonneg_tryConsume {capacity consumeTokens : ℚ} (hcapacity : 0 ≤ capacity)
    (h : 0 ≤ consumeTokens) : (Place.tryConsume capacity consumeTokens).Nonneg := by
  unfold Place.tryConsume
  split
  · exact nonneg_ofLoop hcapacity
  · exact nonneg_entering h

theorem Call.nonneg_next {capacity : ℚ} {call : Call} (h : 0 ≤ call.iterationTokens) :
    (call.next capacity).Nonneg := by
  unfold Call.next
  split
  · exact Place.nonneg_idle
  · rename_i tokensLeft _
    dsimp only
    split
    · -- the rest is smaller than the capacity; if it is negative, the loop ends
      unfold Place.ofLoop
      split
      · rename_i hleft
        exact Place.nonneg_entering hleft.le
      · exact Place.nonneg_idle
    · exact Place.nonneg_ofLoop h

/-- The upper bound, and what it needs. -/
structure Bounded (m : Machine) : Prop where
  capacity_pos : 0 < m.bucket.capacity
  le : m.bucket.tokens ≤ m.bucket.capacity
  nonneg : ∀ thread, (m.consumers thread).Nonneg

theorem nonneg_goTo {thread : Nat} {place : Place} (h : ∀ thread, (m.consumers thread).Nonneg)
    (hplace : place.Nonneg) : ∀ other, ((m.goTo thread place).consumers other).Nonneg := by
  intro other
  rcases eq_or_ne other thread with rfl | hne
  · rw [Machine.goTo_consumers_self]
    exact hplace
  · rw [Machine.goTo_consumers_of_ne m hne]
    exact h other

theorem Bounded.step (h : Bounded m) (hs : m.step e = .ok m') : Bounded m' := by
  cases step_effect hs with
  | begin thread consumeTokens =>
    refine ⟨h.capacity_pos, h.le, nonneg_goTo h.nonneg ?_⟩
    exact Place.nonneg_tryConsume h.capacity_pos.le consumeTokens.cast_nonneg
  | wait thread call bucket hcall htokens hcapacity =>
    refine ⟨hcapacity ▸ h.capacity_pos, ?_, nonneg_goTo h.nonneg ?_⟩
    · show bucket.tokens ≤ bucket.capacity
      rw [htokens, hcapacity]
      exact h.le
    · rintro _ ⟨⟩
      exact h.nonneg thread call hcall
  | subtract thread call hcall _ =>
    have hcallNonneg := h.nonneg thread call hcall
    refine ⟨h.capacity_pos, ?_, nonneg_goTo h.nonneg (Call.nonneg_next hcallNonneg)⟩
    calc m.bucket.tokens - call.iterationTokens
      _ ≤ m.bucket.tokens := sub_le_self _ hcallNonneg
      _ ≤ m.bucket.capacity := h.le
  | keep bucket refiller hcapacity htokens =>
    refine ⟨hcapacity ▸ h.capacity_pos, ?_, h.nonneg⟩
    show bucket.tokens ≤ bucket.capacity
    rw [hcapacity]
    rcases htokens with htokens | htokens
    · exact htokens ▸ h.le
    · exact htokens.le

/-- Whatever the interruption does, the tokens never exceed the capacity. -/
theorem Bounded.run {events : List Event} (h : Bounded m) (hrun : m.run events = .ok m') :
    Bounded m' := by
  induction events generalizing m with
  | nil =>
    cases hrun
    exact h
  | cons e events ih =>
    simp only [Machine.run, List.foldlM_cons] at hrun
    cases hs : m.step e with
    | error stop =>
      rw [hs] at hrun
      cases hrun
    | ok m₁ =>
      rw [hs] at hrun
      exact ih (h.step hs) hrun

/-! ## The tokens -/

/-- The property of the bucket. -/
def InRange (m : Machine) : Prop := 0 ≤ m.bucket.tokens ∧ m.bucket.tokens ≤ m.bucket.capacity

instance : Decidable (InRange m) := inferInstanceAs (Decidable (_ ∧ _))

/-- A call that leaves its wait by the interruption finds its tokens nevertheless. -/
def Covered (m : Machine) (e : Event) : Prop :=
  ∀ thread call, BreaksOut m e thread call → call.iterationTokens ≤ m.bucket.tokens

structure Inv (m : Machine) : Prop extends Bounded m where
  zero_le : 0 ≤ m.bucket.tokens

theorem Inv.inRange (h : Inv m) : InRange m := ⟨h.zero_le, h.le⟩

theorem Inv.step (h : Inv m) (hcovered : Covered m e) (hs : m.step e = .ok m') : Inv m' := by
  refine ⟨h.toBounded.step hs, ?_⟩
  cases step_effect hs with
  | begin thread consumeTokens => exact h.zero_le
  | wait thread call bucket _ htokens _ => exact htokens ▸ h.zero_le
  | subtract thread call _ henough =>
    have henough : call.iterationTokens ≤ m.bucket.tokens := by
      rcases henough with henough | hbreaks
      · exact henough
      · exact hcovered thread call hbreaks
    exact sub_nonneg.mpr henough
  | keep bucket refiller _ htokens =>
    show 0 ≤ bucket.tokens
    rcases htokens with htokens | htokens
    · exact htokens ▸ h.zero_le
    · exact htokens ▸ h.capacity_pos.le

/-- A step that leaves the tokens in their range was covered. -/
theorem covered_of_inRange (hall : ∀ m', m.step e = .ok m' → InRange m') : Covered m e := by
  rintro thread call ⟨⟨now, stored, rfl⟩, hinterrupted, hat⟩
  have hs : m.step (.wake thread .timeout now stored) = .ok (m.subtract thread call) := by
    simp only [Machine.step, hat, hinterrupted, and_self, if_true]
  exact sub_nonneg.mp (hall _ hs).1

/-- The machine before the first event, on a bucket that nobody uses yet. -/
def start (bucket : TokenBucketThreaded) : Machine := { bucket := bucket }

theorem inv_start {bucket : TokenBucketThreaded} (hcapacity : 0 < bucket.capacity)
    (hnonneg : 0 ≤ bucket.tokens) (hle : bucket.tokens ≤ bucket.capacity) : Inv (start bucket) :=
  ⟨⟨hcapacity, hle, fun _ => Place.nonneg_idle⟩, hnonneg⟩

/-- In every run the tokens stay in their range exactly when each call that leaves its wait by the
interruption finds its tokens. -/
theorem tokens_in_range_iff (bucket : TokenBucketThreaded) (hcapacity : 0 < bucket.capacity)
    (hnonneg : 0 ≤ bucket.tokens) (hle : bucket.tokens ≤ bucket.capacity) (events : List Event) :
    (∀ run, run <+: events → ∀ m, (start bucket).run run = .ok m → InRange m) ↔
      ∀ run e, run ++ [e] <+: events → ∀ m, (start bucket).run run = .ok m → Covered m e := by
  refine RunCondition.good_iff_cond (fun run m => (start bucket).run run = .ok m)
    (fun m e m' => m.step e = .ok m') Inv ?_ ?_ ?_ ?_ ?_ events
  · rintro m ⟨⟩
    exact inv_start hcapacity hnonneg hle
  · intro run e m'
    exact RunCondition.foldlM_concat run e (start bucket) m'
  · intro m h
    exact h.inRange
  · intro m e m' h hcovered hs
    exact h.step hcovered hs
  · intro m e _ hall
    exact covered_of_inRange hall

/-! ## Runs -/

/-- An empty bucket of ten tokens. -/
def emptyBucket : TokenBucketThreaded where
  capacity := 10
  tokens := 0
  lastRefillPeriod := 0

/-- A consumer of fifteen tokens, served in two parts while the bucket is refilled. -/
def servedRun : List Event :=
  [.tryConsume 0 15, .enter 0 1 1, .check, .refill 2, .wake 0 .noTimeout 3 3, .enter 0 4 4]

/-- The bucket is interrupted while a consumer of five tokens waits. -/
def interruptedRun : List Event :=
  [.tryConsume 0 5, .enter 0 1 1, .interrupt, .wake 0 .timeout 2 2]

theorem tokens_in_range_iff_servedRun :
    (∀ run, run <+: servedRun → ∀ m, (start emptyBucket).run run = .ok m → InRange m) ↔
      ∀ run e, run ++ [e] <+: servedRun → ∀ m, (start emptyBucket).run run = .ok m →
        Covered m e :=
  tokens_in_range_iff emptyBucket (by decide) (by decide) (by decide) servedRun

/-- The consumer leaves its wait, and five tokens are subtracted from an empty bucket. -/
theorem interruptedRun_out_of_range :
    InRange (start emptyBucket) ∧
      ∃ m, (start emptyBucket).run interruptedRun = .ok m ∧ ¬ InRange m := by
  refine ⟨by decide, _, rfl, ?_⟩
  intro h
  have hneg : (0 : ℚ) ≤ 0 - ((5 : ℚ≥0) : ℚ) := h.1
  norm_num at hneg

end ThreadedBucket

end Paio
