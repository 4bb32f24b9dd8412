import Mathlib.Algebra.Order.Archimedean.Basic
import Mathlib.Data.Rat.Floor
import Mathlib.Tactic.Linarith
import Paio.ThreadedBucket

/-!
# Paio.ThreadedLedger

What the threads are charged that share the bucket with a refill thread. A ledger is kept beside
the machine: what was requested, what was subtracted for whom, and how often the bucket was
refilled. Every thread has been charged what it requested, less what its call still owes
(`Place.owing`), in amounts of at most the capacity; and in a run in which every call that leaves
its wait by the interruption finds its tokens, all charges together come from the first tokens and
from the refills (`charged_exactly`). No amount is too large for a full bucket, so a thread can be
brought to the end of its call from every state (`can_finish`).
-/

namespace Paio

namespace ThreadedBucket

/-- The requests and the charges of all threads, the last one first. -/
structure Ledger where
  requests : List (Nat × ℚ) := []
  charges : List (Nat × ℚ) := []
  refills : Nat := 0

/-- The entries of one thread. -/
def sumOf (thread : Nat) (entries : List (Nat × ℚ)) : ℚ :=
  ((entries.filter fun e => e.1 = thread).map Prod.snd).sum

def total (entries : List (Nat × ℚ)) : ℚ := (entries.map Prod.snd).sum

/-- What is subtracted in the step of an event, and for whom. -/
def Machine.charge (m : Machine) : Event → Option (Nat × ℚ)
  | .enter thread _ _ =>
    match m.consumers thread with
    | .entering call =>
      if call.iterationTokens > m.bucket.tokens then none else some (thread, call.iterationTokens)
    | _ => none
  | .wake thread status _ _ =>
    match m.consumers thread with
    | .waiting call =>
      if status = .timeout ∧ m.bucket.interrupted = true then some (thread, call.iterationTokens)
      else if call.iterationTokens > m.bucket.tokens then none
      else some (thread, call.iterationTokens)
    | _ => none
  | _ => none

/-- The ledger after the step of an event. -/
def Ledger.after (l : Ledger) (m : Machine) : Event → Ledger
  | .tryConsume thread consumeTokens =>
    { l with requests := (thread, (consumeTokens : ℚ)) :: l.requests }
  | .refill _ => { l with refills := l.refills + 1 }
  | e =>
    match m.charge e with
    | some charge => { l with charges := charge :: l.charges }
    | none => l

def bookedStep (s : Machine × Ledger) (e : Event) : Except Stop (Machine × Ledger) :=
  match s.1.step e with
  | .ok m => .ok (m, s.2.after s.1 e)
  | .error stop => .error stop

/-- A run with its ledger. -/
def bookedRun (s : Machine × Ledger) (events : List Event) : Except Stop (Machine × Ledger) :=
  events.foldlM bookedStep s

/-! ## What a call owes -/

def Call.owing (call : Call) : ℚ := call.tokensLeft.getD call.iterationTokens

def Place.owing (place : Place) : ℚ := (place.call.map Call.owing).getD 0

/-- A call asks for what a full bucket can give: for all that is left, or for the capacity. -/
def Call.Fair (capacity : ℚ) (call : Call) : Prop :=
  match call.tokensLeft with
  | none => 0 ≤ call.iterationTokens ∧ call.iterationTokens ≤ capacity
  | some tokensLeft => 0 < tokensLeft ∧ call.iterationTokens = min tokensLeft capacity

def Place.Fair (capacity : ℚ) (place : Place) : Prop :=
  ∀ call, place.call = some call → call.Fair capacity

variable {capacity : ℚ} {call : Call}

theorem Call.Fair.nonneg (hcapacity : 0 < capacity) (h : call.Fair capacity) :
    0 ≤ call.iterationTokens := by
  unfold Call.Fair at h
  split at h
  · exact h.1
  · rw [h.2]
    exact le_min h.1.le hcapacity.le

theorem Call.Fair.le (h : call.Fair capacity) : call.iterationTokens ≤ capacity := by
  unfold Call.Fair at h
  split at h
  · exact h.2
  · rw [h.2]
    exact min_le_right _ _

theorem Place.fair_idle : Place.idle.Fair capacity := by
  rintro _ ⟨⟩

theorem Place.fair_entering (h : call.Fair capacity) : (Place.entering call).Fair capacity := by
  rintro _ ⟨⟩
  exact h

/-- The loop of `try_consume` at its condition, with the amount that it has chosen. -/
theorem Place.ofLoop_spec {tokensLeft iterationTokens : ℚ} (hleft : 0 ≤ tokensLeft)
    (hiter : 0 < tokensLeft → iterationTokens = min tokensLeft capacity) :
    (Place.ofLoop tokensLeft iterationTokens).Fair capacity ∧
      (Place.ofLoop tokensLeft iterationTokens).owing = tokensLeft := by
  unfold Place.ofLoop
  split
  · rename_i hpos
    exact ⟨Place.fair_entering ⟨hpos, hiter hpos⟩, rfl⟩
  · rename_i hnot
    exact ⟨Place.fair_idle, le_antisymm hleft (not_lt.mp hnot)⟩

/-- A new call owes what it requests. -/
theorem Place.tryConsume_spec {consumeTokens : ℚ} (h : 0 ≤ consumeTokens) :
    (Place.tryConsume capacity consumeTokens).Fair capacity ∧
      (Place.tryConsume capacity consumeTokens).owing = consumeTokens := by
  unfold Place.tryConsume
  split
  · rename_i hgt
    exact Place.ofLoop_spec h fun _ => (min_eq_right hgt.le).symm
  · rename_i hle
    exact ⟨Place.fair_entering ⟨h, not_lt.mp hle⟩, rfl⟩

/-- After a `consume_operation` the call owes that much less. -/
theorem Call.next_spec (h : call.Fair capacity) :
    (call.next capacity).Fair capacity ∧
      (call.next capacity).owing = call.owing - call.iterationTokens := by
  obtain ⟨iterationTokens, tokensLeft⟩ := call
  cases tokensLeft with
  | none => exact ⟨Place.fair_idle, (sub_self _).symm⟩
  | some tokensLeft =>
    obtain ⟨hpos, rfl⟩ := h
    refine Place.ofLoop_spec (sub_nonneg.mpr (min_le_left _ _)) fun hleft => ?_
    dsimp only
    split
    · rename_i hlt
      exact (min_eq_left hlt.le).symm
    · rename_i hge
      have hge := not_lt.mp hge
      rw [min_eq_right hge]
      -- more than the capacity is left, so it was the capacity that was consumed
      rcases le_total tokensLeft capacity with hle | hle
      · rw [min_eq_left hle, sub_self] at hleft
        exact absurd hleft (lt_irrefl _)
      · exact min_eq_right hle

/-- What is left after a `consume_operation` takes one refill less. -/
theorem Call.owing_next_le (hcapacity : 0 < capacity) (h : call.Fair capacity) {n : Nat}
    (hn : call.owing ≤ (n + 1 : Nat) * capacity) :
    (call.next capacity).owing ≤ n * capacity := by
  rw [(Call.next_spec h).2]
  have hnonneg : 0 ≤ (n : ℚ) * capacity := mul_nonneg (Nat.cast_nonneg n) hcapacity.le
  obtain ⟨iterationTokens, tokensLeft⟩ := call
  cases tokensLeft with
  | none =>
    rw [Call.owing, Option.getD_none, sub_self]
    exact hnonneg
  | some tokensLeft =>
    obtain ⟨_, rfl⟩ := h
    simp only [Call.owing, Option.getD_some] at hn ⊢
    push_cast at hn
    rcases le_total tokensLeft capacity with hle | hle
    · rw [min_eq_left hle, sub_self]
      exact hnonneg
    · rw [min_eq_right hle]
      linarith

/-! ## The ledger of a step -/

variable {m m' : Machine} {l l' : Ledger} {e : Event}

/-- What a step does to the machine and to its ledger. -/
inductive Books (m : Machine) (l : Ledger) : Machine → Ledger → Prop
  | request (thread : Nat) (consumeTokens : ℚ≥0) (hidle : m.consumers thread = .idle) :
      Books m l (m.goTo thread (.tryConsume m.bucket.capacity consumeTokens))
        { l with requests := (thread, (consumeTokens : ℚ)) :: l.requests }
  | wait (thread : Nat) (call : Call) (bucket : TokenBucketThreaded)
      (hcall : (m.consumers thread).call = some call) (htokens : bucket.tokens = m.bucket.tokens)
      (hcapacity : bucket.capacity = m.bucket.capacity) :
      Books m l { m.goTo thread (.waiting call) with bucket := bucket } l
  | charge (thread : Nat) (call : Call) (hcall : (m.consumers thread).call = some call) :
      Books m l (m.subtract thread call)
        { l with charges := (thread, call.iterationTokens) :: l.charges }
  | refill (now : Int) :
      Books m l { m with bucket := m.bucket.refillOperation now, refiller := .checking }
        { l with refills := l.refills + 1 }
  | keep (bucket : TokenBucketThreaded) (refiller : Refiller)
      (hcapacity : bucket.capacity = m.bucket.capacity)
      (htokens : bucket.tokens = m.bucket.tokens) :
      Books m l { m with bucket := bucket, refiller := refiller } l

theorem books_tryServe {thread : Nat} {now stored : Int}
    (hcall : (m.consumers thread).call = some call)
    (h : m.tryServe thread call now stored = .ok m')
    (hcharge : m.charge e =
      if call.iterationTokens > m.bucket.tokens then none else some (thread, call.iterationTokens))
    (hl : l.after m e = match m.charge e with
      | some charge => { l with charges := charge :: l.charges }
      | none => l) :
    Books m l m' (l.after m e) := by
  rw [hl, hcharge]
  unfold Machine.tryServe at h
  split at h
  · rename_i hgt
    rw [if_pos hgt]
    split at h
    · rename_i bucket hcollect
      cases h
      obtain ⟨htokens, hcapacity⟩ := TokenBucketThreaded.collectOutOfTokens_keeps hcollect
      exact .wait thread call bucket hcall htokens hcapacity
    · cases h
  · rename_i henough
    rw [if_neg henough]
    cases h
    exact .charge thread call hcall

theorem step_books (h : m.step e = .ok m') : Books m l m' (l.after m e) := by
  cases e with
  | tryConsume thread consumeTokens =>
    simp only [Machine.step] at h
    split at h <;> cases h
    rename_i hidle
    exact .request thread consumeTokens hidle
  | enter thread now stored =>
    simp only [Machine.step] at h
    split at h
    · rename_i call hat
      refine books_tryServe (by rw [hat]; rfl) h ?_ rfl
      simp only [Machine.charge, hat]
    · cases h
  | wake thread status now stored =>
    simp only [Machine.step] at h
    split at h
    · rename_i call hat
      have hcall : (m.consumers thread).call = some call := by rw [hat]; rfl
      split at h
      · rename_i hbreak
        cases h
        simp only [Ledger.after, Machine.charge, hat, if_pos hbreak]
        exact .charge thread call hcall
      · rename_i hstay
        refine books_tryServe hcall h ?_ rfl
        simp only [Machine.charge, hat, if_neg hstay]
    · cases h
  | check =>
    simp only [Machine.step] at h
    split at h <;> cases h
    exact .keep m.bucket _ rfl rfl
  | refill now =>
    simp only [Machine.step] at h
    split at h <;> cases h
    exact .refill now
  | interrupt =>
    cases h
    exact .keep _ m.refiller rfl rfl

/-! ## Runs -/

theorem sumOf_cons_self (thread : Nat) (x : ℚ) (entries : List (Nat × ℚ)) :
    sumOf thread ((thread, x) :: entries) = x + sumOf thread entries := by
  simp [sumOf]

theorem sumOf_cons_of_ne {thread other : Nat} (h : other ≠ thread) (x : ℚ)
    (entries : List (Nat × ℚ)) : sumOf other ((thread, x) :: entries) = sumOf other entries := by
  simp [sumOf, h.symm]

/-- What every step keeps. -/
structure Kept (bucket : TokenBucketThreaded) (m : Machine) (l : Ledger) : Prop where
  capacity : m.bucket.capacity = bucket.capacity
  balanced : ∀ thread,
    sumOf thread l.requests = sumOf thread l.charges + (m.consumers thread).owing
  fair : ∀ thread, (m.consumers thread).Fair bucket.capacity
  within : ∀ c ∈ l.charges, 0 ≤ c.2 ∧ c.2 ≤ bucket.capacity

variable {bucket : TokenBucketThreaded}

theorem Kept.start : Kept bucket (start bucket) {} where
  capacity := rfl
  balanced := fun _ => by simp [sumOf, ThreadedBucket.start, Place.owing, Place.call]
  fair := fun _ => Place.fair_idle
  within := by simp

/-- A thread that goes to a place with the same debt, or pays or requests the difference. -/
theorem Kept.goTo (h : Kept bucket m l) {thread : Nat} {place : Place}
    (hplace : place.Fair bucket.capacity) {requests charges : List (Nat × ℚ)}
    (hothers : ∀ other ≠ thread, sumOf other requests = sumOf other l.requests ∧
      sumOf other charges = sumOf other l.charges)
    (hself : sumOf thread requests = sumOf thread charges + place.owing)
    (hwithin : ∀ c ∈ charges, 0 ≤ c.2 ∧ c.2 ≤ bucket.capacity) {bucket' : TokenBucketThreaded}
    (hcapacity : bucket'.capacity = m.bucket.capacity) :
    Kept bucket { m.goTo thread place with bucket := bucket' }
      { l with requests := requests, charges := charges } where
  capacity := hcapacity.trans h.capacity
  balanced := fun other => by
    show _ = _ + ((m.goTo thread place).consumers other).owing
    rcases eq_or_ne other thread with rfl | hne
    · rw [Machine.goTo_consumers_self]
      exact hself
    · rw [Machine.goTo_consumers_of_ne m hne, (hothers other hne).1, (hothers other hne).2]
      exact h.balanced other
  fair := fun other => by
    show ((m.goTo thread place).consumers other).Fair _
    rcases eq_or_ne other thread with rfl | hne
    · rw [Machine.goTo_consumers_self]
      exact hplace
    · rw [Machine.goTo_consumers_of_ne m hne]
      exact h.fair other
  within := hwithin

theorem Kept.step (hcapacity : 0 < bucket.capacity) (h : Kept bucket m l)
    (hbooks : Books m l m' l') : Kept bucket m' l' := by
  have hdebt : ∀ {thread call}, (m.consumers thread).call = some call →
      sumOf thread l.requests = sumOf thread l.charges + call.owing := by
    intro thread call hcall
    have hbalanced := h.balanced thread
    rwa [Place.owing, hcall, Option.map_some, Option.getD_some] at hbalanced
  cases hbooks with
  | request thread consumeTokens hidle =>
    rw [h.capacity]
    obtain ⟨hfair, howing⟩ := Place.tryConsume_spec consumeTokens.cast_nonneg
    refine h.goTo hfair (fun other hne => ⟨sumOf_cons_of_ne hne _ _, rfl⟩) ?_ h.within rfl
    have hbalanced := h.balanced thread
    rw [hidle, Place.owing, Place.call, Option.map_none, Option.getD_none] at hbalanced
    rw [sumOf_cons_self, howing, hbalanced]
    ring
  | wait thread call bucket' hcall _ hcap =>
    refine h.goTo ?_ (fun _ _ => ⟨rfl, rfl⟩) (hdebt hcall) h.within hcap
    rintro _ ⟨⟩
    exact h.fair thread call hcall
  | charge thread call hcall =>
    have hfair := h.fair thread call hcall
    obtain ⟨hnext, howing⟩ := Call.next_spec hfair
    unfold Machine.subtract
    rw [h.capacity]
    refine h.goTo hnext (fun other hne => ⟨rfl, sumOf_cons_of_ne hne _ _⟩) ?_ ?_ rfl
    · rw [sumOf_cons_self, howing, hdebt hcall]
      ring
    · intro c hc
      rcases List.mem_cons.mp hc with rfl | hc
      · exact ⟨hfair.nonneg hcapacity, hfair.le⟩
      · exact h.within c hc
  | refill now =>
    exact ⟨(TokenBucketThreaded.refillOperation_capacity _ now).trans h.capacity, h.balanced,
      h.fair, h.within⟩
  | keep bucket' refiller hcap _ => exact ⟨hcap.trans h.capacity, h.balanced, h.fair, h.within⟩

/-! ## The tokens that are given away -/

/-- All charges come from the first tokens and from refills. -/
def Drawn (bucket : TokenBucketThreaded) (m : Machine) (l : Ledger) : Prop :=
  total l.charges + m.bucket.tokens ≤ bucket.tokens + bucket.capacity * l.refills

theorem Drawn.step (h : Drawn bucket m l) (hcapacity : m.bucket.capacity = bucket.capacity)
    (hnonneg : 0 ≤ m.bucket.tokens) (hbooks : Books m l m' l') : Drawn bucket m' l' := by
  unfold Drawn at h ⊢
  cases hbooks with
  | request thread consumeTokens _ => exact h
  | wait thread call bucket' _ htokens _ =>
    show total l.charges + bucket'.tokens ≤ _
    rwa [htokens]
  | charge thread call _ =>
    show total ((thread, call.iterationTokens) :: l.charges) +
      (m.bucket.tokens - call.iterationTokens) ≤ _
    rw [total, List.map_cons, List.sum_cons, ← total]
    linarith
  | refill now =>
    show total l.charges + (m.bucket.refillOperation now).tokens ≤
      bucket.tokens + bucket.capacity * (l.refills + 1 : Nat)
    rw [TokenBucketThreaded.refillOperation_tokens, hcapacity]
    push_cast
    linarith
  | keep bucket' refiller _ htokens =>
    show total l.charges + bucket'.tokens ≤ _
    rwa [htokens]

theorem bookedRun_concat {run : List Event} {s : Machine × Ledger}
    (h : bookedRun s (run ++ [e]) = .ok (m', l')) :
    ∃ m l, bookedRun s run = .ok (m, l) ∧ m.step e = .ok m' ∧ l' = l.after m e := by
  obtain ⟨⟨m, l⟩, hrun, hstep⟩ := (RunCondition.foldlM_concat run e s (m', l')).mp h
  refine ⟨m, l, hrun, ?_⟩
  simp only [bookedStep] at hstep
  split at hstep
  · rename_i m₁ hm
    cases hstep
    exact ⟨hm, rfl⟩
  · cases hstep

/-- The machine does not look at its ledger. -/
theorem run_of_bookedRun {events : List Event} {m₀ : Machine} {l₀ : Ledger}
    (h : bookedRun (m₀, l₀) events = .ok (m, l)) : m₀.run events = .ok m := by
  induction events using List.reverseRecOn generalizing m l with
  | nil =>
    cases h
    rfl
  | append_singleton events e ih =>
    obtain ⟨m₁, l₁, hrun, hstep, _⟩ := bookedRun_concat h
    exact (RunCondition.foldlM_concat events e m₀ m).mpr ⟨m₁, ih hrun, hstep⟩

theorem exists_bookedRun {events : List Event} {m₀ : Machine} (l₀ : Ledger)
    (h : m₀.run events = .ok m) : ∃ l, bookedRun (m₀, l₀) events = .ok (m, l) := by
  induction events using List.reverseRecOn generalizing m with
  | nil =>
    cases h
    exact ⟨l₀, rfl⟩
  | append_singleton events e ih =>
    obtain ⟨m₁, hrun, hstep⟩ := (RunCondition.foldlM_concat events e m₀ m).mp h
    obtain ⟨l₁, hbooked⟩ := ih hrun
    refine ⟨l₁.after m₁ e, (RunCondition.foldlM_concat events e (m₀, l₀) _).mpr
      ⟨(m₁, l₁), hbooked, ?_⟩⟩
    simp only [bookedStep, hstep]

theorem kept_of_bookedRun (hcapacity : 0 < bucket.capacity) {events : List Event}
    (hrun : bookedRun (start bucket, {}) events = .ok (m, l)) : Kept bucket m l := by
  induction events using List.reverseRecOn generalizing m l with
  | nil =>
    cases hrun
    exact .start
  | append_singleton events e ih =>
    obtain ⟨m₁, l₁, hrun₁, hstep, rfl⟩ := bookedRun_concat hrun
    exact (ih hrun₁).step hcapacity (step_books hstep)

theorem drawn_of_bookedRun (hcapacity : 0 < bucket.capacity) (hnonneg : 0 ≤ bucket.tokens)
    (hle : bucket.tokens ≤ bucket.capacity) {events : List Event}
    (hcovered : ∀ run e, run ++ [e] <+: events → ∀ m, (start bucket).run run = .ok m →
      Covered m e)
    (hrun : bookedRun (start bucket, {}) events = .ok (m, l)) : Inv m ∧ Drawn bucket m l := by
  induction events using List.reverseRecOn generalizing m l with
  | nil =>
    cases hrun
    refine ⟨inv_start hcapacity hnonneg hle, ?_⟩
    simp [Drawn, start, total]
  | append_singleton events e ih =>
    obtain ⟨m₁, l₁, hrun₁, hstep, rfl⟩ := bookedRun_concat hrun
    obtain ⟨hinv, hdrawn⟩ := ih (fun run e' hfront =>
      hcovered run e' (hfront.trans (List.prefix_append events [e]))) hrun₁
    have hnow := hcovered events e (List.prefix_refl _) m₁ (run_of_bookedRun hrun₁)
    have hsame := (kept_of_bookedRun hcapacity hrun₁).capacity
    exact ⟨hinv.step hnow hstep, hdrawn.step hsame hinv.zero_le (step_books hstep)⟩

/-- In every run of any number of threads, each thread has been charged what it requested less what
its call still owes, in amounts between zero and the capacity. When each call that leaves its wait
by the interruption finds its tokens, everything that was charged comes from the first tokens and
from one capacity for each refill. -/
theorem charged_exactly (hcapacity : 0 < bucket.capacity) {events : List Event}
    (hrun : bookedRun (start bucket, {}) events = .ok (m, l)) :
    (∀ thread, sumOf thread l.requests =
      sumOf thread l.charges + (m.consumers thread).owing) ∧
    (∀ c ∈ l.charges, 0 ≤ c.2 ∧ c.2 ≤ bucket.capacity) ∧
    (0 ≤ bucket.tokens → bucket.tokens ≤ bucket.capacity →
      (∀ run e, run ++ [e] <+: events → ∀ m, (start bucket).run run = .ok m → Covered m e) →
      total l.charges + m.bucket.tokens ≤ bucket.tokens + bucket.capacity * l.refills) := by
  have hkept := kept_of_bookedRun hcapacity hrun
  refine ⟨hkept.balanced, hkept.within, fun hnonneg hle hcovered => ?_⟩
  exact (drawn_of_bookedRun hcapacity hnonneg hle hcovered hrun).2

/-- Fifteen tokens for one thread, out of two refills of ten, and four for another one. -/
def sharedRun : List Event :=
  servedRun ++ [.check, .refill 5, .tryConsume 1 4, .enter 1 6 6, .wake 0 .noTimeout 7 7]

def sharedOut : Machine × Ledger :=
  match bookedRun (start emptyBucket, {}) sharedRun with
  | .ok out => out
  | .error _ => (start emptyBucket, {})

theorem bookedRun_sharedRun :
    bookedRun (start emptyBucket, {}) sharedRun = .ok (sharedOut.1, sharedOut.2) := by
  have hok : (bookedRun (start emptyBucket, {}) sharedRun).toBool = true := by decide +kernel
  unfold sharedOut
  split
  · rename_i out hout
    exact hout
  · rename_i stop hstop
    rw [hstop] at hok
    cases hok

/-- Nobody leaves its wait by the interruption. -/
theorem covered_sharedRun {run : List Event} {e : Event} (he : run ++ [e] <+: sharedRun)
    (m : Machine) : Covered m e := by
  have hmem : e ∈ sharedRun := he.subset (List.mem_append_right run List.mem_cons_self)
  rintro thread call ⟨⟨now, stored, rfl⟩, _⟩
  simp [sharedRun, servedRun] at hmem

theorem charged_exactly_shared :
    sumOf 0 sharedOut.2.requests =
      sumOf 0 sharedOut.2.charges + (sharedOut.1.consumers 0).owing ∧
    sharedOut.2.charges = [(0, 5), (1, 4), (0, 10)] ∧
    total sharedOut.2.charges + sharedOut.1.bucket.tokens ≤
      emptyBucket.tokens + emptyBucket.capacity * sharedOut.2.refills := by
  obtain ⟨hbalanced, _, hdrawn⟩ := charged_exactly (by decide) bookedRun_sharedRun
  exact ⟨hbalanced 0, by decide +kernel, hdrawn (by decide) (by decide)
    fun run e he m _ => covered_sharedRun he m⟩

/-! ## Every call can be served -/

/-- The refill thread has not ended, or a thread that goes to wait does not record it. -/
structure Serving (m : Machine) : Prop where
  ended : m.refiller = .ended → m.bucket.interrupted = true
  goesOn : m.bucket.interrupted = false ∨ m.bucket.collectStatistics = false

variable {thread : Nat}

/-- The thread was charged once, and the others are where they were. -/
structure Charged (m m' : Machine) (thread : Nat) (call : Call) : Prop where
  consumers : m'.consumers = Function.update m.consumers thread (call.next m.bucket.capacity)
  capacity : m'.bucket.capacity = m.bucket.capacity
  serving : Serving m'

theorem charged_subtract (hserving : Serving m) (thread : Nat) (call : Call) :
    Charged m (m.subtract thread call) thread call :=
  ⟨rfl, rfl, hserving.ended, hserving.goesOn⟩

theorem run_cons_ok {events : List Event} {m₁ : Machine} (hs : m.step e = .ok m₁) :
    m.run (e :: events) = m₁.run events := by
  rw [Machine.run, List.foldlM_cons, hs]
  rfl

theorem run_append_ok {events more : List Event} {m₁ : Machine} (h : m.run events = .ok m₁) :
    m.run (events ++ more) = m₁.run more := by
  rw [Machine.run] at h
  rw [Machine.run, List.foldlM_append, h]
  rfl

/-- With enough tokens a call is served at once. -/
theorem exists_charge_of_enough (hcall : (m.consumers thread).call = some call)
    (henough : call.iterationTokens ≤ m.bucket.tokens) :
    ∃ e, m.step e = .ok (m.subtract thread call) := by
  have hserve : m.tryServe thread call 0 0 = .ok (m.subtract thread call) := by
    rw [Machine.tryServe, if_neg (not_lt.mpr henough)]
  cases hat : m.consumers thread with
  | idle =>
    rw [hat] at hcall
    cases hcall
  | entering call' =>
    rw [hat] at hcall
    cases hcall
    refine ⟨.enter thread 0 0, ?_⟩
    simp only [Machine.step, hat]
    exact hserve
  | waiting call' =>
    rw [hat] at hcall
    cases hcall
    refine ⟨.wake thread .noTimeout 0 0, ?_⟩
    have hnot : ¬ (CvStatus.noTimeout = .timeout ∧ m.bucket.interrupted = true) := by simp
    simp only [Machine.step, hat, if_neg hnot]
    exact hserve

/-- The refill thread fills the bucket when it is not interrupted. -/
theorem exists_refill (hserving : Serving m) (hinterrupted : m.bucket.interrupted = false) :
    ∃ events m₁, m.run events = .ok m₁ ∧ m₁.consumers = m.consumers ∧
      m₁.bucket.tokens = m.bucket.capacity ∧ m₁.bucket.capacity = m.bucket.capacity ∧
      Serving m₁ := by
  have hrefilled : Serving
      { m with bucket := m.bucket.refillOperation 0, refiller := .checking } := by
    refine ⟨by rintro ⟨⟩, .inl ?_⟩
    show (m.bucket.refillOperation 0).interrupted = false
    unfold TokenBucketThreaded.refillOperation
    split <;> exact hinterrupted
  have htokens := TokenBucketThreaded.refillOperation_tokens m.bucket 0
  have hcapacity := TokenBucketThreaded.refillOperation_capacity m.bucket 0
  cases hat : m.refiller with
  | checking =>
    have hcheck : m.step .check = .ok { m with refiller := .sleeping } := by
      simp only [Machine.step, hat, hinterrupted]
      rfl
    exact ⟨[.check, .refill 0], _, run_cons_ok hcheck, rfl, htokens, hcapacity, hrefilled⟩
  | sleeping =>
    have hrefill : m.step (.refill 0) =
        .ok { m with bucket := m.bucket.refillOperation 0, refiller := .checking } := by
      simp only [Machine.step, hat]
    exact ⟨[.refill 0], _, run_cons_ok hrefill, rfl, htokens, hcapacity, hrefilled⟩
  | ended =>
    rw [hserving.ended hat] at hinterrupted
    cases hinterrupted

/-- After the interruption a call that waits is served when its wait times out. -/
theorem exists_charge_of_interrupted (hserving : Serving m)
    (hinterrupted : m.bucket.interrupted = true)
    (hcall : (m.consumers thread).call = some call) :
    ∃ events m', m.run events = .ok m' ∧ Charged m m' thread call := by
  have hcollect : m.bucket.collectStatistics = false := by
    rcases hserving.goesOn with hgoes | hgoes
    · rw [hgoes] at hinterrupted
      cases hinterrupted
    · exact hgoes
  have hbreak : ∀ m₁ : Machine, m₁.bucket = m.bucket → m₁.consumers thread = .waiting call →
      m₁.step (.wake thread .timeout 0 0) = .ok (m₁.subtract thread call) := by
    intro m₁ hbucket hat
    simp only [Machine.step, hat, hbucket, hinterrupted, and_self, if_true]
  cases hat : m.consumers thread with
  | idle =>
    rw [hat] at hcall
    cases hcall
  | entering call' =>
    rw [hat] at hcall
    cases hcall
    by_cases henough : call.iterationTokens ≤ m.bucket.tokens
    · have hcall : (m.consumers thread).call = some call := by
        rw [hat]
        rfl
      obtain ⟨e, he⟩ := exists_charge_of_enough hcall henough
      exact ⟨[e], _, run_cons_ok he, charged_subtract hserving thread call⟩
    · -- first it goes to wait, which is not recorded
      have hwait : m.step (.enter thread 0 0) = .ok (m.goTo thread (.waiting call)) := by
        simp only [Machine.step, hat, Machine.tryServe]
        rw [if_pos (not_le.mp henough), TokenBucketThreaded.collectOutOfTokens, hcollect]
        rfl
      have hwake := hbreak (m.goTo thread (.waiting call)) rfl
        (Machine.goTo_consumers_self m thread _)
      refine ⟨[.enter thread 0 0, .wake thread .timeout 0 0], _,
        (run_cons_ok hwait).trans (run_cons_ok hwake), ?_, rfl, hserving.ended, hserving.goesOn⟩
      exact Function.update_idem _ _ _
  | waiting call' =>
    rw [hat] at hcall
    cases hcall
    exact ⟨[.wake thread .timeout 0 0], _, run_cons_ok (hbreak m rfl hat),
      charged_subtract hserving thread call⟩

theorem exists_charged (hserving : Serving m) (hfair : call.Fair m.bucket.capacity)
    (hcall : (m.consumers thread).call = some call) :
    ∃ events m', m.run events = .ok m' ∧ Charged m m' thread call := by
  cases hinterrupted : m.bucket.interrupted with
  | true => exact exists_charge_of_interrupted hserving hinterrupted hcall
  | false =>
    obtain ⟨events, m₁, hrun, hsame, htokens, hcap, hserving₁⟩ :=
      exists_refill hserving hinterrupted
    have hcall₁ : (m₁.consumers thread).call = some call := by rw [hsame]; exact hcall
    obtain ⟨e, he⟩ := exists_charge_of_enough hcall₁ (htokens ▸ hfair.le)
    have hcharged := charged_subtract hserving₁ thread call
    refine ⟨events ++ [e], _, (run_append_ok hrun).trans (run_cons_ok he), ?_,
      hcharged.capacity.trans hcap, hcharged.serving⟩
    rw [hcharged.consumers, hsame, hcap]

/-- After a `consume_operation` the call has returned, or it owes something still. -/
theorem Call.next_cases (capacity : ℚ) (call : Call) :
    call.next capacity = .idle ∨
      ∃ call', call.next capacity = .entering call' ∧ 0 < call'.owing := by
  have hloop : ∀ tokensLeft iterationTokens, Place.ofLoop tokensLeft iterationTokens = .idle ∨
      ∃ call', Place.ofLoop tokensLeft iterationTokens = .entering call' ∧ 0 < call'.owing := by
    intro tokensLeft iterationTokens
    unfold Place.ofLoop
    split
    · rename_i hpos
      exact .inr ⟨_, rfl, hpos⟩
    · exact .inl rfl
  unfold Call.next
  split
  · exact .inl rfl
  · exact hloop _ _

/-- A call that owes `n + 1` capacities at most is served after as many charges. -/
theorem exists_finish (n : Nat) : ∀ {m : Machine} {call : Call}, 0 < m.bucket.capacity →
    Serving m → (m.consumers thread).call = some call → call.Fair m.bucket.capacity →
    call.owing ≤ (n + 1 : Nat) * m.bucket.capacity →
    ∃ events m', m.run events = .ok m' ∧
      m'.consumers = Function.update m.consumers thread .idle := by
  induction n with
  | zero =>
    intro m call hcapacity hserving hcall hfair howing
    obtain ⟨events, m', hrun, hcharged⟩ := exists_charged hserving hfair hcall
    refine ⟨events, m', hrun, ?_⟩
    have hnext := Call.owing_next_le hcapacity hfair howing
    rcases call.next_cases m.bucket.capacity with hidle | ⟨call', hentering, hpos⟩
    · rw [hcharged.consumers, hidle]
    · rw [hentering, Nat.cast_zero, zero_mul] at hnext
      exact absurd hpos (not_lt.mpr hnext)
  | succ n ih =>
    intro m call hcapacity hserving hcall hfair howing
    obtain ⟨events, m₁, hrun, hcharged⟩ := exists_charged hserving hfair hcall
    have hnext := Call.owing_next_le hcapacity hfair howing
    have hnextFair := (Call.next_spec hfair).1
    rcases call.next_cases m.bucket.capacity with hidle | ⟨call', hentering, _⟩
    · exact ⟨events, m₁, hrun, by rw [hcharged.consumers, hidle]⟩
    · have hat : m₁.consumers thread = .entering call' := by
        rw [hcharged.consumers, Function.update_self, hentering]
      rw [hentering, ← hcharged.capacity] at hnext hnextFair
      obtain ⟨more, m', hmore, hconsumers⟩ := ih (hcharged.capacity ▸ hcapacity) hcharged.serving
        (by rw [hat]; rfl) (hnextFair call' rfl) hnext
      refine ⟨events ++ more, m', (run_append_ok hrun).trans hmore, ?_⟩
      rw [hconsumers, hcharged.consumers, Function.update_idem]

theorem interrupted_tryServe {now stored : Int}
    (h : m.tryServe thread call now stored = .ok m') :
    m'.refiller = m.refiller ∧ m'.bucket.interrupted = m.bucket.interrupted := by
  unfold Machine.tryServe at h
  split at h
  · split at h
    · rename_i bucket hcollect
      cases h
      refine ⟨rfl, ?_⟩
      unfold TokenBucketThreaded.collectOutOfTokens TokenBucketThreaded.recordOutOfTokensStat
        at hcollect
      split at hcollect
      · dsimp only at hcollect
        split at hcollect <;> cases hcollect
        rfl
      · cases hcollect
        rfl
    · cases h
  · cases h
    exact ⟨rfl, rfl⟩

/-- The refill thread ends only when it was interrupted, and the interruption stays. -/
theorem interrupted_of_ended {events : List Event} (hrun : (start bucket).run events = .ok m) :
    m.refiller = .ended → m.bucket.interrupted = true := by
  induction events using List.reverseRecOn generalizing m with
  | nil =>
    cases hrun
    rintro ⟨⟩
  | append_singleton events e ih =>
    obtain ⟨m₁, hrun₁, hstep⟩ := (RunCondition.foldlM_concat events e _ m).mp hrun
    have hbefore := ih hrun₁
    cases e with
    | tryConsume thread consumeTokens =>
      simp only [Machine.step] at hstep
      split at hstep <;> cases hstep
      exact hbefore
    | enter thread now stored =>
      simp only [Machine.step] at hstep
      split at hstep
      · obtain ⟨hrefiller, hsame⟩ := interrupted_tryServe hstep
        rwa [hrefiller, hsame]
      · cases hstep
    | wake thread status now stored =>
      simp only [Machine.step] at hstep
      split at hstep
      · split at hstep
        · cases hstep
          exact hbefore
        · obtain ⟨hrefiller, hsame⟩ := interrupted_tryServe hstep
          rwa [hrefiller, hsame]
      · cases hstep
    | check =>
      simp only [Machine.step] at hstep
      split at hstep <;> cases hstep
      intro hended
      by_contra hnot
      simp only [if_neg hnot] at hended
      cases hended
    | refill now =>
      simp only [Machine.step] at hstep
      split at hstep <;> cases hstep
      rintro ⟨⟩
    | interrupt =>
      cases hstep
      exact fun _ => rfl

/-- From every state of every run, as long as the bucket is not interrupted, or if it does not
record waits, any thread can be brought to the end of its call, however much it requested and
whatever the others wait for; they stay where they are. -/
theorem can_finish (hcapacity : 0 < bucket.capacity) {events : List Event}
    (hrun : (start bucket).run events = .ok m)
    (hgoesOn : m.bucket.interrupted = false ∨ m.bucket.collectStatistics = false)
    (thread : Nat) :
    ∃ more m', m.run more = .ok m' ∧
      m'.consumers = Function.update m.consumers thread .idle := by
  obtain ⟨l, hbooked⟩ := exists_bookedRun {} hrun
  have hkept := kept_of_bookedRun hcapacity hbooked
  have hserving : Serving m := ⟨interrupted_of_ended hrun, hgoesOn⟩
  have hpos : 0 < m.bucket.capacity := hkept.capacity ▸ hcapacity
  have hserve : ∀ call, (m.consumers thread).call = some call →
      ∃ more m', m.run more = .ok m' ∧
        m'.consumers = Function.update m.consumers thread .idle := by
    intro call hcall
    obtain ⟨n, hn⟩ := exists_nat_ge (call.owing / m.bucket.capacity)
    have howing : call.owing ≤ (n + 1 : Nat) * m.bucket.capacity := by
      rw [div_le_iff₀ hpos] at hn
      push_cast
      linarith
    exact exists_finish n hpos hserving hcall (hkept.capacity ▸ hkept.fair thread call hcall) howing
  cases hat : m.consumers thread with
  | idle => exact ⟨[], m, rfl, by rw [← hat, Function.update_eq_self]⟩
  | entering call => exact hserve call (by rw [hat]; rfl)
  | waiting call => exact hserve call (by rw [hat]; rfl)

/-- A thread waits for fifteen tokens, in an empty bucket of ten. -/
theorem can_finish_fifteen :
    ∃ m, (start emptyBucket).run [.tryConsume 0 15, .enter 0 1 1] = .ok m ∧
      m.consumers 0 = .waiting ⟨10, some 15⟩ ∧
      ∃ more m', m.run more = .ok m' ∧
        m'.consumers = Function.update m.consumers 0 .idle := by
  have hcapacity : 0 < emptyBucket.capacity := by decide
  have hrun : ∃ m, (start emptyBucket).run [.tryConsume 0 15, .enter 0 1 1] = .ok m ∧
      m.consumers 0 = .waiting ⟨10, some 15⟩ ∧ m.bucket.interrupted = false :=
    ⟨_, rfl, rfl, rfl⟩
  obtain ⟨m, hrun, hwaits, hgoesOn⟩ := hrun
  exact ⟨m, hrun, hwaits, can_finish hcapacity hrun (.inl hgoesOn) 0⟩

end ThreadedBucket

end Paio
