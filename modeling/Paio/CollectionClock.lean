import Paio.Statistics

/-!
# Paio.CollectionClock

The instants of collections that overlap. Every collection reads the clock before it takes the
lock. `collect` evaluates the elapsed time inside the critical section, `collect_single_entry` and
`collect_detailed_windowed_entries` evaluate it before they take the lock. `collect` and the
detailed collection record the instant they have read as the last collection time.

The evaluation asserts that this instant is later than the last collection time. A collection that
reads the clock and is then overtaken by one that records a later instant fails the assertion, and
so does one that reads the clock in the microsecond of the last collection. `assertion_holds` says
that there is no other way: the assertion holds in every run in which no collection records its
instant while another one that read the clock before it has still to evaluate, and in which every
collection reads a later instant than the reading before. `overtaken_can_fail` says that the first
of these conditions cannot be dropped at any recording.
-/

namespace Paio

namespace CollectionClock

open ChannelStatistics (ChannelStatsRaw)

inductive Call where
  | collect
  | collectSingleEntry (operation : Int)
  | collectDetailedWindowedEntries
  deriving DecidableEq, Repr

/-- Where a thread is in its call; `now` and `later` are numbers of readings. -/
inductive Place where
  | idle
  | collecting (now : Nat)
  /-- `collect` has the lock and has computed the overall metric. -/
  | aggregating (now later : Nat)
  /-- `collect` has the lock and has evaluated the elapsed time. -/
  | recording (now later : Nat)
  | timingEntry (now : Nat) (operation : Int)
  | entry (operation : Int) (elapsed : ℚ)
  | timingDetailed (now : Nat)
  | detailed (now : Nat) (elapsed : ℚ)

/-- Where a call is after its reading. -/
def Call.begin (now : Nat) : Call → Place
  | .collect => .collecting now
  | .collectSingleEntry operation => .timingEntry now operation
  | .collectDetailedWindowedEntries => .timingDetailed now

/-- The reading with which a thread evaluates the elapsed time next. -/
def Place.evaluating : Place → Option Nat
  | .aggregating now _ | .timingEntry now _ | .timingDetailed now => some now
  | _ => none

/-- The reading of a call that has still to evaluate. -/
def Place.pending : Place → Option Nat
  | .collecting now | .aggregating now _ | .timingEntry now _ | .timingDetailed now => some now
  | _ => none

/-- The reading that a call is about to record as the last collection. -/
def Place.records : Place → Option Nat
  | .recording now _ | .detailed now _ => some now
  | _ => none

def Place.evaluated (elapsed : ℚ) : Place → Place
  | .aggregating now later => .recording now later
  | .timingEntry _ operation => .entry operation elapsed
  | .timingDetailed now => .detailed now elapsed
  | place => place

/-- One evaluation of `elapsed_time_since_last_collection`. -/
structure Evaluation where
  now : Int
  lastCollectionTime : Int
  deriving DecidableEq, Repr

/-- The assertion of `elapsed_time_since_last_collection`. -/
def Evaluation.Asserted (e : Evaluation) : Prop := e.lastCollectionTime < e.now

structure Machine where
  stats : ChannelStatistics
  places : Nat → Place := fun _ => .idle
  statsMutex : Option Nat := none
  readings : Nat := 1
  evaluations : List Evaluation := []

def Machine.goTo (m : Machine) (thread : Nat) (place : Place) : Machine :=
  { m with places := Function.update m.places thread place }

inductive Event where
  | read (thread : Nat) (call : Call)
  /-- `collect` takes the lock and reads the clock for the overall metric. -/
  | enter (thread : Nat)
  | evaluate (thread : Nat)
  /-- The rest of the critical section. -/
  | finish (thread : Nat)
  deriving DecidableEq, Repr

variable (clock : Nat → UInt64)

/-- The instant of a reading, in microseconds. -/
def instant (reading : Nat) : Int := (clock reading).toNat

/-- A failed assertion ends the program; the steps go on regardless and cover a build without
assertions as well. -/
inductive Step (m : Machine) : Event → Machine → Prop
  | read (thread : Nat) (call : Call) (hat : m.places thread = .idle) :
      Step m (.read thread call)
        { m.goTo thread (call.begin m.readings) with readings := m.readings + 1 }
  | enter (thread now : Nat) (hat : m.places thread = .collecting now)
      (hfree : m.statsMutex = none) :
      Step m (.enter thread)
        { m.goTo thread (.aggregating now m.readings) with
          readings := m.readings + 1
          statsMutex := some thread }
  | evaluate (thread now : Nat) (hat : (m.places thread).evaluating = some now) :
      Step m (.evaluate thread)
        { m.goTo thread ((m.places thread).evaluated
            (m.stats.elapsedTimeSinceLastCollectionInSeconds (instant clock now))) with
          evaluations := m.evaluations ++
            [{ now := instant clock now, lastCollectionTime := m.stats.lastCollectionTime }] }
  | finish (thread now later : Nat) (raw : ChannelStatsRaw)
      (hat : m.places thread = .recording now later) :
      Step m (.finish thread)
        { m.goTo thread .idle with
          stats := (m.stats.collect (instant clock now) (instant clock later) raw).1
          statsMutex := none }
  | finishEntry (thread : Nat) (operation : Int) (elapsed : ℚ) (raw raw' : ChannelStatsRaw)
      (hat : m.places thread = .entry operation elapsed) (hfree : m.statsMutex = none)
      (h : m.stats.collectSingleEntry elapsed operation raw = .ok raw') :
      Step m (.finish thread) (m.goTo thread .idle)
  | finishDetailed (thread now : Nat) (elapsed : ℚ) (entries entries' : List ℚ)
      (stats : ChannelStatistics) (hat : m.places thread = .detailed now elapsed)
      (hfree : m.statsMutex = none)
      (h : m.stats.collectDetailedWindowedEntries (instant clock now) elapsed entries =
        .ok (stats, entries')) :
      Step m (.finish thread) { m.goTo thread .idle with stats := stats }

/-- Statistics that are initialized with reading `0` of the clock, and no call yet. -/
def start (stats : ChannelStatistics) (contextType : ContextType) : Machine where
  stats := stats.initializeEntries contextType (instant clock 0)

/-- The machines that the events lead to. -/
inductive After (m₀ : Machine) : List Event → Machine → Prop
  | nil : After m₀ [] m₀
  | snoc {run : List Event} {m m' : Machine} {e : Event} (h : After m₀ run m)
      (hs : Step clock m e m') : After m₀ (run ++ [e]) m'

/-- Every evaluation so far has met the assertion. -/
def Asserted (m : Machine) : Prop := ∀ e ∈ m.evaluations, e.Asserted

/-- A call that reads the clock sees it moved since the reading before, and a call that records its
reading is not ahead of one that has still to evaluate. -/
def InTurn (m : Machine) : Event → Prop
  | .read _ _ => clock (m.readings - 1) ≠ clock m.readings
  | .finish thread => ∀ now, (m.places thread).records = some now →
      ∀ other now', other ≠ thread → (m.places other).pending = some now' → now < now'
  | _ => True

/-- The runs in which every step is in turn. -/
inductive Orderly (m₀ : Machine) : List Event → Machine → Prop
  | nil : Orderly m₀ [] m₀
  | snoc {run : List Event} {m m' : Machine} {e : Event} (h : Orderly m₀ run m)
      (hs : Step clock m e m') (hturn : InTurn clock m e) : Orderly m₀ (run ++ [e]) m'

/-! ## Orderly runs -/

/-- Every call that has still to evaluate has read a later instant than all readings before it, and
than the last collection time. -/
structure Inv (m : Machine) : Prop where
  last_le : m.stats.lastCollectionTime ≤ instant clock (m.readings - 1)
  read_lt : ∀ thread now, (m.places thread).pending = some now ∨
    (m.places thread).records = some now → now < m.readings
  fresh : ∀ thread now, (m.places thread).pending = some now →
    ∀ before < now, instant clock before < instant clock now
  last_lt : ∀ thread now, (m.places thread).pending = some now →
    m.stats.lastCollectionTime < instant clock now
  asserted : Asserted m

variable {clock} {m m' m₀ : Machine} {e : Event} {run : List Event}

theorem instant_mono (hclock : ∀ i j, i ≤ j → clock i ≤ clock j) {i j : Nat} (hij : i ≤ j) :
    instant clock i ≤ instant clock j := by
  have hle := UInt64.le_iff_toNat_le.mp (hclock i j hij)
  exact Int.ofNat_le.mpr hle

theorem instant_lt (hclock : ∀ i j, i ≤ j → clock i ≤ clock j) {i j : Nat} (hij : i ≤ j)
    (hne : clock i ≠ clock j) : instant clock i < instant clock j := by
  have hlt := UInt64.lt_iff_toNat_lt.mp (UInt64.lt_of_le_of_ne (hclock i j hij) hne)
  exact Int.ofNat_lt.mpr hlt

theorem inv_start (stats : ChannelStatistics) (contextType : ContextType) :
    Inv clock (start clock stats contextType) where
  last_le := le_refl _
  read_lt := by
    rintro _ _ (h | h) <;> cases h
  fresh := by
    intro _ _ h
    cases h
  last_lt := by
    intro _ _ h
    cases h
  asserted := by
    intro e he
    cases he

theorem lastCollectionTime_collectDetailed {s s' : ChannelStatistics} {now : Int} {elapsed : ℚ}
    {entries entries' : List ℚ}
    (h : s.collectDetailedWindowedEntries now elapsed entries = .ok (s', entries')) :
    s'.lastCollectionTime = now := by
  unfold ChannelStatistics.collectDetailedWindowedEntries at h
  split at h
  · cases h
    rfl
  · cases h

theorem Place.pending_of_evaluating {place : Place} {now : Nat}
    (h : place.evaluating = some now) : place.pending = some now := by
  cases place <;> first | exact h | cases h

/-- After its evaluation a call has nothing left to evaluate, and records the reading it has used,
if any. -/
theorem Place.records_evaluated {place : Place} {now used : Nat} {elapsed : ℚ}
    (h : place.evaluating = some used) (hnow : (place.evaluated elapsed).records = some now) :
    place.pending = some now := by
  cases place <;> first | exact hnow | cases h <;> cases hnow

theorem Place.pending_evaluated {place : Place} {used : Nat} {elapsed : ℚ}
    (h : place.evaluating = some used) : (place.evaluated elapsed).pending = none := by
  cases place <;> first | rfl | cases h

/-- A step that records nothing and brings its call no new reading. -/
theorem Inv.moves (hclock : ∀ i j, i ≤ j → clock i ≤ clock j) (h : Inv clock m) {thread : Nat}
    {place : Place} (hplaces : m'.places = Function.update m.places thread place)
    (hpending : ∀ now, place.pending = some now → (m.places thread).pending = some now)
    (hrecords : ∀ now, place.records = some now → (m.places thread).pending = some now)
    (hreadings : m.readings ≤ m'.readings)
    (hlast : m'.stats.lastCollectionTime = m.stats.lastCollectionTime)
    (hasserted : Asserted m') : Inv clock m' := by
  have hpending' : ∀ t now, (m'.places t).pending = some now →
      (m.places t).pending = some now := by
    intro t now ht
    rw [hplaces] at ht
    by_cases heq : t = thread
    · subst heq
      rw [Function.update_self] at ht
      exact hpending now ht
    · rwa [Function.update_of_ne heq] at ht
  constructor
  · rw [hlast]
    exact h.last_le.trans (instant_mono hclock (by omega))
  · intro t now ht
    refine (h.read_lt t now ?_).trans_le hreadings
    rcases ht with ht | ht
    · exact .inl (hpending' t now ht)
    · rw [hplaces] at ht
      by_cases heq : t = thread
      · subst heq
        rw [Function.update_self] at ht
        exact .inl (hrecords now ht)
      · rw [Function.update_of_ne heq] at ht
        exact .inr ht
  · exact fun t now ht => h.fresh t now (hpending' t now ht)
  · intro t now ht
    rw [hlast]
    exact h.last_lt t now (hpending' t now ht)
  · exact hasserted

/-- A call that reads the clock. -/
theorem Inv.read (hclock : ∀ i j, i ≤ j → clock i ≤ clock j) (h : Inv clock m) {thread : Nat}
    {call : Call} (hturn : InTurn clock m (.read thread call)) :
    Inv clock { m.goTo thread (call.begin m.readings) with readings := m.readings + 1 } := by
  have hbegin : (call.begin m.readings).pending = some m.readings ∧
      (call.begin m.readings).records = none := by
    cases call <;> exact ⟨rfl, rfl⟩
  have hmoved : ∀ before ≤ m.readings - 1, instant clock before < instant clock m.readings :=
    fun before hle => (instant_mono hclock hle).trans_lt (instant_lt hclock (by omega) hturn)
  constructor
  · exact h.last_le.trans (instant_mono hclock (Nat.sub_le _ _))
  · intro t now hat
    by_cases ht : t = thread
    · subst ht
      simp only [Machine.goTo, Function.update_self, hbegin, Option.some.injEq, reduceCtorEq,
        or_false] at hat
      exact Nat.lt_succ_of_le hat.ge
    · simp only [Machine.goTo, Function.update_of_ne ht] at hat
      exact Nat.lt_succ_of_lt (h.read_lt t now hat)
  · intro t now hat
    by_cases ht : t = thread
    · subst ht
      simp only [Machine.goTo, Function.update_self, hbegin, Option.some.injEq] at hat
      subst hat
      exact fun before hlt => hmoved before (Nat.le_sub_one_of_lt hlt)
    · simp only [Machine.goTo, Function.update_of_ne ht] at hat
      exact h.fresh t now hat
  · intro t now hat
    by_cases ht : t = thread
    · subst ht
      simp only [Machine.goTo, Function.update_self, hbegin, Option.some.injEq] at hat
      subst hat
      exact h.last_le.trans_lt (hmoved _ (le_refl _))
    · simp only [Machine.goTo, Function.update_of_ne ht] at hat
      exact h.last_lt t now hat
  · exact h.asserted

/-- A call that records its reading. -/
theorem Inv.record (hclock : ∀ i j, i ≤ j → clock i ≤ clock j) (h : Inv clock m)
    {thread now : Nat} (hturn : InTurn clock m (.finish thread))
    (hat : (m.places thread).records = some now)
    (hplaces : m'.places = Function.update m.places thread .idle)
    (hreadings : m'.readings = m.readings)
    (hlast : m'.stats.lastCollectionTime = instant clock now)
    (hevaluations : m'.evaluations = m.evaluations) : Inv clock m' := by
  have hkept : ∀ t now, (m'.places t).pending = some now ∨ (m'.places t).records = some now →
      t ≠ thread ∧ m'.places t = m.places t := by
    intro t now ht
    rw [hplaces] at ht ⊢
    by_cases heq : t = thread
    · subst heq
      rw [Function.update_self] at ht
      rcases ht with ht | ht <;> cases ht
    · exact ⟨heq, Function.update_of_ne heq _ _⟩
  constructor
  · rw [hlast, hreadings]
    exact instant_mono hclock (Nat.le_sub_one_of_lt (h.read_lt thread now (.inr hat)))
  · intro t now' ht
    rw [hreadings]
    rw [(hkept t now' ht).2] at ht
    exact h.read_lt t now' ht
  · intro t now' ht
    rw [(hkept t now' (.inl ht)).2] at ht
    exact h.fresh t now' ht
  · intro t now' ht
    obtain ⟨hne, heq⟩ := hkept t now' (.inl ht)
    rw [heq] at ht
    rw [hlast]
    exact h.fresh t now' ht now (hturn now hat t now' hne ht)
  · intro e he
    rw [hevaluations] at he
    exact h.asserted e he

theorem Inv.step (hclock : ∀ i j, i ≤ j → clock i ≤ clock j) (h : Inv clock m)
    (hturn : InTurn clock m e) (hs : Step clock m e m') : Inv clock m' := by
  cases hs with
  | read thread call _ => exact h.read hclock hturn
  | enter thread now hat _ =>
    refine h.moves hclock rfl ?_ ?_ (Nat.le_succ _) rfl h.asserted
    · intro now' hnow
      rw [hat]
      exact hnow
    · intro now' hnow
      cases hnow
  | evaluate thread now hat =>
    refine h.moves hclock rfl ?_ (fun _ => Place.records_evaluated hat) (le_refl _) rfl ?_
    · intro now' hnow
      rw [Place.pending_evaluated hat] at hnow
      cases hnow
    · intro e he
      rcases List.mem_append.mp he with he | he
      · exact h.asserted e he
      · rw [List.mem_singleton.mp he]
        exact h.last_lt thread now (Place.pending_of_evaluating hat)
  | finish thread now later raw hat =>
    exact h.record hclock hturn (by rw [hat]; rfl) rfl rfl rfl rfl
  | finishEntry thread operation elapsed raw raw' hat _ _ =>
    refine h.moves hclock rfl ?_ ?_ (le_refl _) rfl h.asserted
    · intro now' hnow
      cases hnow
    · intro now' hnow
      cases hnow
  | finishDetailed thread now elapsed entries entries' stats hat _ hc =>
    exact h.record hclock hturn (by rw [hat]; rfl) rfl rfl (lastCollectionTime_collectDetailed hc)
      rfl

/-- In every run whose steps are in turn, with a clock that never goes back, every evaluation of
the elapsed time meets the assertion. -/
theorem assertion_holds (hclock : ∀ i j, i ≤ j → clock i ≤ clock j) {stats : ChannelStatistics}
    {contextType : ContextType} (h : Orderly clock (start clock stats contextType) run m) :
    Asserted m := by
  have hinv : Inv clock m := by
    induction h with
    | nil => exact inv_start stats contextType
    | snoc _ hs hturn ih => exact ih.step hclock hturn hs
  exact hinv.asserted

/-- Threads that collect in turn: the collections of `0` and `1` overlap, and `2` reads the clock
before `1` takes the lock. -/
def overlapping : List Event :=
  [.read 0 .collect, .read 1 .collect, .enter 0, .evaluate 0, .finish 0, .read 2 .collect,
    .enter 1, .evaluate 1, .finish 1, .read 0 .collectDetailedWindowedEntries, .enter 2,
    .evaluate 2, .evaluate 0]

/-- A clock that shows a microsecond more with every reading, up to a last one. -/
def steadyClock (reading : Nat) : UInt64 := UInt64.ofNat (min reading 100)

theorem steadyClock_mono (i j : Nat) (h : i ≤ j) : steadyClock i ≤ steadyClock j := by
  rw [UInt64.le_iff_toNat_le]
  simp only [steadyClock, UInt64.toNat_ofNat']
  omega

theorem assertion_holds_overlapping :
    ∃ m, Orderly steadyClock (start steadyClock {} .posix) overlapping m ∧
      m.evaluations = [⟨1, 0⟩, ⟨2, 1⟩, ⟨4, 2⟩, ⟨6, 2⟩] ∧ Asserted m := by
  have h₁ : Orderly steadyClock (start steadyClock {} .posix) _ _ :=
    .snoc .nil (.read 0 .collect rfl) (show steadyClock 0 ≠ steadyClock 1 by decide)
  have h₂ := h₁.snoc (.read 1 .collect rfl) (show steadyClock 1 ≠ steadyClock 2 by decide)
  have h₃ := h₂.snoc (.enter 0 1 rfl rfl) trivial
  have h₄ := h₃.snoc (.evaluate 0 1 rfl) trivial
  have h₅ := h₄.snoc (.finish 0 1 3 {} rfl) (by
    intro now hnow other now' hother hpending
    cases hnow
    rcases eq_or_ne other 1 with rfl | h1
    · cases hpending
      decide
    · simp [Machine.goTo, start, hother, h1, Place.pending] at hpending)
  have h₆ := h₅.snoc (.read 2 .collect rfl) (show steadyClock 3 ≠ steadyClock 4 by decide)
  have h₇ := h₆.snoc (.enter 1 2 rfl rfl) trivial
  have h₈ := h₇.snoc (.evaluate 1 2 rfl) trivial
  have h₉ := h₈.snoc (.finish 1 2 5 {} rfl) (by
    intro now hnow other now' hother hpending
    cases hnow
    rcases eq_or_ne other 2 with rfl | h2
    · cases hpending
      decide
    · rcases eq_or_ne other 0 with rfl | h0
      · cases hpending
      · simp [Machine.goTo, start, hother, h2, h0, Place.pending] at hpending)
  have h₁₀ := h₉.snoc (.read 0 .collectDetailedWindowedEntries rfl)
    (show steadyClock 5 ≠ steadyClock 6 by decide)
  have h₁₁ := h₁₀.snoc (.enter 2 4 rfl rfl) trivial
  have h₁₂ := h₁₁.snoc (.evaluate 2 4 rfl) trivial
  have h₁₃ := h₁₂.snoc (.evaluate 0 6 rfl) trivial
  exact ⟨_, h₁₃, rfl, assertion_holds steadyClock_mono h₁₃⟩

/-- What a recording step leaves. -/
theorem Step.recorded {thread now : Nat} (hs : Step clock m (.finish thread) m')
    (hat : (m.places thread).records = some now) :
    m'.stats.lastCollectionTime = instant clock now ∧ m'.statsMutex = none ∧
      m'.places = Function.update m.places thread .idle := by
  cases hs with
  | finish _ now' later raw hplace =>
    rw [hplace] at hat
    cases hat
    exact ⟨rfl, rfl, rfl⟩
  | finishEntry _ operation elapsed raw raw' hplace _ _ =>
    rw [hplace] at hat
    cases hat
  | finishDetailed _ now' elapsed entries entries' stats hplace hfree hc =>
    rw [hplace] at hat
    cases hat
    exact ⟨lastCollectionTime_collectDetailed hc, hfree, rfl⟩

/-- A recording that is out of turn leaves a call that fails the assertion when it goes on next. -/
theorem overtaken_can_fail (hclock : ∀ i j, i ≤ j → clock i ≤ clock j) {thread other now now' : Nat}
    (hs : Step clock m (.finish thread) m') (hat : (m.places thread).records = some now)
    (hne : other ≠ thread) (hpending : (m.places other).pending = some now') (hle : now' ≤ now) :
    ∃ events m'', After clock m' events m'' ∧ ¬ Asserted m'' := by
  obtain ⟨hlast, hfree, hplaces⟩ := hs.recorded hat
  have hother : m'.places other = m.places other := by
    rw [hplaces, Function.update_of_ne hne]
  have hlate : ¬ m'.stats.lastCollectionTime < instant clock now' := by
    rw [hlast]
    exact not_lt.mpr (instant_mono hclock hle)
  by_cases hentering : m'.places other = .collecting now'
  · have hrun := (After.nil : After clock m' [] m').snoc (.enter other now' hentering hfree)
    refine ⟨_, _, hrun.snoc (.evaluate other now' ?_), ?_⟩
    · simp [Machine.goTo, Place.evaluating]
    · intro h
      exact hlate (h _ (List.mem_append_right _ List.mem_cons_self))
  · have hevaluating : (m'.places other).evaluating = some now' := by
      rw [← hother] at hpending
      cases hplace : m'.places other <;> rw [hplace] at hpending hentering <;>
        first | exact hpending | cases hpending
      exact absurd rfl hentering
    refine ⟨_, _, After.nil.snoc (.evaluate other now' hevaluating), ?_⟩
    intro h
    exact hlate (h _ (List.mem_append_right _ List.mem_cons_self))

/-! ## Failing runs -/

/-- A clock that ticks once after each of its first two readings. -/
def tickingClock (reading : Nat) : UInt64 :=
  if reading = 0 then 5 else if reading = 1 then 6 else 7

theorem tickingClock_mono (i j : Nat) (h : i ≤ j) : tickingClock i ≤ tickingClock j := by
  unfold tickingClock
  split
  · split
    · decide
    · split <;> decide
  · split
    · rw [if_neg (by omega)]
      split <;> decide
    · rw [if_neg (by omega), if_neg (by omega)]
      decide

/-- Thread `0` has read the clock when thread `1` does and collects. -/
def overtaken : List Event :=
  [.read 0 .collect, .read 1 .collect, .enter 1, .evaluate 1, .finish 1, .enter 0, .evaluate 0]

/-- A collection in the microsecond of the initialization. -/
def atOnce : List Event := [.read 0 .collect, .enter 0, .evaluate 0]

theorem overtaken_not_asserted :
    ∃ m, After tickingClock (start tickingClock {} .posix) overtaken m ∧ ¬ Asserted m := by
  have h₁ : After tickingClock (start tickingClock {} .posix) _ _ :=
    .snoc .nil (.read 0 .collect rfl)
  have h₂ := h₁.snoc (.read 1 .collect rfl)
  have h₃ := h₂.snoc (.enter 1 2 rfl rfl)
  have h₄ := h₃.snoc (.evaluate 1 2 rfl)
  have h₅ := h₄.snoc (.finish 1 2 3 {} rfl)
  have h₆ := h₅.snoc (.enter 0 1 rfl rfl)
  refine ⟨_, h₆.snoc (.evaluate 0 1 rfl), ?_⟩
  intro h
  have hlast := h _ (List.mem_append_right _ List.mem_cons_self)
  revert hlast
  show ¬ (7 : Int) < 6
  omega

theorem atOnce_not_asserted :
    ∃ m, After (fun _ => 7) (start (fun _ => 7) {} .posix) atOnce m ∧ ¬ Asserted m := by
  have h₁ : After (fun _ => 7) (start (fun _ => 7) {} .posix) _ _ :=
    .snoc .nil (.read 0 .collect rfl)
  have h₂ := h₁.snoc (.enter 0 1 rfl rfl)
  refine ⟨_, h₂.snoc (.evaluate 0 1 rfl), ?_⟩
  intro h
  have hlast := h _ (List.mem_append_right _ List.mem_cons_self)
  revert hlast
  show ¬ (7 : Int) < 7
  omega

/-- Neither run keeps the assertion whatever the clock reads. -/
theorem assertion_can_fail :
    (¬ ∀ clock : Nat → UInt64, (∀ i j, i ≤ j → clock i ≤ clock j) →
      ∀ m, After clock (start clock {} .posix) overtaken m → Asserted m) ∧
    ¬ ∀ clock : Nat → UInt64, (∀ i j, i ≤ j → clock i ≤ clock j) →
      ∀ m, After clock (start clock {} .posix) atOnce m → Asserted m := by
  refine ⟨?_, ?_⟩
  · intro h
    obtain ⟨m, hafter, hnot⟩ := overtaken_not_asserted
    exact hnot (h tickingClock tickingClock_mono m hafter)
  · intro h
    obtain ⟨m, hafter, hnot⟩ := atOnce_not_asserted
    exact hnot (h (fun _ => 7) (fun _ _ _ => UInt64.le_refl _) m hafter)

end CollectionClock

end Paio
