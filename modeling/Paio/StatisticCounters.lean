import Mathlib.Algebra.Ring.Nat
import Mathlib.Data.UInt
import Paio.Statistics

/-!
# Paio.StatisticCounters

The counters of a channel under concurrent updates and collections. A thread that collects reads
the clock first and takes the lock afterwards, so other threads may come in between; what happens
under the lock is one step. A failed assertion on the elapsed time ends the program, which is the
end of a run; the steps go on regardless, so they also cover a build without assertions.

The history is what the steps leave behind: all updates, the updates since the windowed counters
were last reset, and, for every resetting collection, the windowed counters it has read with the
answer it has given.
-/

namespace Paio

namespace ChannelStatistics

/-! ## Runs -/

/-- The classifier that selects the entry. -/
def classifier (s : ChannelStatistics) (operationType operationContext : Int) : Int :=
  match s.classifierType with
  | .operationContext => operationContext
  | .operationType => operationType

/-- What a thread holds between reading the clock and taking the lock. -/
inductive Local where
  | idle
  | collecting (now : Int)
  | collectingEntry (elapsed : ℚ) (operation : Int)
  | collectingDetailed (now : Int) (elapsed : ℚ)

/-- What a resetting collection gives back: one metric for the window, or one for each entry. -/
inductive Answer where
  | window (metric : ℚ)
  | entries (metrics : List ℚ)

structure Report where
  counters : List UInt64
  elapsed : ℚ
  answer : Answer

/-- The statistics with the threads at work on them and the history. -/
structure Shared where
  stats : ChannelStatistics
  threads : Nat → Local := fun _ => .idle
  updates : List (Int × UInt64) := []
  sinceReset : List (Int × UInt64) := []
  reports : List Report := []

/-- A thread moves on. -/
def Shared.goTo (s : Shared) (thread : Nat) (next : Local) : Nat → Local :=
  Function.update s.threads thread next

inductive Step : Shared → Shared → Prop
  | update {s : Shared} {thread : Nat} {operationType operationContext : Int} {value : UInt64}
      {stats : ChannelStatistics} (hidle : s.threads thread = .idle)
      (hc : 0 ≤ s.stats.classifier operationType operationContext)
      (h : s.stats.updateStatisticEntry operationType operationContext value = .ok stats) :
      Step s { s with
        stats := stats
        updates := s.updates ++ [(s.stats.classifier operationType operationContext, value)]
        sinceReset :=
          s.sinceReset ++ [(s.stats.classifier operationType operationContext, value)] }
  | startCollect {s : Shared} {thread : Nat} (now : Int) (hidle : s.threads thread = .idle) :
      Step s { s with threads := s.goTo thread (.collecting now) }
  | startEntry {s : Shared} {thread : Nat} (now operation : Int)
      (hidle : s.threads thread = .idle) :
      Step s { s with
        threads := s.goTo thread (.collectingEntry
          (s.stats.elapsedTimeSinceLastCollectionInSeconds now) operation) }
  | startDetailed {s : Shared} {thread : Nat} (now : Int) (hidle : s.threads thread = .idle) :
      Step s { s with
        threads := s.goTo thread (.collectingDetailed now
          (s.stats.elapsedTimeSinceLastCollectionInSeconds now)) }
  | collect {s : Shared} {thread : Nat} {now : Int} (later : Int) (raw : ChannelStatsRaw)
      (hat : s.threads thread = .collecting now) :
      Step s { s with
        stats := (s.stats.collect now later raw).1
        threads := s.goTo thread .idle
        sinceReset := []
        reports := s.reports ++
          [{ counters := s.stats.windowedCounter
             elapsed := s.stats.elapsedTimeSinceLastCollectionInSeconds now
             answer := .window (s.stats.collect now later raw).2.windowedMetricValue }] }
  | collectEntry {s : Shared} {thread : Nat} {elapsed : ℚ} {operation : Int}
      {raw raw' : ChannelStatsRaw} (hat : s.threads thread = .collectingEntry elapsed operation)
      (h : s.stats.collectSingleEntry elapsed operation raw = .ok raw') :
      Step s { s with threads := s.goTo thread .idle }
  | collectDetailed {s : Shared} {thread : Nat} {now : Int} {elapsed : ℚ}
      {stats : ChannelStatistics} {entries : List ℚ}
      (hat : s.threads thread = .collectingDetailed now elapsed)
      (h : s.stats.collectDetailedWindowedEntries now elapsed [] = .ok (stats, entries)) :
      Step s { s with
        stats := stats
        threads := s.goTo thread .idle
        sinceReset := []
        reports := s.reports ++
          [{ counters := s.stats.windowedCounter
             elapsed := elapsed
             answer := .entries entries }] }

/-- Statistics that were just initialized. -/
def Shared.new (metric : StatisticMetric) (classifierType : ClassifierType)
    (contextType : ContextType) (now : Int) : Shared where
  stats :=
    let stats : ChannelStatistics := { collectionMetric := metric, classifierType := classifierType }
    stats.initializeEntries contextType now

/-- The states that steps reach from there. -/
inductive Reachable (metric : StatisticMetric) (classifierType : ClassifierType)
    (contextType : ContextType) : Shared → Prop
  | new (now : Int) : Reachable metric classifierType contextType
      (.new metric classifierType contextType now)
  | step {s s' : Shared} (h : Reachable metric classifierType contextType s) (hs : Step s s') :
      Reachable metric classifierType contextType s'

/-! ## Sums of updates -/

/-- The sum, on `uint64_t`, of the updates that belong to an entry. -/
def sumOf (size : Int) (i : Nat) (updates : List (Int × UInt64)) : UInt64 :=
  ((updates.filter fun u => u.1 % size = i).map Prod.snd).sum

@[simp] theorem sumOf_nil (size : Int) (i : Nat) : sumOf size i [] = 0 := rfl

theorem sumOf_concat (size : Int) (i : Nat) (updates : List (Int × UInt64)) (c : Int)
    (value : UInt64) :
    sumOf size i (updates ++ [(c, value)]) =
      sumOf size i updates + if c % size = i then value else 0 := by
  unfold sumOf
  rw [List.filter_append, List.map_append, List.sum_append]
  by_cases h : c % size = i
  · simp [h]
  · simp [h]

/-- The counters are the sums of the updates. -/
def Holds (size : Int) (counters : List UInt64) (updates : List (Int × UInt64)) : Prop :=
  (counters.length : Int) = size ∧
    ∀ i : Nat, i < size → counters[i]? = some (sumOf size i updates)

theorem holds_new (n : Nat) : Holds n (List.replicate n 0) [] := by
  refine ⟨by simp, ?_⟩
  intro i hi
  rw [sumOf_nil, List.getElem?_replicate, if_pos (by omega)]

/-- An update of its entry. -/
theorem Holds.update {size : Int} {counters : List UInt64} {updates : List (Int × UInt64)}
    (h : Holds size counters updates) (hpos : 0 < size) (c : Int) (value : UInt64) :
    Holds size (counters.modify (c % size).toNat (· + value)) (updates ++ [(c, value)]) := by
  have hnonneg := Int.emod_nonneg c hpos.ne'
  refine ⟨by rw [List.length_modify]; exact h.1, ?_⟩
  intro i hi
  rw [List.getElem?_modify, h.2 i hi, sumOf_concat]
  by_cases hc : c % size = i
  · simp [hc]
  · have hne : (c % size).toNat ≠ i := by omega
    simp [hc, hne]

theorem Holds.reset {size : Int} {counters : List UInt64} {updates : List (Int × UInt64)}
    (h : Holds size counters updates) : Holds size (counters.map fun _ => 0) [] := by
  refine ⟨by rw [List.length_map]; exact h.1, ?_⟩
  intro i hi
  rw [List.getElem?_map, h.2 i hi]
  rfl

/-! ## The invariant -/

/-- The answer is what the metric makes of the counters that were read. -/
def Report.Faithful (metric : StatisticMetric) (r : Report) : Prop :=
  match r.answer with
  | .window value => value =
      ChannelStatistics.aggregate { collectionMetric := metric } r.counters r.elapsed
  | .entries values => values = r.counters.map fun counter =>
      ChannelStatistics.calculateStatisticMetric { collectionMetric := metric } counter r.elapsed

structure Partition (metric : StatisticMetric) (s : Shared) : Prop where
  metric_eq : s.stats.collectionMetric = metric
  size_pos : 0 < s.stats.statsSize
  total : Holds s.stats.statsSize s.stats.totalCounter s.updates
  windowed : Holds s.stats.statsSize s.stats.windowedCounter s.sinceReset
  reported : ∀ i : Nat, i < s.stats.statsSize →
    (s.reports.map fun r => r.counters.getD i 0).sum + sumOf s.stats.statsSize i s.sinceReset =
      sumOf s.stats.statsSize i s.updates
  faithful : ∀ r ∈ s.reports, r.Faithful metric

variable {metric : StatisticMetric} {s s' : Shared} {stats : ChannelStatistics}

theorem statsSize_pos (contextType : ContextType) : 0 < contextType.statsSize := by
  cases contextType <;> decide

theorem partition_new (classifierType : ClassifierType) (contextType : ContextType) (now : Int) :
    Partition metric (.new metric classifierType contextType now) := by
  have hpos := statsSize_pos contextType
  have hholds := holds_new contextType.statsSize.toNat
  rw [Int.toNat_of_nonneg hpos.le] at hholds
  refine ⟨rfl, hpos, ?_, ?_, ?_, ?_⟩
  · exact hholds
  · exact hholds
  · intro i _
    exact add_zero 0
  · intro r hr
    cases hr

/-- With a non-negative classifier an update finds its entry. -/
theorem Partition.updateStatisticEntry (h : Partition metric s) {operationType operationContext : Int}
    (hc : 0 ≤ s.stats.classifier operationType operationContext) (value : UInt64) :
    s.stats.updateStatisticEntry operationType operationContext value =
      .ok { s.stats with
        totalCounter := s.stats.totalCounter.modify
          (s.stats.classifier operationType operationContext % s.stats.statsSize).toNat (· + value)
        windowedCounter := s.stats.windowedCounter.modify
          (s.stats.classifier operationType operationContext % s.stats.statsSize).toNat
            (· + value) } := by
  have hentry : s.stats.updateStatisticEntry operationType operationContext value =
      s.stats.updateEntry (s.stats.classifier operationType operationContext) value := by
    unfold ChannelStatistics.updateStatisticEntry classifier
    cases s.stats.classifierType <;> rfl
  have hnonneg := Int.emod_nonneg (s.stats.classifier operationType operationContext)
    h.size_pos.ne'
  have hlt := Int.emod_lt_of_pos (s.stats.classifier operationType operationContext) h.size_pos
  rw [hentry, updateEntry, Int.tmod_eq_emod_of_nonneg hc]
  simp only [h.total.1, h.windowed.1]
  rw [if_pos ⟨hnonneg, hlt, hlt⟩]

/-- Every entry of the window is there. -/
theorem windowedEntries_eq {s : ChannelStatistics} (elapsed : ℚ) (positions : List Nat)
    (hpos : ∀ i ∈ positions, i < s.windowedCounter.length) :
    s.windowedEntries elapsed positions =
      .ok (positions.map fun i =>
        s.calculateStatisticMetric (s.windowedCounter.getD i 0) elapsed) := by
  induction positions with
  | nil => rfl
  | cons i rest ih =>
    have hi := List.getElem?_eq_getElem (hpos i List.mem_cons_self)
    have hentry : s.calculateEntryWindowedCounter i elapsed =
        .ok (s.calculateStatisticMetric (s.windowedCounter.getD i 0) elapsed) := by
      rw [calculateEntryWindowedCounter, entryAt, if_pos (by omega), Int.toNat_natCast, hi,
        List.getD_eq_getElem?_getD, hi]
      rfl
    rw [windowedEntries, hentry, ih fun j hj => hpos j (List.mem_cons_of_mem i hj)]
    rfl

theorem map_range_getD (l : List UInt64) (f : UInt64 → ℚ) :
    ((List.range l.length).map fun i => f (l.getD i 0)) = l.map f := by
  apply List.ext_getElem
  · simp
  · intro i h₁ h₂
    rw [List.length_map] at h₂
    simp [h₂]

/-- With as many windowed counters as there are entries, all of them are collected. -/
theorem collectDetailedWindowedEntries_eq {s : ChannelStatistics}
    (hlength : s.windowedCounter.length = s.statsSize.toNat) (now : Int) (elapsed : ℚ) :
    s.collectDetailedWindowedEntries now elapsed [] =
      .ok ({ s with lastCollectionTime := now }.resetWindowedCounters,
        s.windowedCounter.map fun counter => s.calculateStatisticMetric counter elapsed) := by
  have hentries := windowedEntries_eq (s := s) elapsed (List.range s.windowedCounter.length)
    (fun i hi => List.mem_range.mp hi)
  rw [map_range_getD s.windowedCounter fun counter =>
    s.calculateStatisticMetric counter elapsed] at hentries
  rw [collectDetailedWindowedEntries, ← hlength, hentries]
  rfl

theorem Partition.collectDetailed (h : Partition metric s) (now : Int) (elapsed : ℚ) :
    s.stats.collectDetailedWindowedEntries now elapsed [] =
      .ok ({ s.stats with lastCollectionTime := now }.resetWindowedCounters,
        s.stats.windowedCounter.map fun counter =>
          s.stats.calculateStatisticMetric counter elapsed) := by
  have hl := h.windowed.1
  exact collectDetailedWindowedEntries_eq (by omega) now elapsed

/-- A collection that resets the window moves its counters into the reports. -/
theorem Partition.reset (h : Partition metric s) {threads : Nat → Local} {r : Report}
    (hr : r.counters = s.stats.windowedCounter) (hf : r.Faithful metric)
    (hmetric : stats.collectionMetric = s.stats.collectionMetric)
    (hsize : stats.statsSize = s.stats.statsSize)
    (htotal : stats.totalCounter = s.stats.totalCounter)
    (hwindowed : stats.windowedCounter = s.stats.windowedCounter.map fun _ => 0) :
    Partition metric { s with
      stats := stats, threads := threads, sinceReset := [], reports := s.reports ++ [r] } where
  metric_eq := hmetric.trans h.metric_eq
  size_pos := hsize ▸ h.size_pos
  total := by
    show Holds stats.statsSize stats.totalCounter s.updates
    rw [hsize, htotal]
    exact h.total
  windowed := by
    show Holds stats.statsSize stats.windowedCounter []
    rw [hsize, hwindowed]
    exact h.windowed.reset
  reported := by
    show ∀ i : Nat, i < stats.statsSize →
      ((s.reports ++ [r]).map fun r => r.counters.getD i 0).sum + sumOf stats.statsSize i [] =
        sumOf stats.statsSize i s.updates
    intro i hi
    rw [hsize] at hi
    rw [hsize, sumOf_nil, ← h.reported i hi, List.map_append, List.sum_append, List.map_singleton,
      List.sum_singleton, hr, List.getD_eq_getElem?_getD, h.windowed.2 i hi]
    simp
  faithful := by
    intro r' hr'
    rcases List.mem_append.mp hr' with hold | hnew
    · exact h.faithful r' hold
    · exact List.mem_singleton.mp hnew ▸ hf

/-- One step, whichever thread makes it. -/
theorem Partition.step (h : Partition metric s) (hs : Step s s') : Partition metric s' := by
  cases hs with
  | @update thread operationType operationContext value stats hidle hc hupdate =>
    rw [h.updateStatisticEntry hc value] at hupdate
    cases hupdate
    refine ⟨h.metric_eq, h.size_pos, h.total.update h.size_pos _ value,
      h.windowed.update h.size_pos _ value, ?_, h.faithful⟩
    intro i hi
    show _ + sumOf s.stats.statsSize i (s.sinceReset ++ [_]) =
      sumOf s.stats.statsSize i (s.updates ++ [_])
    rw [sumOf_concat, sumOf_concat, ← h.reported i hi, add_assoc]
  | startCollect now hidle =>
    exact ⟨h.metric_eq, h.size_pos, h.total, h.windowed, h.reported, h.faithful⟩
  | startEntry now operation hidle =>
    exact ⟨h.metric_eq, h.size_pos, h.total, h.windowed, h.reported, h.faithful⟩
  | startDetailed now hidle =>
    exact ⟨h.metric_eq, h.size_pos, h.total, h.windowed, h.reported, h.faithful⟩
  | collectEntry hat hentry =>
    exact ⟨h.metric_eq, h.size_pos, h.total, h.windowed, h.reported, h.faithful⟩
  | collect later raw hat =>
    refine h.reset rfl ?_ rfl rfl rfl rfl
    show _ = ChannelStatistics.aggregate _ _ _
    rw [← h.metric_eq]
    rfl
  | @collectDetailed thread now elapsed stats entries hat hdetailed =>
    rw [h.collectDetailed now elapsed] at hdetailed
    cases hdetailed
    refine h.reset rfl ?_ rfl rfl rfl rfl
    show _ = List.map _ _
    rw [← h.metric_eq]
    rfl

theorem Reachable.partition {classifierType : ClassifierType} {contextType : ContextType}
    (h : Reachable metric classifierType contextType s) : Partition metric s := by
  induction h with
  | new now => exact partition_new classifierType contextType now
  | step _ hs ih => exact ih.step hs

/-- The critical sections do not fault: an update with a non-negative classifier, a detailed
collection, and the collection of a single entry with a non-negative operation come back. -/
structure Comes (s : ChannelStatistics) : Prop where
  update : ∀ operationType operationContext value,
    0 ≤ s.classifier operationType operationContext →
    ∃ s', s.updateStatisticEntry operationType operationContext value = .ok s'
  detailed : ∀ now elapsed, ∃ out, s.collectDetailedWindowedEntries now elapsed [] = .ok out
  single : ∀ elapsed operation raw, 0 ≤ operation →
    ∃ raw', s.collectSingleEntry elapsed operation raw = .ok raw'

theorem Holds.entryAt {size : Int} {counters : List UInt64} {updates : List (Int × UInt64)}
    (h : Holds size counters updates) {position : Int} (hnonneg : 0 ≤ position)
    (hlt : position < size) : ∃ entry, entryAt counters position = .ok entry := by
  rw [ChannelStatistics.entryAt, if_pos hnonneg, h.2 position.toNat (by omega)]
  exact ⟨_, rfl⟩

theorem Partition.comes (h : Partition metric s) : Comes s.stats where
  update := fun _ _ value hc => ⟨_, h.updateStatisticEntry hc value⟩
  detailed := fun now elapsed => ⟨_, h.collectDetailed now elapsed⟩
  single := by
    intro elapsed operation raw hop
    have hnonneg := Int.emod_nonneg operation h.size_pos.ne'
    have hlt := Int.emod_lt_of_pos operation h.size_pos
    obtain ⟨total, htotal⟩ := h.total.entryAt hnonneg hlt
    obtain ⟨windowed, hwindowed⟩ := h.windowed.entryAt hnonneg hlt
    rw [collectSingleEntry, Int.tmod_eq_emod_of_nonneg hop]
    simp only [calculateEntryTotalCounter, calculateEntryWindowedCounter, htotal, hwindowed,
      Except.map]
    exact ⟨_, rfl⟩

/-- Whatever the interleaving, at every point a total counter is the sum of the updates of its
entry, a windowed counter is the sum of those since the last reset, and what the resetting
collections have read adds up with the windowed counter to the total counter; what they answered
is the metric of what they read. No update and no collection faults. -/
theorem counters_partition {classifierType : ClassifierType} {contextType : ContextType}
    (h : Reachable metric classifierType contextType s) :
    (∀ i : Nat, i < s.stats.statsSize → ∃ total windowed,
      s.stats.totalCounter[i]? = some total ∧ s.stats.windowedCounter[i]? = some windowed ∧
      total = sumOf s.stats.statsSize i s.updates ∧
      windowed = sumOf s.stats.statsSize i s.sinceReset ∧
      (s.reports.map fun r => r.counters.getD i 0).sum + windowed = total) ∧
    (∀ r ∈ s.reports, r.Faithful metric) ∧ Comes s.stats := by
  have hp := h.partition
  refine ⟨?_, hp.faithful, hp.comes⟩
  intro i hi
  exact ⟨_, _, hp.total.2 i hi, hp.windowed.2 i hi, rfl, rfl, hp.reported i hi⟩

/-- Two updates of entry 1, with classifiers 1 and 6, and a collection between them. -/
theorem counters_partition_two : ∃ s : Shared,
    Reachable .counter .operationContext .paioGeneral s ∧
    s.updates = [(1, 10), (6, 5)] ∧ s.sinceReset = [(6, 5)] ∧ s.reports.length = 1 ∧
    ∃ total windowed, s.stats.totalCounter[1]? = some total ∧
      s.stats.windowedCounter[1]? = some windowed ∧ total = 15 ∧ windowed = 5 ∧
      (s.reports.map fun r => r.counters.getD 1 0).sum + windowed = total := by
  have h₀ : Reachable .counter .operationContext .paioGeneral _ := .new 0
  have h₁ := h₀.step (@Step.update _ 0 0 1 10 _ rfl (by decide) rfl)
  have h₂ := h₁.step (@Step.startCollect _ 0 1 rfl)
  have h₃ := h₂.step (@Step.collect _ 0 1 2 {} rfl)
  have h₄ := h₃.step (@Step.update _ 0 0 6 5 _ rfl (by decide) rfl)
  obtain ⟨total, windowed, htotal, hwindowed, ht, hw, hsum⟩ :=
    (counters_partition h₄).1 1 (by decide)
  exact ⟨_, h₄, rfl, rfl, rfl, total, windowed, htotal, hwindowed, ht, hw, hsum⟩

end ChannelStatistics

end Paio
