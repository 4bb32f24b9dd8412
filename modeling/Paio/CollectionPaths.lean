import Mathlib.Algebra.Order.Ring.Rat
import Mathlib.Tactic.NormNum
import Paio.StatisticCounters

/-!
# Paio.CollectionPaths

The three ways to collect the statistics of a channel at one instant: the aggregate (`collect`), one
entry at a time (`collect_single_entry`), and the windows of all entries
(`collect_detailed_windowed_entries`). The windows always agree, `sum_calculateStatisticMetric`. The
overall metric of an entry is taken over the time since the last collection and that of the channel
over the time since the start, so `agree_iff` says when these agree.
-/

namespace Paio

namespace ChannelStatistics

variable {metric : StatisticMetric} {s : Shared}

/-- The total of a vector of counters. -/
def sumCounters (counters : List UInt64) : ℚ := ((counters.map UInt64.toNat).sum : ℕ)

theorem aggregate_throughput {s : ChannelStatistics} (h : s.collectionMetric = .throughput)
    (counters : List UInt64) (elapsed : ℚ) :
    s.aggregate counters elapsed = sumCounters counters / elapsed := by
  simp only [aggregate, h, sumCounters]

theorem aggregate_counter {s : ChannelStatistics} (h : s.collectionMetric = .counter)
    (counters : List UInt64) (elapsed : ℚ) :
    s.aggregate counters elapsed = sumCounters counters := by
  simp only [aggregate, h, sumCounters]

theorem sumCounters_cons (counter : UInt64) (counters : List UInt64) :
    sumCounters (counter :: counters) = counter.toNat + sumCounters counters := by
  unfold sumCounters
  push_cast [List.map_cons, List.sum_cons]
  rfl

/-- The metric of an entry, the special case of an empty one included. -/
theorem calculateStatisticMetric_eq (s : ChannelStatistics) (counter : UInt64) (elapsed : ℚ) :
    s.calculateStatisticMetric counter elapsed = s.aggregate [counter] elapsed := by
  unfold calculateStatisticMetric aggregate
  cases s.collectionMetric with
  | counter => simp
  | throughput =>
    by_cases h : counter = 0
    · simp [h]
    · simp [h]

/-- The metrics of the entries sum up to the metric of the sum. -/
theorem sum_calculateStatisticMetric (s : ChannelStatistics) (counters : List UInt64) (elapsed : ℚ) :
    (counters.map fun counter => s.calculateStatisticMetric counter elapsed).sum =
      s.aggregate counters elapsed := by
  induction counters with
  | nil =>
    cases hmetric : s.collectionMetric with
    | counter => simp [aggregate_counter hmetric, sumCounters]
    | throughput => simp [aggregate_throughput hmetric, sumCounters]
  | cons counter counters ih =>
    rw [List.map_cons, List.sum_cons, ih, calculateStatisticMetric_eq]
    cases hmetric : s.collectionMetric with
    | counter =>
      rw [aggregate_counter hmetric, aggregate_counter hmetric, aggregate_counter hmetric,
        sumCounters_cons, sumCounters_cons]
      simp [sumCounters]
    | throughput =>
      rw [aggregate_throughput hmetric, aggregate_throughput hmetric,
        aggregate_throughput hmetric, sumCounters_cons, sumCounters_cons, ← add_div]
      simp [sumCounters]

/-! ## The paths -/

/-- At the instant `now`, every entry can be collected by itself and the windows of all entries
together. The sums over the entries are what the aggregate answers, and when the metric is a rate it
is one over some time. -/
def Agree (s : ChannelStatistics) (now : Int) : Prop :=
  ∃ (single : Nat → ChannelStatsRaw) (stats : ChannelStatistics) (entries : List ℚ),
    (∀ i, i < s.statsSize.toNat →
      s.collectSingleEntry (s.elapsedTimeSinceLastCollectionInSeconds now) i {} =
        .ok (single i)) ∧
    s.collectDetailedWindowedEntries now (s.elapsedTimeSinceLastCollectionInSeconds now) [] =
      .ok (stats, entries) ∧
    ((List.range s.statsSize.toNat).map fun i => (single i).windowedMetricValue).sum =
      (s.collect now now {}).2.windowedMetricValue ∧
    entries.sum = (s.collect now now {}).2.windowedMetricValue ∧
    ((List.range s.statsSize.toNat).map fun i => (single i).overallMetricValue).sum =
      (s.collect now now {}).2.overallMetricValue ∧
    (s.collectionMetric = .throughput →
      s.getElapsedTimeInSeconds now ≠ 0 ∧ s.elapsedTimeSinceLastCollectionInSeconds now ≠ 0)

/-- When they do: the metric is a counter, or the time since the start is the time since the last
collection, or nothing was counted and some time has passed since the start. -/
def SameTime (s : ChannelStatistics) (now : Int) : Prop :=
  s.collectionMetric = .counter ∨
    s.getElapsedTimeInSeconds now = s.elapsedTimeSinceLastCollectionInSeconds now ∨
    (sumCounters s.totalCounter = 0 ∧ s.getElapsedTimeInSeconds now ≠ 0)

theorem seconds_of_le {later earlier : Int} (h : earlier ≤ later)
    (hwrap : later < earlier + 2 ^ 64) :
    seconds later earlier = ((later : ℚ) - earlier) / 1000 / 1000 := by
  have hmod : (later - earlier) % 2 ^ 64 = later - earlier :=
    Int.emod_eq_of_lt (by omega) (by omega)
  rw [seconds, hmod, Int.cast_sub]

/-- After the last collection some time has passed, unless the clock has gone around. -/
theorem seconds_ne_zero {later earlier : Int} (h : earlier < later)
    (hwrap : later < earlier + 2 ^ 64) : seconds later earlier ≠ 0 := by
  have hcast : (later : ℚ) - earlier ≠ 0 := sub_ne_zero.mpr (Int.cast_injective.ne h.ne')
  rw [seconds_of_le h.le hwrap]
  exact div_ne_zero (div_ne_zero hcast (by norm_num)) (by norm_num)

/-- An entry collected by itself. -/
theorem Partition.collectSingleEntry (h : Partition metric s) {i : Nat}
    (hi : i < s.stats.statsSize.toNat) (elapsed : ℚ) (raw : ChannelStatsRaw) :
    s.stats.collectSingleEntry elapsed i raw = .ok { raw with
      overallMetricValue :=
        s.stats.calculateStatisticMetric (s.stats.totalCounter.getD i 0) elapsed
      windowedMetricValue :=
        s.stats.calculateStatisticMetric (s.stats.windowedCounter.getD i 0) elapsed } := by
  have hpos := h.size_pos
  have hposition : (i : Int).tmod s.stats.statsSize = i := by
    rw [Int.tmod_eq_emod_of_nonneg (by omega)]
    exact Int.emod_eq_of_lt (by omega) (by omega)
  have hentry : ∀ counters : List UInt64, (counters.length : Int) = s.stats.statsSize →
      entryAt counters i = .ok (counters.getD i 0) := by
    intro counters hlength
    rw [entryAt, if_pos (by omega), Int.toNat_natCast, List.getD_eq_getElem?_getD,
      List.getElem?_eq_getElem (by omega)]
    rfl
  rw [ChannelStatistics.collectSingleEntry, hposition]
  simp only [calculateEntryTotalCounter, calculateEntryWindowedCounter,
    hentry _ h.total.1, hentry _ h.windowed.1, Except.map]

/-- The sum over the entries of a metric of theirs. -/
theorem sum_range_metric {counters : List UInt64} {size : Int}
    (hlength : (counters.length : Int) = size) (s : ChannelStatistics) (elapsed : ℚ) :
    ((List.range size.toNat).map fun i =>
      s.calculateStatisticMetric (counters.getD i 0) elapsed).sum =
      s.aggregate counters elapsed := by
  have hsize : size.toNat = counters.length := by omega
  rw [hsize, map_range_getD counters fun counter => s.calculateStatisticMetric counter elapsed,
    sum_calculateStatisticMetric]

theorem collect_windowed (s : ChannelStatistics) (now later : Int) (raw : ChannelStatsRaw) :
    (s.collect now later raw).2.windowedMetricValue =
      s.aggregate s.windowedCounter (s.elapsedTimeSinceLastCollectionInSeconds now) := rfl

theorem collect_overall (s : ChannelStatistics) (now later : Int) (raw : ChannelStatsRaw) :
    (s.collect now later raw).2.overallMetricValue =
      s.aggregate s.totalCounter (s.getElapsedTimeInSeconds later) := rfl

/-- The windows agree anyway, so the paths do when the overall metrics do. -/
theorem Partition.agree_iff (h : Partition metric s) (now : Int) :
    Agree s.stats now ↔
      s.stats.aggregate s.stats.totalCounter
          (s.stats.elapsedTimeSinceLastCollectionInSeconds now) =
        s.stats.aggregate s.stats.totalCounter (s.stats.getElapsedTimeInSeconds now) ∧
      (s.stats.collectionMetric = .throughput →
        s.stats.getElapsedTimeInSeconds now ≠ 0 ∧
          s.stats.elapsedTimeSinceLastCollectionInSeconds now ≠ 0) := by
  have htotal := sum_range_metric h.total.1 s.stats
    (s.stats.elapsedTimeSinceLastCollectionInSeconds now)
  have hwindowed := sum_range_metric h.windowed.1 s.stats
    (s.stats.elapsedTimeSinceLastCollectionInSeconds now)
  constructor
  · rintro ⟨single, stats, entries, hsingle, -, -, -, hoverall, htime⟩
    have hentry : ∀ i ∈ List.range s.stats.statsSize.toNat, (single i).overallMetricValue =
        s.stats.calculateStatisticMetric (s.stats.totalCounter.getD i 0)
          (s.stats.elapsedTimeSinceLastCollectionInSeconds now) := by
      intro i hi
      have hi := List.mem_range.mp hi
      have hok := hsingle i hi
      rw [h.collectSingleEntry hi] at hok
      rw [← Except.ok.inj hok]
    rw [List.map_congr_left hentry, htotal, collect_overall] at hoverall
    exact ⟨hoverall, htime⟩
  · rintro ⟨hoverall, htime⟩
    refine ⟨_, _, _, fun i hi => h.collectSingleEntry hi _ {}, h.collectDetailed now _, ?_, ?_, ?_,
      htime⟩
    · rw [collect_windowed]
      exact hwindowed
    · rw [collect_windowed]
      exact sum_calculateStatisticMetric _ _ _
    · rw [collect_overall, ← hoverall]
      exact htotal

/-- For every state that updates and collections reach, and every instant after the last collection:
the three paths agree exactly under the condition above. -/
theorem agree_iff_sameTime {classifierType : ClassifierType} {contextType : ContextType}
    (h : Reachable metric classifierType contextType s) {now : Int}
    (hlater : s.stats.lastCollectionTime < now)
    (hwrap : now < s.stats.lastCollectionTime + 2 ^ 64) :
    Agree s.stats now ↔ SameTime s.stats now := by
  have hsince : s.stats.elapsedTimeSinceLastCollectionInSeconds now ≠ 0 :=
    seconds_ne_zero hlater hwrap
  rw [h.partition.agree_iff, SameTime]
  cases hmetric : s.stats.collectionMetric with
  | counter =>
    rw [aggregate_counter hmetric, aggregate_counter hmetric]
    simp
  | throughput =>
    rw [aggregate_throughput hmetric, aggregate_throughput hmetric]
    constructor
    · rintro ⟨hrate, htime⟩
      obtain ⟨hstart, -⟩ := htime rfl
      rw [div_eq_div_iff hsince hstart] at hrate
      rcases mul_eq_mul_left_iff.mp hrate with heq | hzero
      · exact .inr (.inl heq)
      · exact .inr (.inr ⟨hzero, hstart⟩)
    · rintro (hcounter | heq | ⟨hzero, hstart⟩)
      · cases hcounter
      · exact ⟨by rw [heq], fun _ => ⟨by rwa [heq], hsince⟩⟩
      · exact ⟨by rw [hzero, zero_div, zero_div], fun _ => ⟨hstart, hsince⟩⟩

/-- Ten bytes, before any collection. -/
theorem agree_iff_sameTime_first : ∃ s : Shared,
    Reachable .throughput .operationContext .paioGeneral s ∧ s.updates = [(1, 10)] ∧
    Agree s.stats 1000000 := by
  have h₀ : Reachable .throughput .operationContext .paioGeneral _ := .new 0
  have h₁ := h₀.step (@Step.update _ 0 0 1 10 _ rfl (by decide) rfl)
  exact ⟨_, h₁, rfl, (agree_iff_sameTime h₁ (by decide) (by decide)).mpr (.inr (.inl rfl))⟩

/-- Ten bytes in the first second, which ends with a collection, and none in the next one. -/
theorem overall_over_window : ∃ s : Shared,
    Reachable .throughput .operationContext .paioGeneral s ∧ s.stats.lastCollectionTime = 1000000 ∧
    ¬ Agree s.stats 2000000 := by
  have h₀ : Reachable .throughput .operationContext .paioGeneral _ := .new 0
  have h₁ := h₀.step (@Step.update _ 0 0 1 10 _ rfl (by decide) rfl)
  have h₂ := h₁.step (@Step.startCollect _ 0 1000000 rfl)
  have h₃ := h₂.step (@Step.collect _ 0 1000000 1000000 {} rfl)
  refine ⟨_, h₃, rfl, ?_⟩
  rw [h₃.partition.agree_iff]
  rintro ⟨hoverall, -⟩
  rw [aggregate_throughput rfl, aggregate_throughput rfl] at hoverall
  have hrate : (10 : ℚ) / seconds 2000000 1000000 = 10 / seconds 2000000 0 := hoverall
  rw [seconds_of_le (by decide) (by decide), seconds_of_le (by decide) (by decide)] at hrate
  norm_num at hrate

end ChannelStatistics

end Paio
