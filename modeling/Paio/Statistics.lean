import Mathlib.Algebra.GroupWithZero.Nat
import Mathlib.Data.Rat.Defs
import Paio.Basic

/-!
# Paio.Statistics

The statistic counters of a channel (`ChannelStatistics`). Each request adds a 64-bit amount to
one entry of two vectors, the total and the windowed counters. The entry is the remainder of a
classifier by the size of the vectors, with the sign C++ gives it: a negative classifier indexes
before the first element, which the model answers with `Fault.outOfBounds`.
-/

namespace Paio

/-- The number of statistic entries for each type of context. -/
def ContextType.statsSize : ContextType → Int
  | .lsmKvsSimple => 6
  | .lsmKvsDetailed => 9
  | .posix => 95
  | .posixMeta => 11
  | .kvs => 10
  | .paioGeneral => 5

structure ChannelStatistics where
  collectionMetric : StatisticMetric := .counter
  classifierType : ClassifierType := .operationContext
  statsSize : Int := 0
  totalCounter : List UInt64 := []
  windowedCounter : List UInt64 := []
  overallMetric : ℚ := -1
  lastWindowMetric : ℚ := -1
  startCollectionTime : Int := 0
  endCollectionTime : Int := 0
  lastCollectionTime : Int := 0
  deriving DecidableEq

namespace ChannelStatistics

/-- `initialize`, with `now` the one reading of the clock that it makes. -/
def initializeEntries (s : ChannelStatistics) (contextType : ContextType) (now : Int) :
    ChannelStatistics :=
  { s with
    statsSize := contextType.statsSize
    totalCounter := s.totalCounter ++ List.replicate contextType.statsSize.toNat 0
    windowedCounter := s.windowedCounter ++ List.replicate contextType.statsSize.toNat 0
    startCollectionTime := now
    lastCollectionTime := now }

def updateEntry (s : ChannelStatistics) (operation : Int) (value : UInt64) :
    Except Fault ChannelStatistics :=
  let position := operation.tmod s.statsSize
  if 0 ≤ position ∧ position < s.totalCounter.length ∧ position < s.windowedCounter.length then
    .ok { s with
      totalCounter := s.totalCounter.modify position.toNat (· + value)
      windowedCounter := s.windowedCounter.modify position.toNat (· + value) }
  else .error .outOfBounds

def updateStatisticEntry (s : ChannelStatistics) (operationType operationContext : Int)
    (value : UInt64) : Except Fault ChannelStatistics :=
  match s.classifierType with
  | .operationContext => s.updateEntry operationContext value
  | .operationType => s.updateEntry operationType value

/-! ## Collecting

A collection reads the clock before it takes the lock. The elapsed times are differences of
`uint64_t` values in seconds. A rate over no time at all is an infinity or a NaN in the source and
`0` here; the counters, which are integers, do not depend on it. -/

structure ChannelStatsRaw where
  channelId : Int := -1
  overallMetricValue : ℚ := -1
  windowedMetricValue : ℚ := -1
  deriving DecidableEq

/-- A difference of two readings of the clock, in seconds. -/
def seconds (later earlier : Int) : ℚ := (((later - earlier) % 2 ^ 64 : Int) : ℚ) / 1000 / 1000

def elapsedTimeSinceLastCollectionInSeconds (s : ChannelStatistics) (now : Int) : ℚ :=
  seconds now s.lastCollectionTime

def getElapsedTimeInSeconds (s : ChannelStatistics) (now : Int) : ℚ :=
  seconds now s.startCollectionTime

/-- The sum of a vector of counters, as the metric wants it. -/
def aggregate (s : ChannelStatistics) (counters : List UInt64) (elapsed : ℚ) : ℚ :=
  let sum : ℚ := ((counters.map UInt64.toNat).sum : ℕ)
  match s.collectionMetric with
  | .throughput => sum / elapsed
  | .counter => sum

def aggregateTotalCounter (s : ChannelStatistics) (elapsed : ℚ) : ChannelStatistics × ℚ :=
  let value := s.aggregate s.totalCounter elapsed
  ({ s with overallMetric := value }, value)

def aggregateWindowedCounter (s : ChannelStatistics) (elapsed : ℚ) : ChannelStatistics × ℚ :=
  let value := s.aggregate s.windowedCounter elapsed
  ({ s with lastWindowMetric := value }, value)

def calculateStatisticMetric (s : ChannelStatistics) (entryBytes : UInt64) (elapsed : ℚ) : ℚ :=
  match s.collectionMetric with
  | .throughput => if entryBytes = 0 then (entryBytes.toNat : ℚ) else entryBytes.toNat / elapsed
  | .counter => entryBytes.toNat

/-- An entry of a vector of counters. -/
def entryAt (counters : List UInt64) (position : Int) : Except Fault UInt64 :=
  if 0 ≤ position then
    match counters[position.toNat]? with
    | some entry => .ok entry
    | none => .error .outOfBounds
  else .error .outOfBounds

def calculateEntryTotalCounter (s : ChannelStatistics) (position : Int) (elapsed : ℚ) :
    Except Fault ℚ :=
  (entryAt s.totalCounter position).map fun entry => s.calculateStatisticMetric entry elapsed

def calculateEntryWindowedCounter (s : ChannelStatistics) (position : Int) (elapsed : ℚ) :
    Except Fault ℚ :=
  (entryAt s.windowedCounter position).map fun entry => s.calculateStatisticMetric entry elapsed

def resetWindowedCounters (s : ChannelStatistics) : ChannelStatistics :=
  { s with windowedCounter := s.windowedCounter.map fun _ => 0 }

/-- The critical section of `collect`; `now` is the reading made before it, `later` the one that
`get_elapsed_time` makes inside. -/
def collect (s : ChannelStatistics) (now later : Int) (raw : ChannelStatsRaw) :
    ChannelStatistics × ChannelStatsRaw :=
  let (s₁, overall) := s.aggregateTotalCounter (s.getElapsedTimeInSeconds later)
  let (s₂, windowed) :=
    s₁.aggregateWindowedCounter (s₁.elapsedTimeSinceLastCollectionInSeconds now)
  ({ s₂ with lastCollectionTime := now, endCollectionTime := now }.resetWindowedCounters,
    { raw with overallMetricValue := overall, windowedMetricValue := windowed })

/-- The critical section of `collect_single_entry`, with the time elapsed before it. -/
def collectSingleEntry (s : ChannelStatistics) (elapsed : ℚ) (operation : Int)
    (raw : ChannelStatsRaw) : Except Fault ChannelStatsRaw :=
  let position := operation.tmod s.statsSize
  match s.calculateEntryTotalCounter position elapsed with
  | .error f => .error f
  | .ok overall =>
    match s.calculateEntryWindowedCounter position elapsed with
    | .error f => .error f
    | .ok windowed =>
      .ok { raw with overallMetricValue := overall, windowedMetricValue := windowed }

/-- The loop of `collect_detailed_windowed_entries` over the positions. -/
def windowedEntries (s : ChannelStatistics) (elapsed : ℚ) : List Nat → Except Fault (List ℚ)
  | [] => .ok []
  | i :: rest =>
    match s.calculateEntryWindowedCounter i elapsed with
    | .error f => .error f
    | .ok entry =>
      match windowedEntries s elapsed rest with
      | .ok entries => .ok (entry :: entries)
      | .error f => .error f

/-- The critical section of `collect_detailed_windowed_entries`; the entries are appended. -/
def collectDetailedWindowedEntries (s : ChannelStatistics) (now : Int) (elapsed : ℚ)
    (detailedStatEntries : List ℚ) : Except Fault (ChannelStatistics × List ℚ) :=
  match s.windowedEntries elapsed (List.range s.statsSize.toNat) with
  | .ok entries =>
    .ok ({ s with lastCollectionTime := now }.resetWindowedCounters, detailedStatEntries ++ entries)
  | .error f => .error f

/-- The statistics without the instants at which they were started and last collected. -/
def timeless (s : ChannelStatistics) : ChannelStatistics :=
  { s with startCollectionTime := 0, endCollectionTime := 0, lastCollectionTime := 0 }

@[simp] theorem timeless_initializeEntries (s : ChannelStatistics) (contextType : ContextType)
    (now : Int) :
    (s.initializeEntries contextType now).timeless =
      (s.initializeEntries contextType 0).timeless := rfl

end ChannelStatistics

end Paio
