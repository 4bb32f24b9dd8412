import Paio.Channel

/-!
# Paio.ObjectStatistics

Collecting the statistics of an enforcement object, from the channel down to the ring of entries
of the token bucket (`TBStats`). The garbage collector looks for the first entry inside the sliding
window, and the collection copies the entries from there on into the fixed array of the answer.
Both index arrays with plain integers: an index outside of an array is `Fault.outOfBounds`.
-/

namespace Paio

/-! ## The answer -/

structure TBStatsRaw where
  normalizedEmptyBucket : ℚ := 0
  tokensLeft : ℚ := 0
  deriving DecidableEq

/-- `object_statistics_entries_size`. -/
def objectStatisticsEntriesSize : Nat := 100

structure ObjectStatisticsRaw where
  channelId : Int := -1
  enforcementObjectId : Int := -1
  totalStats : Int := 0
  objectStatisticEntries : List TBStatsRaw := List.replicate objectStatisticsEntriesSize {}
  deriving DecidableEq

/-! ## The ring of entries -/

namespace TBStats

/-- The integers from `first` up to and without `last`. -/
def indices (first last : Int) : List Int :=
  (List.range (last - first).toNat).map fun i => first + i

/-- `m_tb_statistics[i]`. -/
def entryAt (s : TBStats) (i : Int) : Except Fault TBStatsEntry :=
  if 0 ≤ i then
    match s.tbStatistics[i.toNat]? with
    | some entry => .ok entry
    | none => .error .outOfBounds
  else .error .outOfBounds

def resetStats (s : TBStats) : TBStats := { s with totalStats := 0, position := 0 }

/-- The age of an entry at a point in time, on `uint64_t`. -/
def age (timePoint : Int) (entry : TBStatsEntry) : Int :=
  (timePoint - entry.collectionTimestamp) % 2 ^ 64

/-- The loops of `garbage_collection`: the first of the indices whose entry is inside the window,
and how many are passed over before. -/
def firstValid (s : TBStats) (timePoint slidingWindow : Int) :
    List Int → Except Fault (Option Int × Int)
  | [] => .ok (none, 0)
  | i :: rest =>
    match s.entryAt i with
    | .error f => .error f
    | .ok entry =>
      if age timePoint entry < slidingWindow then .ok (some i, 0)
      else
        match firstValid s timePoint slidingWindow rest with
        | .ok (found, passed) => .ok (found, passed + 1)
        | .error f => .error f

/-- `garbage_collection`, with the number of entries it reports as discarded. When the newest entry
is outdated that number is taken after `m_total_stats` was reset. -/
def garbageCollection (s : TBStats) (timePoint slidingWindow : Int) :
    Except Fault (TBStats × Int) :=
  if s.totalStats > 0 then
    match s.entryAt s.position with
    | .error f => .error f
    | .ok newest =>
      if age timePoint newest > slidingWindow then
        let s' := { s with validEntryIndex := -1 }.resetStats
        .ok (s', if s'.totalStats ≤ s'.maxStatistics then s'.totalStats else s'.maxStatistics)
      else if s.totalStats ≤ s.maxStatistics then
        match s.firstValid timePoint slidingWindow (indices 0 s.totalStats) with
        | .error f => .error f
        | .ok (found, _) =>
          let s' := { s with validEntryIndex := found.getD s.validEntryIndex }
          .ok (s', s'.validEntryIndex)
      else
        match s.firstValid timePoint slidingWindow (indices 0 s.position) with
        | .error f => .error f
        | .ok (found, passed) =>
          let s' := { s with validEntryIndex := found.getD s.validEntryIndex }
          if s'.validEntryIndex = 0 then
            match s'.firstValid timePoint slidingWindow
                ((indices 0 (s'.maxStatistics - s'.position)).map fun i => s'.position + i) with
            | .error f => .error f
            | .ok (found', passed') =>
              .ok ({ s' with validEntryIndex := found'.getD s'.validEntryIndex }, passed + passed')
          else .ok (s', passed + (s'.maxStatistics - s'.position))
  else .ok ({ s.resetStats with validEntryIndex := -1 }, 0)

def copyStatEntry (s : TBStats) (raw : ObjectStatisticsRaw) (statIndex : Int) (rawIndex : Nat) :
    Except Fault ObjectStatisticsRaw :=
  match s.entryAt statIndex with
  | .error f => .error f
  | .ok entry =>
    if rawIndex < raw.objectStatisticEntries.length then
      .ok { raw with
        objectStatisticEntries := raw.objectStatisticEntries.set rawIndex
          { normalizedEmptyBucket := entry.normalizedEmptyBucket
            tokensLeft := entry.tokensLeft } }
    else .error .outOfBounds

/-- The entries at the indices are copied one after the other, from `rawIndex` on. -/
def copyStatEntries (s : TBStats) : List Int → Nat → ObjectStatisticsRaw →
    Except Fault ObjectStatisticsRaw
  | [], _, raw => .ok raw
  | i :: rest, rawIndex, raw =>
    match s.copyStatEntry raw i rawIndex with
    | .ok raw' => copyStatEntries s rest (rawIndex + 1) raw'
    | .error f => .error f

/-- The indices that `collect_stats` copies, in order. -/
def collectedIndices (s : TBStats) : List Int :=
  if s.totalStats > 0 then
    if s.totalStats ≤ s.maxStatistics then indices s.validEntryIndex s.totalStats
    else if s.position - s.validEntryIndex ≥ 0 then indices s.validEntryIndex s.position
    else indices s.validEntryIndex s.maxStatistics ++ indices 0 s.position
  else []

def collectStats (s : TBStats) (raw : ObjectStatisticsRaw) :
    Except Fault (TBStats × ObjectStatisticsRaw) :=
  match s.copyStatEntries s.collectedIndices 0 raw with
  | .ok raw' =>
    .ok ({ s.resetStats with validEntryIndex := -1 },
      { raw' with totalStats := s.collectedIndices.length })
  | .error f => .error f

end TBStats

/-! ## Objects and channels -/

/-- `try_collect_statistics`, with `now` the reading of the garbage collector. -/
def TokenBucket.tryCollectStatistics (b : TokenBucket) (now : Int) (raw : ObjectStatisticsRaw) :
    Except Fault (TokenBucket × ObjectStatisticsRaw) :=
  match b.tokenBucketStatistics.garbageCollection now b.slidingWindowStatistics with
  | .error f => .error f
  | .ok (stats, _) =>
    match stats.collectStats raw with
    | .ok (stats', raw') => .ok ({ b with tokenBucketStatistics := stats' }, raw')
    | .error f => .error f

def DynamicRateLimiter.objCollectStatistics (d : DynamicRateLimiter) (now : Int)
    (raw : ObjectStatisticsRaw) :
    Except Fault (DynamicRateLimiter × ObjectStatisticsRaw × PStatus) :=
  if d.collectStatistics then
    match d.bucket.tryCollectStatistics now raw with
    | .ok (bucket, raw') => .ok ({ d with bucket := bucket }, raw', .ok)
    | .error f => .error f
  else .ok (d, raw, .error)

def EnforcementObject.objCollectStatistics (o : EnforcementObject) (now : Int)
    (raw : ObjectStatisticsRaw) :
    Except Fault (EnforcementObject × ObjectStatisticsRaw × PStatus) :=
  match o with
  | .drl d =>
    match d.objCollectStatistics now raw with
    | .ok (d', raw', status) => .ok (.drl d', raw', status)
    | .error f => .error f
  | .noop n => .ok (.noop n, raw, .error)

/-- Without an object under the token the no-match object is asked, which has no statistics. -/
def SubmissionQueue.collectEnforcementObjectStatistics (q : SubmissionQueue) (token : UInt32)
    (now : Int) (raw : ObjectStatisticsRaw) :
    Except Fault (SubmissionQueue × ObjectStatisticsRaw × PStatus) :=
  match q.selectEnforcementObject token with
  | none => .ok (q, raw, .error)
  | some object =>
    match object.objCollectStatistics now raw with
    | .ok (object', raw', status) =>
      .ok ({ q with enfObjects := AssocList.replaceFirst token object' q.enfObjects }, raw', status)
    | .error f => .error f

/-- The call `collect_object_statistics`; the flag of that name is the one it tests first. -/
def ChannelDefault.callCollectObjectStatistics (ch : ChannelDefault) (objectId : Int) (now : Int)
    (raw : ObjectStatisticsRaw) : Except Fault (ChannelDefault × ObjectStatisticsRaw × PStatus) :=
  if ch.collectObjectStatistics then
    let objectToken := ch.getEnforcementObjectDiffToken objectId
    if objectToken = noToken then .ok (ch, raw, .error)
    else
      match ch.submissionQueue.collectEnforcementObjectStatistics objectToken now raw with
      | .ok (q, raw', status) => .ok ({ ch with submissionQueue := q }, raw', status)
      | .error f => .error f
  else .ok (ch, raw, .error)

end Paio
