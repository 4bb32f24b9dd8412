import Paio.Collection
import Paio.Registry
import Paio.StatisticCounters

/-!
# Paio.StatisticPositions

Where a request and a collection of a single entry index the counters of a channel. The position
is the remainder of an `int` by the number of entries, and the remainder of C++ has the sign of
the dividend: a negative classifier that is no multiple of the size gives a negative position, and
the vectors are indexed unchecked.

Both vectors have as many counters as there are entries after `initialize`, and no call on the
channel changes that (`Operated.shaped`), so the sign is all that matters (`positions_valid_iff`).
-/

namespace Paio

variable {opt : Options} {hash : String → UInt32}

namespace ChannelStatistics

variable {s s' : ChannelStatistics}

/-- `operation % m_stats_size`. -/
def position (s : ChannelStatistics) (operation : Int) : Int := operation.tmod s.statsSize

/-- The position is one of the entries, and both vectors have it. -/
def ValidPosition (s : ChannelStatistics) (operation : Int) : Prop :=
  (0 ≤ s.position operation ∧ s.position operation < s.statsSize) ∧
  s.position operation < s.totalCounter.length ∧ s.position operation < s.windowedCounter.length

/-- As many counters as `initialize` makes for the type of context. -/
structure Shaped (contextType : ContextType) (s : ChannelStatistics) : Prop where
  size : s.statsSize = contextType.statsSize
  total : (s.totalCounter.length : Int) = contextType.statsSize
  windowed : (s.windowedCounter.length : Int) = contextType.statsSize

theorem shaped_initializeEntries {contextType : ContextType} (now : Int)
    (htotal : s.totalCounter = []) (hwindowed : s.windowedCounter = []) :
    (s.initializeEntries contextType now).Shaped contextType := by
  have hpos := statsSize_pos contextType
  refine ⟨rfl, ?_, ?_⟩
  · simp only [initializeEntries, htotal, List.nil_append, List.length_replicate]
    omega
  · simp only [initializeEntries, hwindowed, List.nil_append, List.length_replicate]
    omega

/-- A truncating remainder is not negative for a dividend that is not, and for multiples. -/
theorem tmod_nonneg_iff {a b : Int} : 0 ≤ a.tmod b ↔ 0 ≤ a ∨ b ∣ a := by
  constructor
  · intro h
    by_cases ha : 0 ≤ a
    · exact .inl ha
    · right
      have hneg := Int.tmod_nonneg b (show 0 ≤ -a by omega)
      rw [Int.neg_tmod] at hneg
      exact Int.dvd_of_tmod_eq_zero (by omega)
  · rintro (ha | ha)
    · exact Int.tmod_nonneg b ha
    · rw [Int.tmod_eq_zero_of_dvd ha]

theorem Shaped.validPosition_iff {contextType : ContextType} (h : s.Shaped contextType)
    (operation : Int) :
    s.ValidPosition operation ↔ 0 ≤ operation ∨ contextType.statsSize ∣ operation := by
  have hlt := Int.tmod_lt_of_pos operation (statsSize_pos contextType)
  rw [← tmod_nonneg_iff]
  simp only [ValidPosition, position, h.size, h.total, h.windowed]
  constructor
  · exact fun hv => hv.1.1
  · exact fun hnonneg => ⟨⟨hnonneg, hlt⟩, hlt, hlt⟩

/-! ## The calls that index -/

theorem Shaped.updateEntry_ok_iff {contextType : ContextType} (h : s.Shaped contextType)
    (operation : Int) (value : UInt64) :
    (∃ s', s.updateEntry operation value = .ok s') ↔ s.ValidPosition operation := by
  have hlt := Int.tmod_lt_of_pos operation (statsSize_pos contextType)
  simp only [updateEntry, ValidPosition, position, h.size, h.total, h.windowed]
  split
  · rename_i hc
    exact ⟨fun _ => ⟨⟨hc.1, hlt⟩, hc.2⟩, fun _ => ⟨_, rfl⟩⟩
  · rename_i hc
    refine ⟨?_, fun hv => absurd ⟨hv.1.1, hv.2⟩ hc⟩
    rintro ⟨_, he⟩
    cases he

theorem updateStatisticEntry_eq (operationType operationContext : Int) (value : UInt64) :
    s.updateStatisticEntry operationType operationContext value =
      s.updateEntry (s.classifier operationType operationContext) value := by
  unfold updateStatisticEntry classifier
  cases s.classifierType <;> rfl

/-- An entry is there exactly when its position is in the vector. -/
theorem entryAt_ok_iff {counters : List UInt64} {position : Int} :
    (∃ entry, entryAt counters position = .ok entry) ↔
      0 ≤ position ∧ position < counters.length := by
  unfold entryAt
  by_cases hp : 0 ≤ position
  · simp only [hp, if_true, true_and]
    by_cases hl : position < counters.length
    · have hi : position.toNat < counters.length := by omega
      simp only [List.getElem?_eq_getElem hi, hl, iff_true]
      exact ⟨_, rfl⟩
    · have hi : counters.length ≤ position.toNat := by omega
      simp [List.getElem?_eq_none hi, hl]
  · simp [hp]

/-- A collection of one entry comes back when it finds the entry in both vectors. -/
theorem collectSingleEntry_ok_iff_entries (elapsed : ℚ) (operation : Int) (raw : ChannelStatsRaw) :
    (∃ raw', s.collectSingleEntry elapsed operation raw = .ok raw') ↔
      (∃ entry, entryAt s.totalCounter (s.position operation) = .ok entry) ∧
        ∃ entry, entryAt s.windowedCounter (s.position operation) = .ok entry := by
  simp only [collectSingleEntry, calculateEntryTotalCounter, calculateEntryWindowedCounter,
    position]
  cases entryAt s.totalCounter (operation.tmod s.statsSize) with
  | error f => simp [Except.map]
  | ok total =>
    cases entryAt s.windowedCounter (operation.tmod s.statsSize) with
    | error f => simp [Except.map]
    | ok windowed => simp [Except.map]

theorem Shaped.collectSingleEntry_ok_iff {contextType : ContextType} (h : s.Shaped contextType)
    (elapsed : ℚ) (operation : Int) (raw : ChannelStatsRaw) :
    (∃ raw', s.collectSingleEntry elapsed operation raw = .ok raw') ↔
      s.ValidPosition operation := by
  have hlt := Int.tmod_lt_of_pos operation (statsSize_pos contextType)
  rw [collectSingleEntry_ok_iff_entries, entryAt_ok_iff, entryAt_ok_iff]
  simp only [ValidPosition, position, h.size, h.total, h.windowed]
  constructor
  · rintro ⟨⟨hnonneg, _⟩, _⟩
    exact ⟨⟨hnonneg, hlt⟩, hlt, hlt⟩
  · rintro ⟨⟨hnonneg, _⟩, _⟩
    exact ⟨⟨hnonneg, hlt⟩, hnonneg, hlt⟩

/-! ## The shape is kept -/

theorem Shaped.updateEntry {contextType : ContextType} (h : s.Shaped contextType) {operation : Int}
    {value : UInt64} (hu : s.updateEntry operation value = .ok s') : s'.Shaped contextType := by
  simp only [ChannelStatistics.updateEntry] at hu
  split at hu
  · cases hu
    exact ⟨h.size, by rw [List.length_modify]; exact h.total,
      by rw [List.length_modify]; exact h.windowed⟩
  · cases hu

theorem Shaped.resetWindowedCounters {contextType : ContextType} (h : s.Shaped contextType) :
    s.resetWindowedCounters.Shaped contextType :=
  ⟨h.size, h.total, by
    rw [ChannelStatistics.resetWindowedCounters, List.length_map]
    exact h.windowed⟩

theorem Shaped.collect {contextType : ContextType} (h : s.Shaped contextType) (now later : Int)
    (raw : ChannelStatsRaw) : (s.collect now later raw).1.Shaped contextType :=
  Shaped.resetWindowedCounters ⟨h.size, h.total, h.windowed⟩

theorem Shaped.collectDetailed {contextType : ContextType} (h : s.Shaped contextType) {now : Int}
    {elapsed : ℚ} {entries entries' : List ℚ}
    (hc : s.collectDetailedWindowedEntries now elapsed entries = .ok (s', entries')) :
    s'.Shaped contextType := by
  unfold collectDetailedWindowedEntries at hc
  split at hc
  · cases hc
    exact Shaped.resetWindowedCounters ⟨h.size, h.total, h.windowed⟩
  · cases hc

end ChannelStatistics

/-! ## Runs of a channel -/

namespace ChannelDefault

open ChannelStatistics (ChannelStatsRaw)

variable {ch ch' : ChannelDefault}

/-- The states of a channel under calls and collections, from its constructor. A collection of a
single entry changes nothing. -/
inductive Operated (opt : Options) (hash : String → UInt32) : ChannelDefault → Prop
  | new (channelId : Int) (clock : Clock) : Operated opt hash (.new opt channelId clock)
  | step {ch ch' : ChannelDefault} (h : Operated opt hash ch) (hs : Step opt hash ch ch') :
      Operated opt hash ch'
  | collectGeneral {ch ch' : ChannelDefault} {now later : Int} {raw raw' : ChannelStatsRaw}
      {status : PStatus} (h : Operated opt hash ch)
      (hc : ch.collectGeneralStatistics now later raw = .ok (ch', status, raw')) :
      Operated opt hash ch'
  | collectDetailed {ch ch' : ChannelDefault} {now : Int} {entries entries' : List ℚ}
      {status : PStatus} (h : Operated opt hash ch)
      (hc : ch.collectDetailedStatistics now entries = .ok (ch', status, entries')) :
      Operated opt hash ch'

/-- Statistics are collected, on vectors of the right length. -/
structure Shaped (opt : Options) (ch : ChannelDefault) : Prop where
  collects : ch.collectChannelStatistics = true
  shaped : ch.channelStatistics.Shaped opt.contextType

theorem shaped_new (hstat : opt.channelStatisticCollection = true) (channelId : Int)
    (clock : Clock) : (new opt channelId clock).Shaped opt := by
  refine ⟨hstat, ?_⟩
  simp only [new, hstat, if_true]
  exact ChannelStatistics.shaped_initializeEntries _ rfl rfl

theorem Shaped.recordStatistics (h : ch.Shaped opt) {context : Context}
    (hr : ch.recordStatistics opt context = .ok ch') : ch'.Shaped opt := by
  simp only [ChannelDefault.recordStatistics, h.collects, if_true] at hr
  split at hr
  · rename_i stats hu
    cases hr
    rw [ChannelStatistics.updateStatisticEntry_eq] at hu
    exact ⟨rfl, h.shaped.updateEntry hu⟩
  · cases hr

theorem Shaped.step (h : ch.Shaped opt) (hs : Step opt hash ch ch') : ch'.Shaped opt := by
  cases hs with
  | enforce henforce =>
    rw [channelEnforce_eq] at henforce
    simp only [finishRequest] at henforce
    split at henforce
    · cases henforce
    · rename_i q result' _
      split at henforce
      · rename_i ch'' hr
        cases henforce
        have hq : ({ ch with ticketId := ch.ticketId + 1, submissionQueue := q } :
            ChannelDefault).Shaped opt := ⟨h.collects, h.shaped⟩
        exact hq.recordStatistics hr
      · cases henforce
  | createObject hcreate =>
    obtain ⟨rfl, _, _⟩ | ⟨_, _, _, _, _, _, rfl⟩ := createEnforcementObject_cases hash hcreate
    · exact h
    · exact ⟨h.collects, h.shaped⟩
  | configure hconfigure =>
    obtain ⟨rfl, _⟩ | ⟨token, object, object', _, _, _, rfl⟩ :=
      configureEnforcementObject_cases hconfigure
    · exact h
    · exact ⟨h.collects, h.shaped⟩
  | define t c ch => exact ⟨h.collects, h.shaped⟩

theorem Shaped.collectGeneral (h : ch.Shaped opt) {now later : Int} {raw raw' : ChannelStatsRaw}
    {status : PStatus}
    (hc : ch.collectGeneralStatistics now later raw = .ok (ch', status, raw')) :
    ch'.Shaped opt := by
  simp only [collectGeneralStatistics, h.collects, if_true] at hc
  split at hc
  · cases hc
    exact ⟨rfl, h.shaped.collect now later raw⟩
  · cases hc

theorem Shaped.collectDetailed (h : ch.Shaped opt) {now : Int} {entries entries' : List ℚ}
    {status : PStatus}
    (hc : ch.collectDetailedStatistics now entries = .ok (ch', status, entries')) :
    ch'.Shaped opt := by
  simp only [collectDetailedStatistics, h.collects, if_true] at hc
  split at hc
  · split at hc
    · rename_i stats entries'' hd
      cases hc
      exact ⟨rfl, h.shaped.collectDetailed hd⟩
    · cases hc
  · cases hc

theorem Operated.shaped (hstat : opt.channelStatisticCollection = true)
    (h : Operated opt hash ch) : ch.Shaped opt := by
  induction h with
  | new channelId clock => exact shaped_new hstat channelId clock
  | step _ hs ih => exact ih.step hs
  | collectGeneral _ hc ih => exact ih.collectGeneral hc
  | collectDetailed _ hc ih => exact ih.collectDetailed hc

/-- The statistics update of a request comes back when its position is valid. -/
theorem Shaped.recordStatistics_ok_iff (h : ch.Shaped opt) (context : Context) :
    (∃ ch', ch.recordStatistics opt context = .ok ch') ↔
      ch.channelStatistics.ValidPosition
        (ch.channelStatistics.classifier context.operationType context.operationContext) := by
  simp only [ChannelDefault.recordStatistics, h.collects, if_true,
    ChannelStatistics.updateStatisticEntry_eq]
  rw [← h.shaped.updateEntry_ok_iff _ (UInt64.ofInt context.totalOperations *
    if opt.statisticMetric = .counter ∧ context.operationSize = 0 then 1
      else context.operationSize)]
  constructor
  · rintro ⟨ch', hr⟩
    split at hr
    · rename_i stats hu
      exact ⟨stats, hu⟩
    · cases hr
  · rintro ⟨stats, hu⟩
    rw [hu]
    exact ⟨_, rfl⟩

/-- The classifier of a request that selects the entry. -/
def entryClassifier (ch : ChannelDefault) (context : Context) : Int :=
  ch.channelStatistics.classifier context.operationType context.operationContext

/-- A request that the objects serve comes back when its position is valid. -/
theorem Shaped.channelEnforce_ok_iff (h : ch.Shaped opt) {clock : Clock} {fuel : Nat}
    {context : Context} {buffer : Buffer} {size : Nat} {result : Result}
    {served : SubmissionQueue × Result}
    (hserved : ch.submissionQueue.enforceMechanism hash clock fuel
      (ch.buildTicket context buffer size).1 (result.setTicketId ch.ticketId) = .ok served) :
    (∃ out, ch.channelEnforce opt hash clock fuel context buffer size result = .ok out) ↔
      ch.channelStatistics.ValidPosition (ch.entryClassifier context) := by
  have hq : ({ ch with ticketId := ch.ticketId + 1, submissionQueue := served.1 } :
      ChannelDefault).Shaped opt := ⟨h.collects, h.shaped⟩
  have hiff := hq.recordStatistics_ok_iff context
  rw [channelEnforce_eq, hserved]
  simp only [finishRequest, entryClassifier]
  rw [← hiff]
  constructor
  · rintro ⟨out, ho⟩
    split at ho
    · rename_i ch' hr
      exact ⟨ch', hr⟩
    · cases ho
  · rintro ⟨ch', hr⟩
    rw [hr]
    exact ⟨_, rfl⟩

/-- In every run of a channel with statistics, a request and a collection of a single entry index
both vectors within `m_stats_size` exactly for the classifiers that are not negative and for the
multiples of the size; for all others the vectors are indexed before their first counter. -/
theorem positions_valid_iff (hstat : opt.channelStatisticCollection = true)
    (h : Operated opt hash ch) :
    (∀ context : Context,
      (ch.channelStatistics.ValidPosition (ch.entryClassifier context) ↔
        0 ≤ ch.entryClassifier context ∨
          opt.contextType.statsSize ∣ ch.entryClassifier context) ∧
      ∀ clock fuel buffer size result served,
        ch.submissionQueue.enforceMechanism hash clock fuel (ch.buildTicket context buffer size).1
          (result.setTicketId ch.ticketId) = .ok served →
        ((∃ out, ch.channelEnforce opt hash clock fuel context buffer size result = .ok out) ↔
          0 ≤ ch.entryClassifier context ∨
            opt.contextType.statsSize ∣ ch.entryClassifier context)) ∧
    ∀ operation : Int,
      (ch.channelStatistics.ValidPosition operation ↔
        0 ≤ operation ∨ opt.contextType.statsSize ∣ operation) ∧
      ∀ elapsed raw,
        (∃ raw', ch.channelStatistics.collectSingleEntry elapsed operation raw = .ok raw') ↔
          0 ≤ operation ∨ opt.contextType.statsSize ∣ operation := by
  have hshaped := h.shaped hstat
  constructor
  · intro context
    have hvalid := hshaped.shaped.validPosition_iff (ch.entryClassifier context)
    refine ⟨hvalid, ?_⟩
    intro clock fuel buffer size result served hserved
    rw [hshaped.channelEnforce_ok_iff hserved, hvalid]
  · intro operation
    have hvalid := hshaped.shaped.validPosition_iff operation
    refine ⟨hvalid, ?_⟩
    intro elapsed raw
    rw [hshaped.shaped.collectSingleEntry_ok_iff, hvalid]

/-- After a request of the shipped options, one with context 23 comes back, and one with context `-3`
does not. -/
theorem positions_valid_iff_served :
    ∃ ch, Operated {} numeralHash ch ∧ ch.ticketId = 1 ∧
      (∃ out, ch.channelEnforce {} numeralHash (fun _ => 0) 0 { operationContext := 23 } none 0 {} =
        .ok out) ∧
      ¬ (∃ out, ch.channelEnforce {} numeralHash (fun _ => 0) 0 { operationContext := -3 } none 0 {} =
        .ok out) := by
  have hfirst : ((new {} 1 fun _ => 0).channelEnforce {} numeralHash (fun _ => 0) 0
      { operationContext := 3 } none 0 {}).toOption.map (fun out => (out.1.ticketId,
        out.1.entryClassifier { operationContext := 23 },
        out.1.entryClassifier { operationContext := -3 },
        out.1.submissionQueue.enfObjects.length)) = some (1, 23, -3, 0) := by decide
  obtain ⟨⟨ch, result⟩, hout, hch⟩ := Option.map_eq_some_iff.mp hfirst
  simp only [Prod.mk.injEq, List.length_eq_zero_iff] at hch
  obtain ⟨hid, hvalid, hnegative, hobjects⟩ := hch
  have henforce : (new {} 1 fun _ => 0).channelEnforce {} numeralHash (fun _ => 0) 0
      { operationContext := 3 } none 0 {} = .ok (ch, result) := by
    revert hout
    cases (new {} 1 fun _ => 0).channelEnforce {} numeralHash (fun _ => 0) 0
      { operationContext := 3 } none 0 {} with
    | error f => exact fun hout => nomatch hout
    | ok out => exact fun hout => congrArg Except.ok (Option.some.inj hout)
  have hoperated : Operated {} numeralHash ch :=
    .step (.new 1 fun _ => 0) (.enforce henforce)
  have hserved : ∀ context : Context, ∃ served, ch.submissionQueue.enforceMechanism numeralHash
      (fun _ => 0) 0 (ch.buildTicket context none 0).1 (Result.setTicketId {} ch.ticketId) =
        .ok served := by
    intro context
    simp only [SubmissionQueue.enforceMechanism, SubmissionQueue.selectEnforcementObject, hobjects]
    exact ⟨_, rfl⟩
  have hpositions := (positions_valid_iff rfl hoperated).1
  refine ⟨ch, hoperated, hid, ?_, ?_⟩
  · obtain ⟨served, hs⟩ := hserved { operationContext := 23 }
    rw [(hpositions _).2 _ _ _ _ _ _ hs, hvalid]
    decide
  · obtain ⟨served, hs⟩ := hserved { operationContext := -3 }
    rw [(hpositions _).2 _ _ _ _ _ _ hs, hnegative]
    decide

/-- On a new channel of the shipped options, a request with context `-1` and a collection of the
entry `-1` index both vectors at `-1`. -/
theorem negative_position_out_of_bounds :
    (new {} 1 fun _ => 0).channelStatistics.position (-1) = -1 ∧
    (new {} 1 fun _ => 0).channelEnforce {} numeralHash (fun _ => 0) 0 { operationContext := -1 }
      none 0 {} = .error .outOfBounds ∧
    (new {} 1 fun _ => 0).channelStatistics.collectSingleEntry 1 (-1) {} =
      .error .outOfBounds := by
  decide

end ChannelDefault

end Paio
