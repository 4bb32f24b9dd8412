import Mathlib.Algebra.Order.BigOperators.Group.List
import Mathlib.Algebra.Order.Ring.Rat
import Paio.ControlLoop
import Paio.StageInvariant

/-!
# Paio.Aggregation

What the aggregations of detailed statistics make of the channels, and what they read of them.

The vectors that a collection gives have as many entries as the type of context of the statistics
module, which is chosen when a channel is created. The positions are enumerators of the use case
that the control plane asks for. Neither side looks at the other.

* `aggregateKvsStatistics_eq`: on vectors with all entries of `LSM_KVS_DETAILED`, the sums over the
  flows of each kind, and the mean over the flows that had high-priority compactions.
* `positions_in_range_iff`: after a collection from a stage, all positions are inside the vectors
  exactly when the type of context has the entries that the channels need.
-/

namespace Paio

/-- `LSM_KVS_DETAILED`. -/
inductive LsmKvsDetailed where
  | noOp
  | bgFlush
  | bgCompaction
  | bgCompactionL0L0
  | bgCompactionL0L1
  | bgCompactionL1L2
  | bgCompactionL2L3
  | bgCompactionLN
  | foreground
  deriving DecidableEq, Repr

/-- The enumerators modulo `lsm_kvs_detailed_size`. -/
def LsmKvsDetailed.position : LsmKvsDetailed → Nat
  | .noOp => 0
  | .bgFlush => 1
  | .bgCompaction => 2
  | .bgCompactionL0L0 => 3
  | .bgCompactionL0L1 => 4
  | .bgCompactionL1L2 => 5
  | .bgCompactionL2L3 => 6
  | .bgCompactionLN => 7
  | .foreground => 8

/-! ## The sums over the flows -/

namespace DetailedStats

/-- The rate of an entry; there is none outside the vector. -/
def rate (entry : Int × List ℚ) (operation : LsmKvsDetailed) : ℚ :=
  entry.2.getD operation.position 0

/-- The rate of a flow over some operations. -/
def rateOver (operations : List LsmKvsDetailed) (entry : Int × List ℚ) : ℚ :=
  (operations.map (rate entry)).sum

def total (operations : List LsmKvsDetailed) (flows : DetailedStats) : ℚ :=
  (flows.map (rateOver operations)).sum

def highPriority : List LsmKvsDetailed := [.bgCompactionL0L0, .bgCompactionL0L1]

def lowPriority : List LsmKvsDetailed := [.bgCompactionL1L2, .bgCompactionL2L3, .bgCompactionLN]

def foregroundFlows (stats : DetailedStats) : DetailedStats := stats.filter fun entry =>
  entry.1 < 2000

def compactionFlows (stats : DetailedStats) : DetailedStats := stats.filter fun entry =>
  2000 < entry.1

/-- The flush rate of flow 2000. -/
def flushRate (stats : DetailedStats) : ℚ :=
  ((stats.lookup 2000).map fun entries => rate (2000, entries) .bgFlush).getD 0

/-- The compaction flows that had high-priority compactions. -/
def activeFlows (stats : DetailedStats) : DetailedStats := stats.compactionFlows.filter fun entry =>
  rateOver highPriority entry ≠ 0

/-- The mean of the high-priority rates over the flows that had some. -/
def meanHighPriority (stats : DetailedStats) : ℚ :=
  if stats.activeFlows = [] then 0
  else total highPriority stats.activeFlows / stats.activeFlows.length

/-- What the aggregation of a key-value store relies on: a map of vectors of rates, each with all
the entries of `LSM_KVS_DETAILED`. -/
structure IsKvs (stats : DetailedStats) : Prop where
  keys_nodup : (AssocList.keys stats).Nodup
  sized : ∀ entry ∈ stats, ContextType.lsmKvsDetailed.statsSize ≤ entry.2.length
  rate_nonneg : ∀ entry ∈ stats, ∀ rate ∈ entry.2, 0 ≤ rate

end DetailedStats

open DetailedStats

/-! ## One flow -/

theorem sumAt_eq {entries : List ℚ} {positions : List Nat}
    (h : ∀ position ∈ positions, position < entries.length) :
    sumAt entries positions = .ok (positions.map fun position => entries.getD position 0).sum := by
  induction positions with
  | nil => rfl
  | cons position rest ih =>
    have hentry := List.getElem?_eq_getElem (h position List.mem_cons_self)
    have hrest := ih fun p hp => h p (List.mem_cons_of_mem _ hp)
    simp only [sumAt, hentry, hrest, List.map_cons, List.sum_cons, List.getD_eq_getElem?_getD,
      Option.getD_some]

section

variable {entry : Int × List ℚ}

/-- With all entries of `LSM_KVS_DETAILED`, the positions give the rates over the operations. -/
theorem sumAt_rateOver (h : ContextType.lsmKvsDetailed.statsSize ≤ entry.2.length)
    (operations : List LsmKvsDetailed) :
    sumAt entry.2 (operations.map LsmKvsDetailed.position) = .ok (rateOver operations entry) := by
  rw [sumAt_eq, List.map_map]
  · rfl
  · intro position hmem
    obtain ⟨operation, -, rfl⟩ := List.mem_map.mp hmem
    have hlt : operation.position < 9 := by cases operation <;> decide
    simp only [ContextType.statsSize] at h
    omega

theorem rateOver_nonneg (h : ∀ rate ∈ entry.2, 0 ≤ rate) (operations : List LsmKvsDetailed) :
    0 ≤ rateOver operations entry := by
  apply List.sum_nonneg
  intro r hmem
  obtain ⟨operation, -, rfl⟩ := List.mem_map.mp hmem
  rw [rate, List.getD_eq_getElem?_getD]
  cases hentry : entry.2[operation.position]? with
  | none => exact le_refl 0
  | some r => exact h r (List.mem_of_getElem? hentry)

namespace KvsRates

variable {rates : KvsRates}

theorem addEntry_foreground (h : ContextType.lsmKvsDetailed.statsSize ≤ entry.2.length)
    (hid : entry.1 < 2000) :
    rates.addEntry entry =
      .ok { rates with fgTasks := rates.fgTasks + rateOver [.foreground] entry } := by
  have hsum := sumAt_rateOver h [.foreground]
  simp only [List.map_cons, List.map_nil, LsmKvsDetailed.position] at hsum
  rw [addEntry, if_pos hid, hsum]

theorem addEntry_flush (h : ContextType.lsmKvsDetailed.statsSize ≤ entry.2.length)
    (hid : entry.1 = 2000) :
    rates.addEntry entry =
      .ok { rates with bgTasksFlush := rates.bgTasksFlush + rateOver [.bgFlush] entry } := by
  have hsum := sumAt_rateOver h [.bgFlush]
  simp only [List.map_cons, List.map_nil, LsmKvsDetailed.position] at hsum
  rw [addEntry, if_neg (by omega), if_pos hid, hsum]

/-- The flow is counted exactly when it adds something to the sum. -/
theorem addEntry_compaction (h : ContextType.lsmKvsDetailed.statsSize ≤ entry.2.length)
    (hnonneg : ∀ rate ∈ entry.2, 0 ≤ rate) (hid : 2000 < entry.1) :
    rates.addEntry entry =
      .ok { rates with
        bgTasksCompactionL0 := rates.bgTasksCompactionL0 + rateOver highPriority entry
        bgTasksCompactionLN := rates.bgTasksCompactionLN + rateOver lowPriority entry
        validL0CompactionIoFlows := rates.validL0CompactionIoFlows +
          if rateOver highPriority entry ≠ 0 then 1 else 0 } := by
  have hhigh := sumAt_rateOver h highPriority
  have hlow := sumAt_rateOver h lowPriority
  simp only [highPriority, lowPriority, List.map_cons, List.map_nil,
    LsmKvsDetailed.position] at hhigh hlow
  rw [addEntry, if_neg (by omega), if_neg (by omega), hhigh, hlow]
  have hcount : rates.bgTasksCompactionL0 + rateOver highPriority entry >
      rates.bgTasksCompactionL0 ↔ rateOver highPriority entry ≠ 0 := by
    rw [gt_iff_lt, lt_add_iff_pos_right]
    exact (rateOver_nonneg hnonneg highPriority).lt_iff_ne'
  by_cases hzero : rateOver highPriority entry ≠ 0
  · rw [if_pos hzero]
    simp only [highPriority, lowPriority] at hcount hzero ⊢
    rw [if_pos (hcount.mpr hzero)]
  · rw [if_neg hzero]
    simp only [highPriority, lowPriority] at hcount hzero ⊢
    rw [if_neg (mt hcount.mp hzero)]
    rfl

end KvsRates

end

/-! ## The loop over the flows -/

section

variable {stats : DetailedStats}

theorem DetailedStats.IsKvs.tail {entry : Int × List ℚ} (h : IsKvs (entry :: stats)) :
    IsKvs stats where
  keys_nodup := (List.nodup_cons.mp h.keys_nodup).2
  sized := fun e he => h.sized e (List.mem_cons_of_mem _ he)
  rate_nonneg := fun e he => h.rate_nonneg e (List.mem_cons_of_mem _ he)

/-- The sums after the loop, by induction on the flows that are left. -/
theorem foldlM_addEntry (h : IsKvs stats) (rates : KvsRates) :
    stats.foldlM KvsRates.addEntry rates =
      .ok { fgTasks := rates.fgTasks + total [.foreground] stats.foregroundFlows
            bgTasksFlush := rates.bgTasksFlush + stats.flushRate
            bgTasksCompactionL0 := rates.bgTasksCompactionL0 +
              total highPriority stats.compactionFlows
            bgTasksCompactionLN := rates.bgTasksCompactionLN +
              total lowPriority stats.compactionFlows
            validL0CompactionIoFlows := rates.validL0CompactionIoFlows +
              stats.activeFlows.length } := by
  induction stats generalizing rates with
  | nil => simp [foregroundFlows, compactionFlows, activeFlows, flushRate, total]; rfl
  | cons entry rest ih =>
    obtain ⟨id, entries⟩ := entry
    have hsized := h.sized _ List.mem_cons_self
    have hnonneg := h.rate_nonneg _ List.mem_cons_self
    rw [List.foldlM_cons]
    rcases lt_trichotomy id 2000 with hid | hid | hid
    · rw [KvsRates.addEntry_foreground hsized hid]
      refine (ih h.tail _).trans ?_
      have hne : (2000 : Int) ≠ id := by omega
      simp [foregroundFlows, compactionFlows, activeFlows, flushRate, total, hid, hid.le,
        AssocList.lookup_cons_ne hne, add_assoc]
    · subst hid
      rw [KvsRates.addEntry_flush hsized rfl]
      refine (ih h.tail _).trans ?_
      have hnone : rest.lookup 2000 = none :=
        AssocList.lookup_eq_none_iff_notMem.mpr (List.nodup_cons.mp h.keys_nodup).1
      simp [foregroundFlows, compactionFlows, activeFlows, flushRate, hnone, rateOver]
    · rw [KvsRates.addEntry_compaction hsized hnonneg hid]
      refine (ih h.tail _).trans ?_
      have hne : (2000 : Int) ≠ id := by omega
      by_cases hactive : rateOver highPriority (id, entries) = 0
      · simp [foregroundFlows, compactionFlows, activeFlows, flushRate, total, hid, hid.le,
          AssocList.lookup_cons_ne hne, hactive, add_assoc]
      · simp [foregroundFlows, compactionFlows, activeFlows, flushRate, total, hid, hid.le,
          AssocList.lookup_cons_ne hne, hactive, add_assoc, Nat.add_comm]

/-- The flows that had no high-priority compactions add nothing. -/
theorem total_activeFlows (stats : DetailedStats) :
    total highPriority stats.compactionFlows = total highPriority stats.activeFlows := by
  rw [activeFlows]
  induction stats.compactionFlows with
  | nil => rfl
  | cons entry rest ih =>
    by_cases hactive : rateOver highPriority entry = 0
    · simp only [total, List.map_cons, List.sum_cons, hactive, zero_add] at ih ⊢
      simpa [hactive] using ih
    · simp only [total, List.map_cons, List.sum_cons] at ih ⊢
      simp [hactive, ih]

/-- The guard of the division tests the sum: where it is not zero, some flow was counted. -/
theorem activeFlows_ne_nil (h : total highPriority stats.compactionFlows ≠ 0) :
    stats.activeFlows ≠ [] := by
  intro hnil
  rw [total_activeFlows, hnil] at h
  exact h rfl

theorem total_pos (h : IsKvs stats) (hne : stats.activeFlows ≠ []) :
    0 < total highPriority stats.activeFlows := by
  have hflow : ∀ entry ∈ stats.activeFlows, 0 < rateOver highPriority entry := by
    intro entry hmem
    rw [activeFlows, List.mem_filter, compactionFlows, List.mem_filter] at hmem
    have hnonneg := rateOver_nonneg (h.rate_nonneg entry hmem.1.1) highPriority
    exact lt_of_le_of_ne hnonneg (Ne.symm (of_decide_eq_true hmem.2))
  apply List.sum_pos
  · intro r hmem
    obtain ⟨entry, hentry, rfl⟩ := List.mem_map.mp hmem
    exact hflow entry hentry
  · exact mt List.map_eq_nil_iff.mp hne

/-- What the aggregation of a key-value store makes of the flows. The loop counts a flow whenever
its sum is not zero in the end, so that the division is by a positive number. -/
theorem aggregateKvsStatistics_eq (stats : DetailedStats) (hne : stats ≠ []) (h : IsKvs stats)
    (raw : StatsSilkRaw) :
    (∃ rates, stats.foldlM KvsRates.addEntry {} = .ok rates ∧
      (rates.bgTasksCompactionL0 ≠ 0 → rates.validL0CompactionIoFlows ≠ 0)) ∧
    aggregateKvsStatistics stats raw =
      .ok (.ok,
        { fgTasks := total [.foreground] stats.foregroundFlows
          bgTasksFlush := stats.flushRate
          bgTasksCompactionL0 := stats.meanHighPriority
          bgTasksCompactionLN := total lowPriority stats.compactionFlows }) := by
  have hloop := foldlM_addEntry h {}
  simp only [zero_add] at hloop
  constructor
  · refine ⟨_, hloop, ?_⟩
    intro hsum
    exact mt List.length_eq_zero_iff.mp (activeFlows_ne_nil hsum)
  · rw [aggregateKvsStatistics, if_neg hne, hloop, meanHighPriority]
    by_cases hactive : stats.activeFlows = []
    · have hzero : total highPriority stats.compactionFlows = 0 := by
        rw [total_activeFlows, hactive]
        rfl
      simp [hzero, hactive]
    · have hsum : total highPriority stats.compactionFlows ≠ 0 := by
        rw [total_activeFlows]
        exact (total_pos h hactive).ne'
      simp only [ne_eq, hsum, not_false_eq_true, if_true, if_neg hactive]
      rw [total_activeFlows]

/-- A foreground flow, the flush, and two compactions of which one had high-priority ones. -/
def rocksdbFlows : DetailedStats :=
  [(1, [0, 0, 0, 0, 0, 0, 0, 0, 10]), (2000, [0, 3, 0, 0, 0, 0, 0, 0, 0]),
   (2001, [0, 0, 0, 2, 4, 1, 0, 0, 0]), (2002, [0, 0, 0, 0, 0, 0, 1, 1, 0])]

theorem isKvs_rocksdbFlows : IsKvs rocksdbFlows := ⟨by decide, by decide, by decide⟩

theorem aggregateKvsStatistics_eq_rocksdbFlows :
    aggregateKvsStatistics rocksdbFlows {} =
      .ok (.ok, { fgTasks := 10, bgTasksFlush := 3, bgTasksCompactionL0 := 6
                  bgTasksCompactionLN := 3 }) := by
  have hforeground : rocksdbFlows.foregroundFlows = rocksdbFlows.take 1 := by decide
  have hcompactions : rocksdbFlows.compactionFlows = rocksdbFlows.drop 2 := by decide
  have hactive : rocksdbFlows.activeFlows = (rocksdbFlows.drop 2).take 1 := by
    rw [activeFlows, hcompactions]
    norm_num [rocksdbFlows, rateOver, rate, highPriority, LsmKvsDetailed.position]
  have hflush : rocksdbFlows.flushRate = 3 := by decide
  have hmean : rocksdbFlows.meanHighPriority = 6 := by
    rw [meanHighPriority, hactive]
    norm_num [rocksdbFlows, total, rateOver, rate, highPriority, LsmKvsDetailed.position]
  rw [(aggregateKvsStatistics_eq rocksdbFlows (by decide) isKvs_rocksdbFlows {}).2, hforeground,
    hcompactions, hflush, hmean]
  norm_num [rocksdbFlows, total, rateOver, rate, lowPriority, LsmKvsDetailed.position]

end

/-! ## The positions that are read -/

/-- The positions that an aggregation reads of a channel. -/
def ControlPlaneOperationSubtype.positions : ControlPlaneOperationSubtype → Int → List Nat
  | .collectStatsRocksdb, channelId =>
    if channelId < 2000 then [8] else if channelId = 2000 then [1] else [3, 4, 5, 6, 7]
  | .collectStatsTensorflow, _ => [0, 1, 3, 5, 2, 4, 6]
  | .collectStatsMetadataData, _ => [6, 7]
  | _, _ => []

/-- The positions are in a vector that has the entries that are needed. -/
theorem ControlPlaneOperationSubtype.positions_lt_iff (subtype : ControlPlaneOperationSubtype)
    (channelId : Int) (n : Nat) :
    (∀ position ∈ subtype.positions channelId, position < n) ↔ subtype.needed channelId ≤ n := by
  cases subtype with
  | collectStatsRocksdb =>
    simp only [positions, needed]
    split
    · simp; omega
    · split
      · simp; omega
      · simp; omega
  | collectStatsTensorflow => simp [positions, needed]; omega
  | collectStatsMetadataData => simp [positions, needed]; omega
  | _ => simp [positions, needed]

theorem sumAt_ok_iff {entries : List ℚ} {positions : List Nat} :
    (∃ sum, sumAt entries positions = .ok sum) ↔
      ∀ position ∈ positions, position < entries.length := by
  constructor
  · induction positions with
    | nil => simp
    | cons position rest ih =>
      rintro ⟨sum, hsum⟩
      rw [sumAt] at hsum
      split at hsum
      · cases hsum
      · rename_i value hentry
        split at hsum
        · rename_i sum' hrest
          obtain ⟨hlt, -⟩ := List.getElem?_eq_some_iff.mp hentry
          exact List.forall_mem_cons.mpr ⟨hlt, ih ⟨sum', hrest⟩⟩
        · cases hsum
  · exact sumAt_total entries positions

/-- A loop whose passes come back whatever was summed up before. -/
theorem foldlM_ok_iff {τ β : Type} {step : τ → β → Except Fault τ} {p : β → Prop}
    (hstep : ∀ t item, (∃ t', step t item = .ok t') ↔ p item) (items : List β) (t : τ) :
    (∃ t', items.foldlM step t = .ok t') ↔ ∀ item ∈ items, p item := by
  constructor
  · intro h
    induction items generalizing t with
    | nil => simp
    | cons item rest ih =>
      obtain ⟨t', ht'⟩ := h
      rw [List.foldlM_cons] at ht'
      cases hfirst : step t item with
      | error f => rw [hfirst] at ht'; cases ht'
      | ok t₁ =>
        rw [hfirst] at ht'
        exact List.forall_mem_cons.mpr ⟨(hstep t item).mp ⟨t₁, hfirst⟩, ih t₁ ⟨t', ht'⟩⟩
  · intro h
    exact foldlM_total (fun t item hmem => (hstep t item).mpr (h item hmem)) t

theorem KvsRates.addEntry_ok_iff (rates : KvsRates) (entry : Int × List ℚ) :
    (∃ rates', rates.addEntry entry = .ok rates') ↔
      ∀ position ∈ ControlPlaneOperationSubtype.collectStatsRocksdb.positions entry.1,
        position < entry.2.length := by
  constructor
  · rintro ⟨rates', h⟩
    rw [addEntry] at h
    simp only [ControlPlaneOperationSubtype.positions]
    split at h
    · rename_i hfg
      rw [if_pos hfg]
      split at h
      · rename_i sum hsum
        exact sumAt_ok_iff.mp ⟨sum, hsum⟩
      · cases h
    · rename_i hfg
      rw [if_neg hfg]
      split at h
      · rename_i hflush
        rw [if_pos hflush]
        split at h
        · rename_i sum hsum
          exact sumAt_ok_iff.mp ⟨sum, hsum⟩
        · cases h
      · rename_i hflush
        rw [if_neg hflush]
        split at h
        · cases h
        · rename_i high hhigh
          split at h
          · cases h
          · rename_i low hlow
            have hboth : ∀ position ∈ [3, 4] ++ [5, 6, 7], position < entry.2.length :=
              List.forall_mem_append.mpr
                ⟨sumAt_ok_iff.mp ⟨high, hhigh⟩, sumAt_ok_iff.mp ⟨low, hlow⟩⟩
            exact hboth
  · intro h
    exact rates.addEntry_total
      ((ControlPlaneOperationSubtype.positions_lt_iff _ entry.1 entry.2.length).mp h)

theorem addPair_ok_iff (first second : List Nat) (sums : ℚ × ℚ) (entry : Int × List ℚ) :
    (∃ sums', addPair first second sums entry = .ok sums') ↔
      ∀ position ∈ first ++ second, position < entry.2.length := by
  constructor
  · rintro ⟨sums', h⟩
    rw [addPair] at h
    split at h
    · cases h
    · rename_i x hx
      split at h
      · rename_i y hy
        exact List.forall_mem_append.mpr ⟨sumAt_ok_iff.mp ⟨x, hx⟩, sumAt_ok_iff.mp ⟨y, hy⟩⟩
      · cases h
  · intro h
    obtain ⟨hfirst, hsecond⟩ := List.forall_mem_append.mp h
    obtain ⟨x, hx⟩ := sumAt_ok_iff.mpr hfirst
    obtain ⟨y, hy⟩ := sumAt_ok_iff.mpr hsecond
    exact ⟨_, by rw [addPair, hx, hy]⟩

/-- All positions that an aggregation reads are in the vectors. -/
def PositionsInRange (subtype : ControlPlaneOperationSubtype) (stats : DetailedStats) : Prop :=
  ∀ entry ∈ stats, ∀ position ∈ subtype.positions entry.1, position < entry.2.length

/-- The aggregation comes back exactly when its positions are in range. -/
def ReadsPositions {ρ : Type} (subtype : ControlPlaneOperationSubtype)
    (aggregate : DetailedStats → ρ → Except Fault (PStatus × ρ)) : Prop :=
  ∀ stats raw, (∃ out, aggregate stats raw = .ok out) ↔ PositionsInRange subtype stats

theorem readsPositions_kvs : ReadsPositions .collectStatsRocksdb aggregateKvsStatistics := by
  intro stats raw
  rw [PositionsInRange, ← foldlM_ok_iff KvsRates.addEntry_ok_iff stats {}, aggregateKvsStatistics]
  split
  · rename_i hnil
    subst hnil
    exact ⟨fun _ => ⟨{}, rfl⟩, fun _ => ⟨_, rfl⟩⟩
  · cases stats.foldlM KvsRates.addEntry {} with
    | error f => simp
    | ok rates => simp

theorem readsPositions_tf : ReadsPositions .collectStatsTensorflow aggregateTfStatistics := by
  intro stats raw
  have hloop := foldlM_ok_iff (fun sums entry => addPair_ok_iff [0, 1, 3, 5] [2, 4, 6] sums entry)
    stats (0, 0)
  refine Iff.trans ?_ hloop
  rw [aggregateTfStatistics]
  split
  · rename_i hnil
    subst hnil
    exact ⟨fun _ => ⟨(0, 0), rfl⟩, fun _ => ⟨_, rfl⟩⟩
  · cases stats.foldlM (addPair [0, 1, 3, 5] [2, 4, 6]) (0, 0) with
    | error f => simp
    | ok sums => simp

theorem readsPositions_global : ReadsPositions .collectStatsGlobal aggregateGlobalStatistics := by
  intro stats raw
  have hnone : PositionsInRange .collectStatsGlobal stats := by
    intro entry _ position hmem
    cases hmem
  rw [aggregateGlobalStatistics]
  split
  · exact ⟨fun _ => hnone, fun _ => ⟨_, rfl⟩⟩
  · exact ⟨fun _ => hnone, fun _ => ⟨_, rfl⟩⟩

theorem readsPositions_metadataData :
    ReadsPositions .collectStatsMetadataData aggregateMetadataDataStatistics := by
  intro stats raw
  have hloop := foldlM_ok_iff (fun sums entry => addPair_ok_iff [6] [7] sums entry) stats (0, 0)
  refine Iff.trans ?_ hloop
  rw [aggregateMetadataDataStatistics]
  split
  · rename_i hnil
    subst hnil
    exact ⟨fun _ => ⟨(0, 0), rfl⟩, fun _ => ⟨_, rfl⟩⟩
  · cases stats.foldlM (addPair [6] [7]) (0, 0) with
    | error f => simp
    | ok sums => simp

/-! ## The vectors of a collection -/

theorem mem_keys_emplace {ν : Type} (key : Int) (value : ν) (entries : List (Int × ν)) :
    ∀ k, k ∈ AssocList.keys (emplace key value entries) ↔ k = key ∨ k ∈ AssocList.keys entries := by
  induction entries with
  | nil => simp [emplace]
  | cons first rest ih =>
    intro k
    rw [emplace]
    split
    · simp
    · split
      · rename_i heq
        simp [heq]
      · simp only [AssocList.keys_cons, List.mem_cons, ih]
        tauto

/-- Every channel that was collected has an entry. -/
theorem mem_keys_foldl_emplace {ν : Type} {values entries : List (Int × ν)} {k : Int} :
    k ∈ AssocList.keys (values.foldl (fun stats entry => emplace entry.1 entry.2 stats) entries) ↔
      k ∈ AssocList.keys values ∨ k ∈ AssocList.keys entries := by
  induction values generalizing entries with
  | nil => simp
  | cons first rest ih =>
    rw [List.foldl_cons, ih, mem_keys_emplace, AssocList.keys_cons, List.mem_cons]
    tauto

namespace Core

variable {opt : Options} {hash : String → UInt32} {core : Core}

/-- There are no more channels than tokens. -/
theorem Sound.length_le (h : core.Sound) :
    core.channelIdToTokenLinkers.length ≤ UInt32.size := by
  have hinj : Function.Injective UInt32.toFin := fun _ _ heq => UInt32.toFin_inj.mp heq
  have hcard := (h.windowed.tokens_nodup.map hinj).length_le_card
  rwa [Fintype.card_fin, List.length_map, LinkedMap.tokens, List.length_map] at hcard

/-- A positive `get_total_channels` counts all channels. -/
theorem Sound.getTotalChannels_eq (h : core.Sound) (hpos : 0 < core.getTotalChannels) :
    core.getTotalChannels = core.channelIdToTokenLinkers.length := by
  have hlength : core.channelIdToTokenLinkers.length ≤ 4294967296 := h.length_le
  rw [getTotalChannels, toInt32, Int.bmod_def] at hpos ⊢
  split at hpos <;> omega

/-- A collection of all channels that succeeds visits every one of them. -/
theorem Sound.collectFrom_all {α : Type}
    {collect : Core → Int → Except Break (Core × PStatus × α)} (h : core.Sound) {core' : Core}
    {values : List (Int × α)}
    (hc : collectFrom collect core (-1) = .ok (core', .ok, values)) :
    collectLoop collect core.getChannelsIdentifiers .error core = .ok (core', .ok, values) := by
  rw [collectFrom, if_neg (not_not.mpr rfl)] at hc
  split at hc
  · rename_i hpos
    have htake : core.getChannelsIdentifiers.take core.getTotalChannels.toNat =
        core.getChannelsIdentifiers := by
      apply List.take_of_length_le
      rw [h.getTotalChannels_eq hpos, Int.toNat_natCast, getChannelsIdentifiers, List.length_map]
    rw [htake] at hc
    exact hc
  · cases hc

/-- Collecting a channel gives as many entries as the type of context has. -/
theorem Operated.collectChannelStatisticsDetailed (hstat : opt.channelStatisticCollection = true)
    (h : core.Operated opt hash) {readings : Readings} {channelId : Int} {core' : Core}
    {entries : List ℚ}
    (hc : core.collectChannelStatisticsDetailed readings channelId = .ok (core', .ok, entries)) :
    core'.Operated opt hash ∧ (entries.length : Int) = opt.contextType.statsSize := by
  refine ⟨(invariant_operated opt hash).kept.collectChannelStatisticsDetailed h hc, ?_⟩
  obtain ⟨token, channel, channel', hsel, hw, -⟩ := collectOn_ok hc
  have hshaped := (h token channel hsel).shaped hstat
  have hsized : channel.channelStatistics.windowedCounter.length =
      channel.channelStatistics.statsSize.toNat := by
    have hwindowed := hshaped.shaped.windowed
    rw [hshaped.shaped.size, ← hwindowed, Int.toNat_natCast]
  simp only [ChannelDefault.collectDetailedStatistics, hshaped.collects, if_true,
    ChannelStatistics.collectDetailedWindowedEntries_eq hsized] at hw
  split at hw
  · cases hw
    rw [List.length_map]
    exact hshaped.shaped.windowed
  · cases hw

end Core

/-- The statistics of all channels: one vector for each, with the entries of the type of context. -/
theorem Agent.collectDetailedChannelStatistics_entries {opt : Options} {hash : String → UInt32}
    (hstat : opt.channelStatisticCollection = true) {agent agent' : Agent}
    (hs : agent.core.Sound) (h : agent.core.Operated opt hash) {readings : Readings}
    {stats : DetailedStats}
    (hc : agent.collectDetailedChannelStatistics readings (-1) = .ok (agent', .ok, stats)) :
    (∀ k, k ∈ AssocList.keys stats ↔ k ∈ agent.core.getChannelsIdentifiers) ∧
      ∀ entry ∈ stats, (entry.2.length : Int) = opt.contextType.statsSize := by
  obtain ⟨core, values, hfrom, -, rfl⟩ := collectDetailedChannelStatistics_eq_ok hc
  obtain ⟨hids, hvalues⟩ := Core.collectLoop_ok
    (P := fun core => core.Operated opt hash)
    (Q := fun entries : List ℚ => (entries.length : Int) = opt.contextType.statsSize)
    (fun _ _ _ _ hcore hc => hcore.collectChannelStatisticsDetailed hstat hc) h
    (hs.collectFrom_all hfrom)
  constructor
  · intro k
    rw [mem_keys_foldl_emplace, ← hids]
    simp [AssocList.keys]
  · intro entry hentry
    rcases mem_foldl_emplace hentry with hmem | hnil
    · exact hvalues entry hmem
    · cases hnil

/-! ## Whether the positions fit -/

/-- The subtypes of `collect_detailed_stats` that are implemented. -/
inductive ControlPlaneOperationSubtype.Aggregated : ControlPlaneOperationSubtype → Prop
  | rocksdb : Aggregated .collectStatsRocksdb
  | tensorflow : Aggregated .collectStatsTensorflow
  | global : Aggregated .collectStatsGlobal
  | metadataData : Aggregated .collectStatsMetadataData

/-- The type of context has the entries that an aggregation reads of the channels. -/
def Core.EntriesFit (contextType : ContextType) (subtype : ControlPlaneOperationSubtype)
    (core : Core) : Prop :=
  ∀ channelId ∈ core.getChannelsIdentifiers, (subtype.needed channelId : Int) ≤
    contextType.statsSize

instance (contextType : ContextType) (subtype : ControlPlaneOperationSubtype) (core : Core) :
    Decidable (core.EntriesFit contextType subtype) :=
  inferInstanceAs (Decidable (∀ channelId ∈ core.getChannelsIdentifiers, _))

section

variable {opt : Options} {hash : String → UInt32} {stage : Stage} {readings : Readings}
  {agent : Agent} {stats : DetailedStats}

theorem positionsInRange_iff_fit (hstat : opt.channelStatisticCollection = true)
    (h : Stage.Reachable opt hash stage) (subtype : ControlPlaneOperationSubtype)
    (hc : stage.agent.collectDetailedChannelStatistics readings (-1) = .ok (agent, .ok, stats)) :
    PositionsInRange subtype stats ↔ stage.agent.core.EntriesFit opt.contextType subtype := by
  obtain ⟨hkeys, hlength⟩ :=
    Agent.collectDetailedChannelStatistics_entries hstat h.sound h.operated hc
  have hentry : ∀ entry ∈ stats,
      (∀ position ∈ subtype.positions entry.1, position < entry.2.length) ↔
        (subtype.needed entry.1 : Int) ≤ opt.contextType.statsSize := by
    intro entry hmem
    rw [subtype.positions_lt_iff, ← hlength entry hmem, Nat.cast_le]
  constructor
  · intro hpositions channelId hid
    obtain ⟨entry, hmem, rfl⟩ := List.mem_map.mp ((hkeys channelId).mpr hid)
    exact (hentry entry hmem).mp (hpositions entry hmem)
  · intro hfit entry hmem
    exact (hentry entry hmem).mpr (hfit entry.1 ((hkeys entry.1).mp (List.mem_map_of_mem hmem)))

namespace Southbound

theorem replyStatistics_ok_iff {ρ : Type} {subtype : ControlPlaneOperationSubtype}
    {aggregate : DetailedStats → ρ → Except Fault (PStatus × ρ)}
    (hreads : ReadsPositions subtype aggregate) (initial : ρ) (reply : ρ → ControlReply) :
    (∃ handled, replyStatistics aggregate initial reply stage (.ok (agent, .ok, stats)) =
      .ok handled) ↔ PositionsInRange subtype stats := by
  rw [← hreads stats initial, replyStatistics, if_pos (by rfl)]
  cases aggregate stats initial with
  | error f => simp
  | ok out => simp

theorem collectInstanceStatistics_ok_iff {env : Environment} {operation : ControlOperation}
    {subtype : ControlPlaneOperationSubtype} (hagg : subtype.Aggregated)
    (hsub : operation.subtype = some subtype)
    (hc : stage.agent.collectDetailedChannelStatistics env.readings (-1) =
      .ok (agent, .ok, stats)) :
    (∃ handled, collectInstanceStatistics env operation stage = .ok handled) ↔
      PositionsInRange subtype stats := by
  unfold collectInstanceStatistics
  cases hagg with
  | rocksdb =>
    simp only [hsub, answerInstanceStatistics, hc]
    exact replyStatistics_ok_iff readsPositions_kvs {} .silk
  | tensorflow =>
    simp only [hsub, answerInstanceStatistics, hc]
    exact replyStatistics_ok_iff readsPositions_tf {} .tensorFlow
  | global =>
    simp only [hsub, answerInstanceStatistics, hc]
    exact replyStatistics_ok_iff readsPositions_global {} .global
  | metadataData =>
    simp only [hsub, answerInstanceStatistics, hc]
    exact replyStatistics_ok_iff readsPositions_metadataData {} .dataMetadata

end Southbound

/-- After a collection from a reachable stage, the positions that an aggregation reads are in the
vectors, and its handler comes back, exactly when the type of context of the statistics has the
entries that the channels need. -/
theorem positions_in_range_iff (hstat : opt.channelStatisticCollection = true)
    (h : Stage.Reachable opt hash stage) {env : Environment} {operation : ControlOperation}
    {subtype : ControlPlaneOperationSubtype} (hagg : subtype.Aggregated)
    (hsub : operation.subtype = some subtype)
    (hc : stage.agent.collectDetailedChannelStatistics env.readings (-1) =
      .ok (agent, .ok, stats)) :
    ((∀ entry ∈ stats, ∀ position ∈ subtype.positions entry.1, position < entry.2.length) ↔
      stage.agent.core.EntriesFit opt.contextType subtype) ∧
    ((∃ handled, Southbound.collectInstanceStatistics env operation stage = .ok handled) ↔
      stage.agent.core.EntriesFit opt.contextType subtype) := by
  have hiff := positionsInRange_iff_fit hstat h subtype hc
  exact ⟨hiff, (Southbound.collectInstanceStatistics_ok_iff hagg hsub hc).trans hiff⟩

/-- A stage with one default channel. -/
def stageOfOne (opt : Options) : Stage where
  agent := { core := Core.newWith opt numeralHash 1 true false fun _ _ => 0 }

theorem reachable_stageOfOne (opt : Options) :
    Stage.Reachable opt numeralHash (stageOfOne opt) :=
  .newWith 1 true false (fun _ _ => 0) true

/-- A request for the statistics of a key-value store. -/
def rocksdbRequest : ControlOperation where
  operationId := 1
  operationType := 3
  operationSubtype := 3
  size := 0

/-- The environment of the collections: the clock reads 1. -/
def oneReading : Environment where
  readings := fun _ => (1, 1)

/-- A collection on the stage with one channel, with the length of its vector. -/
def collectOne (opt : Options) : Option (PStatus × List (Int × Nat)) :=
  ((stageOfOne opt).agent.collectDetailedChannelStatistics oneReading.readings (-1)).toOption.map
    fun collected => (collected.2.1, collected.2.2.map fun entry => (entry.1, entry.2.length))

theorem exists_of_collectOne {opt : Options} {lengths : List (Int × Nat)}
    (h : collectOne opt = some (.ok, lengths)) :
    ∃ agent stats, (stageOfOne opt).agent.collectDetailedChannelStatistics oneReading.readings
      (-1) = .ok (agent, .ok, stats) := by
  rw [collectOne] at h
  cases hc : (stageOfOne opt).agent.collectDetailedChannelStatistics oneReading.readings (-1) with
  | error b => rw [hc] at h; cases h
  | ok collected =>
    obtain ⟨agent, status, stats⟩ := collected
    rw [hc] at h
    cases h
    exact ⟨agent, stats, rfl⟩

def lsmKvsOptions : Options := { contextType := .lsmKvsDetailed }

/-- Channels for the detailed context of a key-value store have all entries. -/
theorem positions_in_range_iff_lsmKvsDetailed :
    ∃ agent stats, (stageOfOne lsmKvsOptions).agent.collectDetailedChannelStatistics
        oneReading.readings (-1) = .ok (agent, .ok, stats) ∧
      ∀ entry ∈ stats, ∀ position ∈
        ControlPlaneOperationSubtype.collectStatsRocksdb.positions entry.1,
        position < entry.2.length := by
  have hone : collectOne lsmKvsOptions = some (.ok, [(1, 9)]) := by decide
  obtain ⟨agent, stats, hc⟩ := exists_of_collectOne hone
  have hsub : rocksdbRequest.subtype = some .collectStatsRocksdb := by decide
  have hfit : (stageOfOne lsmKvsOptions).agent.core.EntriesFit lsmKvsOptions.contextType
      .collectStatsRocksdb := by decide
  have hiff := positions_in_range_iff rfl (reachable_stageOfOne lsmKvsOptions) .rocksdb hsub hc
  exact ⟨agent, stats, hc, hiff.1.mpr hfit⟩

/-- With the shipped options a channel has 5 entries, and the aggregation for a key-value store
reads the entry at position 8. -/
theorem default_context_out_of_bounds :
    Stage.Reachable {} numeralHash (stageOfOne {}) ∧
    collectOne {} = some (.ok, [(1, 5)]) ∧
    8 ∈ ControlPlaneOperationSubtype.collectStatsRocksdb.positions 1 ∧
    ¬ ∃ handled, Southbound.collectInstanceStatistics oneReading rocksdbRequest (stageOfOne {}) =
      .ok handled := by
  have hone : collectOne {} = some (.ok, [(1, 5)]) := by decide
  refine ⟨reachable_stageOfOne {}, hone, by decide, ?_⟩
  obtain ⟨agent, stats, hc⟩ := exists_of_collectOne hone
  have hsub : rocksdbRequest.subtype = some .collectStatsRocksdb := by decide
  have hfit : ¬ (stageOfOne {}).agent.core.EntriesFit ContextType.paioGeneral
      .collectStatsRocksdb := by decide
  rw [Southbound.collectInstanceStatistics_ok_iff .rocksdb hsub hc,
    positionsInRange_iff_fit rfl (reachable_stageOfOne {}) _ hc]
  exact hfit

end

end Paio
