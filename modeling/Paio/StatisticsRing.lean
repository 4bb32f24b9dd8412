import Mathlib.Data.List.Induction
import Paio.Library.RunCondition
import Paio.ObjectStatistics

/-!
# Paio.StatisticsRing

What the ring of statistic entries holds. `m_total_stats` counts the entries stored since the last
collection and decides by its remainder where the next one goes, so the ring holds the most recent
hundred of them. The counter is an `int`: after 2^31 entries without a collection it is negative,
and the next entry would go before the first element.
-/

namespace Paio

theorem toInt32_limit : toInt32 ((2 ^ 31 : Nat) : Int) = -2 ^ 31 := by decide

namespace TBStats

/-- The number of entries that the ring can be given before its counter is too large. -/
def entriesLimit : Nat := 2 ^ 31

/-- The state of a ring that was given `stored` since the last collection. -/
structure Holds (s : TBStats) (stored : List TBStatsEntry) : Prop where
  length_eq : s.tbStatistics.length = 100
  max_eq : s.maxStatistics = 100
  valid_eq : s.validEntryIndex = -1
  few : stored.length ≤ entriesLimit
  total_eq : s.totalStats = toInt32 stored.length
  position_eq : s.position = ((stored.length - 1) % 100 : Nat)
  entry_eq : ∀ j, stored.length ≤ j + 100 → j < stored.length →
    s.tbStatistics[j % 100]? = stored[j]?

variable {s s' : TBStats} {stored : List TBStatsEntry}

theorem holds_new : Holds {} [] :=
  ⟨rfl, rfl, rfl, Nat.zero_le _, rfl, rfl, fun j _ hj => absurd hj (Nat.not_lt_zero j)⟩

theorem Holds.total (h : Holds s stored) (hlt : stored.length < entriesLimit) :
    s.totalStats = stored.length := by
  rw [h.total_eq, toInt32_natCast hlt]

/-- One more entry goes where the remainder of the counter says. -/
theorem Holds.store_eq (h : Holds s stored) (hlt : stored.length < entriesLimit)
    (emptyBucketTime tokensLeft : ℚ) (now : Int) :
    s.storeStatsEntry emptyBucketTime tokensLeft now = .ok { s with
      position := (stored.length % 100 : Nat)
      tbStatistics := s.tbStatistics.set (stored.length % 100) ⟨emptyBucketTime, tokensLeft, now⟩
      totalStats := toInt32 (s.totalStats + 1) } := by
  have hposition : s.totalStats.tmod s.maxStatistics = ((stored.length % 100 : Nat) : Int) := by
    rw [h.total hlt, h.max_eq, Int.tmod_eq_emod_of_nonneg (by omega)]
    omega
  have hbounds : (0 : Int) ≤ (stored.length % 100 : Nat) ∧
      ((stored.length % 100 : Nat) : Int) < s.tbStatistics.length := by
    rw [h.length_eq]
    omega
  rw [storeStatsEntry, hposition, if_pos hbounds, Int.toNat_natCast]

theorem Holds.store (h : Holds s stored) (hlt : stored.length < entriesLimit)
    (emptyBucketTime tokensLeft : ℚ) (now : Int) :
    ∃ s', s.storeStatsEntry emptyBucketTime tokensLeft now = .ok s' ∧
      Holds s' (stored ++ [⟨emptyBucketTime, tokensLeft, now⟩]) := by
  have hmod : stored.length % 100 < 100 := Nat.mod_lt _ (by omega)
  refine ⟨_, h.store_eq hlt emptyBucketTime tokensLeft now, ?_⟩
  refine ⟨?_, h.max_eq, h.valid_eq, ?_, ?_, ?_, ?_⟩
  · rw [List.length_set, h.length_eq]
  · rw [List.length_append, List.length_singleton]
    omega
  · rw [List.length_append, List.length_singleton, h.total hlt]
    push_cast
    rfl
  · rw [List.length_append, List.length_singleton, Nat.add_sub_cancel]
  · intro j hold hj
    rw [List.length_append, List.length_singleton] at hold hj
    rcases Nat.lt_succ_iff_lt_or_eq.mp hj with hlast | rfl
    · have hne : stored.length % 100 ≠ j % 100 := by omega
      rw [List.getElem?_set_ne hne, h.entry_eq j (by omega) hlast,
        List.getElem?_append_left hlast]
    · rw [List.getElem?_set_self (by rw [h.length_eq]; exact hmod), List.getElem?_concat_length]

/-- When the counter has become negative, the next entry has no place. -/
theorem Holds.store_full (h : Holds s stored) (hfull : stored.length = entriesLimit)
    (emptyBucketTime tokensLeft : ℚ) (now : Int) :
    s.storeStatsEntry emptyBucketTime tokensLeft now = .error .outOfBounds := by
  have hposition : s.totalStats.tmod s.maxStatistics = -48 := by
    rw [h.total_eq, h.max_eq, hfull, entriesLimit, toInt32_limit]
    decide
  rw [storeStatsEntry, hposition, if_neg (by omega)]

/-! ## Reachable rings -/

/-- The states of a ring under stores and collections, a collection being `garbage_collection` with
`collect_stats` right after it, as `try_collect_statistics` calls them. -/
inductive Reachable : TBStats → List TBStatsEntry → Prop
  | new : Reachable {} []
  | store {s s' : TBStats} {stored : List TBStatsEntry} {emptyBucketTime tokensLeft : ℚ} {now : Int}
      (h : Reachable s stored) (hs : s.storeStatsEntry emptyBucketTime tokensLeft now = .ok s') :
      Reachable s' (stored ++ [⟨emptyBucketTime, tokensLeft, now⟩])
  | collect {s collected s' : TBStats} {stored : List TBStatsEntry} {now slidingWindow : Int}
      {discarded : Int} {raw raw' : ObjectStatisticsRaw} (h : Reachable s stored)
      (hg : s.garbageCollection now slidingWindow = .ok (collected, discarded))
      (hc : collected.collectStats raw = .ok (s', raw')) : Reachable s' []

/-- The garbage collector writes counters only. -/
theorem garbageCollection_keeps {now slidingWindow discarded : Int}
    (h : s.garbageCollection now slidingWindow = .ok (s', discarded)) :
    s'.tbStatistics = s.tbStatistics ∧ s'.maxStatistics = s.maxStatistics := by
  simp only [garbageCollection] at h
  repeat' split at h
  all_goals cases h
  all_goals exact ⟨rfl, rfl⟩

theorem Holds.collect {collected : TBStats} {now slidingWindow discarded : Int}
    {raw raw' : ObjectStatisticsRaw} (h : Holds s stored)
    (hg : s.garbageCollection now slidingWindow = .ok (collected, discarded))
    (hc : collected.collectStats raw = .ok (s', raw')) : Holds s' [] := by
  obtain ⟨hring, hmax⟩ := garbageCollection_keeps hg
  simp only [collectStats] at hc
  split at hc <;> cases hc
  refine ⟨?_, ?_, rfl, Nat.zero_le _, rfl, rfl, fun j _ hj => absurd hj (Nat.not_lt_zero j)⟩
  · exact (congrArg List.length hring).trans h.length_eq
  · exact hmax.trans h.max_eq

theorem Reachable.holds (h : Reachable s stored) : Holds s stored := by
  induction h with
  | new => exact holds_new
  | @store s s' stored emptyBucketTime tokensLeft now _ hs ih =>
    rcases Nat.lt_or_eq_of_le ih.few with hlt | hfull
    · obtain ⟨t, ht, hholds⟩ := ih.store hlt emptyBucketTime tokensLeft now
      rw [ht] at hs
      cases hs
      exact hholds
    · rw [ih.store_full hfull] at hs
      cases hs
  | collect _ hg hc ih => exact ih.collect hg hc

/-- Any entries can be stored, up to the limit. -/
theorem exists_reachable (stored : List TBStatsEntry) (hfew : stored.length ≤ entriesLimit) :
    ∃ s, Reachable s stored := by
  induction stored using List.reverseRecOn with
  | nil => exact ⟨{}, .new⟩
  | append_singleton stored e ih =>
    rw [List.length_append, List.length_singleton] at hfew
    obtain ⟨s, h⟩ := ih (Nat.le_of_succ_le hfew)
    obtain ⟨s', hs', -⟩ :=
      h.holds.store hfew e.normalizedEmptyBucket e.tokensLeft e.collectionTimestamp
    exact ⟨s', h.store hs'⟩

/-! ## Where the entries go -/

/-- The entries are stored one after the other. -/
def storeAll (s : TBStats) (entries : List TBStatsEntry) : Except Fault TBStats :=
  entries.foldlM (fun s e =>
    s.storeStatsEntry e.normalizedEmptyBucket e.tokensLeft e.collectionTimestamp) s

/-- The entry is stored at a position of the ring, which held the oldest of the hundred most recent
entries; every other place is as before. -/
structure StoresInRing (s : TBStats) (stored : List TBStatsEntry) (e : TBStatsEntry)
    (s' : TBStats) : Prop where
  comes : s.storeStatsEntry e.normalizedEmptyBucket e.tokensLeft e.collectionTimestamp = .ok s'
  position_nonneg : 0 ≤ s'.position
  position_lt : s'.position < s'.maxStatistics
  stored_at : s'.tbStatistics[s'.position.toNat]? = some e
  others_keep : ∀ i, i ≠ s'.position.toNat → s'.tbStatistics[i]? = s.tbStatistics[i]?
  oldest : ∀ j, stored.length = j + 100 → s.tbStatistics[s'.position.toNat]? = stored[j]?

theorem Holds.storesInRing (h : Holds s stored) (hlt : stored.length < entriesLimit)
    (e : TBStatsEntry) : ∃ s', StoresInRing s stored e s' := by
  have hmod : stored.length % 100 < 100 := Nat.mod_lt _ (by omega)
  refine ⟨_, h.store_eq hlt _ _ _, ?_, ?_, ?_, ?_, ?_⟩
  · exact Int.natCast_nonneg _
  · show ((stored.length % 100 : Nat) : Int) < s.maxStatistics
    rw [h.max_eq]
    omega
  · exact List.getElem?_set_self (by rw [h.length_eq]; exact hmod)
  · intro i hi
    exact List.getElem?_set_ne (Ne.symm hi)
  · intro j hj
    have hplace : stored.length % 100 = j % 100 := by omega
    show s.tbStatistics[stored.length % 100]? = stored[j]?
    rw [hplace]
    exact h.entry_eq j (by omega) (by omega)

theorem Holds.not_storesInRing (h : Holds s stored) (hfull : stored.length = entriesLimit)
    (e : TBStatsEntry) : ¬ StoresInRing s stored e s' := by
  intro hstores
  have hcomes := hstores.comes
  rw [h.store_full hfull] at hcomes
  cases hcomes

/-- What a ring holds that was just collected, after up to `entriesLimit` stores. -/
theorem Holds.storeAll (h : Holds s []) (entries : List TBStatsEntry)
    (hfew : entries.length ≤ entriesLimit) :
    ∃ s', s.storeAll entries = .ok s' ∧ Holds s' entries := by
  induction entries using List.reverseRecOn with
  | nil => exact ⟨s, rfl, h⟩
  | append_singleton entries e ih =>
    rw [List.length_append, List.length_singleton] at hfew
    obtain ⟨s₁, hs₁, hholds⟩ := ih (Nat.le_of_succ_le hfew)
    obtain ⟨s', hs', hholds'⟩ :=
      hholds.store hfew e.normalizedEmptyBucket e.tokensLeft e.collectionTimestamp
    exact ⟨s', (RunCondition.foldlM_concat entries e s s').mpr ⟨s₁, hs₁, hs'⟩, hholds'⟩

/-- The first entry beyond the limit has no place. -/
theorem Holds.leaves_ring (h : Holds s []) {entries : List TBStatsEntry}
    (hmany : entriesLimit < entries.length) :
    ¬ ∀ run e, run ++ [e] <+: entries →
      ∃ s₁ s', s.storeAll run = .ok s₁ ∧ StoresInRing s₁ run e s' := by
  intro hall
  have hrun : entries.take entriesLimit ++ [entries[entriesLimit]] <+: entries := by
    rw [List.take_append_getElem]
    exact List.take_prefix _ _
  have hlength : (entries.take entriesLimit).length = entriesLimit :=
    List.length_take_of_le hmany.le
  obtain ⟨s₁, s', hs₁, hstores⟩ := hall _ _ hrun
  obtain ⟨s₂, hs₂, hholds⟩ := h.storeAll _ hlength.le
  rw [hs₁] at hs₂
  cases hs₂
  exact hholds.not_storesInRing hlength _ hstores

/-- All entries that are stored after a collection go where they should exactly when there are at
most `entriesLimit` of them. -/
theorem storesInRing_iff (h : Reachable s []) (entries : List TBStatsEntry) :
    (∀ run e, run ++ [e] <+: entries →
      ∃ s₁ s', s.storeAll run = .ok s₁ ∧ StoresInRing s₁ run e s') ↔
      entries.length ≤ entriesLimit := by
  constructor
  · intro hall
    by_contra hmany
    exact h.holds.leaves_ring (Nat.lt_of_not_le hmany) hall
  · intro hfew run e hrun
    have hlt : run.length < entriesLimit := by
      have hle := hrun.length_le
      rw [List.length_append, List.length_singleton] at hle
      omega
    obtain ⟨s₁, hs₁, hholds⟩ := h.holds.storeAll run hlt.le
    obtain ⟨s', hstores⟩ := hholds.storesInRing hlt e
    exact ⟨s₁, s', hs₁, hstores⟩

/-- The ring goes around: of 250 entries, the last one takes the place of the one 100 before. -/
theorem storesInRing_iff_overwriting :
    let run := (List.range 249).map fun n : Nat => ({ tokensLeft := n } : TBStatsEntry)
    ∃ s₁ s', ({} : TBStats).storeAll run = .ok s₁ ∧
      StoresInRing s₁ run { tokensLeft := 249 } s' := by
  intro run
  have hfew : (run ++ [({ tokensLeft := 249 } : TBStatsEntry)]).length ≤ entriesLimit := by
    simp [run, entriesLimit]
  exact (storesInRing_iff .new _).mpr hfew run _ (List.prefix_refl _)

/-- A bucket that is starved for long enough stores an entry in front of its ring. -/
theorem starved_leaves_ring :
    Reachable {} [] ∧
    ¬ ∀ run e, run ++ [e] <+: List.replicate (entriesLimit + 1) ({} : TBStatsEntry) →
      ∃ s₁ s', ({} : TBStats).storeAll run = .ok s₁ ∧ StoresInRing s₁ run e s' := by
  refine ⟨.new, holds_new.leaves_ring ?_⟩
  rw [List.length_replicate]
  exact Nat.lt_succ_self _

end TBStats

end Paio
