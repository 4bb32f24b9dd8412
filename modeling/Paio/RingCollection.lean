import Mathlib.Data.List.Forall2
import Paio.StatisticsRing

/-!
# Paio.RingCollection

What one collection takes out of a ring: `garbage_collection` and the `collect_stats` that follows
it. `Collected` lists the ways in which the two can go, one for each combination of branches, with
the number of discarded entries and the indices that are copied; `Holds.garbageCollection` says that
there are no others. Which entry an index stands for depends on how often the ring was written
around (`slot`).
-/

namespace Paio

namespace TBStats

/-! ## Places in the ring -/

/-- Where the newest entry is. -/
def newestSlot (stored : List TBStatsEntry) : Nat := (stored.length - 1) % 100

/-- The number of the entry at a place: of the current lap up to the newest entry, of the lap before
behind it. -/
def slotIndex (n i : Nat) : Nat :=
  if i ≤ (n - 1) % 100 then n - 1 - (n - 1) % 100 + i else n - 101 - (n - 1) % 100 + i

/-- The entry at a place. -/
def slot (stored : List TBStatsEntry) (i : Nat) : TBStatsEntry :=
  stored.getD (slotIndex stored.length i) {}

theorem slotIndex_spec {n i : Nat} (hi : i < 100) (hn : i < n) :
    slotIndex n i % 100 = i ∧ slotIndex n i < n ∧ n ≤ slotIndex n i + 100 := by
  unfold slotIndex
  split <;> omega

/-- In a ring that was not written around, an entry is at its own number. -/
theorem slotIndex_few {n i : Nat} (hfew : n ≤ 100) (hi : i < n) : slotIndex n i = i := by
  unfold slotIndex
  split <;> omega

variable {s s' : TBStats} {stored : List TBStatsEntry} {now slidingWindow : Int}

theorem Holds.entryAt (h : Holds s stored) {i : Nat} (hi : i < 100) (hn : i < stored.length) :
    s.entryAt i = .ok (slot stored i) := by
  obtain ⟨hmod, hlt, hrecent⟩ := slotIndex_spec hi hn
  have hentry := h.entry_eq (slotIndex stored.length i) hrecent hlt
  rw [hmod, List.getElem?_eq_getElem hlt] at hentry
  rw [TBStats.entryAt, if_pos (Int.natCast_nonneg i), Int.toNat_natCast, hentry, slot,
    List.getD_eq_getElem?_getD, List.getElem?_eq_getElem hlt]
  rfl

@[simp] theorem entryAt_neg_one (s : TBStats) : s.entryAt (-1) = .error .outOfBounds := rfl

/-! ## The loops -/

/-- A loop of the garbage collector over places that exist: none of them is inside the window, or
there is a first one. -/
theorem firstValid_cases (now slidingWindow : Int) (m : Nat) (place : Nat → Int)
    (entry : Nat → TBStatsEntry)
    (hentry : ∀ j, j < m → s.entryAt (place j) = .ok (entry j)) :
    (∀ j, j < m → slidingWindow ≤ age now (entry j)) ∧
        s.firstValid now slidingWindow ((List.range m).map place) = .ok (none, m) ∨
      ∃ j, j < m ∧ age now (entry j) < slidingWindow ∧
        (∀ i, i < j → slidingWindow ≤ age now (entry i)) ∧
        s.firstValid now slidingWindow ((List.range m).map place) = .ok (some (place j), j) := by
  induction m generalizing place entry with
  | zero => exact .inl ⟨fun j hj => absurd hj (Nat.not_lt_zero j), rfl⟩
  | succ m ih =>
    have hlist : (List.range (m + 1)).map place =
        place 0 :: (List.range m).map fun j => place (j + 1) := by
      rw [List.range_succ_eq_map, List.map_cons, List.map_map]
      rfl
    have hfirst := hentry 0 (Nat.succ_pos m)
    rw [hlist, firstValid, hfirst]
    by_cases hinside : age now (entry 0) < slidingWindow
    · refine .inr ⟨0, Nat.succ_pos m, hinside, fun i hi => absurd hi (Nat.not_lt_zero i), ?_⟩
      simp only [if_pos hinside]
      rfl
    · simp only [if_neg hinside]
      have hrest := ih (fun j => place (j + 1)) (fun j => entry (j + 1))
        (fun j hj => hentry (j + 1) (Nat.succ_lt_succ hj))
      rcases hrest with ⟨hall, heq⟩ | ⟨j, hj, hin, hall, heq⟩
      · refine .inl ⟨?_, by rw [heq]; rfl⟩
        intro j hj
        cases j with
        | zero => exact not_lt.mp hinside
        | succ j => exact hall j (Nat.lt_of_succ_lt_succ hj)
      · refine .inr ⟨j + 1, Nat.succ_lt_succ hj, hin, ?_, by rw [heq]; rfl⟩
        intro i hi
        cases i with
        | zero => exact not_lt.mp hinside
        | succ i => exact hall i (Nat.lt_of_succ_lt_succ hi)

/-! ## The ends of a collection -/

/-- How a collection goes: the number of entries it reports as discarded and the indices that it
copies. -/
inductive Collected (stored : List TBStatsEntry) (now slidingWindow : Int) : Int → List Int → Prop
  /-- Nothing was stored. -/
  | empty (h : stored = []) : Collected stored now slidingWindow 0 []
  /-- The counter of entries is negative. -/
  | overflown (h : stored.length = entriesLimit) : Collected stored now slidingWindow 0 []
  /-- The newest entry is outdated. -/
  | outdated (h : stored ≠ []) (hlt : stored.length < entriesLimit)
      (hnewest : slidingWindow < age now (slot stored (newestSlot stored))) :
      Collected stored now slidingWindow 0 []
  /-- The ring was not written around, and some entry is inside the window. -/
  | straight (hfew : stored.length ≤ 100)
      (hnewest : age now (slot stored (newestSlot stored)) ≤ slidingWindow) (j : Nat)
      (hj : j < stored.length) (hin : age now (slot stored j) < slidingWindow)
      (hout : ∀ i, i < j → slidingWindow ≤ age now (slot stored i)) :
      Collected stored now slidingWindow j (indices j stored.length)
  /-- No entry is inside the window, although the newest one is not outdated. -/
  | straightNone (h : stored ≠ []) (hfew : stored.length ≤ 100)
      (hnewest : age now (slot stored (newestSlot stored)) ≤ slidingWindow)
      (hout : ∀ i, i < stored.length → slidingWindow ≤ age now (slot stored i)) :
      Collected stored now slidingWindow (-1) (indices (-1) stored.length)
  /-- The ring was written around, and the first entry inside the window is of the current lap, but
  not at its start. -/
  | lap (hmany : 100 < stored.length) (hlt : stored.length < entriesLimit)
      (hnewest : age now (slot stored (newestSlot stored)) ≤ slidingWindow) (j : Nat) (hpos : 0 < j)
      (hj : j < newestSlot stored) (hin : age now (slot stored j) < slidingWindow)
      (hout : ∀ i, i < j → slidingWindow ≤ age now (slot stored i)) :
      Collected stored now slidingWindow (j + (100 - newestSlot stored : Int))
        (indices j (newestSlot stored))
  /-- No entry of the current lap before the newest one is inside the window. -/
  | lapNone (hmany : 100 < stored.length) (hlt : stored.length < entriesLimit)
      (hnewest : age now (slot stored (newestSlot stored)) ≤ slidingWindow)
      (hout : ∀ i, i < newestSlot stored → slidingWindow ≤ age now (slot stored i)) :
      Collected stored now slidingWindow 100 (indices (-1) (newestSlot stored))
  /-- The current lap is inside the window from its start, and so is an entry from the newest one
  on. -/
  | around (hmany : 100 < stored.length) (hlt : stored.length < entriesLimit)
      (hnewest : age now (slot stored (newestSlot stored)) ≤ slidingWindow)
      (hstart : 0 < newestSlot stored) (hfirst : age now (slot stored 0) < slidingWindow) (j : Nat)
      (hj : newestSlot stored + j < 100)
      (hin : age now (slot stored (newestSlot stored + j)) < slidingWindow)
      (hout : ∀ i, i < j → slidingWindow ≤ age now (slot stored (newestSlot stored + i))) :
      Collected stored now slidingWindow j
        (if j = 0 then [] else indices (newestSlot stored + j) 100 ++ indices 0 (newestSlot stored))
  /-- The current lap is inside the window from its start, and no entry from the newest one on. -/
  | aroundNone (hmany : 100 < stored.length) (hlt : stored.length < entriesLimit)
      (hnewest : age now (slot stored (newestSlot stored)) ≤ slidingWindow)
      (hstart : 0 < newestSlot stored) (hfirst : age now (slot stored 0) < slidingWindow)
      (hout : ∀ i, newestSlot stored + i < 100 →
        slidingWindow ≤ age now (slot stored (newestSlot stored + i))) :
      Collected stored now slidingWindow (100 - newestSlot stored : Int)
        (indices 0 (newestSlot stored))

theorem indices_eq (first last : Int) :
    indices first last = (List.range (last - first).toNat).map fun j : Nat => first + j := by
  simp [indices, List.map_eq_flatMap, List.flatMap_assoc]

theorem length_indices (first last : Int) : (indices first last).length = (last - first).toNat := by
  rw [indices_eq, List.length_map, List.length_range]

theorem mem_indices {first last i : Int} : i ∈ indices first last ↔ first ≤ i ∧ i < last := by
  rw [indices_eq, List.mem_map]
  constructor
  · rintro ⟨j, hj, rfl⟩
    have hlt := List.mem_range.mp hj
    omega
  · rintro ⟨hle, hlt⟩
    exact ⟨(i - first).toNat, List.mem_range.mpr (by omega), by omega⟩

/-- The indices from zero on. -/
theorem indices_zero (m : Nat) : indices 0 m = (List.range m).map fun j : Nat => (j : Int) := by
  simp [indices_eq]

/-- The place before the ring comes first. -/
theorem indices_neg_one (m : Nat) : indices (-1) m = -1 :: indices 0 m := by
  have hcount : ((m : Int) - -1).toNat = m + 1 := by omega
  have hshift : ∀ j : Nat, (-1 : Int) + (j + 1 : Nat) = j := fun j => by omega
  rw [indices_eq, hcount, List.range_succ_eq_map, List.map_cons, List.map_map, indices_zero]
  simp only [Function.comp_def, Nat.succ_eq_add_one, hshift]
  rfl

/-- The rest of the ring from the newest entry on. -/
theorem indices_from {p : Nat} (hp : p ≤ 100) :
    ((indices 0 (100 - (p : Int))).map fun i => (p : Int) + i) =
      (List.range (100 - p)).map fun j : Nat => ((p + j : Nat) : Int) := by
  have hrest : (100 - (p : Int)) = ((100 - p : Nat) : Int) := by omega
  rw [hrest, indices_zero, List.map_map]
  apply List.map_congr_left
  intro j _
  simp

/-- What is copied of a ring that was written around, from a place at the newest entry or behind
it. -/
theorem indices_around (p j : Nat) :
    (if (p : Int) - ((p + j : Nat) : Int) ≥ 0 then indices ((p + j : Nat) : Int) p
      else indices ((p + j : Nat) : Int) 100 ++ indices 0 p) =
      if j = 0 then [] else indices (p + j) 100 ++ indices 0 p := by
  rcases Nat.eq_zero_or_pos j with rfl | hpos
  · rw [if_pos (by omega), if_pos rfl]
    simp [indices]
  · rw [if_neg (by omega), if_neg hpos.ne']
    push_cast
    rfl

theorem newestSlot_lt (stored : List TBStatsEntry) : newestSlot stored < 100 :=
  Nat.mod_lt _ (by omega)

theorem Holds.entryAt_position (h : Holds s stored) (hne : stored ≠ []) :
    s.entryAt s.position = .ok (slot stored (newestSlot stored)) := by
  have hpos := List.length_pos_of_ne_nil hne
  rw [h.position_eq]
  refine h.entryAt (newestSlot_lt stored) ?_
  show (stored.length - 1) % 100 < stored.length
  omega

theorem Holds.total_pos (h : Holds s stored) (hlt : stored.length < entriesLimit)
    (hne : stored ≠ []) : s.totalStats > 0 := by
  have hpos := List.length_pos_of_ne_nil hne
  have htotal := h.total hlt
  omega

section

variable (h : Holds s stored) (hlt : stored.length < entriesLimit)
  (hnewest : age now (slot stored (newestSlot stored)) ≤ slidingWindow)

include h hlt hnewest

/-- The ring was not written around: the search goes over all entries. -/
theorem Holds.garbageCollection_straight (hne : stored ≠ []) (hfew : stored.length ≤ 100) :
    ∃ g discarded, s.garbageCollection now slidingWindow = .ok (g, discarded) ∧
      g.tbStatistics = s.tbStatistics ∧
      Collected stored now slidingWindow discarded g.collectedIndices := by
  have htotal := h.total hlt
  have hgt := h.total_pos hlt hne
  have hle : s.totalStats ≤ s.maxStatistics := by
    rw [htotal, h.max_eq]
    omega
  have hcollect : ∀ v, { s with validEntryIndex := v }.collectedIndices =
      indices v stored.length := by
    intro v
    rw [← htotal]
    simp only [collectedIndices, if_pos hgt, if_pos hle]
  have hsearch := firstValid_cases (s := s) now slidingWindow stored.length (fun j => (j : Int))
    (slot stored) (fun j hj => h.entryAt (by omega) hj)
  rw [← indices_zero, ← htotal] at hsearch
  rw [TBStats.garbageCollection, if_pos hgt, h.entryAt_position hne]
  simp only [if_neg (not_lt.mpr hnewest), if_pos hle]
  rcases hsearch with ⟨hout, heq⟩ | ⟨j, hj, hin, hout, heq⟩
  · rw [heq]
    refine ⟨_, _, rfl, rfl, ?_⟩
    rw [hcollect]
    simp only [Option.getD_none, h.valid_eq]
    exact .straightNone hne hfew hnewest hout
  · rw [heq]
    refine ⟨_, _, rfl, rfl, ?_⟩
    rw [hcollect]
    exact .straight hfew hnewest j hj hin hout

/-- The ring was written around: the search goes over the current lap, and over the rest of the
ring when it finds the first place. -/
theorem Holds.garbageCollection_around (hmany : 100 < stored.length) :
    ∃ g discarded, s.garbageCollection now slidingWindow = .ok (g, discarded) ∧
      g.tbStatistics = s.tbStatistics ∧
      Collected stored now slidingWindow discarded g.collectedIndices := by
  have hne : stored ≠ [] := List.ne_nil_of_length_pos (by omega)
  have htotal := h.total hlt
  have hgt := h.total_pos hlt hne
  have hmore : ¬ s.totalStats ≤ s.maxStatistics := by
    rw [htotal, h.max_eq]
    omega
  have hp := newestSlot_lt stored
  have hposition : s.position = (newestSlot stored : Nat) := h.position_eq
  have hentry : ∀ i : Nat, i < 100 → s.entryAt i = .ok (slot stored i) :=
    fun i hi => h.entryAt hi (by omega)
  have hcollect : ∀ v, { s with validEntryIndex := v }.collectedIndices =
      if (newestSlot stored : Int) - v ≥ 0 then indices v (newestSlot stored)
      else indices v 100 ++ indices 0 (newestSlot stored) := by
    intro v
    rw [← hposition, ← h.max_eq]
    simp only [collectedIndices, if_pos hgt, if_neg hmore]
  have hsearch := firstValid_cases (s := s) now slidingWindow (newestSlot stored)
    (fun j => (j : Int)) (slot stored) (fun j hj => hentry j (by omega))
  rw [← indices_zero, ← hposition] at hsearch
  rw [TBStats.garbageCollection, if_pos hgt, h.entryAt_position hne]
  simp only [if_neg (not_lt.mpr hnewest), if_neg hmore]
  rcases hsearch with ⟨hout, heq⟩ | ⟨j, hj, hin, hout, heq⟩
  · have hvalid : ¬ (none : Option Int).getD s.validEntryIndex = 0 := by
      rw [Option.getD_none, h.valid_eq]
      omega
    rw [heq]
    simp only [if_neg hvalid]
    refine ⟨_, _, rfl, rfl, ?_⟩
    rw [hcollect, Option.getD_none, h.valid_eq, if_pos (by omega), h.max_eq, hposition]
    have hcount : (newestSlot stored : Int) + (100 - (newestSlot stored : Int)) = 100 := by omega
    rw [hcount]
    exact .lapNone hmany hlt hnewest hout
  · rw [heq]
    rcases Nat.eq_zero_or_pos j with rfl | hpos
    · -- the first place: on from the newest entry
      have hzero : (some ((0 : Nat) : Int)).getD s.validEntryIndex = 0 := rfl
      simp only [if_pos hzero]
      have hrest := firstValid_cases
        (s := { s with validEntryIndex := (some ((0 : Nat) : Int)).getD s.validEntryIndex })
        now slidingWindow (100 - newestSlot stored) (fun j => ((newestSlot stored + j : Nat) : Int))
        (fun j => slot stored (newestSlot stored + j)) (fun j hj => hentry _ (by omega))
      rw [← indices_from hp.le, ← hposition, ← h.max_eq] at hrest
      rcases hrest with ⟨hout', heq'⟩ | ⟨j, hj', hin', hout', heq'⟩
      · rw [heq']
        refine ⟨_, _, rfl, rfl, ?_⟩
        have hfirst : (newestSlot stored : Int) - (none : Option Int).getD
            ((some ((0 : Nat) : Int)).getD s.validEntryIndex) ≥ 0 := by
          rw [Option.getD_none, hzero]
          omega
        have hcount : (((0 : Nat) : Int) + ((100 - newestSlot stored : Nat) : Int)) =
            100 - (newestSlot stored : Int) := by omega
        rw [hcollect, if_pos hfirst, hcount, Option.getD_none, hzero]
        exact .aroundNone hmany hlt hnewest hj hin fun i hi => hout' i (by omega)
      · rw [heq']
        refine ⟨_, _, rfl, rfl, ?_⟩
        have hcount : ((0 : Nat) : Int) + (j : Int) = j := by omega
        rw [hcollect, Option.getD_some, hcount, indices_around]
        exact .around hmany hlt hnewest hj hin j (by omega) hin' hout'
    · have hvalid : ¬ (some (j : Int)).getD s.validEntryIndex = 0 := by
        rw [Option.getD_some]
        omega
      simp only [if_neg hvalid]
      refine ⟨_, _, rfl, rfl, ?_⟩
      rw [hcollect, Option.getD_some, if_pos (by omega), h.max_eq, hposition]
      exact .lap hmany hlt hnewest j hpos hj hin hout

end

/-- Whatever was stored, the garbage collector comes back, and the collection goes in one of the
ways above. -/
theorem Holds.garbageCollection (h : Holds s stored) (now slidingWindow : Int) :
    ∃ g discarded, s.garbageCollection now slidingWindow = .ok (g, discarded) ∧
      g.tbStatistics = s.tbStatistics ∧
      Collected stored now slidingWindow discarded g.collectedIndices := by
  rcases Nat.lt_or_eq_of_le h.few with hlt | hfull
  · by_cases hne : stored = []
    · have hnone : ¬ s.totalStats > 0 := by
        rw [h.total hlt, hne]
        simp
      rw [TBStats.garbageCollection, if_neg hnone]
      exact ⟨_, _, rfl, rfl, .empty hne⟩
    · by_cases hnewest : age now (slot stored (newestSlot stored)) ≤ slidingWindow
      · rcases Nat.lt_or_ge 100 stored.length with hmany | hfew
        · exact h.garbageCollection_around hlt hnewest hmany
        · exact h.garbageCollection_straight hlt hnewest hne hfew
      · rw [TBStats.garbageCollection, if_pos (h.total_pos hlt hne), h.entryAt_position hne]
        simp only [if_pos (not_le.mp hnewest)]
        refine ⟨_, _, rfl, rfl, ?_⟩
        show Collected stored now slidingWindow
          (if (0 : Int) ≤ s.maxStatistics then 0 else s.maxStatistics) []
        rw [h.max_eq, if_pos (by omega)]
        exact .outdated hne hlt (not_le.mp hnewest)
  · have hnone : ¬ s.totalStats > 0 := by
      rw [h.total_eq, hfull, entriesLimit, toInt32_limit]
      decide
    rw [TBStats.garbageCollection, if_neg hnone]
    exact ⟨_, _, rfl, rfl, .overflown hfull⟩

/-! ## Copying -/

/-- What is copied of an entry. -/
def toRaw (e : TBStatsEntry) : TBStatsRaw := ⟨e.normalizedEmptyBucket, e.tokensLeft⟩

/-- Entries that exist are copied one after the other. -/
theorem copyStatEntries_ok {is : List Int} {es : List TBStatsEntry}
    (hes : List.Forall₂ (fun i e => s.entryAt i = .ok e) is es) {k : Nat}
    {raw : ObjectStatisticsRaw} (hfit : k + es.length ≤ raw.objectStatisticEntries.length) :
    s.copyStatEntries is k raw = .ok { raw with
      objectStatisticEntries := raw.objectStatisticEntries.take k ++ es.map toRaw ++
        raw.objectStatisticEntries.drop (k + es.length) } := by
  induction hes generalizing k raw with
  | nil => simp [copyStatEntries]
  | @cons i e is es hentry _ ih =>
    rw [List.length_cons] at hfit
    have hk : k < raw.objectStatisticEntries.length := by omega
    rw [copyStatEntries, copyStatEntry, hentry]
    simp only [if_pos hk]
    rw [ih (by rw [List.length_set]; omega)]
    have htake : (raw.objectStatisticEntries.set k (toRaw e)).take (k + 1) =
        raw.objectStatisticEntries.take k ++ [toRaw e] := by
      rw [List.take_add_one, List.take_set_of_le (le_refl k), List.getElem?_set_self hk]
      rfl
    have hdrop : (raw.objectStatisticEntries.set k (toRaw e)).drop (k + 1 + es.length) =
        raw.objectStatisticEntries.drop (k + (es.length + 1)) := by
      rw [List.drop_set_of_lt (by omega), Nat.add_assoc, Nat.add_comm 1]
    have hentries : (raw.objectStatisticEntries.set k (toRaw e)).take (k + 1) ++ es.map toRaw ++
        (raw.objectStatisticEntries.set k (toRaw e)).drop (k + 1 + es.length) =
        raw.objectStatisticEntries.take k ++ (e :: es).map toRaw ++
          raw.objectStatisticEntries.drop (k + (es.length + 1)) := by
      rw [htake, hdrop]
      simp
    exact congrArg (fun entries => Except.ok { raw with objectStatisticEntries := entries })
      hentries

/-- The first index is the one before the ring. -/
theorem copyStatEntries_fault (rest : List Int) (k : Nat) (raw : ObjectStatisticsRaw) :
    s.copyStatEntries (-1 :: rest) k raw = .error .outOfBounds := by
  rw [copyStatEntries, copyStatEntry, entryAt_neg_one]

theorem entryAt_congr (h : s'.tbStatistics = s.tbStatistics) (i : Int) :
    s'.entryAt i = s.entryAt i := by
  rw [TBStats.entryAt, TBStats.entryAt, h]

/-! ## A whole collection -/

/-- The number of entries that `collect_stats` copies, which is the value it returns. -/
def statsCopied (s : TBStats) : Int := s.collectedIndices.length

/-- `garbage_collection` and then `collect_stats`, with the two values that they return. -/
def collection (s : TBStats) (now slidingWindow : Int) (raw : ObjectStatisticsRaw) :
    Except Fault (TBStats × ObjectStatisticsRaw × Int × Int) :=
  match s.garbageCollection now slidingWindow with
  | .error f => .error f
  | .ok (g, discarded) =>
    match g.collectStats raw with
    | .error f => .error f
    | .ok (s', raw') => .ok (s', raw', discarded, g.statsCopied)

/-- This is what a token bucket does. -/
theorem tryCollectStatistics_eq (b : TokenBucket) (now : Int) (raw : ObjectStatisticsRaw) :
    b.tryCollectStatistics now raw =
      (b.tokenBucketStatistics.collection now b.slidingWindowStatistics raw).map fun out =>
        ({ b with tokenBucketStatistics := out.1 }, out.2.1) := by
  rw [TokenBucket.tryCollectStatistics, collection]
  rcases b.tokenBucketStatistics.garbageCollection now b.slidingWindowStatistics with
    f | ⟨g, discarded⟩
  · rfl
  · rcases hc : g.collectStats raw with f | ⟨s', raw'⟩ <;> simp only [hc] <;> rfl

/-- The indices that are copied are places of entries, or the first one is before the ring. -/
theorem Collected.places {discarded : Int} {is : List Int}
    (h : Collected stored now slidingWindow discarded is) :
    ((∀ i ∈ is, 0 ≤ i ∧ i < 100 ∧ i < stored.length) ∧ is.length ≤ 100) ∨
      ∃ rest, is = -1 :: rest := by
  have hp := newestSlot_lt stored
  have hnone : (∀ i ∈ ([] : List Int), 0 ≤ i ∧ i < 100 ∧ i < stored.length) ∧
      ([] : List Int).length ≤ 100 := ⟨fun i hi => absurd hi List.not_mem_nil, Nat.zero_le _⟩
  cases h with
  | empty | overflown | outdated => exact .inl hnone
  | straightNone | lapNone => exact .inr ⟨_, indices_neg_one _⟩
  | straight hfew hnewest j hj hin hout =>
    refine .inl ⟨fun i hi => ?_, ?_⟩
    · have hbounds := mem_indices.mp hi
      omega
    · rw [length_indices]
      omega
  | lap hmany hlt hnewest j hpos hj hin hout =>
    refine .inl ⟨fun i hi => ?_, ?_⟩
    · have hbounds := mem_indices.mp hi
      omega
    · rw [length_indices]
      omega
  | around hmany hlt hnewest hstart hfirst j hj hin hout =>
    split
    · exact .inl hnone
    · refine .inl ⟨fun i hi => ?_, ?_⟩
      · rcases List.mem_append.mp hi with hi | hi
        · have hbounds := mem_indices.mp hi
          omega
        · have hbounds := mem_indices.mp hi
          omega
      · rw [List.length_append, length_indices, length_indices]
        omega
  | aroundNone hmany hlt hnewest hstart hfirst hout =>
    refine .inl ⟨fun i hi => ?_, ?_⟩
    · have hbounds := mem_indices.mp hi
      omega
    · rw [length_indices]
      omega

/-- The entries at places. -/
def entriesAt (stored : List TBStatsEntry) (is : List Int) : List TBStatsEntry :=
  is.map fun i => slot stored i.toNat

theorem Holds.forall₂_entryAt (h : Holds s stored) {is : List Int}
    (his : ∀ i ∈ is, 0 ≤ i ∧ i < 100 ∧ i < stored.length) :
    List.Forall₂ (fun i e => s.entryAt i = .ok e) is (entriesAt stored is) := by
  induction is with
  | nil => exact .nil
  | cons i is ih =>
    obtain ⟨hnonneg, hlt, hn⟩ := his i List.mem_cons_self
    refine .cons ?_ (ih fun j hj => his j (List.mem_cons_of_mem i hj))
    have hentry := h.entryAt (i := i.toNat) (by omega) (by omega)
    rwa [Int.toNat_of_nonneg hnonneg] at hentry

/-- What a collection answers. -/
theorem Holds.collection_cases (h : Holds s stored) (now slidingWindow : Int)
    {raw : ObjectStatisticsRaw} (hraw : raw.objectStatisticEntries.length = 100) :
    ∃ discarded is, Collected stored now slidingWindow discarded is ∧
      (((∃ rest, is = -1 :: rest) ∧
          s.collection now slidingWindow raw = .error .outOfBounds) ∨
        (∀ i ∈ is, 0 ≤ i) ∧ ∃ s', Holds s' [] ∧ s.collection now slidingWindow raw = .ok (s',
          { raw with
            objectStatisticEntries := (entriesAt stored is).map toRaw ++
              raw.objectStatisticEntries.drop is.length
            totalStats := is.length }, discarded, is.length)) := by
  obtain ⟨g, discarded, hg, hring, hcollected⟩ := h.garbageCollection now slidingWindow
  refine ⟨discarded, g.collectedIndices, hcollected, ?_⟩
  rcases hcollected.places with ⟨hplaces, hfit⟩ | ⟨rest, hrest⟩
  · have hes : List.Forall₂ (fun i e => g.entryAt i = .ok e) g.collectedIndices
        (entriesAt stored g.collectedIndices) :=
      (h.forall₂_entryAt hplaces).imp fun i e he => (entryAt_congr hring i).trans he
    have hroom : 0 + (entriesAt stored g.collectedIndices).length ≤
        raw.objectStatisticEntries.length := by
      rw [entriesAt, List.length_map, hraw]
      omega
    have hcopy := copyStatEntries_ok hes hroom
    have hcollect : ∃ s', g.collectStats raw = .ok (s',
        { raw with
          objectStatisticEntries := (entriesAt stored g.collectedIndices).map toRaw ++
            raw.objectStatisticEntries.drop g.collectedIndices.length
          totalStats := g.collectedIndices.length }) := by
      rw [collectStats, hcopy]
      simp [entriesAt]
    obtain ⟨s', hs'⟩ := hcollect
    refine .inr ⟨fun i hi => (hplaces i hi).1, s', h.collect hg hs', ?_⟩
    rw [collection, hg]
    simp only [hs', statsCopied]
  · refine .inl ⟨⟨rest, hrest⟩, ?_⟩
    rw [collection, hg]
    simp only [collectStats, hrest, copyStatEntries_fault]

end TBStats

end Paio
