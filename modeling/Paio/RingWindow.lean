import Mathlib.Data.List.GetD
import Paio.Library.RunCondition
import Paio.RingCollection

/-!
# Paio.RingWindow

What the collections of a ring are worth. The garbage collector treats the place of the newest entry
as the next free one, and it leaves a gap between the entries that are outdated (older than the
window) and those that are inside of it (younger): `accounting_iff` says when the discarded and the
returned entries add up, `collectsWindow_iff` when the entries of the window are what is returned,
and `comes_iff_inBounds` in which runs no index leaves the ring.
-/

namespace Paio

namespace TBStats

variable {s s' : TBStats} {stored : List TBStatsEntry} {now slidingWindow : Int}

/-! ## Counting -/

/-- When the numbers of discarded and of returned entries add up: nothing was stored; or the newest
entry is not outdated, some entry is inside the window, and in a ring that was written around it is
one of the current lap before the newest, while the first of the lap and the newest are not both
inside. -/
def Accounted (stored : List TBStatsEntry) (now slidingWindow : Int) : Prop :=
  stored = [] ∨
    age now (slot stored (newestSlot stored)) ≤ slidingWindow ∧
      ((stored.length ≤ 100 ∧ ∃ i, i < stored.length ∧ age now (slot stored i) < slidingWindow) ∨
        (100 < stored.length ∧ stored.length < entriesLimit ∧
          (∃ i, i < newestSlot stored ∧ age now (slot stored i) < slidingWindow) ∧
          ¬ (age now (slot stored 0) < slidingWindow ∧
            age now (slot stored (newestSlot stored)) < slidingWindow)))

theorem not_before_ring {is : List Int} (h : ∀ i ∈ is, 0 ≤ i) : ¬ ∃ rest, is = -1 :: rest := by
  rintro ⟨rest, rfl⟩
  have hnonneg := h (-1) List.mem_cons_self
  omega

theorem not_before_indices {first : Int} (hfirst : 0 ≤ first) (last : Int) :
    ¬ ∃ rest, indices first last = -1 :: rest :=
  not_before_ring fun _ hi => hfirst.trans (mem_indices.mp hi).1

theorem not_before_around {first : Int} (hfirst : 0 ≤ first) (middle last : Int) :
    ¬ ∃ rest, indices first middle ++ indices 0 last = -1 :: rest := by
  refine not_before_ring fun i hi => ?_
  rcases List.mem_append.mp hi with hi | hi
  · exact hfirst.trans (mem_indices.mp hi).1
  · exact (mem_indices.mp hi).1

/-- Something was stored, and nothing is counted. -/
theorem not_counted_nil (hpos : 0 < stored.length) :
    ¬ (0 : Int) + (([] : List Int).length : Int) = min (stored.length : Int) 100 := by
  rw [List.length_nil]
  omega

theorem Collected.accounted_iff {discarded : Int} {is : List Int}
    (h : Collected stored now slidingWindow discarded is) :
    ((¬ ∃ rest, is = -1 :: rest) ∧ discarded + is.length = min (stored.length : Int) 100) ↔
      Accounted stored now slidingWindow := by
  have hp := newestSlot_lt stored
  have hbig : 100 < entriesLimit := by decide
  cases h with
  | empty hempty => simp [Accounted, hempty]
  | overflown hfull =>
    refine iff_of_false (fun h => not_counted_nil (by omega) h.2) ?_
    rintro (rfl | ⟨-, ⟨hfew, -⟩ | ⟨-, hlt, -⟩⟩)
    · simp at hfull
      omega
    · omega
    · omega
  | outdated hne hlt hnewest =>
    refine iff_of_false (fun h => not_counted_nil (List.length_pos_of_ne_nil hne) h.2) ?_
    rintro (hempty | ⟨hle, -⟩)
    · exact hne hempty
    · omega
  | straight hfew hnewest j hj hin hout =>
    refine iff_of_true ⟨not_before_indices (Int.natCast_nonneg j) _, ?_⟩
      (.inr ⟨hnewest, .inl ⟨hfew, j, hj, hin⟩⟩)
    rw [length_indices]
    omega
  | straightNone hne hfew hnewest hout =>
    refine iff_of_false (fun h => h.1 ⟨_, indices_neg_one _⟩) ?_
    rintro (hempty | ⟨-, ⟨-, i, hi, hin⟩ | ⟨hmany, -⟩⟩)
    · exact hne hempty
    · exact absurd (hout i hi) (not_le.mpr hin)
    · omega
  | lap hmany hlt hnewest j hpos hj hin hout =>
    refine iff_of_true ⟨not_before_indices (Int.natCast_nonneg j) _, ?_⟩
      (.inr ⟨hnewest, .inr ⟨hmany, hlt, ⟨j, hj, hin⟩, fun h => ?_⟩⟩)
    · rw [length_indices]
      omega
    · exact absurd (hout 0 hpos) (not_le.mpr h.1)
  | lapNone hmany hlt hnewest hout =>
    refine iff_of_false (fun h => h.1 ⟨_, indices_neg_one _⟩) ?_
    rintro (rfl | ⟨-, ⟨hfew, -⟩ | ⟨-, -, ⟨i, hi, hin⟩, -⟩⟩)
    · simp at hmany
    · omega
    · exact absurd (hout i hi) (not_le.mpr hin)
  | around hmany hlt hnewest hstart hfirst j hj hin hout =>
    rcases Nat.eq_zero_or_pos j with rfl | hjpos
    · -- the newest entry is taken for the oldest, and nothing is copied
      rw [if_pos rfl]
      refine iff_of_false (fun h => not_counted_nil (by omega) h.2) ?_
      rintro (rfl | ⟨-, ⟨hfew, -⟩ | ⟨-, -, -, hnot⟩⟩)
      · simp at hmany
      · omega
      · exact hnot ⟨hfirst, hin⟩
    · rw [if_neg hjpos.ne']
      refine iff_of_true ⟨not_before_around (by omega) _ _, ?_⟩
        (.inr ⟨hnewest, .inr ⟨hmany, hlt, ⟨0, hstart, hfirst⟩, fun h => ?_⟩⟩)
      · rw [List.length_append, length_indices, length_indices]
        omega
      · exact absurd (hout 0 hjpos) (not_le.mpr h.2)
  | aroundNone hmany hlt hnewest hstart hfirst hout =>
    refine iff_of_true ⟨not_before_indices (le_refl 0) _, ?_⟩
      (.inr ⟨hnewest, .inr ⟨hmany, hlt, ⟨0, hstart, hfirst⟩, fun h => ?_⟩⟩)
    · rw [length_indices]
      omega
    · exact absurd (hout 0 hp) (not_le.mpr h.2)

/-- For every reachable ring, every instant and every window: the discarded entries and the
returned ones are all that the ring held exactly when the stored entries are as above. -/
theorem accounting_iff (h : Reachable s stored) (now slidingWindow : Int)
    {raw : ObjectStatisticsRaw} (hraw : raw.objectStatisticEntries.length = 100) :
    (∃ s' raw' discarded returned,
      s.collection now slidingWindow raw = .ok (s', raw', discarded, returned) ∧
        discarded + returned = min (stored.length : Int) 100) ↔
      Accounted stored now slidingWindow := by
  obtain ⟨discarded, is, hcollected, hcases⟩ := h.holds.collection_cases now slidingWindow hraw
  rw [← hcollected.accounted_iff]
  rcases hcases with ⟨hbefore, hfault⟩ | ⟨hplaces, s', -, hok⟩
  · refine iff_of_false ?_ (fun h => h.1 hbefore)
    rintro ⟨s', raw', discarded', returned, hok, -⟩
    rw [hfault] at hok
    cases hok
  · constructor
    · rintro ⟨s'', raw', discarded', returned, hok', hsum⟩
      rw [hok] at hok'
      cases hok'
      exact ⟨not_before_ring hplaces, hsum⟩
    · rintro ⟨-, hsum⟩
      exact ⟨s', _, discarded, is.length, hok, hsum⟩

/-- Three entries, of which one is outdated. -/
theorem accounting_iff_three : ∃ s, Reachable s [⟨0, 1, 10⟩, ⟨0, 2, 20⟩, ⟨0, 3, 30⟩] ∧
    ∃ s' raw' discarded returned, s.collection 40 25 {} = .ok (s', raw', discarded, returned) ∧
      discarded + returned = 3 := by
  obtain ⟨s, hs⟩ := exists_reachable [⟨0, 1, 10⟩, ⟨0, 2, 20⟩, ⟨0, 3, 30⟩] (by decide)
  refine ⟨s, hs, (accounting_iff hs 40 25 rfl).mpr (.inr ⟨by decide, .inl ⟨by decide, 1, ?_⟩⟩)⟩
  decide

/-- An outdated entry is discarded and not counted. -/
theorem outdated_not_counted : ∃ s, Reachable s [⟨0, 0, 0⟩] ∧
    ∃ s' raw', s.collection 10 5 {} = .ok (s', raw', 0, 0) :=
  ⟨_, @Reachable.store {} _ [] 0 0 0 .new rfl, _, _, rfl⟩

/-! ## The window -/

/-- The `k`-th newest entry, the newest being number zero. -/
def nthNewest (stored : List TBStatsEntry) (k : Nat) : TBStatsEntry :=
  stored.getD (stored.length - 1 - k) {}

/-- The places of the current lap. -/
theorem slot_eq_nthNewest {i : Nat} (hi : i ≤ newestSlot stored) :
    slot stored i = nthNewest stored (newestSlot stored - i) := by
  unfold slot nthNewest slotIndex newestSlot at *
  rw [if_pos hi]
  congr 1
  omega

/-- Entries stored under a clock that did not go back and has not gone around, and the time at which
they are looked at. -/
structure InOrder (stored : List TBStatsEntry) (now : Int) : Prop where
  sorted : (stored.map TBStatsEntry.collectionTimestamp).Pairwise (· ≤ ·)
  nonneg : ∀ e ∈ stored, 0 ≤ e.collectionTimestamp
  past : ∀ e ∈ stored, e.collectionTimestamp ≤ now
  present : now < 2 ^ 64

theorem InOrder.age_eq (h : InOrder stored now) {e : TBStatsEntry} (he : e ∈ stored) :
    age now e = now - e.collectionTimestamp := by
  have hnonneg := h.nonneg e he
  have hpast := h.past e he
  have hpresent := h.present
  unfold age
  omega

theorem nthNewest_eq {k : Nat} (hk : k < stored.length) :
    nthNewest stored k = stored[stored.length - 1 - k] := by
  rw [nthNewest, List.getD_eq_getElem _ _ (by omega)]

/-- An older entry has the greater age. -/
theorem InOrder.age_anti (h : InOrder stored now) {i j : Nat} (hij : i ≤ j)
    (hj : j < stored.length) : age now stored[j] ≤ age now stored[i] := by
  rw [h.age_eq (List.getElem_mem _), h.age_eq (List.getElem_mem _)]
  rcases hij.eq_or_lt with rfl | hlt
  · exact le_refl _
  · have hle := List.pairwise_iff_getElem.mp h.sorted i j (by rw [List.length_map]; omega)
      (by rw [List.length_map]; omega) hlt
    rw [List.getElem_map, List.getElem_map] at hle
    omega

theorem InOrder.age_le (h : InOrder stored now) {i j : Nat} (hij : i ≤ j) (hj : j < stored.length) :
    age now (nthNewest stored i) ≤ age now (nthNewest stored j) := by
  rw [nthNewest_eq (by omega), nthNewest_eq hj]
  exact h.age_anti (by omega) _

/-- The newest entry has the least age. -/
theorem InOrder.newest_le (h : InOrder stored now) {e : TBStatsEntry} (he : e ∈ stored) :
    age now (nthNewest stored 0) ≤ age now e := by
  obtain ⟨i, hi, rfl⟩ := List.mem_iff_getElem.mp he
  rw [nthNewest_eq (by omega)]
  exact h.age_anti (by omega) _

/-- What a collection should answer: of the most recent hundred entries a part at the end, with
every entry that is inside the window and none that is outdated; the number of them twice; and an
empty ring. -/
def CollectsWindow (stored : List TBStatsEntry) (now slidingWindow : Int) (s' : TBStats)
    (raw' : ObjectStatisticsRaw) (returned : Int) : Prop :=
  ∃ skipped kept, stored.drop (stored.length - 100) = skipped ++ kept ∧
    (∀ e ∈ skipped, slidingWindow ≤ age now e) ∧ (∀ e ∈ kept, age now e ≤ slidingWindow) ∧
    raw'.objectStatisticEntries.take kept.length = kept.map toRaw ∧
    raw'.totalStats = kept.length ∧ returned = kept.length ∧ Holds s' []

/-- When it does, for entries in order: nothing was stored; or the ring was not written around and
the age of the newest entry is not the window; or it was, and the newest entry is outdated; or the
counter of entries is negative and no entry is inside the window. -/
def Windowed (stored : List TBStatsEntry) (now slidingWindow : Int) : Prop :=
  stored = [] ∨
    (stored.length ≤ 100 ∧ age now (nthNewest stored 0) ≠ slidingWindow) ∨
    (100 < stored.length ∧ stored.length < entriesLimit ∧
      slidingWindow < age now (nthNewest stored 0)) ∨
    (stored.length = entriesLimit ∧ slidingWindow ≤ age now (nthNewest stored 0))

/-- Of the most recent hundred entries, those that are not among the last few. -/
theorem nthNewest_mem_skipped {skipped kept : List TBStatsEntry}
    (h : stored.drop (stored.length - 100) = skipped ++ kept) {k : Nat} (hk : k < stored.length)
    (hrecent : k < 100) (hkept : kept.length ≤ k) : nthNewest stored k ∈ skipped := by
  have hlength := congrArg List.length h
  rw [List.length_drop, List.length_append] at hlength
  have hplace : stored.length - 1 - k - (stored.length - 100) < skipped.length := by omega
  have hentry := congrArg (·[stored.length - 1 - k - (stored.length - 100)]?) h
  simp only [List.getElem?_drop, List.getElem?_append_left hplace] at hentry
  have hindex : stored.length - 100 + (stored.length - 1 - k - (stored.length - 100)) =
      stored.length - 1 - k := by omega
  rw [hindex, List.getElem?_eq_getElem (by omega), List.getElem?_eq_getElem hplace] at hentry
  rw [nthNewest_eq hk, Option.some.inj hentry]
  exact List.getElem_mem _

theorem slot_few (hfew : stored.length ≤ 100) {i : Nat} (hi : i < stored.length) :
    slot stored i = stored[i] := by
  rw [slot, slotIndex_few hfew hi, List.getD_eq_getElem _ _ hi]

/-- The entries at the places from `j` on, in a ring that was not written around. -/
theorem entriesAt_straight (hfew : stored.length ≤ 100) (j : Nat) :
    entriesAt stored (indices j stored.length) = stored.drop j := by
  apply List.ext_getElem
  · rw [entriesAt, List.length_map, length_indices, List.length_drop]
    omega
  · intro i h₁ h₂
    rw [List.length_drop] at h₂
    simp only [entriesAt, indices_eq, List.getElem_map, List.getElem_range, List.getElem_drop]
    have hplace : ((j : Int) + (i : Int)).toNat = j + i := by omega
    rw [hplace, slot_few hfew (by omega)]

theorem slot_newestSlot (stored : List TBStatsEntry) :
    slot stored (newestSlot stored) = nthNewest stored 0 := by
  rw [slot_eq_nthNewest (le_refl _), Nat.sub_self]

/-- In order, an entry of the current lap is at least as old as the newest one. -/
theorem InOrder.newest_le_slot (h : InOrder stored now) {i : Nat} (hi : i ≤ newestSlot stored)
    (hne : stored ≠ []) : age now (nthNewest stored 0) ≤ age now (slot stored i) := by
  have hpos := List.length_pos_of_ne_nil hne
  rw [slot_eq_nthNewest hi]
  refine h.age_le (Nat.zero_le _) ?_
  show (stored.length - 1) % 100 - i < stored.length
  omega

theorem not_windowed_of_many (hmany : 100 < stored.length) (hlt : stored.length < entriesLimit)
    (hnewest : age now (slot stored (newestSlot stored)) ≤ slidingWindow) :
    ¬ Windowed stored now slidingWindow := by
  rw [slot_newestSlot] at hnewest
  rintro (rfl | ⟨hfew, -⟩ | ⟨-, -, hout⟩ | ⟨hfull, -⟩)
  · simp at hmany
  · omega
  · omega
  · omega

/-- A collection that answers with the last entries, as many as it copies, and skips none that is
inside the window. -/
theorem Collected.windowed {discarded : Int} {is : List Int}
    (h : Collected stored now slidingWindow discarded is) (horder : InOrder stored now)
    (hplaces : ∀ i ∈ is, 0 ≤ i) {skipped kept : List TBStatsEntry}
    (hrecent : stored.drop (stored.length - 100) = skipped ++ kept)
    (hskipped : ∀ e ∈ skipped, slidingWindow ≤ age now e) (hlength : kept.length = is.length) :
    Windowed stored now slidingWindow := by
  have hp := newestSlot_lt stored
  have hbig : 100 < entriesLimit := by decide
  cases h with
  | empty hempty => exact .inl hempty
  | overflown hfull =>
    have hmem := nthNewest_mem_skipped hrecent (k := 0) (by omega) (by omega) hlength.le
    exact .inr (.inr (.inr ⟨hfull, hskipped _ hmem⟩))
  | outdated hne hlt hnewest =>
    rw [slot_newestSlot] at hnewest
    rcases Nat.lt_or_ge 100 stored.length with hmany | hfew
    · exact .inr (.inr (.inl ⟨hmany, hlt, hnewest⟩))
    · exact .inr (.inl ⟨hfew, hnewest.ne'⟩)
  | straight hfew hnewest j hj hin hout =>
    have hle := horder.newest_le_slot (i := j)
      (by show j ≤ (stored.length - 1) % 100; omega) (List.ne_nil_of_length_pos (by omega))
    exact .inr (.inl ⟨hfew, by omega⟩)
  | straightNone hne hfew hnewest hout =>
    exact absurd ⟨_, indices_neg_one _⟩ (not_before_ring hplaces)
  | lap hmany hlt hnewest j hpos hj hin hout =>
    -- one entry fewer than there are inside the window
    rw [length_indices] at hlength
    have hmem := nthNewest_mem_skipped hrecent (k := newestSlot stored - j) (by omega) (by omega)
      (by omega)
    rw [slot_eq_nthNewest hj.le] at hin
    exact absurd (hskipped _ hmem) (not_le.mpr hin)
  | lapNone hmany hlt hnewest hout =>
    exact absurd ⟨_, indices_neg_one _⟩ (not_before_ring hplaces)
  | around hmany hlt hnewest hstart hfirst j hj hin hout =>
    have hle := horder.newest_le_slot (Nat.zero_le _) (List.ne_nil_of_length_pos (by omega))
    rcases Nat.eq_zero_or_pos j with rfl | hjpos
    · have hmem := nthNewest_mem_skipped hrecent (k := 0) (by omega) (by omega) hlength.le
      have hge := hskipped _ hmem
      omega
    · have hge := hout 0 hjpos
      rw [Nat.add_zero, slot_newestSlot] at hge
      omega
  | aroundNone hmany hlt hnewest hstart hfirst hout =>
    have hle := horder.newest_le_slot (Nat.zero_le _) (List.ne_nil_of_length_pos (by omega))
    have hge := hout 0 hp
    rw [Nat.add_zero, slot_newestSlot] at hge
    omega

/-- Under the condition the copied entries are those of the window. -/
theorem Collected.kept {discarded : Int} {is : List Int}
    (h : Collected stored now slidingWindow discarded is) (horder : InOrder stored now)
    (hwindowed : Windowed stored now slidingWindow) :
    (∀ i ∈ is, 0 ≤ i) ∧ ∃ skipped, stored.drop (stored.length - 100) =
        skipped ++ entriesAt stored is ∧
      (∀ e ∈ skipped, slidingWindow ≤ age now e) ∧
      ∀ e ∈ entriesAt stored is, age now e ≤ slidingWindow := by
  have hbig : 100 < entriesLimit := by decide
  cases h with
  | empty hempty => simp [hempty, entriesAt]
  | overflown hfull =>
    have hge : slidingWindow ≤ age now (nthNewest stored 0) := by
      rcases hwindowed with rfl | ⟨hfew, -⟩ | ⟨-, hlt, -⟩ | ⟨-, hge⟩
      · simp at hfull
        omega
      · omega
      · omega
      · exact hge
    refine ⟨by simp, stored.drop (stored.length - 100), by simp [entriesAt], ?_, by simp [entriesAt]⟩
    intro e he
    exact hge.trans (horder.newest_le (List.mem_of_mem_drop he))
  | outdated hne hlt hnewest =>
    refine ⟨by simp, stored.drop (stored.length - 100), by simp [entriesAt], ?_, by simp [entriesAt]⟩
    intro e he
    have hle := horder.newest_le (List.mem_of_mem_drop he)
    rw [slot_newestSlot] at hnewest
    omega
  | straight hfew hnewest j hj hin hout =>
    have hall : stored.length - 100 = 0 := by omega
    rw [entriesAt_straight hfew, hall, List.drop_zero]
    refine ⟨fun i hi => ?_, stored.take j, (List.take_append_drop j stored).symm, ?_, ?_⟩
    · have hbounds := mem_indices.mp hi
      omega
    · intro e he
      obtain ⟨i, hi, rfl⟩ := List.mem_take_iff_getElem.mp he
      have hge := hout i (by omega)
      rwa [slot_few hfew (by omega)] at hge
    · intro e he
      obtain ⟨i, hi, rfl⟩ := List.mem_drop_iff_getElem.mp he
      have hle := horder.age_anti (Nat.le_add_right j i) (by omega)
      rw [slot_few hfew hj] at hin
      omega
  | straightNone hne hfew hnewest hout =>
    have hpos := List.length_pos_of_ne_nil hne
    have hge := hout (newestSlot stored) (by show (stored.length - 1) % 100 < _; omega)
    rw [slot_newestSlot] at hge hnewest
    rcases hwindowed with hempty | ⟨-, hage⟩ | ⟨hmany, -⟩ | ⟨hfull, -⟩
    · exact absurd hempty hne
    · omega
    · omega
    · omega
  | lap hmany hlt hnewest j hpos hj hin hout =>
    exact absurd hwindowed (not_windowed_of_many hmany hlt hnewest)
  | lapNone hmany hlt hnewest hout =>
    exact absurd hwindowed (not_windowed_of_many hmany hlt hnewest)
  | around hmany hlt hnewest hstart hfirst j hj hin hout =>
    exact absurd hwindowed (not_windowed_of_many hmany hlt hnewest)
  | aroundNone hmany hlt hnewest hstart hfirst hout =>
    exact absurd hwindowed (not_windowed_of_many hmany hlt hnewest)

/-- A collection that answers with the entries of the window has met the condition. -/
theorem Holds.windowed (h : Holds s stored) (horder : InOrder stored now) {raw : ObjectStatisticsRaw}
    (hraw : raw.objectStatisticEntries.length = 100) {raw' : ObjectStatisticsRaw}
    {discarded returned : Int}
    (hok : s.collection now slidingWindow raw = .ok (s', raw', discarded, returned))
    (hwindow : CollectsWindow stored now slidingWindow s' raw' returned) :
    Windowed stored now slidingWindow := by
  obtain ⟨discarded', is, hcollected, hcases⟩ := h.collection_cases now slidingWindow hraw
  obtain ⟨skipped, kept, hrecent, hskipped, -, -, -, hreturned, -⟩ := hwindow
  rcases hcases with ⟨-, hfault⟩ | ⟨hplaces, s'', -, hok'⟩
  · rw [hfault] at hok
    cases hok
  · rw [hok'] at hok
    cases hok
    exact hcollected.windowed horder hplaces hrecent hskipped (by omega)

/-- For every reachable ring whose entries came in order, every later instant and every window: a
collection answers with the entries of the window exactly under the condition above. -/
theorem collectsWindow_iff (h : Reachable s stored) (horder : InOrder stored now)
    (slidingWindow : Int) {raw : ObjectStatisticsRaw}
    (hraw : raw.objectStatisticEntries.length = 100) :
    (∃ s' raw' discarded returned,
      s.collection now slidingWindow raw = .ok (s', raw', discarded, returned) ∧
        CollectsWindow stored now slidingWindow s' raw' returned) ↔
      Windowed stored now slidingWindow := by
  constructor
  · rintro ⟨s', raw', discarded, returned, hok, hwindow⟩
    exact h.holds.windowed horder hraw hok hwindow
  · intro hw
    obtain ⟨discarded, is, hcollected, hcases⟩ := h.holds.collection_cases now slidingWindow hraw
    obtain ⟨hplaces, skipped, hrecent, hskipped, hkept⟩ := hcollected.kept horder hw
    rcases hcases with ⟨hbefore, -⟩ | ⟨-, s', hempty, hok⟩
    · exact absurd hbefore (not_before_ring hplaces)
    · have hlength : (entriesAt stored is).length = is.length := List.length_map _
      refine ⟨s', _, discarded, is.length, hok, skipped, entriesAt stored is, hrecent, hskipped,
        hkept, ?_, ?_, ?_, hempty⟩
      · exact List.take_left' (List.length_map _)
      · rw [hlength]
      · rw [hlength]

/-- Three entries, of which two are inside the window. -/
theorem collectsWindow_iff_three : ∃ s, Reachable s [⟨0, 1, 10⟩, ⟨0, 2, 20⟩, ⟨0, 3, 30⟩] ∧
    ∃ s' raw' discarded returned, s.collection 40 25 {} = .ok (s', raw', discarded, returned) ∧
      CollectsWindow [⟨0, 1, 10⟩, ⟨0, 2, 20⟩, ⟨0, 3, 30⟩] 40 25 s' raw' returned := by
  obtain ⟨s, hs⟩ := exists_reachable [⟨0, 1, 10⟩, ⟨0, 2, 20⟩, ⟨0, 3, 30⟩] (by decide)
  refine ⟨s, hs, (collectsWindow_iff hs ?_ 25 rfl).mpr ?_⟩
  · constructor <;> simp
  · exact .inr (.inl ⟨by decide, by decide⟩)

/-- Of a hundred and two entries that are all inside the window nothing is collected. -/
theorem lap_not_collected : ∃ s, Reachable s (List.replicate 102 {}) ∧
    InOrder (List.replicate 102 {}) 1 ∧
    ¬ ∃ s' raw' discarded returned, s.collection 1 5 {} = .ok (s', raw', discarded, returned) ∧
      CollectsWindow (List.replicate 102 {}) 1 5 s' raw' returned := by
  have hlength : (List.replicate 102 ({} : TBStatsEntry)).length = 102 := List.length_replicate
  obtain ⟨s, hs⟩ := exists_reachable (List.replicate 102 {}) (by rw [hlength]; decide)
  have horder : InOrder (List.replicate 102 {}) 1 := by
    constructor
    · rw [List.map_replicate, List.pairwise_replicate]
      exact .inr (le_refl _)
    all_goals simp
  refine ⟨s, hs, horder, ?_⟩
  rintro ⟨s', raw', discarded, returned, hok, hwindow⟩
  have hnewest : age 1 (slot (List.replicate 102 {}) (newestSlot (List.replicate 102 {}))) ≤ 5 := by
    decide
  exact not_windowed_of_many (by omega) (by rw [hlength]; decide) hnewest
    (hs.holds.windowed horder rfl hok hwindow)

/-! ## Runs -/

/-- A call on the ring; the structure for the answer always has its hundred entries. -/
inductive RingCall where
  | store (emptyBucketTime tokensLeft : ℚ) (now : Int)
  | collect (now slidingWindow : Int) (raw : ObjectStatisticsRaw)
      (hraw : raw.objectStatisticEntries.length = 100)

def RingCall.time : RingCall → Int
  | .store _ _ now => now
  | .collect now _ _ _ => now

/-- One call, with the entries that were stored since the last collection. -/
def ringCall (state : TBStats × List TBStatsEntry) :
    RingCall → Except Fault (TBStats × List TBStatsEntry)
  | .store emptyBucketTime tokensLeft now =>
    match state.1.storeStatsEntry emptyBucketTime tokensLeft now with
    | .ok s => .ok (s, state.2 ++ [⟨emptyBucketTime, tokensLeft, now⟩])
    | .error f => .error f
  | .collect now slidingWindow raw _ =>
    match state.1.collection now slidingWindow raw with
    | .ok (s, _) => .ok (s, [])
    | .error f => .error f

/-- A run of calls on a new ring. It comes back when every index that it uses exists. -/
def ringCalls (calls : List RingCall) : Except Fault (TBStats × List TBStatsEntry) :=
  calls.foldlM ringCall ({}, [])

/-- When the indices of a call are inside of the ring. A store needs a counter that is not too large.
A collection needs that there is nothing to collect (also because the counter is negative) or the
newest entry is outdated; or that the newest entry of a ring that was not written around is inside
the window; or that the second newest one of a ring that was written around is, and the newest one
is not at the first place. -/
def InBounds (stored : List TBStatsEntry) : RingCall → Prop
  | .store _ _ _ => stored.length < entriesLimit
  | .collect now slidingWindow _ _ =>
    stored = [] ∨ stored.length = entriesLimit ∨ slidingWindow < age now (nthNewest stored 0) ∨
      (stored.length ≤ 100 ∧ age now (nthNewest stored 0) < slidingWindow) ∨
      (100 < stored.length ∧ stored.length % 100 ≠ 1 ∧
        age now (nthNewest stored 1) < slidingWindow)

/-- What a run leaves: a ring with the entries that it stored, in the order of its calls. -/
theorem ringCalls_holds {calls : List RingCall} {state : TBStats × List TBStatsEntry}
    (h : ringCalls calls = .ok state) :
    Holds state.1 state.2 ∧
      (state.2.map TBStatsEntry.collectionTimestamp).Sublist (calls.map RingCall.time) := by
  induction calls using List.reverseRecOn generalizing state with
  | nil =>
    cases h
    exact ⟨holds_new, List.Sublist.refl _⟩
  | append_singleton calls c ih =>
    have hrun : (calls ++ [c]).foldlM ringCall ({}, []) = .ok state := h
    obtain ⟨⟨s, stored⟩, hs, hc⟩ := (RunCondition.foldlM_concat calls c _ state).mp hrun
    obtain ⟨hholds, hsub⟩ := ih hs
    rw [List.map_append]
    cases c with
    | store emptyBucketTime tokensLeft now =>
      simp only [ringCall] at hc
      split at hc <;> cases hc
      rename_i s' hstore
      rcases Nat.lt_or_eq_of_le hholds.few with hlt | hfull
      · obtain ⟨s'', hs'', hholds'⟩ := hholds.store hlt emptyBucketTime tokensLeft now
        rw [hs''] at hstore
        cases hstore
        rw [List.map_append]
        exact ⟨hholds', hsub.append (List.Sublist.refl _)⟩
      · rw [hholds.store_full hfull] at hstore
        cases hstore
    | collect now slidingWindow raw hraw =>
      simp only [ringCall] at hc
      split at hc <;> cases hc
      rename_i s' out hcollect
      obtain ⟨_, _, _, hcases⟩ := hholds.collection_cases now slidingWindow hraw
      rcases hcases with ⟨-, hfault⟩ | ⟨-, s'', hempty, hok⟩
      · rw [hfault] at hcollect
        cases hcollect
      · rw [hok] at hcollect
        cases hcollect
        exact ⟨hempty, List.nil_sublist _⟩

/-- For entries in order, the place before the ring is not among the indices that are copied. -/
theorem Collected.inBounds_iff {discarded : Int} {is : List Int}
    (h : Collected stored now slidingWindow discarded is) (horder : InOrder stored now)
    {raw : ObjectStatisticsRaw} (hraw : raw.objectStatisticEntries.length = 100) :
    (¬ ∃ rest, is = -1 :: rest) ↔ InBounds stored (.collect now slidingWindow raw hraw) := by
  have hp := newestSlot_lt stored
  have hbig : 100 < entriesLimit := by decide
  have hslot : newestSlot stored = (stored.length - 1) % 100 := rfl
  -- an older entry of the current lap that is inside the window
  have hsecond : ∀ {j}, 100 < stored.length → j < newestSlot stored →
      age now (slot stored j) < slidingWindow →
      InBounds stored (.collect now slidingWindow raw hraw) := by
    intro j hmany hj hin
    rw [slot_eq_nthNewest hj.le] at hin
    have hle := horder.age_le (i := 1) (j := newestSlot stored - j) (by omega) (by omega)
    exact .inr (.inr (.inr (.inr ⟨hmany, by omega, by omega⟩)))
  cases h with
  | empty hempty => exact iff_of_true (by simp) (.inl hempty)
  | overflown hfull => exact iff_of_true (by simp) (.inr (.inl hfull))
  | outdated hne hlt hnewest =>
    rw [slot_newestSlot] at hnewest
    exact iff_of_true (by simp) (.inr (.inr (.inl hnewest)))
  | straight hfew hnewest j hj hin hout =>
    have hle := horder.newest_le_slot (i := j) (by omega) (List.ne_nil_of_length_pos (by omega))
    exact iff_of_true (not_before_indices (Int.natCast_nonneg j) _)
      (.inr (.inr (.inr (.inl ⟨hfew, by omega⟩))))
  | straightNone hne hfew hnewest hout =>
    have hpos := List.length_pos_of_ne_nil hne
    have hge := hout (newestSlot stored) (by omega)
    rw [slot_newestSlot] at hge hnewest
    refine iff_of_false (fun h => h ⟨_, indices_neg_one _⟩) ?_
    rintro (hempty | hfull | hold | ⟨-, hin⟩ | ⟨hmany, -⟩)
    · exact hne hempty
    · omega
    · omega
    · omega
    · omega
  | lap hmany hlt hnewest j hpos hj hin hout =>
    exact iff_of_true (not_before_indices (Int.natCast_nonneg j) _) (hsecond hmany hj hin)
  | lapNone hmany hlt hnewest hout =>
    rw [slot_newestSlot] at hnewest
    refine iff_of_false (fun h => h ⟨_, indices_neg_one _⟩) ?_
    rintro (rfl | hfull | hold | ⟨hfew, -⟩ | ⟨-, hplace, hin⟩)
    · simp at hmany
    · omega
    · omega
    · omega
    · have hge := hout (newestSlot stored - 1) (by omega)
      have hone : newestSlot stored - (newestSlot stored - 1) = 1 := by omega
      rw [slot_eq_nthNewest (Nat.sub_le _ 1), hone] at hge
      omega
  | around hmany hlt hnewest hstart hfirst j hj hin hout =>
    refine iff_of_true ?_ (hsecond hmany hstart hfirst)
    split
    · rintro ⟨rest, hrest⟩
      cases hrest
    · exact not_before_around (by omega) _ _
  | aroundNone hmany hlt hnewest hstart hfirst hout =>
    exact iff_of_true (not_before_indices (le_refl 0) _) (hsecond hmany hstart hfirst)

/-- One call on a ring whose entries are in order. -/
theorem Holds.ringCall_comes_iff (h : Holds s stored) (c : RingCall)
    (horder : InOrder stored c.time) :
    (∃ state, ringCall (s, stored) c = .ok state) ↔ InBounds stored c := by
  cases c with
  | store emptyBucketTime tokensLeft now =>
    rcases Nat.lt_or_eq_of_le h.few with hlt | hfull
    · obtain ⟨s', hs', -⟩ := h.store hlt emptyBucketTime tokensLeft now
      exact iff_of_true ⟨_, by simp only [ringCall, hs']; rfl⟩ hlt
    · refine iff_of_false ?_ hfull.not_lt
      rintro ⟨state, hstate⟩
      simp only [ringCall, h.store_full hfull] at hstate
      cases hstate
  | collect now slidingWindow raw hraw =>
    obtain ⟨discarded, is, hcollected, hcases⟩ := h.collection_cases now slidingWindow hraw
    rw [← hcollected.inBounds_iff horder hraw]
    rcases hcases with ⟨hbefore, hfault⟩ | ⟨hplaces, s', -, hok⟩
    · refine iff_of_false ?_ (fun h => h hbefore)
      rintro ⟨state, hstate⟩
      simp only [ringCall, hfault] at hstate
      cases hstate
    · exact iff_of_true ⟨_, by simp only [ringCall, hok]; rfl⟩ (not_before_ring hplaces)

/-- The times of a clock of 64 bits that does not go back. -/
structure Clocked (calls : List RingCall) : Prop where
  sorted : (calls.map RingCall.time).Pairwise (· ≤ ·)
  nonneg : ∀ c ∈ calls, 0 ≤ c.time
  present : ∀ c ∈ calls, c.time < 2 ^ 64

/-- The entries of a run are in order at the time of the next call. -/
theorem Clocked.inOrder {calls run : List RingCall} {c : RingCall} (h : Clocked calls)
    (hrun : run ++ [c] <+: calls)
    (hsub : (stored.map TBStatsEntry.collectionTimestamp).Sublist (run.map RingCall.time)) :
    InOrder stored c.time := by
  have hsorted := h.sorted.sublist (hrun.sublist.map RingCall.time)
  rw [List.map_append, List.pairwise_append] at hsorted
  obtain ⟨hrunSorted, -, hlast⟩ := hsorted
  have htime : ∀ e ∈ stored, ∃ d ∈ run, d.time = e.collectionTimestamp := by
    intro e he
    exact List.mem_map.mp (hsub.subset (List.mem_map_of_mem he))
  refine ⟨hrunSorted.sublist hsub, ?_, ?_, ?_⟩
  · intro e he
    obtain ⟨d, hd, hde⟩ := htime e he
    rw [← hde]
    exact h.nonneg d (hrun.subset (List.mem_append_left [c] hd))
  · intro e he
    obtain ⟨d, hd, hde⟩ := htime e he
    rw [← hde]
    exact hlast _ (List.mem_map_of_mem hd) _ (by simp)
  · exact h.present c (hrun.subset (List.mem_append_right run (List.mem_singleton_self c)))

/-- A run uses no index outside of the ring exactly when each of its calls meets the condition. -/
theorem comes_iff_inBounds {calls : List RingCall} (h : Clocked calls) :
    (∃ state, ringCalls calls = .ok state) ↔
      ∀ run c, run ++ [c] <+: calls → ∀ state, ringCalls run = .ok state →
        InBounds state.2 c := by
  have hcall : ∀ run c, run ++ [c] <+: calls → ∀ state, run.foldlM ringCall ({}, []) = .ok state →
      ((∃ state', ringCall state c = .ok state') ↔ InBounds state.2 c) := by
    intro run c hrun state hstate
    obtain ⟨hholds, hsub⟩ := ringCalls_holds hstate
    exact hholds.ringCall_comes_iff c (h.inOrder hrun hsub)
  exact RunCondition.comes_iff_cond hcall

/-- Two stores and a collection. -/
theorem comes_iff_inBounds_three :
    InBounds [⟨0, 1, 10⟩, ⟨0, 2, 20⟩] (.collect 40 25 {} rfl) := by
  have hclocked : Clocked [.store 0 1 10, .store 0 2 20, .collect 40 25 {} rfl] :=
    ⟨by decide, by decide, by decide⟩
  exact (comes_iff_inBounds hclocked).mp ⟨_, rfl⟩ [.store 0 1 10, .store 0 2 20]
    (.collect 40 25 {} rfl) (List.prefix_refl _) _ rfl

/-- The age of the only entry is the window: the index is the one before the ring. -/
theorem age_of_window_faults :
    Clocked [.store 0 0 0, .collect 5 5 {} rfl] ∧
      ringCalls [.store 0 0 0, .collect 5 5 {} rfl] = .error .outOfBounds :=
  ⟨⟨by decide, by decide, by decide⟩, rfl⟩

end TBStats

end Paio
