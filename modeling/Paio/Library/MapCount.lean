import Mathlib.Data.Finmap

/-!
# Paio.Library.MapCount

How many entries of a finite map have a property. An entry that is erased or written changes the
count by what it counts itself, so a counter that is kept beside the map is right as long as every
operation accounts for the one entry it touches.
-/

namespace MapCount

variable {κ ν : Type} [DecidableEq κ]

def count (p : ν → Bool) (m : Finmap fun _ : κ => ν) : Nat :=
  (m.keys.filter fun k => ((m.lookup k).any p) = true).card

/-- What one entry, or a missing one, counts. -/
def weight (p : ν → Bool) (v : Option ν) : Nat := if v.any p then 1 else 0

variable {p : ν → Bool} {m : Finmap fun _ : κ => ν} {k : κ} {v : ν}

@[simp] theorem count_empty : count p (∅ : Finmap fun _ : κ => ν) = 0 := by
  simp [count]

theorem count_true (m : Finmap fun _ : κ => ν) : count (fun _ => true) m = m.keys.card := by
  rw [count, Finset.filter_true_of_mem]
  intro k hk
  obtain ⟨v, hv⟩ := Finmap.mem_iff.mp (Finmap.mem_keys.mp hk)
  rw [hv]
  rfl

theorem count_le (p : ν → Bool) (m : Finmap fun _ : κ => ν) : count p m ≤ m.keys.card :=
  Finset.card_le_card (Finset.filter_subset _ _)

/-- The entries without the one under `k`, and that one. -/
theorem count_erase (p : ν → Bool) (m : Finmap fun _ : κ => ν) (k : κ) :
    count p m = count p (m.erase k) + weight p (m.lookup k) := by
  have hfilter : (m.erase k).keys.filter (fun k' => (((m.erase k).lookup k').any p) = true) =
      (m.keys.filter fun k' => ((m.lookup k').any p) = true).erase k := by
    ext k'
    by_cases hk : k' = k
    · subst hk
      simp [Finmap.lookup_erase]
    · simp [Finmap.lookup_erase_ne hk, Finmap.keys_erase, hk]
  rw [count, count, weight, hfilter]
  by_cases hp : ((m.lookup k).any p) = true
  · have hmem : k ∈ m.keys.filter fun k' => ((m.lookup k').any p) = true := by
      rw [Finset.mem_filter]
      refine ⟨?_, hp⟩
      cases hl : m.lookup k with
      | none => simp [hl] at hp
      | some v => exact Finmap.mem_keys.mpr (Finmap.mem_of_lookup_eq_some hl)
    have hpos := Finset.card_pos.mpr ⟨k, hmem⟩
    rw [Finset.card_erase_of_mem hmem, if_pos hp]
    omega
  · have hnot : k ∉ m.keys.filter fun k' => ((m.lookup k').any p) = true := by
      simp [hp]
    rw [Finset.erase_eq_of_notMem hnot, if_neg hp, Nat.add_zero]

theorem count_insert (p : ν → Bool) (m : Finmap fun _ : κ => ν) (k : κ) (v : ν) :
    count p (m.insert k v) = count p (m.erase k) + weight p (some v) := by
  have herase : (m.insert k v).erase k = m.erase k := by
    apply Finmap.ext_lookup
    intro k'
    by_cases hk : k' = k
    · subst hk
      rw [Finmap.lookup_erase, Finmap.lookup_erase]
    · rw [Finmap.lookup_erase_ne hk, Finmap.lookup_erase_ne hk, Finmap.lookup_insert_of_ne _ hk]
  rw [count_erase p (m.insert k v) k, herase, Finmap.lookup_insert]

/-- A new entry adds what it counts. -/
theorem count_insert_new (h : m.lookup k = none) (v : ν) :
    count p (m.insert k v) = count p m + weight p (some v) := by
  rw [count_insert, count_erase p m k, h]
  rfl

end MapCount
