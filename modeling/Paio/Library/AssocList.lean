import Mathlib.Data.List.Basic

/-!
# Paio.Library.AssocList

Association lists searched from the front. `List.lookup` finds the first entry with a key;
`replaceFirst` overwrites the value of that entry and leaves the keys and every other entry as
they are.
-/

namespace AssocList

variable {κ ν : Type}

/-- The keys of an association list, in order. -/
def keys (l : List (κ × ν)) : List κ := l.map Prod.fst

@[simp] theorem keys_nil : keys ([] : List (κ × ν)) = [] := rfl

@[simp] theorem keys_cons (e : κ × ν) (l : List (κ × ν)) : keys (e :: l) = e.1 :: keys l := rfl

@[simp] theorem keys_append (l₁ l₂ : List (κ × ν)) : keys (l₁ ++ l₂) = keys l₁ ++ keys l₂ := by
  simp [keys]

theorem mem_keys_of_mem {k : κ} {v : ν} {l : List (κ × ν)} (h : (k, v) ∈ l) : k ∈ keys l :=
  List.mem_map_of_mem (f := Prod.fst) h

variable [DecidableEq κ]

theorem lookup_cons_ne {k k' : κ} (hne : k ≠ k') (v : ν) (l : List (κ × ν)) :
    ((k', v) :: l).lookup k = l.lookup k := by
  simp [List.lookup_cons, beq_eq_false_iff_ne.mpr hne]

theorem lookup_eq_none_iff_notMem {k : κ} {l : List (κ × ν)} : l.lookup k = none ↔ k ∉ keys l := by
  induction l with
  | nil => simp
  | cons e l ih =>
    obtain ⟨k', v⟩ := e
    by_cases h : k = k'
    · simp [h]
    · rw [lookup_cons_ne h, ih]
      simp [h]

theorem exists_lookup_iff_mem {k : κ} {l : List (κ × ν)} :
    (∃ v, l.lookup k = some v) ↔ k ∈ keys l := by
  rw [← Option.isSome_iff_exists, Option.isSome_iff_ne_none, Ne, lookup_eq_none_iff_notMem, not_not]

/-- A search that does not give the default has found an entry. -/
theorem lookup_of_getD_ne {k : κ} {default : ν} {l : List (κ × ν)}
    (h : (l.lookup k).getD default ≠ default) :
    l.lookup k = some ((l.lookup k).getD default) := by
  cases hl : l.lookup k with
  | none => rw [hl] at h; exact absurd rfl h
  | some v => rfl

theorem mem_of_lookup {k : κ} {v : ν} {l : List (κ × ν)} (h : l.lookup k = some v) :
    (k, v) ∈ l := by
  induction l with
  | nil => simp at h
  | cons e l ih =>
    obtain ⟨k', v'⟩ := e
    by_cases hk : k = k'
    · subst hk
      simp only [List.lookup_cons_self, Option.some.injEq] at h
      simp [h]
    · rw [lookup_cons_ne hk] at h
      exact List.mem_cons_of_mem _ (ih h)

/-- With distinct keys, membership and lookup say the same. -/
theorem lookup_of_mem {k : κ} {v : ν} {l : List (κ × ν)} (hd : (keys l).Nodup)
    (h : (k, v) ∈ l) : l.lookup k = some v := by
  induction l with
  | nil => simp at h
  | cons e l ih =>
    obtain ⟨k', v'⟩ := e
    simp only [keys_cons, List.nodup_cons] at hd
    rcases List.mem_cons.mp h with he | hm
    · cases he; simp
    · have hne : k ≠ k' := by
        rintro rfl
        exact hd.1 (mem_keys_of_mem hm)
      rw [lookup_cons_ne hne]
      exact ih hd.2 hm

/-- Lists with the same entries, in whatever order, look the same up. -/
theorem lookup_congr {l l' : List (κ × ν)} (hd : (keys l).Nodup) (hd' : (keys l').Nodup)
    (h : ∀ e, e ∈ l ↔ e ∈ l') (k : κ) : l.lookup k = l'.lookup k := by
  apply Option.ext
  intro v
  constructor
  · intro hv
    exact lookup_of_mem hd' ((h (k, v)).mp (mem_of_lookup hv))
  · intro hv
    exact lookup_of_mem hd ((h (k, v)).mpr (mem_of_lookup hv))

theorem lookup_append_singleton_self {k : κ} (v : ν) {l : List (κ × ν)} (h : k ∉ keys l) :
    (l ++ [(k, v)]).lookup k = some v := by
  rw [List.lookup_append, lookup_eq_none_iff_notMem.mpr h]
  simp

theorem lookup_append_singleton_ne {k k' : κ} (hne : k' ≠ k) (v : ν) (l : List (κ × ν)) :
    (l ++ [(k, v)]).lookup k' = l.lookup k' := by
  rw [List.lookup_append, lookup_cons_ne hne]
  simp

/-! ## Overwriting the first entry with a key -/

def replaceFirst (k : κ) (v : ν) : List (κ × ν) → List (κ × ν)
  | [] => []
  | (k', v') :: l => if k' = k then (k', v) :: l else (k', v') :: replaceFirst k v l

@[simp] theorem keys_replaceFirst (k : κ) (v : ν) (l : List (κ × ν)) :
    keys (replaceFirst k v l) = keys l := by
  induction l with
  | nil => rfl
  | cons e l ih =>
    simp only [replaceFirst]
    split <;> simp [ih]

theorem lookup_replaceFirst_self {k : κ} (v : ν) {l : List (κ × ν)} (h : k ∈ keys l) :
    (replaceFirst k v l).lookup k = some v := by
  induction l with
  | nil => simp at h
  | cons e l ih =>
    obtain ⟨k', v'⟩ := e
    by_cases hk : k' = k
    · simp [replaceFirst, hk]
    · have hk' : k ≠ k' := fun he => hk he.symm
      have hmem : k ∈ keys l := by simpa [hk'] using h
      simp only [replaceFirst, if_neg hk]
      rw [lookup_cons_ne hk', ih hmem]

theorem lookup_replaceFirst_ne {k k' : κ} (hne : k' ≠ k) (v : ν) (l : List (κ × ν)) :
    (replaceFirst k v l).lookup k' = l.lookup k' := by
  induction l with
  | nil => rfl
  | cons e l ih =>
    obtain ⟨k₀, v₀⟩ := e
    simp only [replaceFirst]
    split
    · rename_i hk
      have : k' ≠ k₀ := by rw [hk]; exact hne
      rw [lookup_cons_ne this, lookup_cons_ne this]
    · rw [List.lookup_cons, List.lookup_cons, ih]

/-- Overwriting the entry that was just appended. -/
theorem replaceFirst_append_singleton {k : κ} (v v' : ν) {l : List (κ × ν)} (h : k ∉ keys l) :
    replaceFirst k v' (l ++ [(k, v)]) = l ++ [(k, v')] := by
  induction l with
  | nil => simp [replaceFirst]
  | cons e l ih =>
    simp only [keys_cons, List.mem_cons, not_or] at h
    have hne : ¬ e.1 = k := fun he => h.1 he.symm
    simp [replaceFirst, hne, ih h.2]

end AssocList
