import Mathlib.Data.List.Nodup

/-!
# Paio.Library.HashSwitch

A `switch` over the hashes of keywords. The keywords of a table are spelled out by `spell`, and a
text selects the keyword that has its hash. `recognises_iff` says for which texts this is as good
as a comparison of the texts themselves: for those that share a hash with no keyword but
themselves.
-/

namespace HashSwitch

variable {κ σ ν α β : Type} [DecidableEq ν] (spell : κ → σ) (hash : σ → ν)

def select (table : List (κ × α)) (s : σ) : Option α :=
  (table.find? fun c => hash (spell c.1) = hash s).map Prod.snd

/-- No keyword of the table has the hash of the text, unless it is the text. -/
def Uncollided (table : List (κ × α)) (s : σ) : Prop :=
  ∀ c ∈ table, hash (spell c.1) = hash s → s = spell c.1

/-- The value of a keyword for this keyword only, and `other` for every text that is none. -/
def Recognises (table : List (κ × α)) (value : α → β) (other : β) (convert : σ → β) (s : σ) :
    Prop :=
  (∀ c ∈ table, convert s = value c.2 ↔ s = spell c.1) ∧
    ((∀ c ∈ table, s ≠ spell c.1) → convert s = other)

/-- The keywords of a table have different hashes and different values. -/
structure Distinct (table : List (κ × α)) : Prop where
  hashes : (table.map fun c => hash (spell c.1)).Nodup
  values : (table.map Prod.snd).Nodup

variable {spell hash} {table : List (κ × α)} {s : σ}

theorem select_eq_none (h : ∀ c ∈ table, hash (spell c.1) ≠ hash s) :
    select spell hash table s = none := by
  unfold select
  rw [List.find?_eq_none.mpr fun c hc => by simpa using h c hc]
  rfl

theorem exists_of_select {v : α} (h : select spell hash table s = some v) :
    ∃ c ∈ table, hash (spell c.1) = hash s ∧ c.2 = v := by
  obtain ⟨c, hc, rfl⟩ := Option.map_eq_some_iff.mp h
  exact ⟨c, List.mem_of_find?_eq_some hc, by simpa using List.find?_some hc, rfl⟩

/-- Among different hashes, the keyword with the hash of the text is the one that is found. -/
theorem select_eq_some (hhashes : (table.map fun c => hash (spell c.1)).Nodup) {c : κ × α}
    (hc : c ∈ table) (hh : hash (spell c.1) = hash s) :
    select spell hash table s = some c.2 := by
  cases hs : select spell hash table s with
  | none =>
    have hfind := Option.map_eq_none_iff.mp hs
    simpa [hh] using List.find?_eq_none.mp hfind c hc
  | some v =>
    obtain ⟨c', hc', hh', rfl⟩ := exists_of_select hs
    rw [List.inj_on_of_nodup_map hhashes hc' hc (hh'.trans hh.symm)]

theorem recognises_iff (hd : Distinct spell hash table) {value : α → β}
    (hvalue : Function.Injective value) {other : β} (hother : ∀ c ∈ table, value c.2 ≠ other)
    {convert : σ → β} (hconvert : convert s = ((select spell hash table s).map value).getD other) :
    Recognises spell table value other convert s ↔ Uncollided spell hash table s := by
  have hfound : ∀ c ∈ table, hash (spell c.1) = hash s → convert s = value c.2 := by
    intro c hc hh
    rw [hconvert, select_eq_some hd.hashes hc hh]
    rfl
  constructor
  · rintro ⟨hkeyword, _⟩ c hc hh
    exact (hkeyword c hc).mp (hfound c hc hh)
  · intro hu
    refine ⟨fun c hc => ⟨?_, ?_⟩, ?_⟩
    · intro heq
      cases hs : select spell hash table s with
      | none =>
        rw [hconvert, hs] at heq
        exact absurd heq.symm (hother c hc)
      | some v =>
        obtain ⟨c', hc', hh', rfl⟩ := exists_of_select hs
        have hv : value c'.2 = value c.2 := (hfound c' hc' hh').symm.trans heq
        rw [← List.inj_on_of_nodup_map hd.values hc' hc (hvalue hv)]
        exact hu c' hc' hh'
    · rintro rfl
      exact hfound c hc rfl
    · intro hnone
      rw [hconvert, select_eq_none fun c hc hh => hnone c hc (hu c hc hh)]
      rfl

end HashSwitch
