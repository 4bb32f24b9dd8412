import Mathlib.Data.Finmap
import Paio.Library.AssocList

/-!
# Paio.Library.LinkedMap

A finite map that is reached in two ways: by its keys, here called tokens, and by identifiers,
through a list of links from identifiers to tokens. `Linked P links entries` says that the two
agree: the links are a bijection between the identifiers in them and the keys of the map, and the
entry that a link leads to stands in the relation `P` to the identifier of the link.

There are two ways to change such a map: `Linked.update` overwrites an entry, `Linked.link` adds an
entry together with its link.
-/

namespace LinkedMap

variable {κ τ ν : Type}

/-- The tokens of a list of links, in order. -/
def tokens (links : List (κ × τ)) : List τ := links.map Prod.snd

@[simp] theorem tokens_nil : tokens ([] : List (κ × τ)) = [] := rfl

@[simp] theorem tokens_append (l₁ l₂ : List (κ × τ)) :
    tokens (l₁ ++ l₂) = tokens l₁ ++ tokens l₂ := by
  simp [tokens]

variable [DecidableEq τ]

structure Linked (P : κ → ν → Prop) (links : List (κ × τ)) (entries : Finmap fun _ : τ => ν) :
    Prop where
  ids_nodup : (AssocList.keys links).Nodup
  tokens_nodup : (tokens links).Nodup
  mem_tokens_iff : ∀ token, token ∈ tokens links ↔ token ∈ entries
  entry : ∀ id token, (id, token) ∈ links → ∃ v, entries.lookup token = some v ∧ P id v

variable {P : κ → ν → Prop} {links : List (κ × τ)} {entries : Finmap fun _ : τ => ν}

theorem linked_empty : Linked P ([] : List (κ × τ)) ∅ where
  ids_nodup := List.nodup_nil
  tokens_nodup := List.nodup_nil
  mem_tokens_iff := by simp [Finmap.notMem_empty]
  entry := by simp

/-- Overwriting the entry under a token, and changing the relation: the new entry stands in the new
relation to the identifiers that lead to it, and every other entry keeps its own. -/
theorem Linked.update_of_links {P' : κ → ν → Prop} (h : Linked P links entries) {token : τ}
    {v v' : ν} (hv : entries.lookup token = some v)
    (hP : ∀ id, (id, token) ∈ links → P id v → P' id v')
    (hrest : ∀ id token' w, token' ≠ token → (id, token') ∈ links → P id w → P' id w) :
    Linked P' links (entries.insert token v') where
  ids_nodup := h.ids_nodup
  tokens_nodup := h.tokens_nodup
  mem_tokens_iff := by
    intro token'
    have hmem : token ∈ entries := Finmap.mem_of_lookup_eq_some hv
    rw [h.mem_tokens_iff, Finmap.mem_insert]
    constructor
    · exact Or.inr
    · rintro (rfl | hm)
      · exact hmem
      · exact hm
  entry := by
    intro id token' hlink
    obtain ⟨w, hw, hPw⟩ := h.entry id token' hlink
    by_cases ht : token' = token
    · subst ht
      obtain rfl : v = w := Option.some.inj (hv.symm.trans hw)
      exact ⟨v', Finmap.lookup_insert _, hP id hlink hPw⟩
    · exact ⟨w, by rw [Finmap.lookup_insert_of_ne _ ht]; exact hw, hrest id token' w ht hlink hPw⟩

/-- Overwriting the entry under a token, when the new entry keeps every relation of the old. -/
theorem Linked.update (h : Linked P links entries) {token : τ} {v v' : ν}
    (hv : entries.lookup token = some v) (hP : ∀ id, P id v → P id v') :
    Linked P links (entries.insert token v') :=
  h.update_of_links hv (fun id _ => hP id) fun _ _ _ _ _ hw => hw

/-- Adding an entry under a new token, with a link from a new identifier. -/
theorem Linked.link (h : Linked P links entries) {id : κ} {token : τ} {v : ν}
    (hid : id ∉ AssocList.keys links) (htoken : token ∉ entries) (hP : P id v) :
    Linked P (links ++ [(id, token)]) (entries.insert token v) where
  ids_nodup := by
    rw [AssocList.keys_append]
    exact List.nodup_append.mpr ⟨h.ids_nodup, by simp [AssocList.keys],
      by rintro a ha b hb rfl; simp [AssocList.keys] at hb; exact hid (hb ▸ ha)⟩
  tokens_nodup := by
    have hnew : token ∉ tokens links := fun hm => htoken ((h.mem_tokens_iff token).mp hm)
    rw [tokens_append]
    exact List.nodup_append.mpr ⟨h.tokens_nodup, by simp [tokens],
      by rintro a ha b hb rfl; simp [tokens] at hb; exact hnew (hb ▸ ha)⟩
  mem_tokens_iff := by
    intro token'
    simp only [tokens_append, List.mem_append, h.mem_tokens_iff, Finmap.mem_insert]
    simp [tokens, or_comm]
  entry := by
    intro id' token' hlink
    rcases List.mem_append.mp hlink with hold | hnew
    · obtain ⟨w, hw, hPw⟩ := h.entry id' token' hold
      have hne : token' ≠ token := by
        rintro rfl
        exact htoken (Finmap.mem_of_lookup_eq_some hw)
      exact ⟨w, by rw [Finmap.lookup_insert_of_ne _ hne]; exact hw, hPw⟩
    · simp only [List.mem_singleton, Prod.mk.injEq] at hnew
      obtain ⟨rfl, rfl⟩ := hnew
      exact ⟨v, Finmap.lookup_insert _, hP⟩

theorem Linked.token_unique (h : Linked P links entries) {id : κ} {token token' : τ}
    (hl : (id, token) ∈ links) (hl' : (id, token') ∈ links) : token = token' := by
  have := List.inj_on_of_nodup_map h.ids_nodup hl hl' rfl
  simpa using this

theorem Linked.id_unique (h : Linked P links entries) {id id' : κ} {token : τ}
    (hl : (id, token) ∈ links) (hl' : (id', token) ∈ links) : id = id' := by
  have := List.inj_on_of_nodup_map h.tokens_nodup hl hl' rfl
  simpa using this

/-- Every entry has a link. -/
theorem Linked.exists_link (h : Linked P links entries) {token : τ} {v : ν}
    (hv : entries.lookup token = some v) : ∃ id, (id, token) ∈ links := by
  have hmem := (h.mem_tokens_iff token).mpr (Finmap.mem_of_lookup_eq_some hv)
  simpa [tokens] using hmem

theorem Linked.toFinset_tokens (h : Linked P links entries) :
    (tokens links).toFinset = entries.keys := by
  ext token
  rw [List.mem_toFinset, h.mem_tokens_iff, Finmap.mem_keys]

theorem Linked.length_eq_card (h : Linked P links entries) :
    links.length = entries.keys.card := by
  rw [← h.toFinset_tokens, List.toFinset_card_of_nodup h.tokens_nodup, tokens, List.length_map]

end LinkedMap
