import Mathlib.Data.List.Basic

/-!
# Paio.Library.FieldMemory

Memory with fields in it, and stores that begin at a field. A store may be longer than its field
and then goes on into what lies behind. As long as every store stays inside its own field, each
field holds what was stored into it (`exists_content_applyAll`).
-/

namespace FieldMemory

abbrev Memory := Nat → UInt8

/-- The bytes one after the other from the offset on. -/
def write (m : Memory) (offset : Nat) (bytes : List UInt8) : Memory :=
  fun i => if offset ≤ i then bytes[i - offset]?.getD (m i) else m i

def bytesAt (m : Memory) (offset size : Nat) : List UInt8 :=
  (List.range size).map fun i => m (offset + i)

@[simp] theorem length_bytesAt (m : Memory) (offset size : Nat) :
    (bytesAt m offset size).length = size := by
  simp [bytesAt]

theorem write_of_outside {m : Memory} {offset i : Nat} {bytes : List UInt8}
    (h : i < offset ∨ offset + bytes.length ≤ i) : write m offset bytes i = m i := by
  unfold write
  split
  · rw [List.getElem?_eq_none (by omega)]
    rfl
  · rfl

theorem write_of_inside {m : Memory} {offset i : Nat} {bytes : List UInt8}
    (hi : i < bytes.length) : write m offset bytes (offset + i) = bytes[i] := by
  unfold write
  rw [if_pos (by omega), Nat.add_sub_cancel_left, List.getElem?_eq_getElem hi]
  rfl

/-- A range that the bytes do not touch reads as before. -/
theorem bytesAt_write_of_disjoint {m : Memory} {offset offset' size : Nat} {bytes : List UInt8}
    (h : offset' + bytes.length ≤ offset ∨ offset + size ≤ offset') :
    bytesAt (write m offset' bytes) offset size = bytesAt m offset size := by
  refine List.map_congr_left fun i hi => ?_
  have hlt := List.mem_range.mp hi
  exact write_of_outside (by omega)

/-- A range from which the bytes were written begins with them. -/
theorem exists_bytesAt_write {m : Memory} {offset size : Nat} {bytes : List UInt8}
    (h : bytes.length ≤ size) :
    ∃ tail, bytesAt (write m offset bytes) offset size = bytes ++ tail := by
  refine ⟨(bytesAt (write m offset bytes) offset size).drop bytes.length, ?_⟩
  have htake : (bytesAt (write m offset bytes) offset size).take bytes.length = bytes := by
    apply List.ext_getElem
    · simp [h]
    · intro i h₁ h₂
      simp [bytesAt, write_of_inside h₂]
  conv => lhs; rw [← List.take_append_drop bytes.length (bytesAt _ _ _), htake]

/-! ## Fields -/

/-- Where the fields are; no two of them overlap. -/
structure Layout (φ : Type) where
  offset : φ → Nat
  size : φ → Nat
  disjoint : ∀ f g, f ≠ g → offset f + size f ≤ offset g ∨ offset g + size g ≤ offset f

/-- Bytes that are stored from the first byte of a field on. -/
structure Store (φ : Type) where
  field : φ
  bytes : List UInt8
  deriving DecidableEq, Repr

variable {φ : Type} (layout : Layout φ)

def Store.apply (m : Memory) (s : Store φ) : Memory := write m (layout.offset s.field) s.bytes

/-- The stores one after the other. -/
def applyAll (m : Memory) (stores : List (Store φ)) : Memory := stores.foldl (Store.apply layout) m

/-- The content of a field. -/
def content (m : Memory) (f : φ) : List UInt8 := bytesAt m (layout.offset f) (layout.size f)

/-- The store writes no byte outside of its field. -/
def Store.Inside (s : Store φ) : Prop :=
  ∀ i, layout.offset s.field ≤ i → i < layout.offset s.field + s.bytes.length →
    i < layout.offset s.field + layout.size s.field

variable {layout}

theorem Store.inside_iff {s : Store φ} :
    s.Inside layout ↔ s.bytes.length ≤ layout.size s.field := by
  constructor
  · intro h
    by_contra hlt
    have := h (layout.offset s.field + layout.size s.field) (by omega) (by omega)
    omega
  · intro h i _ hi
    omega

theorem content_apply_of_ne {m : Memory} {s : Store φ} {f : φ} (hinside : s.Inside layout)
    (hne : s.field ≠ f) : content layout (s.apply layout m) f = content layout m f := by
  have hlength := Store.inside_iff.mp hinside
  have hdisjoint := layout.disjoint s.field f hne
  exact bytesAt_write_of_disjoint (by omega)

theorem content_applyAll_of_ne {m : Memory} {stores : List (Store φ)} {f : φ}
    (hinside : ∀ s ∈ stores, s.Inside layout) (hne : ∀ s ∈ stores, s.field ≠ f) :
    content layout (applyAll layout m stores) f = content layout m f := by
  induction stores generalizing m with
  | nil => rfl
  | cons s rest ih =>
    have hrest := ih (m := s.apply layout m) (fun t ht => hinside t (List.mem_cons_of_mem s ht))
      fun t ht => hne t (List.mem_cons_of_mem s ht)
    exact hrest.trans
      (content_apply_of_ne (hinside s List.mem_cons_self) (hne s List.mem_cons_self))

/-- When every store stays inside its field and no field is stored to twice, each field begins with
what was stored to it. -/
theorem exists_content_applyAll {m : Memory} {stores : List (Store φ)}
    (hinside : ∀ s ∈ stores, s.Inside layout) (hnodup : (stores.map Store.field).Nodup)
    {s : Store φ} (hs : s ∈ stores) :
    ∃ tail, content layout (applyAll layout m stores) s.field = s.bytes ++ tail := by
  induction stores generalizing m with
  | nil => cases hs
  | cons first rest ih =>
    have hrest : ∀ t ∈ rest, t.Inside layout := fun t ht => hinside t (List.mem_cons_of_mem first ht)
    rw [List.map_cons, List.nodup_cons] at hnodup
    rcases List.mem_cons.mp hs with rfl | hs
    · have hne : ∀ t ∈ rest, t.field ≠ s.field := by
        intro t ht heq
        exact hnodup.1 (heq ▸ List.mem_map_of_mem ht)
      have hframe := content_applyAll_of_ne (m := s.apply layout m) hrest hne
      have hlength := Store.inside_iff.mp (hinside s List.mem_cons_self)
      obtain ⟨tail, htail⟩ := exists_bytesAt_write (m := m) hlength
      exact ⟨tail, hframe.trans htail⟩
    · exact ih hrest hnodup.2 hs

end FieldMemory
