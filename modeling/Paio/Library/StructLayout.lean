import Mathlib.Algebra.Order.Ring.Nat
import Mathlib.Algebra.Ring.Int.Defs

/-!
# Paio.Library.StructLayout

Structures as they stand in memory: unsigned members of given sizes one after the other, padding
included, each with its least significant byte first. A `Layout` says how the values of a type are
written so; `Layout.decode_encode` says that every value that fits into its members is read back.
-/

namespace StructLayout

/-- The number in a member. -/
def ofBytes : List UInt8 → Nat
  | [] => 0
  | byte :: rest => byte.toNat + 256 * ofBytes rest

def toBytes : Nat → Nat → List UInt8
  | 0, _ => []
  | size + 1, n => UInt8.ofNat n :: toBytes size (n / 256)

/-- A two's complement number of so many bits. -/
def signed (bits n : Nat) : Int := if n < 2 ^ (bits - 1) then n else (n : Int) - 2 ^ bits

def unsigned (bits : Nat) (x : Int) : Nat := (x % 2 ^ bits).toNat

/-- The members of a structure with the given sizes. -/
def unpack : List Nat → List UInt8 → List Nat
  | [], _ => []
  | size :: sizes, bytes => ofBytes (bytes.take size) :: unpack sizes (bytes.drop size)

def pack : List Nat → List Nat → List UInt8
  | size :: sizes, value :: values => toBytes size value ++ pack sizes values
  | _, _ => []

/-- What is left of values that are written to members of the given sizes. -/
def truncate (sizes values : List Nat) : List Nat :=
  List.zipWith (fun size value => value % 256 ^ size) sizes values

/-- A structure of which only the first bytes were written. -/
def overlay (received initial : List UInt8) : List UInt8 :=
  received ++ initial.drop received.length

/-- A structure that was written as a whole. -/
theorem overlay_of_length_le {received initial : List UInt8}
    (h : initial.length ≤ received.length) : overlay received initial = received := by
  rw [overlay, List.drop_eq_nil_of_le h, List.append_nil]

@[simp] theorem length_toBytes (size n : Nat) : (toBytes size n).length = size := by
  induction size generalizing n with
  | zero => rfl
  | succ size ih => rw [toBytes, List.length_cons, ih]

theorem ofBytes_toBytes (size n : Nat) : ofBytes (toBytes size n) = n % 256 ^ size := by
  induction size generalizing n with
  | zero => rw [toBytes, ofBytes, Nat.pow_zero, Nat.mod_one]
  | succ size ih =>
    have hbyte : (UInt8.ofNat n).toNat = n % 256 := UInt8.toNat_ofNat' ..
    rw [toBytes, ofBytes, ih, hbyte, Nat.pow_succ, Nat.mul_comm (256 ^ size) 256, Nat.mod_mul]

/-- Bytes of one length are told apart by the number they stand for. -/
theorem ofBytes_inj {bytes bytes' : List UInt8} (hlen : bytes.length = bytes'.length)
    (h : ofBytes bytes = ofBytes bytes') : bytes = bytes' := by
  induction bytes generalizing bytes' with
  | nil => exact (List.length_eq_zero_iff.mp hlen.symm).symm
  | cons byte rest ih =>
    cases bytes' with
    | nil => simp at hlen
    | cons byte' rest' =>
      rw [ofBytes, ofBytes] at h
      have hbyte : byte.toNat < 256 := byte.toNat_lt
      have hbyte' : byte'.toNat < 256 := byte'.toNat_lt
      have hhead : byte = byte' := UInt8.toNat_inj.mp (by omega)
      rw [hhead, ih (by simpa using hlen) (by omega)]

theorem ofBytes_lt (bytes : List UInt8) : ofBytes bytes < 256 ^ bytes.length := by
  induction bytes with
  | nil => decide
  | cons byte rest ih =>
    rw [ofBytes, List.length_cons, Nat.pow_succ]
    have hbyte : byte.toNat < 256 := byte.toNat_lt
    omega

theorem toBytes_ofBytes (bytes : List UInt8) : toBytes bytes.length (ofBytes bytes) = bytes := by
  apply ofBytes_inj (length_toBytes _ _)
  rw [ofBytes_toBytes, Nat.mod_eq_of_lt (ofBytes_lt bytes)]

/-- The values of a signed member. -/
def IsSigned (bits : Nat) (x : Int) : Prop := -2 ^ (bits - 1) ≤ x ∧ x < 2 ^ (bits - 1)

instance (bits : Nat) (x : Int) : Decidable (IsSigned bits x) :=
  inferInstanceAs (Decidable (-2 ^ (bits - 1) ≤ x ∧ x < 2 ^ (bits - 1)))

theorem signed_unsigned {bits : Nat} {x : Int} (hbits : 0 < bits) (h : IsSigned bits x) :
    signed bits (unsigned bits x) = x := by
  obtain ⟨hlow, hhigh⟩ := h
  obtain ⟨n, rfl⟩ : ∃ n, bits = n + 1 := ⟨bits - 1, by omega⟩
  rw [Nat.add_sub_cancel] at hlow hhigh
  have hpow : (2 : Int) ^ (n + 1) = 2 * 2 ^ n := by rw [Int.pow_succ, Int.mul_comm]
  have hcast : ((2 ^ n : Nat) : Int) = 2 ^ n := by rw [Int.natCast_pow]; rfl
  rw [signed, unsigned, Nat.add_sub_cancel, hpow]
  by_cases hneg : x < 0
  · have hmod : x % (2 * 2 ^ n) = x + 2 * 2 ^ n := by
      rw [← Int.add_emod_right, Int.emod_eq_of_lt (by omega) (by omega)]
    rw [hmod, if_neg (by omega)]
    omega
  · rw [Int.emod_eq_of_lt (by omega) (by omega), if_pos (by omega)]
    omega

/-- A signed member of four bytes. -/
theorem signed_int {x : Int} (h : IsSigned 32 x) : signed 32 (unsigned 32 x % 256 ^ 4) = x := by
  have hlt : unsigned 32 x < 256 ^ 4 := by
    unfold unsigned
    omega
  rw [Nat.mod_eq_of_lt hlt]
  exact signed_unsigned (by decide) h

/-- A signed member of eight bytes. -/
theorem signed_long {x : Int} (h : IsSigned 64 x) : signed 64 (unsigned 64 x % 256 ^ 8) = x := by
  have hlt : unsigned 64 x < 256 ^ 8 := by
    unfold unsigned
    omega
  rw [Nat.mod_eq_of_lt hlt]
  exact signed_unsigned (by decide) h

theorem unpack_pack {sizes values : List Nat} (h : values.length = sizes.length) :
    unpack sizes (pack sizes values) = truncate sizes values := by
  induction sizes generalizing values with
  | nil => rfl
  | cons size sizes ih =>
    cases values with
    | nil => simp at h
    | cons value values =>
      have htake : (toBytes size value ++ pack sizes values).take size = toBytes size value := by
        rw [List.take_left' (length_toBytes size value)]
      have hdrop : (toBytes size value ++ pack sizes values).drop size = pack sizes values := by
        rw [List.drop_left' (length_toBytes size value)]
      rw [pack, unpack, htake, hdrop, ofBytes_toBytes, ih (by simpa using h)]
      rfl

theorem length_pack {sizes values : List Nat} (h : values.length = sizes.length) :
    (pack sizes values).length = sizes.sum := by
  induction sizes generalizing values with
  | nil => rfl
  | cons size sizes ih =>
    cases values with
    | nil => simp at h
    | cons value values =>
      rw [pack, List.length_append, length_toBytes, ih (by simpa using h), List.sum_cons]

/-- How the values of a type stand in memory. The values that fit are read back. -/
structure Layout (α : Type) where
  sizes : List Nat
  members : α → List Nat
  ofMembers : List Nat → α
  fits : α → Prop
  length_members : ∀ x, (members x).length = sizes.length
  ofMembers_members : ∀ x, fits x → ofMembers (truncate sizes (members x)) = x

namespace Layout

variable {α : Type} (L : Layout α)

def size : Nat := L.sizes.sum

def encode (x : α) : List UInt8 := pack L.sizes (L.members x)

def decode (bytes : List UInt8) : α := L.ofMembers (unpack L.sizes bytes)

@[simp] theorem length_encode (x : α) : (L.encode x).length = L.size :=
  length_pack (L.length_members x)

theorem decode_encode {x : α} (h : L.fits x) : L.decode (L.encode x) = x := by
  rw [decode, encode, unpack_pack (L.length_members x)]
  exact L.ofMembers_members x h

end Layout

end StructLayout
