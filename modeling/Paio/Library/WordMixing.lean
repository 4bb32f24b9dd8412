import Mathlib.Data.Int.ModEq
import Mathlib.Data.Nat.Prime.Basic

/-!
# Paio.Library.WordMixing

The steps that non-cryptographic hashes mix words with. Each of them is a permutation of the words:
a rotation, the addition or the multiplication of a constant, a word xored with its own upper bits.
None of them can make two words equal that were not.
-/

namespace WordMixing

variable {w : Nat}

/-- `(x << r) | (x >> (w - r))`. -/
def rotl (r : Nat) (x : BitVec w) : BitVec w := x <<< r ||| x >>> (w - r)

theorem getLsbD_rotl_of_lt {r i : Nat} (hi : i < r) (x : BitVec w) :
    (rotl r x).getLsbD i = x.getLsbD (w - r + i) := by
  simp [rotl, hi]

theorem getLsbD_rotl_of_ge {r i : Nat} (hr : r ≤ i) (hi : i < w) (x : BitVec w) :
    (rotl r x).getLsbD i = x.getLsbD (i - r) := by
  have hout : w ≤ w - r + i := by omega
  have hin : i - r < w := by omega
  simp [rotl, hi, Nat.not_lt.mpr hr, BitVec.getLsbD_of_ge x _ hout,
    BitVec.getLsbD_eq_getElem hin]

/-- Rotated on by what is missing to a full turn, a word is as it was. -/
theorem rotl_rotl {r s : Nat} (hrs : r + s = w) (x : BitVec w) : rotl s (rotl r x) = x := by
  apply BitVec.eq_of_getLsbD_eq
  intro i hi
  rcases Nat.lt_or_ge i s with hlow | hhigh
  · rw [getLsbD_rotl_of_lt hlow, getLsbD_rotl_of_ge (by omega) (by omega)]
    congr 1
    omega
  · rw [getLsbD_rotl_of_ge hhigh hi, getLsbD_rotl_of_lt (by omega)]
    congr 1
    omega

theorem rotl_injective {r : Nat} (hr : r ≤ w) :
    Function.Injective (rotl r : BitVec w → BitVec w) :=
  Function.LeftInverse.injective (g := rotl (w - r)) (rotl_rotl (Nat.add_sub_of_le hr))

/-- `x ^ (x >> s)`. -/
def xorShift (s : Nat) (x : BitVec w) : BitVec w := x ^^^ x >>> s

/-- The upper bits are as they were, and with them each lower bit can be told. -/
theorem xorShift_injective {s : Nat} (hs : 0 < s) :
    Function.Injective (xorShift s : BitVec w → BitVec w) := by
  intro x y h
  have hbits : ∀ n i, w ≤ i + n → x.getLsbD i = y.getLsbD i := by
    intro n
    induction n with
    | zero =>
      intro i hi
      rw [BitVec.getLsbD_of_ge x i hi, BitVec.getLsbD_of_ge y i hi]
    | succ n ih =>
      intro i hi
      have hbit := congrArg (fun z => z.getLsbD i) h
      simp only [xorShift, BitVec.getLsbD_xor, BitVec.getLsbD_ushiftRight] at hbit
      rw [ih (s + i) (by omega)] at hbit
      exact (Bool.xor_left_inj).mp hbit
  apply BitVec.eq_of_getLsbD_eq
  intro i _
  exact hbits w i (Nat.le_add_left w i)

/-- An odd factor has no divisor in common with `2 ^ w`. -/
theorem mul_injective {c : BitVec w} (hc : c.toNat % 2 = 1) :
    Function.Injective fun x : BitVec w => x * c := by
  intro x y h
  have hcop : Nat.gcd (2 ^ w) c.toNat = 1 := by
    apply Nat.Coprime.pow_left
    rw [Nat.coprime_two_left, Nat.odd_iff]
    exact hc
  have hmod : x.toNat * c.toNat ≡ y.toNat * c.toNat [MOD 2 ^ w] := by
    have htoNat := congrArg BitVec.toNat h
    simp only [BitVec.toNat_mul] at htoNat
    exact htoNat
  have hxy := Nat.ModEq.cancel_right_of_coprime hcop hmod
  apply BitVec.eq_of_toNat_eq
  rw [Nat.ModEq, Nat.mod_eq_of_lt x.isLt, Nat.mod_eq_of_lt y.isLt] at hxy
  exact hxy

theorem add_injective (c : BitVec w) : Function.Injective fun x : BitVec w => x + c :=
  fun _ _ h => (BitVec.add_left_inj c).mp h

theorem xor_left_injective (c : BitVec w) : Function.Injective fun x : BitVec w => c ^^^ x :=
  fun _ _ h => (BitVec.xor_right_inj c).mp h

theorem xor_right_injective (c : BitVec w) : Function.Injective fun x : BitVec w => x ^^^ c :=
  fun _ _ h => (BitVec.xor_left_inj c).mp h

/-! ## Words of bytes -/

/-- `b[n - 1] << 8 * (n - 1)` down to `b[0]`, xored. -/
def packBytes (w : Nat) (bytes : Nat → UInt8) : Nat → BitVec w
  | 0 => 0
  | n + 1 => (bytes n).toBitVec.setWidth w <<< (8 * n) ^^^ packBytes w bytes n

theorem getLsbD_packBytes (bytes : Nat → UInt8) {n i : Nat} (hi : i < w) :
    (packBytes w bytes n).getLsbD i =
      (decide (i < 8 * n) && (bytes (i / 8)).toBitVec.getLsbD (i % 8)) := by
  induction n with
  | zero => simp [packBytes]
  | succ n ih =>
    rw [packBytes, BitVec.getLsbD_xor, ih]
    simp only [BitVec.getLsbD_shiftLeft, BitVec.getLsbD_setWidth, hi, decide_true, Bool.true_and]
    rcases Nat.lt_or_ge i (8 * n) with hlow | hhigh
    · have hnext : i < 8 * (n + 1) := by omega
      simp [hlow, hnext]
    · rcases Nat.lt_or_ge i (8 * (n + 1)) with hnext | hout
      · have hdiv : i / 8 = n := by omega
        have hmod : i % 8 = i - 8 * n := by omega
        have hin : i - 8 * n < w := by omega
        simp [Nat.not_lt.mpr hhigh, hnext, hdiv, hmod, hin]
      · have hbyte : (bytes n).toBitVec.getLsbD (i - 8 * n) = false :=
          BitVec.getLsbD_of_ge _ _ (by omega)
        simp [Nat.not_lt.mpr hhigh, Nat.not_lt.mpr hout, hbyte]

/-- Bytes that fit into a word are told apart by it. -/
theorem packBytes_inj {bytes bytes' : Nat → UInt8} {n : Nat} (hn : 8 * n ≤ w)
    (h : packBytes w bytes n = packBytes w bytes' n) : ∀ i, i < n → bytes i = bytes' i := by
  intro i hi
  apply UInt8.toBitVec_inj.mp
  apply BitVec.eq_of_getLsbD_eq
  intro j hj
  have hbit := congrArg (fun z => z.getLsbD (8 * i + j)) h
  have hdiv : (8 * i + j) / 8 = i := by omega
  have hmod : (8 * i + j) % 8 = j := by omega
  have hlt : 8 * i + j < 8 * n := by omega
  simp only [getLsbD_packBytes _ (Nat.lt_of_lt_of_le hlt hn), hdiv, hmod, hlt, decide_true,
    Bool.true_and] at hbit
  exact hbit

end WordMixing
