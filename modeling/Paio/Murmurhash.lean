import Paio.Differentiation
import Paio.Library.BlockHash
import Paio.Library.StructLayout
import Paio.Library.WordMixing

/-!
# Paio.Murmurhash

The three variants of MurmurHash3, from which differentiation tokens are made. Each of them takes
a message in by blocks of 4 or 16 bytes, and each is a `BlockHash`: what happens to a word on its
way into the state and to the state afterwards can all be undone. So two messages of one length that
differ inside of one block never have the same digest (`digest_ne_of_agreeOutside`).

The length of a message is an `int` in the source. The messages of the token builders have 32 bytes
at most, so it is the number of bytes here.
-/

namespace Paio

open WordMixing

namespace MurmurHash3

def seed : BitVec 32 := 42

def rotl32 (x : BitVec 32) (r : Nat) : BitVec 32 := rotl r x

def rotl64 (x : BitVec 64) (r : Nat) : BitVec 64 := rotl r x

/-- The `i`-th word of `size` bytes, on a little-endian machine. -/
def getblock (w size : Nat) (data : List UInt8) (i : Nat) : BitVec w :=
  BitVec.ofNat w (StructLayout.ofBytes ((data.drop (size * i)).take size))

def getblock32 (data : List UInt8) (i : Nat) : BitVec 32 := getblock 32 4 data i

def getblock64 (data : List UInt8) (i : Nat) : BitVec 64 := getblock 64 8 data i

/-- `h ^= h >> s; h *= c; h ^= h >> s'; h *= c'; h ^= h >> s`. -/
def fmix {w : Nat} (s s' : Nat) (c c' h : BitVec w) : BitVec w :=
  xorShift s (xorShift s' (xorShift s h * c) * c')

def fmix32 (h : BitVec 32) : BitVec 32 := fmix 16 13 0x85ebca6b 0xc2b2ae35 h

def fmix64 (k : BitVec 64) : BitVec 64 := fmix 33 33 0xff51afd7ed558ccd 0xc4ceb9fe1a85ec53 k

/-- `k *= c; k = ROTL (k, r); k *= c'`. -/
def scramble {w : Nat} (c : BitVec w) (r : Nat) (c' k : BitVec w) : BitVec w := rotl r (k * c) * c'

/-- The cases of the switch that fill one word: `k ^= tail[first + n - 1] << 8 * (n - 1)` down to
`k ^= tail[first]`. -/
def tailWord (w : Nat) (tail : List UInt8) (first n : Nat) : BitVec w :=
  packBytes w (fun i => tail.getD (first + i) 0) n

/-- The word of `n` bytes enters the state, unless there are none. -/
def absorbTail {w : Nat} (scrambled : BitVec w → BitVec w) (h : BitVec w) (tail : List UInt8)
    (first n : Nat) : BitVec w :=
  if 0 < n then h ^^^ scrambled (tailWord w tail first n) else h

/-! ## MurmurHash3_x86_32 -/

namespace X86_32

def scramble1 (k1 : BitVec 32) : BitVec 32 := scramble 0xcc9e2d51 15 0x1b873593 k1

def body (h1 k1 : BitVec 32) : BitVec 32 := rotl32 (h1 ^^^ scramble1 k1) 13 * 5 + 0xe6546b64

end X86_32

def x86_32 (message : List UInt8) : BitVec 32 :=
  let size := message.length
  let nblocks := size / 4
  let h1 := (List.range nblocks).foldl (fun h1 i => X86_32.body h1 (getblock32 message i)) seed
  let h1 := absorbTail X86_32.scramble1 h1 (message.drop (nblocks * 4)) 0 (size % 4)
  fmix32 (h1 ^^^ BitVec.ofNat 32 size)

/-! ## MurmurHash3_x86_128 -/

structure X86_128 where
  h1 : BitVec 32
  h2 : BitVec 32
  h3 : BitVec 32
  h4 : BitVec 32
  deriving DecidableEq, Repr

namespace X86_128

def scramble1 (k1 : BitVec 32) : BitVec 32 := scramble 0x239b961b 15 0xab0e9789 k1

def scramble2 (k2 : BitVec 32) : BitVec 32 := scramble 0xab0e9789 16 0x38b34ae5 k2

def scramble3 (k3 : BitVec 32) : BitVec 32 := scramble 0x38b34ae5 17 0xa1e38b93 k3

def scramble4 (k4 : BitVec 32) : BitVec 32 := scramble 0xa1e38b93 18 0x239b961b k4

/-- Every word of the state takes the next one in as it is at this point: `h4` takes the new
`h1`. -/
def body (s : X86_128) (k1 k2 k3 k4 : BitVec 32) : X86_128 :=
  let h1 := (rotl32 (s.h1 ^^^ scramble1 k1) 19 + s.h2) * 5 + 0x561ccd1b
  let h2 := (rotl32 (s.h2 ^^^ scramble2 k2) 17 + s.h3) * 5 + 0x0bcaa747
  let h3 := (rotl32 (s.h3 ^^^ scramble3 k3) 15 + s.h4) * 5 + 0x96cd1c35
  let h4 := (rotl32 (s.h4 ^^^ scramble4 k4) 13 + h1) * 5 + 0x32ac3b17
  { h1 := h1, h2 := h2, h3 := h3, h4 := h4 }

def bodyAt (data : List UInt8) (s : X86_128) (i : Nat) : X86_128 :=
  s.body (getblock32 data (i * 4 + 0)) (getblock32 data (i * 4 + 1)) (getblock32 data (i * 4 + 2))
    (getblock32 data (i * 4 + 3))

/-- The switch over `size & 15`. -/
def tail (s : X86_128) (rest : List UInt8) (count : Nat) : X86_128 where
  h4 := absorbTail scramble4 s.h4 rest 12 (count - 12)
  h3 := absorbTail scramble3 s.h3 rest 8 (min 4 (count - 8))
  h2 := absorbTail scramble2 s.h2 rest 4 (min 4 (count - 4))
  h1 := absorbTail scramble1 s.h1 rest 0 (min 4 count)

/-- `h1 += h2; h1 += h3; h1 += h4; h2 += h1; h3 += h1; h4 += h1`. -/
def spread (s : X86_128) : X86_128 :=
  let h1 := s.h1 + s.h2 + s.h3 + s.h4
  { h1 := h1, h2 := s.h2 + h1, h3 := s.h3 + h1, h4 := s.h4 + h1 }

def map (f : BitVec 32 → BitVec 32) (s : X86_128) : X86_128 where
  h1 := f s.h1
  h2 := f s.h2
  h3 := f s.h3
  h4 := f s.h4

def finish (size : Nat) (s : X86_128) : X86_128 :=
  ((s.map fun h => h ^^^ BitVec.ofNat 32 size).spread.map fmix32).spread

end X86_128

def x86_128 (message : List UInt8) : X86_128 :=
  let size := message.length
  let nblocks := size / 16
  let s := (List.range nblocks).foldl (X86_128.bodyAt message)
    { h1 := seed, h2 := seed, h3 := seed, h4 := seed }
  (s.tail (message.drop (nblocks * 16)) (size % 16)).finish size

/-! ## MurmurHash3_x64_128 -/

structure X64_128 where
  h1 : BitVec 64
  h2 : BitVec 64
  deriving DecidableEq, Repr

namespace X64_128

def scramble1 (k1 : BitVec 64) : BitVec 64 := scramble 0x87c37b91114253d5 31 0x4cf5ad432745937f k1

def scramble2 (k2 : BitVec 64) : BitVec 64 := scramble 0x4cf5ad432745937f 33 0x87c37b91114253d5 k2

def body (s : X64_128) (k1 k2 : BitVec 64) : X64_128 :=
  let h1 := (rotl64 (s.h1 ^^^ scramble1 k1) 27 + s.h2) * 5 + 0x52dce729
  let h2 := (rotl64 (s.h2 ^^^ scramble2 k2) 31 + h1) * 5 + 0x38495ab5
  { h1 := h1, h2 := h2 }

def bodyAt (data : List UInt8) (s : X64_128) (i : Nat) : X64_128 :=
  s.body (getblock64 data (i * 2 + 0)) (getblock64 data (i * 2 + 1))

/-- The switch over `size & 15`. -/
def tail (s : X64_128) (rest : List UInt8) (count : Nat) : X64_128 where
  h2 := absorbTail scramble2 s.h2 rest 8 (count - 8)
  h1 := absorbTail scramble1 s.h1 rest 0 (min 8 count)

/-- `h1 += h2; h2 += h1`. -/
def spread (s : X64_128) : X64_128 :=
  { h1 := s.h1 + s.h2, h2 := s.h2 + (s.h1 + s.h2) }

def map (f : BitVec 64 → BitVec 64) (s : X64_128) : X64_128 where
  h1 := f s.h1
  h2 := f s.h2

def finish (size : Nat) (s : X64_128) : X64_128 :=
  ((s.map fun h => h ^^^ BitVec.ofNat 64 size).spread.map fmix64).spread

end X64_128

def x64_128 (message : List UInt8) : X64_128 :=
  let size := message.length
  let nblocks := size / 16
  let s := (List.range nblocks).foldl (X64_128.bodyAt message)
    { h1 := seed.setWidth 64, h2 := seed.setWidth 64 }
  (s.tail (message.drop (nblocks * 16)) (size % 16)).finish size

/-! ## Nothing is lost on the way -/

section Steps

variable {w : Nat}

theorem fmix_injective {s s' : Nat} {c c' : BitVec w} (hs : 0 < s) (hs' : 0 < s')
    (hc : c.toNat % 2 = 1) (hc' : c'.toNat % 2 = 1) : Function.Injective (fmix s s' c c') := by
  intro x y h
  have h₁ := mul_injective hc' (xorShift_injective hs h)
  have h₂ := mul_injective hc (xorShift_injective hs' h₁)
  exact xorShift_injective hs h₂

theorem fmix32_injective : Function.Injective fmix32 :=
  fmix_injective (by decide) (by decide) (by decide) (by decide)

theorem fmix64_injective : Function.Injective fmix64 :=
  fmix_injective (by decide) (by decide) (by decide) (by decide)

theorem scramble_injective {c c' : BitVec w} {r : Nat} (hc : c.toNat % 2 = 1) (hr : r ≤ w)
    (hc' : c'.toNat % 2 = 1) : Function.Injective (scramble c r c') := by
  intro x y h
  exact mul_injective hc (rotl_injective hr (mul_injective hc' h))

/-- What a word of the state goes through after a block has entered it. -/
theorem affine_injective {r : Nat} (hr : r ≤ w) (next c d : BitVec w) (hc : c.toNat % 2 = 1) :
    Function.Injective fun x : BitVec w => (rotl r x + next) * c + d := by
  intro x y h
  exact rotl_injective hr (add_injective next (mul_injective hc (add_injective d h)))

variable {scrambled : BitVec w → BitVec w} {h h' : BitVec w} {tail tail' : List UInt8}
  {first n : Nat}

theorem absorbTail_state_inj
    (heq : absorbTail scrambled h tail first n = absorbTail scrambled h' tail first n) :
    h = h' := by
  unfold absorbTail at heq
  split at heq
  · exact xor_right_injective _ heq
  · exact heq

theorem absorbTail_rest_inj (hinj : Function.Injective scrambled) (hn : 8 * n ≤ w)
    (heq : absorbTail scrambled h tail first n = absorbTail scrambled h tail' first n) :
    ∀ i, i < n → tail.getD (first + i) 0 = tail'.getD (first + i) 0 := by
  unfold absorbTail at heq
  split at heq
  · exact packBytes_inj hn (hinj (xor_left_injective _ heq))
  · intro i hi
    omega

end Steps

theorem eq_of_getD {tail tail' : List UInt8} (hlen : tail.length = tail'.length)
    (h : ∀ i, i < tail.length → tail.getD i 0 = tail'.getD i 0) : tail = tail' := by
  apply List.ext_getElem hlen
  intro i hi hi'
  have hget := h i hi
  rw [List.getD_eq_getElem?_getD, List.getD_eq_getElem?_getD, List.getElem?_eq_getElem hi,
    List.getElem?_eq_getElem hi'] at hget
  exact hget

/-! ### Words of a block -/

section Words

variable {w size n i k : Nat} {data : List UInt8}

/-- The word `i * n + k` of a message is the `k`-th word of its `i`-th block of `n` words. -/
theorem getblock_of_block (hk : k < n) :
    getblock w size data (i * n + k) =
      getblock w size ((data.drop (i * (size * n))).take (size * n)) k := by
  have hwords : size * (k + 1) ≤ size * n := Nat.mul_le_mul_left size hk
  have hsum : i * (size * n) + size * k = size * (i * n + k) := by
    rw [Nat.mul_add, Nat.mul_left_comm]
  rw [Nat.mul_succ] at hwords
  rw [getblock, getblock, List.drop_take, List.drop_drop, List.take_take, hsum,
    Nat.min_eq_left (by omega)]

/-- The words of a block tell its bytes. -/
theorem getblock_inj (hw : 256 ^ size = 2 ^ w) {data' : List UInt8} (hlen : data.length = size * n)
    (hlen' : data'.length = size * n) (h : ∀ k, k < n → getblock w size data k =
      getblock w size data' k) : data = data' := by
  have hword : ∀ k, k < n → (data.drop (size * k)).take size = (data'.drop (size * k)).take size := by
    intro k hk
    have hfit : size * (k + 1) ≤ size * n := Nat.mul_le_mul_left size hk
    rw [Nat.mul_succ] at hfit
    have hsize : ((data.drop (size * k)).take size).length = size := by
      rw [List.length_take, List.length_drop]
      omega
    have hsize' : ((data'.drop (size * k)).take size).length = size := by
      rw [List.length_take, List.length_drop]
      omega
    have htoNat := congrArg BitVec.toNat (h k hk)
    have hlt := StructLayout.ofBytes_lt ((data.drop (size * k)).take size)
    have hlt' := StructLayout.ofBytes_lt ((data'.drop (size * k)).take size)
    rw [hsize, hw] at hlt
    rw [hsize', hw] at hlt'
    rw [getblock, getblock, BitVec.toNat_ofNat, BitVec.toNat_ofNat, Nat.mod_eq_of_lt hlt,
      Nat.mod_eq_of_lt hlt'] at htoNat
    exact StructLayout.ofBytes_inj (hsize.trans hsize'.symm) htoNat
  apply List.ext_getElem?
  intro j
  rcases Nat.lt_or_ge j (size * n) with hj | hj
  · have hpos : 0 < size := Nat.pos_of_ne_zero (by rintro rfl; simp at hj)
    have hk : j / size < n := Nat.div_lt_of_lt_mul hj
    have hmod : j % size < size := Nat.mod_lt _ hpos
    have hget := congrArg (fun word => word[j % size]?) (hword (j / size) hk)
    simp only [List.getElem?_take, if_pos hmod, List.getElem?_drop, Nat.div_add_mod] at hget
    exact hget
  · rw [List.getElem?_eq_none (hlen ▸ hj), List.getElem?_eq_none (hlen' ▸ hj)]

theorem getblock32_of_block (hk : k < n) : getblock32 data (i * n + k) =
    getblock32 ((data.drop (i * (4 * n))).take (4 * n)) k :=
  getblock_of_block hk

theorem getblock64_of_block (hk : k < n) : getblock64 data (i * n + k) =
    getblock64 ((data.drop (i * (8 * n))).take (8 * n)) k :=
  getblock_of_block hk

theorem getblock32_inj {data' : List UInt8} (hlen : data.length = 4 * n)
    (hlen' : data'.length = 4 * n)
    (h : ∀ k, k < n → getblock32 data k = getblock32 data' k) : data = data' :=
  getblock_inj (by decide) hlen hlen' h

theorem getblock64_inj {data' : List UInt8} (hlen : data.length = 8 * n)
    (hlen' : data'.length = 8 * n)
    (h : ∀ k, k < n → getblock64 data k = getblock64 data' k) : data = data' :=
  getblock_inj (by decide) hlen hlen' h

end Words

/-! ### The variants as block hashes -/

namespace X86_32

theorem scramble1_injective : Function.Injective scramble1 :=
  scramble_injective (by decide) (by decide) (by decide)

theorem body_state_injective (k1 : BitVec 32) : Function.Injective fun h1 => body h1 k1 := by
  intro h1 h1' h
  have haffine := @affine_injective 32 13 (by decide) 0 5 0xe6546b64 (by decide)
  refine xor_right_injective (scramble1 k1) (haffine ?_)
  simpa [body, rotl32] using h

theorem body_block_injective (h1 : BitVec 32) : Function.Injective (body h1) := by
  intro k1 k1' h
  have haffine := @affine_injective 32 13 (by decide) 0 5 0xe6546b64 (by decide)
  refine scramble1_injective (xor_left_injective h1 (haffine ?_))
  simpa [body, rotl32] using h

end X86_32

def x86_32Hash : BlockHash UInt8 (BitVec 32) (BitVec 32) where
  blockSize := 4
  blockSize_pos := by decide
  init := seed
  body h1 block := X86_32.body h1 (getblock32 block 0)
  tail h1 rest := absorbTail X86_32.scramble1 h1 rest 0 rest.length
  finish size h1 := fmix32 (h1 ^^^ BitVec.ofNat 32 size)
  body_state_inj block := X86_32.body_state_injective (getblock32 block 0)
  body_block_inj := by
    intro h1 block block' hlen hlen' h
    have hword := X86_32.body_block_injective h1 h
    refine getblock32_inj (n := 1) hlen hlen' fun k hk => ?_
    obtain rfl : k = 0 := by omega
    exact hword
  tail_state_inj _ := fun _ _ h => absorbTail_state_inj h
  tail_rest_inj := by
    intro h1 rest rest' hlen hlt h
    rw [← hlen] at h
    have hbytes := absorbTail_rest_inj X86_32.scramble1_injective (by omega) h
    refine eq_of_getD hlen fun i hi => ?_
    simpa using hbytes i hi
  finish_inj _ := fun _ _ h => xor_right_injective _ (fmix32_injective h)

theorem x86_32_eq_digest (message : List UInt8) : x86_32 message = x86_32Hash.digest message := by
  have hbody := @BlockHash.foldl_eq_absorb _ _ _ x86_32Hash message
    (fun h1 i => X86_32.body h1 (getblock32 message i)) (fun h1 i => by
      have hword := @getblock32_of_block 1 i 0 message Nat.one_pos
      rw [Nat.mul_one, Nat.add_zero] at hword
      rw [hword]
      rfl) (message.length / 4)
  have hrest : (message.drop (message.length / 4 * 4)).length = message.length % 4 :=
    @BlockHash.length_rest _ _ _ x86_32Hash message
  rw [x86_32, BlockHash.digest]
  simp only [x86_32Hash] at hbody ⊢
  rw [hbody]
  simp only [BlockHash.rest, BlockHash.numberOfBlocks, hrest]

/-! ### Messages of one block

A message of at most four bytes is one word, which comes from the tail or is the only block. -/

theorem testBit_ofBytes (bytes : List UInt8) (i : Nat) :
    (StructLayout.ofBytes bytes).testBit i = (bytes.getD (i / 8) 0).toNat.testBit (i % 8) := by
  induction bytes generalizing i with
  | nil => simp [StructLayout.ofBytes]
  | cons byte rest ih =>
    have hbyte : byte.toNat < 2 ^ 8 := byte.toNat_lt
    rw [StructLayout.ofBytes, Nat.add_comm, Nat.testBit_two_pow_mul_add (i := 8) _ hbyte]
    split
    · rename_i hi
      rw [Nat.div_eq_of_lt hi, Nat.mod_eq_of_lt hi]
      rfl
    · rename_i hi
      have hdiv : i / 8 = (i - 8) / 8 + 1 := by omega
      have hmod : (i - 8) % 8 = i % 8 := by omega
      rw [ih, hdiv, hmod]
      rfl

theorem tailWord_eq {w : Nat} (bytes : List UInt8) :
    tailWord w bytes 0 bytes.length = BitVec.ofNat w (StructLayout.ofBytes bytes) := by
  apply BitVec.eq_of_getLsbD_eq
  intro i hi
  have hbyte : (bytes.getD (i / 8) 0).toBitVec.getLsbD (i % 8) =
      (bytes.getD (i / 8) 0).toNat.testBit (i % 8) := by
    rw [← BitVec.testBit_toNat, UInt8.toNat_toBitVec]
  rw [tailWord, getLsbD_packBytes _ hi, BitVec.getLsbD_ofNat, testBit_ofBytes]
  simp only [Nat.zero_add, hbyte, hi, decide_true, Bool.true_and]
  rcases Nat.lt_or_ge (i / 8) bytes.length with hin | hout
  · have hlt : i < 8 * bytes.length := by omega
    simp [hlt]
  · have hge : ¬ i < 8 * bytes.length := by omega
    rw [List.getD_eq_getElem?_getD, List.getElem?_eq_none hout]
    simp [hge]

/-- The word of a message of at most four bytes. -/
def word (message : List UInt8) : BitVec 32 := BitVec.ofNat 32 (StructLayout.ofBytes message)

theorem x86_32_of_length_lt {message : List UInt8} (hpos : 0 < message.length)
    (hlt : message.length < 4) :
    x86_32 message =
      fmix32 (seed ^^^ X86_32.scramble1 (word message) ^^^ BitVec.ofNat 32 message.length) := by
  have hdiv : message.length / 4 = 0 := Nat.div_eq_of_lt hlt
  simp only [x86_32, hdiv, List.range_zero, List.foldl_nil, Nat.zero_mul, List.drop_zero,
    absorbTail, Nat.mod_eq_of_lt hlt, if_pos hpos, tailWord_eq, word]

theorem x86_32_of_length_four {message : List UInt8} (hlen : message.length = 4) :
    x86_32 message = fmix32 (X86_32.body seed (word message) ^^^ 4) := by
  have htake : message.take 4 = message := by rw [← hlen, List.take_length]
  simp [x86_32, hlen, absorbTail, List.range_succ, getblock32, getblock, htake, word]

namespace X86_128

theorem scramble1_injective : Function.Injective scramble1 :=
  scramble_injective (by decide) (by decide) (by decide)

theorem scramble2_injective : Function.Injective scramble2 :=
  scramble_injective (by decide) (by decide) (by decide)

theorem scramble3_injective : Function.Injective scramble3 :=
  scramble_injective (by decide) (by decide) (by decide)

theorem scramble4_injective : Function.Injective scramble4 :=
  scramble_injective (by decide) (by decide) (by decide)

/-- A word of the state, when the one that was added to it is the same. -/
theorem turn_inj {r : Nat} (hr : r ≤ 32) {x y next d : BitVec 32}
    (h : (rotl32 x r + next) * 5 + d = (rotl32 y r + next) * 5 + d) : x = y :=
  affine_injective hr next 5 d (by decide) h

theorem body_state_inj {s s' : X86_128} {k1 k2 k3 k4 : BitVec 32}
    (h : s.body k1 k2 k3 k4 = s'.body k1 k2 k3 k4) : s = s' := by
  obtain ⟨h1, h2, h3, h4⟩ := s
  obtain ⟨h1', h2', h3', h4'⟩ := s'
  simp only [body, mk.injEq] at h
  obtain ⟨e1, e2, e3, e4⟩ := h
  -- the fourth word has taken the new first one in, the others the old next one
  rw [e1] at e4
  obtain rfl : h4 = h4' := xor_right_injective _ (turn_inj (by decide) e4)
  obtain rfl : h3 = h3' := xor_right_injective _ (turn_inj (by decide) e3)
  obtain rfl : h2 = h2' := xor_right_injective _ (turn_inj (by decide) e2)
  obtain rfl : h1 = h1' := xor_right_injective _ (turn_inj (by decide) e1)
  rfl

theorem body_block_inj {s : X86_128} {k1 k2 k3 k4 k1' k2' k3' k4' : BitVec 32}
    (h : s.body k1 k2 k3 k4 = s.body k1' k2' k3' k4') :
    k1 = k1' ∧ k2 = k2' ∧ k3 = k3' ∧ k4 = k4' := by
  simp only [body, mk.injEq] at h
  obtain ⟨e1, e2, e3, e4⟩ := h
  rw [e1] at e4
  exact ⟨scramble1_injective (xor_left_injective _ (turn_inj (by decide) e1)),
    scramble2_injective (xor_left_injective _ (turn_inj (by decide) e2)),
    scramble3_injective (xor_left_injective _ (turn_inj (by decide) e3)),
    scramble4_injective (xor_left_injective _ (turn_inj (by decide) e4))⟩

theorem tail_state_inj {s s' : X86_128} {rest : List UInt8} {count : Nat}
    (h : s.tail rest count = s'.tail rest count) : s = s' := by
  obtain ⟨h1, h2, h3, h4⟩ := s
  obtain ⟨h1', h2', h3', h4'⟩ := s'
  simp only [tail, mk.injEq] at h
  obtain ⟨e1, e2, e3, e4⟩ := h
  rw [mk.injEq]
  exact ⟨absorbTail_state_inj e1, absorbTail_state_inj e2, absorbTail_state_inj e3,
    absorbTail_state_inj e4⟩

theorem tail_rest_inj {s : X86_128} {rest rest' : List UInt8} {count : Nat} (hcount : count < 16)
    (h : s.tail rest count = s.tail rest' count) :
    ∀ i, i < count → rest.getD i 0 = rest'.getD i 0 := by
  simp only [tail, mk.injEq] at h
  obtain ⟨e1, e2, e3, e4⟩ := h
  have hbytes1 := absorbTail_rest_inj scramble1_injective (by omega) e1
  have hbytes2 := absorbTail_rest_inj scramble2_injective (by omega) e2
  have hbytes3 := absorbTail_rest_inj scramble3_injective (by omega) e3
  have hbytes4 := absorbTail_rest_inj scramble4_injective (by omega) e4
  intro i hi
  rcases Nat.lt_or_ge i 4 with h4 | h4
  · simpa using hbytes1 i (by omega)
  rcases Nat.lt_or_ge i 8 with h8 | h8
  · simpa [Nat.add_sub_of_le h4] using hbytes2 (i - 4) (by omega)
  rcases Nat.lt_or_ge i 12 with h12 | h12
  · simpa [Nat.add_sub_of_le h8] using hbytes3 (i - 8) (by omega)
  · simpa [Nat.add_sub_of_le h12] using hbytes4 (i - 12) (by omega)

theorem spread_injective : Function.Injective spread := by
  rintro ⟨h1, h2, h3, h4⟩ ⟨h1', h2', h3', h4'⟩ h
  simp only [spread, mk.injEq] at h
  obtain ⟨e1, e2, e3, e4⟩ := h
  rw [e1] at e2 e3 e4
  obtain rfl : h2 = h2' := add_injective _ e2
  obtain rfl : h3 = h3' := add_injective _ e3
  obtain rfl : h4 = h4' := add_injective _ e4
  obtain rfl : h1 = h1' := add_injective _ (add_injective _ (add_injective _ e1))
  rfl

theorem map_injective {f : BitVec 32 → BitVec 32} (hf : Function.Injective f) :
    Function.Injective (map f) := by
  rintro ⟨h1, h2, h3, h4⟩ ⟨h1', h2', h3', h4'⟩ h
  simp only [map, mk.injEq] at h
  obtain ⟨e1, e2, e3, e4⟩ := h
  rw [mk.injEq]
  exact ⟨hf e1, hf e2, hf e3, hf e4⟩

theorem finish_injective (size : Nat) : Function.Injective (finish size) := by
  intro s s' h
  have hmixed := map_injective fmix32_injective (spread_injective h)
  exact map_injective (xor_right_injective _) (spread_injective hmixed)

end X86_128

def x86_128Hash : BlockHash UInt8 X86_128 X86_128 where
  blockSize := 16
  blockSize_pos := by decide
  init := { h1 := seed, h2 := seed, h3 := seed, h4 := seed }
  body s block := X86_128.bodyAt block s 0
  tail s rest := s.tail rest rest.length
  finish := X86_128.finish
  body_state_inj _ := fun _ _ h => X86_128.body_state_inj h
  body_block_inj := by
    intro s block block' hlen hlen' h
    obtain ⟨h0, h1, h2, h3⟩ := X86_128.body_block_inj h
    refine getblock32_inj (n := 4) hlen hlen' fun k hk => ?_
    obtain rfl | rfl | rfl | rfl : k = 0 ∨ k = 1 ∨ k = 2 ∨ k = 3 := by omega
    · exact h0
    · exact h1
    · exact h2
    · exact h3
  tail_state_inj _ := fun _ _ h => X86_128.tail_state_inj h
  tail_rest_inj := by
    intro s rest rest' hlen hlt h
    rw [← hlen] at h
    exact eq_of_getD hlen (X86_128.tail_rest_inj hlt h)
  finish_inj := X86_128.finish_injective

theorem x86_128_eq_digest (message : List UInt8) :
    x86_128 message = x86_128Hash.digest message := by
  have hbody := @BlockHash.foldl_eq_absorb _ _ _ x86_128Hash message (X86_128.bodyAt message)
    (fun s i => by
      rw [X86_128.bodyAt, getblock32_of_block (by decide : 0 < 4),
        getblock32_of_block (by decide : 1 < 4), getblock32_of_block (by decide : 2 < 4),
        getblock32_of_block (by decide : 3 < 4)]
      rfl) (message.length / 16)
  have hrest : (message.drop (message.length / 16 * 16)).length = message.length % 16 :=
    @BlockHash.length_rest _ _ _ x86_128Hash message
  rw [x86_128, BlockHash.digest]
  simp only [x86_128Hash] at hbody ⊢
  rw [hbody]
  simp only [BlockHash.rest, BlockHash.numberOfBlocks, hrest]

namespace X64_128

theorem scramble1_injective : Function.Injective scramble1 :=
  scramble_injective (by decide) (by decide) (by decide)

theorem scramble2_injective : Function.Injective scramble2 :=
  scramble_injective (by decide) (by decide) (by decide)

theorem turn_inj {r : Nat} (hr : r ≤ 64) {x y next d : BitVec 64}
    (h : (rotl64 x r + next) * 5 + d = (rotl64 y r + next) * 5 + d) : x = y :=
  affine_injective hr next 5 d (by decide) h

theorem body_state_inj {s s' : X64_128} {k1 k2 : BitVec 64}
    (h : s.body k1 k2 = s'.body k1 k2) : s = s' := by
  obtain ⟨h1, h2⟩ := s
  obtain ⟨h1', h2'⟩ := s'
  simp only [body, mk.injEq] at h
  obtain ⟨e1, e2⟩ := h
  rw [e1] at e2
  obtain rfl : h2 = h2' := xor_right_injective _ (turn_inj (by decide) e2)
  obtain rfl : h1 = h1' := xor_right_injective _ (turn_inj (by decide) e1)
  rfl

theorem body_block_inj {s : X64_128} {k1 k2 k1' k2' : BitVec 64}
    (h : s.body k1 k2 = s.body k1' k2') : k1 = k1' ∧ k2 = k2' := by
  simp only [body, mk.injEq] at h
  obtain ⟨e1, e2⟩ := h
  rw [e1] at e2
  exact ⟨scramble1_injective (xor_left_injective _ (turn_inj (by decide) e1)),
    scramble2_injective (xor_left_injective _ (turn_inj (by decide) e2))⟩

theorem tail_state_inj {s s' : X64_128} {rest : List UInt8} {count : Nat}
    (h : s.tail rest count = s'.tail rest count) : s = s' := by
  obtain ⟨h1, h2⟩ := s
  obtain ⟨h1', h2'⟩ := s'
  simp only [tail, mk.injEq] at h
  obtain ⟨e1, e2⟩ := h
  rw [mk.injEq]
  exact ⟨absorbTail_state_inj e1, absorbTail_state_inj e2⟩

theorem tail_rest_inj {s : X64_128} {rest rest' : List UInt8} {count : Nat} (hcount : count < 16)
    (h : s.tail rest count = s.tail rest' count) :
    ∀ i, i < count → rest.getD i 0 = rest'.getD i 0 := by
  simp only [tail, mk.injEq] at h
  obtain ⟨e1, e2⟩ := h
  have hbytes1 := absorbTail_rest_inj scramble1_injective (by omega) e1
  have hbytes2 := absorbTail_rest_inj scramble2_injective (by omega) e2
  intro i hi
  rcases Nat.lt_or_ge i 8 with h8 | h8
  · simpa using hbytes1 i (by omega)
  · simpa [Nat.add_sub_of_le h8] using hbytes2 (i - 8) (by omega)

theorem spread_injective : Function.Injective spread := by
  rintro ⟨h1, h2⟩ ⟨h1', h2'⟩ h
  simp only [spread, mk.injEq] at h
  obtain ⟨e1, e2⟩ := h
  rw [e1] at e2
  obtain rfl : h2 = h2' := add_injective _ e2
  obtain rfl : h1 = h1' := add_injective _ e1
  rfl

theorem map_injective {f : BitVec 64 → BitVec 64} (hf : Function.Injective f) :
    Function.Injective (map f) := by
  rintro ⟨h1, h2⟩ ⟨h1', h2'⟩ h
  simp only [map, mk.injEq] at h
  rw [mk.injEq]
  exact ⟨hf h.1, hf h.2⟩

theorem finish_injective (size : Nat) : Function.Injective (finish size) := by
  intro s s' h
  have hmixed := map_injective fmix64_injective (spread_injective h)
  exact map_injective (xor_right_injective _) (spread_injective hmixed)

end X64_128

def x64_128Hash : BlockHash UInt8 X64_128 X64_128 where
  blockSize := 16
  blockSize_pos := by decide
  init := { h1 := seed.setWidth 64, h2 := seed.setWidth 64 }
  body s block := X64_128.bodyAt block s 0
  tail s rest := s.tail rest rest.length
  finish := X64_128.finish
  body_state_inj _ := fun _ _ h => X64_128.body_state_inj h
  body_block_inj := by
    intro s block block' hlen hlen' h
    obtain ⟨h0, h1⟩ := X64_128.body_block_inj h
    refine getblock64_inj (n := 2) hlen hlen' fun k hk => ?_
    obtain rfl | rfl : k = 0 ∨ k = 1 := by omega
    · exact h0
    · exact h1
  tail_state_inj _ := fun _ _ h => X64_128.tail_state_inj h
  tail_rest_inj := by
    intro s rest rest' hlen hlt h
    rw [← hlen] at h
    exact eq_of_getD hlen (X64_128.tail_rest_inj hlt h)
  finish_inj := X64_128.finish_injective

theorem x64_128_eq_digest (message : List UInt8) :
    x64_128 message = x64_128Hash.digest message := by
  have hbody := @BlockHash.foldl_eq_absorb _ _ _ x64_128Hash message (X64_128.bodyAt message)
    (fun s i => by
      rw [X64_128.bodyAt, getblock64_of_block (by decide : 0 < 2),
        getblock64_of_block (by decide : 1 < 2)]
      rfl) (message.length / 16)
  have hrest : (message.drop (message.length / 16 * 16)).length = message.length % 16 :=
    @BlockHash.length_rest _ _ _ x64_128Hash message
  rw [x64_128, BlockHash.digest]
  simp only [x64_128Hash] at hbody ⊢
  rw [hbody]
  simp only [BlockHash.rest, BlockHash.numberOfBlocks, hrest]

end MurmurHash3

end Paio
