import Paio.Murmurhash
import Paio.RuleOrder
import Paio.Routing

/-!
# Paio.Tokens

The tokens that MurmurHash3 makes of the texts of the builders. A builder that selects one
classifier hashes its numeral. Numerals of one length and at most four digits fill a single block,
so that their tokens differ; and for two numerals of different length there is only one word that
the longer one could consist of, which is never made of digits (`numeral_tokens_inj`). This ends at
numerals of six digits: `4872` and `198305` have the same token.

`employAll_shipped`: under the shipped options no condition on the hash is left. Channels for
different contexts below 10000 can all be created, with an object each, and every request reaches
the channel of its context.
-/

namespace Paio

open WordMixing StructLayout

/-- `MurmurHashTokenBuilder`: the schemes that `bind_function` binds. -/
inductive HashingScheme where
  | murmurHashX86_32
  | murmurHashX86_128
  | murmurHashX64_128
  deriving DecidableEq, Repr

namespace HashingScheme

/-- The bytes that a message is taken in by. -/
def blockSize : HashingScheme → Nat
  | .murmurHashX86_32 => 4
  | .murmurHashX86_128 | .murmurHashX64_128 => 16

/-- `generate_differentiation_token`: the bytes that are written through the pointer it is given. -/
def generateDifferentiationToken (scheme : HashingScheme) (message : List UInt8) : List UInt8 :=
  match scheme with
  | .murmurHashX86_32 => toBytes 4 (MurmurHash3.x86_32 message).toNat
  | .murmurHashX86_128 =>
    let s := MurmurHash3.x86_128 message
    toBytes 4 s.h1.toNat ++ (toBytes 4 s.h2.toNat ++ (toBytes 4 s.h3.toNat ++
      toBytes 4 s.h4.toNat))
  | .murmurHashX64_128 =>
    let s := MurmurHash3.x64_128 message
    toBytes 8 s.h1.toNat ++ toBytes 8 s.h2.toNat

/-- What the token of the builders holds after that: it is a `uint32_t`, so of the 128-bit digests it
takes the first four bytes, and the others are written behind it. -/
def token (scheme : HashingScheme) (message : List UInt8) : UInt32 :=
  UInt32.ofNat (ofBytes ((scheme.generateDifferentiationToken message).take 4))

theorem toBytes_toNat_inj {w size : Nat} (hw : 256 ^ size = 2 ^ w) {x y : BitVec w}
    (h : toBytes size x.toNat = toBytes size y.toNat) : x = y := by
  have hnum := congrArg ofBytes h
  rw [ofBytes_toBytes, ofBytes_toBytes, hw, Nat.mod_eq_of_lt x.isLt, Nat.mod_eq_of_lt y.isLt] at hnum
  exact BitVec.eq_of_toNat_eq hnum

/-- The token of the 32-bit scheme is its digest. -/
theorem token_x86_32 (message : List UInt8) :
    murmurHashX86_32.token message = UInt32.ofBitVec (MurmurHash3.x86_32 message) := by
  have hlen : (toBytes 4 (MurmurHash3.x86_32 message).toNat).length ≤ 4 := by simp
  have hfits : (MurmurHash3.x86_32 message).toNat < 256 ^ 4 := (MurmurHash3.x86_32 message).isLt
  rw [token, generateDifferentiationToken, List.take_of_length_le hlen, ofBytes_toBytes,
    Nat.mod_eq_of_lt hfits]
  exact congrArg UInt32.ofBitVec (by rw [BitVec.ofNat_toNat, BitVec.setWidth_eq])

theorem digest_inj_of_one_block (scheme : HashingScheme) {message message' : List UInt8} {i : Nat}
    (hlen : message.length = message'.length)
    (hsame : ∀ j, j / scheme.blockSize ≠ i → message[j]? = message'[j]?)
    (heq : scheme.generateDifferentiationToken message =
      scheme.generateDifferentiationToken message') : message = message' := by
  cases scheme with
  | murmurHashX86_32 =>
    have hdigest := toBytes_toNat_inj (by decide) heq
    rw [MurmurHash3.x86_32_eq_digest, MurmurHash3.x86_32_eq_digest] at hdigest
    exact BlockHash.digest_inj_of_agreeOutside ⟨hlen, hsame⟩ hdigest
  | murmurHashX86_128 =>
    obtain ⟨e1, hrest⟩ := List.append_inj heq (by simp)
    obtain ⟨e2, hrest⟩ := List.append_inj hrest (by simp)
    obtain ⟨e3, e4⟩ := List.append_inj hrest (by simp)
    have hdigest : MurmurHash3.x86_128 message = MurmurHash3.x86_128 message' := by
      rw [MurmurHash3.X86_128.mk.injEq]
      exact ⟨toBytes_toNat_inj (by decide) e1, toBytes_toNat_inj (by decide) e2,
        toBytes_toNat_inj (by decide) e3, toBytes_toNat_inj (by decide) e4⟩
    rw [MurmurHash3.x86_128_eq_digest, MurmurHash3.x86_128_eq_digest] at hdigest
    exact BlockHash.digest_inj_of_agreeOutside ⟨hlen, hsame⟩ hdigest
  | murmurHashX64_128 =>
    obtain ⟨e1, e2⟩ := List.append_inj heq (by simp)
    have hdigest : MurmurHash3.x64_128 message = MurmurHash3.x64_128 message' := by
      rw [MurmurHash3.X64_128.mk.injEq]
      exact ⟨toBytes_toNat_inj (by decide) e1, toBytes_toNat_inj (by decide) e2⟩
    rw [MurmurHash3.x64_128_eq_digest, MurmurHash3.x64_128_eq_digest] at hdigest
    exact BlockHash.digest_inj_of_agreeOutside ⟨hlen, hsame⟩ hdigest

/-- Two messages of one length that differ inside of one block have different digests whatever the
scheme, and different tokens under the 32-bit scheme. -/
theorem digest_ne_of_one_block (scheme : HashingScheme) {message message' : List UInt8} {i : Nat}
    (hlen : message.length = message'.length)
    (hsame : ∀ j, j / scheme.blockSize ≠ i → message[j]? = message'[j]?)
    (hne : message ≠ message') :
    scheme.generateDifferentiationToken message ≠ scheme.generateDifferentiationToken message' ∧
      (scheme = murmurHashX86_32 → scheme.token message ≠ scheme.token message') := by
  refine ⟨fun heq => hne (scheme.digest_inj_of_one_block hlen hsame heq), ?_⟩
  rintro rfl heq
  rw [token_x86_32, token_x86_32] at heq
  have hdigest : MurmurHash3.x86_32 message = MurmurHash3.x86_32 message' :=
    congrArg UInt32.toBitVec heq
  refine hne (murmurHashX86_32.digest_inj_of_one_block hlen hsame ?_)
  rw [generateDifferentiationToken, generateDifferentiationToken, hdigest]

/-- Two messages of six bytes that differ in their second block. -/
theorem digest_ne_of_one_block_second :
    murmurHashX86_32.generateDifferentiationToken [49, 48, 48, 48, 124, 49] ≠
        murmurHashX86_32.generateDifferentiationToken [49, 48, 48, 48, 124, 50] ∧
      murmurHashX86_32.token [49, 48, 48, 48, 124, 49] ≠
        murmurHashX86_32.token [49, 48, 48, 48, 124, 50] := by
  have hlen : [(49 : UInt8), 48, 48, 48, 124, 49].length =
      [(49 : UInt8), 48, 48, 48, 124, 50].length := rfl
  have hsame : ∀ j, j / murmurHashX86_32.blockSize ≠ 1 →
      [(49 : UInt8), 48, 48, 48, 124, 49][j]? = [49, 48, 48, 48, 124, 50][j]? := by
    intro j hj
    match j with
    | 0 | 1 | 2 | 3 => rfl
    | 4 | 5 => exact absurd rfl hj
    | j + 6 => rfl
  obtain ⟨hdigest, htoken⟩ := digest_ne_of_one_block .murmurHashX86_32 hlen hsame (by decide)
  exact ⟨hdigest, htoken rfl⟩

/-- The first words of two digests of a 128-bit scheme can be the same. -/
example : murmurHashX86_128.token [49, 49, 54, 57, 51] =
    murmurHashX86_128.token [52, 53, 56, 49, 57] := by decide +kernel

end HashingScheme

/-! ## Numerals -/

namespace MurmurHash3

/-- The word that `scramble1` turns into the given one. -/
def unscramble1 (k1 : BitVec 32) : BitVec 32 := rotl 17 (k1 * 0x56ed309b) * 0xdee13bb1

theorem unscramble1_scramble1 (k1 : BitVec 32) : unscramble1 (X86_32.scramble1 k1) = k1 := by
  have hmul : (0x1b873593 * 0x56ed309b : BitVec 32) = 1#32 := by decide
  have hmul' : (0xcc9e2d51 * 0xdee13bb1 : BitVec 32) = 1#32 := by decide
  rw [unscramble1, X86_32.scramble1, scramble, BitVec.mul_assoc, hmul, BitVec.mul_one,
    rotl_rotl (by decide), BitVec.mul_assoc, hmul', BitVec.mul_one]

/-- The block that `body` turns the given state into the second one with. -/
def unbody (h1 after : BitVec 32) : BitVec 32 :=
  unscramble1 (h1 ^^^ rotl 19 ((after - 0xe6546b64) * 0xcccccccd))

theorem unbody_body (h1 k1 : BitVec 32) : unbody h1 (X86_32.body h1 k1) = k1 := by
  have hmul : (5 * 0xcccccccd : BitVec 32) = 1#32 := by decide
  rw [unbody, X86_32.body, rotl32, BitVec.add_sub_cancel, BitVec.mul_assoc, hmul, BitVec.mul_one,
    rotl_rotl (by decide), ← BitVec.xor_assoc, BitVec.xor_self, BitVec.zero_xor,
    unscramble1_scramble1]

/-- The only word that a message of `n` bytes can consist of when `fmix32` gets the given state. -/
def wordOf (state : BitVec 32) (n : Nat) : BitVec 32 :=
  if n = 4 then unbody seed (state ^^^ 4) else unscramble1 (seed ^^^ (state ^^^ BitVec.ofNat 32 n))

theorem word_eq_wordOf {message : List UInt8} {state : BitVec 32} (hpos : 0 < message.length)
    (hle : message.length ≤ 4) (h : x86_32 message = fmix32 state) :
    word message = wordOf state message.length := by
  rw [wordOf]
  split
  · rename_i hfour
    rw [x86_32_of_length_four hfour] at h
    rw [← fmix32_injective h, BitVec.xor_assoc, BitVec.xor_self, BitVec.xor_zero, unbody_body]
  · rw [x86_32_of_length_lt hpos (by omega)] at h
    rw [← fmix32_injective h, BitVec.xor_assoc, BitVec.xor_self, BitVec.xor_zero,
      ← BitVec.xor_assoc, BitVec.xor_self, BitVec.zero_xor, unscramble1_scramble1]

/-- `'0'` to `'9'`. -/
def isDigit (byte : UInt8) : Bool := 48 ≤ byte && byte ≤ 57

/-- Texts of one to four digits. -/
structure ShortNumeral (message : List UInt8) : Prop where
  digits : ∀ byte ∈ message, isDigit byte = true
  pos : 0 < message.length
  le : message.length ≤ 4

/-- The word is not made of `n` digits. -/
def noNumeral (n : Nat) (k : BitVec 32) : Bool :=
  !((toBytes n k.toNat).all isDigit && decide (k.toNat < 256 ^ n))

theorem ShortNumeral.noNumeral_eq_false {message : List UInt8} (h : ShortNumeral message) :
    noNumeral message.length (word message) = false := by
  have hlt : ofBytes message < 256 ^ message.length := ofBytes_lt message
  have hpow : 256 ^ message.length ≤ 2 ^ 32 := Nat.pow_le_pow_right (by decide) h.le
  have htoNat : (word message).toNat = ofBytes message := by
    rw [word, BitVec.toNat_ofNat, Nat.mod_eq_of_lt (Nat.lt_of_lt_of_le hlt hpow)]
  have hall : message.all isDigit = true := List.all_eq_true.mpr h.digits
  rw [noNumeral, htoNat, toBytes_ofBytes]
  simp [hall, hlt]

/-- What `fmix32` gets for a message of less than four bytes. -/
def shortState (message : List UInt8) : BitVec 32 :=
  seed ^^^ X86_32.scramble1 (word message) ^^^ BitVec.ofNat 32 message.length

/-- No longer numeral has the token of this one. -/
def unrivalled (message : List UInt8) : Bool :=
  (List.range 5).all fun n => n ≤ message.length || noNumeral n (wordOf (shortState message) n)

/-- `'0' + d`. -/
def digit (d : Fin 10) : UInt8 := UInt8.ofNat (48 + d)

theorem unrivalled_one : ∀ a : Fin 10, unrivalled [digit a] = true := by decide

set_option maxRecDepth 20000 in
theorem unrivalled_two : ∀ a b : Fin 10, unrivalled [digit a, digit b] = true := by decide

set_option maxRecDepth 20000 in
theorem unrivalled_three : ∀ a b c : Fin 10, unrivalled [digit a, digit b, digit c] = true := by
  decide

theorem exists_digit {byte : UInt8} (h : isDigit byte = true) : ∃ d, byte = digit d := by
  simp only [isDigit, Bool.and_eq_true, decide_eq_true_eq, UInt8.le_iff_toNat_le] at h
  have hlow : 48 ≤ byte.toNat := h.1
  have hhigh : byte.toNat ≤ 57 := h.2
  refine ⟨⟨byte.toNat - 48, by omega⟩, ?_⟩
  rw [digit, ← UInt8.toNat_inj, UInt8.toNat_ofNat']
  simp only
  omega

theorem ShortNumeral.unrivalled {message : List UInt8} (h : ShortNumeral message)
    (hlt : message.length < 4) : unrivalled message = true := by
  match message, h, hlt with
  | [], h, _ => exact absurd h.pos (by simp)
  | [byte], h, _ =>
    obtain ⟨a, rfl⟩ := exists_digit (h.digits byte (by simp))
    exact unrivalled_one a
  | [byte, byte'], h, _ =>
    obtain ⟨a, rfl⟩ := exists_digit (h.digits byte (by simp))
    obtain ⟨b, rfl⟩ := exists_digit (h.digits byte' (by simp))
    exact unrivalled_two a b
  | [byte, byte', byte''], h, _ =>
    obtain ⟨a, rfl⟩ := exists_digit (h.digits byte (by simp))
    obtain ⟨b, rfl⟩ := exists_digit (h.digits byte' (by simp))
    obtain ⟨c, rfl⟩ := exists_digit (h.digits byte'' (by simp))
    exact unrivalled_three a b c

/-- A numeral and a longer one. -/
theorem ShortNumeral.x86_32_ne {message message' : List UInt8} (h : ShortNumeral message)
    (h' : ShortNumeral message') (hlt : message.length < message'.length) :
    x86_32 message ≠ x86_32 message' := by
  intro heq
  have hle := h'.le
  have hword := word_eq_wordOf h'.pos hle (heq.symm.trans (x86_32_of_length_lt h.pos (by omega)))
  have hmem : message'.length ∈ List.range 5 := List.mem_range.mpr (by omega)
  have hrival := List.all_eq_true.mp (h.unrivalled (by omega)) _ hmem
  have hnot : ¬ message'.length ≤ message.length := by omega
  rw [shortState, ← hword, h'.noNumeral_eq_false] at hrival
  simp [hnot] at hrival

theorem ShortNumeral.x86_32_inj {message message' : List UInt8} (h : ShortNumeral message)
    (h' : ShortNumeral message') (heq : x86_32 message = x86_32 message') : message = message' := by
  rcases Nat.lt_trichotomy message.length message'.length with hlt | hlen | hgt
  · exact absurd heq (h.x86_32_ne h' hlt)
  · rw [x86_32_eq_digest, x86_32_eq_digest] at heq
    exact BlockHash.digest_inj_of_length_le hlen h.le heq
  · exact absurd heq.symm (h'.x86_32_ne h hgt)

/-- No short numeral has the token that stands for no channel. -/
theorem ShortNumeral.x86_32_ne_noToken {message : List UInt8} (h : ShortNumeral message) :
    x86_32 message ≠ noToken.toBitVec := by
  intro heq
  have hfmix : noToken.toBitVec = fmix32 0x331da083 := by decide
  have hword := word_eq_wordOf h.pos h.le (heq.trans hfmix)
  have hnone : (List.range 5).all fun n => n = 0 || noNumeral n (wordOf 0x331da083 n) := by decide
  have hle := h.le
  have hpos := h.pos
  have hmem : message.length ∈ List.range 5 := List.mem_range.mpr (by omega)
  have hnot := List.all_eq_true.mp hnone _ hmem
  rw [← hword, h.noNumeral_eq_false] at hnot
  simp [Nat.ne_of_gt hpos] at hnot

end MurmurHash3

/-- The bytes of a text that a builder puts together: digits, bars and letters. -/
def messageBytes (s : String) : List UInt8 := s.toList.map fun c => UInt8.ofNat c.toNat

/-- The hash of the shipped options. -/
def murmurHash (s : String) : UInt32 := UInt32.ofBitVec (MurmurHash3.x86_32 (messageBytes s))

theorem murmurHash_eq_token (s : String) :
    murmurHash s = HashingScheme.murmurHashX86_32.token (messageBytes s) :=
  (HashingScheme.token_x86_32 _).symm

theorem digit_bounds {x : UInt32} {c : Char} (hc : c ∈ (decimal x).toList) :
    48 ≤ c.toNat ∧ c.toNat ≤ 57 := by
  rw [decimal, Nat.toList_repr] at hc
  have hdigit := Nat.isDigit_of_mem_toDigits (by decide) (by decide) hc
  simp only [Char.isDigit, Bool.and_eq_true, decide_eq_true_eq] at hdigit
  exact ⟨hdigit.1, hdigit.2⟩

theorem shortNumeral_decimal {x : UInt32} (hx : x < 10000) :
    MurmurHash3.ShortNumeral (messageBytes (decimal x)) where
  digits := by
    intro byte hbyte
    obtain ⟨c, hc, rfl⟩ := List.mem_map.mp hbyte
    obtain ⟨hlow, hhigh⟩ := digit_bounds hc
    have htoNat : (UInt8.ofNat c.toNat).toNat = c.toNat := by
      rw [UInt8.toNat_ofNat', Nat.mod_eq_of_lt (by omega)]
    simp only [MurmurHash3.isDigit, Bool.and_eq_true, decide_eq_true_eq, UInt8.le_iff_toNat_le,
      htoNat]
    exact ⟨hlow, hhigh⟩
  pos := by
    rw [messageBytes, List.length_map, decimal, Nat.toList_repr]
    exact Nat.length_toDigits_pos
  le := by
    have hlt : x.toNat < 10 ^ 4 := hx
    rw [messageBytes, List.length_map, decimal, Nat.toList_repr]
    exact (Nat.length_toDigits_le_iff (by decide) (by decide)).mpr hlt

theorem messageBytes_decimal_inj {x y : UInt32}
    (h : messageBytes (decimal x) = messageBytes (decimal y)) : x = y := by
  have hread : ∀ z : UInt32, (messageBytes (decimal z)).map (fun byte => Char.ofNat byte.toNat) =
      (decimal z).toList := by
    intro z
    rw [messageBytes, List.map_map, List.map_congr_left (g := id), List.map_id]
    intro c hc
    have hbounds := digit_bounds hc
    simp only [Function.comp_apply, UInt8.toNat_ofNat', Nat.mod_eq_of_lt (by omega : c.toNat < 2 ^ 8),
      Char.ofNat_toNat, id_eq]
  have hchars := congrArg (List.map fun byte => Char.ofNat byte.toNat) h
  rw [hread, hread] at hchars
  exact decimal_inj.mp (String.toList_inj.mp hchars)

theorem murmurHash_decimal_inj {x y : UInt32} (hx : x < 10000) (hy : y < 10000)
    (h : murmurHash (decimal x) = murmurHash (decimal y)) : x = y :=
  messageBytes_decimal_inj ((shortNumeral_decimal hx).x86_32_inj (shortNumeral_decimal hy)
    (congrArg UInt32.toBitVec h))

theorem murmurHash_decimal_ne_noToken {x : UInt32} (hx : x < 10000) :
    murmurHash (decimal x) ≠ noToken :=
  fun h => (shortNumeral_decimal hx).x86_32_ne_noToken (congrArg UInt32.toBitVec h)

/-- The bound is not far from what is possible. -/
theorem murmurHash_collides : murmurHash (decimal 4872) = murmurHash (decimal 198305) := by decide

namespace ChannelHashingDifferentiation

/-- The builder selects one classifier. -/
def Single (b : ChannelHashingDifferentiation) : Prop :=
  b.useWorkflow.toNat + b.useOperationType.toNat + b.useOperationContext.toNat = 1

/-- The classifiers that the builder selects are below 10000. -/
structure Small (b : ChannelHashingDifferentiation) (d : ChannelDifferentiationTuple) : Prop where
  workflow : b.useWorkflow = true → d.workflowIdentifier < 10000
  operationType : b.useOperationType = true → d.operationType < 10000
  operationContext : b.useOperationContext = true → d.operationContext < 10000

/-- The text is the numeral of the selected classifier. -/
theorem exists_selected {b : ChannelHashingDifferentiation} (hb : b.Bound) (hsingle : b.Single) :
    ∃ selected : ChannelDifferentiationTuple → UInt32,
      (∀ d, b.message d = decimal (selected d)) ∧
      (∀ d d', b.Agree d d' ↔ selected d = selected d') ∧
      ∀ d, b.Small d → selected d < 10000 := by
  obtain ⟨w, t, c, f⟩ := b
  simp only [Bound] at hb
  subst hb
  simp only [Single] at hsingle
  cases w <;> cases t <;> cases c <;> try (simp at hsingle; done)
  · refine ⟨fun d => d.operationContext, fun d => rfl, fun d d' => ?_, fun d h => ?_⟩
    · simp [Agree]
    · exact h.operationContext rfl
  · refine ⟨fun d => d.operationType, fun d => rfl, fun d d' => ?_, fun d h => ?_⟩
    · simp [Agree]
    · exact h.operationType rfl
  · refine ⟨fun d => d.workflowIdentifier, fun d => rfl, fun d d' => ?_, fun d h => ?_⟩
    · simp [Agree]
    · exact h.workflow rfl

theorem token_of_small {b : ChannelHashingDifferentiation} (hb : b.Bound) (hsingle : b.Single)
    {d d' : ChannelDifferentiationTuple} (hd : b.Small d) (hd' : b.Small d') :
    (b.buildDifferentiationToken murmurHash d = b.buildDifferentiationToken murmurHash d' ↔
      b.Agree d d') ∧ b.buildDifferentiationToken murmurHash d ≠ noToken := by
  obtain ⟨selected, hmessage, hagree, hsmall⟩ := exists_selected hb hsingle
  simp only [buildDifferentiationToken, hmessage, hagree]
  refine ⟨⟨murmurHash_decimal_inj (hsmall d hd) (hsmall d' hd'), ?_⟩,
    murmurHash_decimal_ne_noToken (hsmall d hd)⟩
  intro heq
  rw [heq]

end ChannelHashingDifferentiation

namespace ObjectHashingDifferentiation

def Single (b : ObjectHashingDifferentiation) : Prop :=
  b.useOperationType.toNat + b.useOperationContext.toNat = 1

structure Small (b : ObjectHashingDifferentiation) (d : ObjectDifferentiationPair) : Prop where
  operationType : b.useOperationType = true → d.operationType < 10000
  operationContext : b.useOperationContext = true → d.operationContext < 10000

theorem exists_selected {b : ObjectHashingDifferentiation} (hb : b.Bound) (hsingle : b.Single) :
    ∃ selected : ObjectDifferentiationPair → UInt32,
      (∀ d, b.message d = decimal (selected d)) ∧
      (∀ d d', b.Agree d d' ↔ selected d = selected d') ∧
      ∀ d, b.Small d → selected d < 10000 := by
  obtain ⟨t, c, f⟩ := b
  simp only [Bound] at hb
  subst hb
  simp only [Single] at hsingle
  cases t <;> cases c <;> try (simp at hsingle; done)
  · refine ⟨fun d => d.operationContext, fun d => rfl, fun d d' => ?_, fun d h => ?_⟩
    · simp [Agree]
    · exact h.operationContext rfl
  · refine ⟨fun d => d.operationType, fun d => rfl, fun d d' => ?_, fun d h => ?_⟩
    · simp [Agree]
    · exact h.operationType rfl

theorem token_of_small {b : ObjectHashingDifferentiation} (hb : b.Bound) (hsingle : b.Single)
    {d d' : ObjectDifferentiationPair} (hd : b.Small d) (hd' : b.Small d') :
    (b.buildDifferentiationToken murmurHash d = b.buildDifferentiationToken murmurHash d' ↔
      b.Agree d d') ∧ b.buildDifferentiationToken murmurHash d ≠ noToken := by
  obtain ⟨selected, hmessage, hagree, hsmall⟩ := exists_selected hb hsingle
  simp only [buildDifferentiationToken, hmessage, hagree]
  refine ⟨⟨murmurHash_decimal_inj (hsmall d hd) (hsmall d' hd'), ?_⟩,
    murmurHash_decimal_ne_noToken (hsmall d hd)⟩
  intro heq
  rw [heq]

end ObjectHashingDifferentiation

/-- Under a single selected classifier below 10000 the tokens of channels and objects are as good as
the classifiers, and none of them is the one that stands for no channel or no object. -/
theorem numeral_tokens :
    (∀ (b : ChannelHashingDifferentiation) (d d' : ChannelDifferentiationTuple), b.Bound →
      b.Single → b.Small d → b.Small d' →
      (b.buildDifferentiationToken murmurHash d = b.buildDifferentiationToken murmurHash d' ↔
        b.Agree d d') ∧ b.buildDifferentiationToken murmurHash d ≠ noToken) ∧
    (∀ (b : ObjectHashingDifferentiation) (d d' : ObjectDifferentiationPair), b.Bound →
      b.Single → b.Small d → b.Small d' →
      (b.buildDifferentiationToken murmurHash d = b.buildDifferentiationToken murmurHash d' ↔
        b.Agree d d') ∧ b.buildDifferentiationToken murmurHash d ≠ noToken) :=
  ⟨fun _ _ _ hb hsingle hd hd' => ChannelHashingDifferentiation.token_of_small hb hsingle hd hd',
    fun _ _ _ hb hsingle hd hd' => ObjectHashingDifferentiation.token_of_small hb hsingle hd hd'⟩

/-- The flows of foreground operations and of flushes. -/
theorem numeral_tokens_contexts :
    (ChannelHashingDifferentiation.bound false false true).buildDifferentiationToken murmurHash
        { operationContext := 1000 } ≠
      (ChannelHashingDifferentiation.bound false false true).buildDifferentiationToken murmurHash
        { operationContext := 2000 } := by
  intro heq
  have htokens := (numeral_tokens.1 (.bound false false true) { operationContext := 1000 }
    { operationContext := 2000 } rfl rfl ⟨by decide, by decide, by decide⟩
    ⟨by decide, by decide, by decide⟩).1
  exact absurd (htokens.mp heq) (by decide)

/-! ## A stage under the shipped options -/

/-- Rules of channels for different contexts below 10000, with one object each at most. -/
structure ShippedRules (rules : List HousekeepingRule) : Prop where
  creates : ∀ r ∈ rules, r.Creates
  pending : ∀ r ∈ rules, r.enforced = false
  ruleIds : (rules.map HousekeepingRule.ruleId).Nodup
  channels : ∀ r ∈ rules, ∀ r' ∈ rules, r ≠ r' →
    r.ruleType = .createChannel → r'.ruleType = .createChannel →
    r.channelId ≠ r'.channelId ∧
    r.channelTuple.operationContext ≠ r'.channelTuple.operationContext
  small : ∀ r ∈ rules, r.ruleType = .createChannel → r.channelTuple.operationContext < 10000
  objects : ∀ r ∈ rules, ∀ r' ∈ rules, r ≠ r' →
    r.ruleType = .createObject → r'.ruleType = .createObject → r.channelId ≠ r'.channelId
  types : ∀ r ∈ rules, r.ruleType = .createObject → r.objectType ≠ none
  values : ∀ r ∈ rules, r.ruleType = .createObject → r.objectType = some .drl →
    2 ≤ r.objectConfigurations.length

/-- The token of a channel is that of the numeral of its context. -/
theorem Core.channelToken_shipped (tuple : ChannelDifferentiationTuple) :
    (Core.new {}).channelToken murmurHash tuple = murmurHash (decimal tuple.operationContext) := rfl

/-- Conditions on the rules alone, with no assumption on the hash. -/
theorem ShippedRules.independent {rules : List HousekeepingRule} (h : ShippedRules rules) :
    Core.Independent {} murmurHash (Core.new {}) rules where
  creates := h.creates
  pending := h.pending
  ruleIds := h.ruleIds
  fresh := fun _ _ => Finmap.notMem_empty
  channels := by
    intro r hr r' hr' hne ht ht'
    obtain ⟨hid, hcontext⟩ := h.channels r hr r' hr' hne ht ht'
    refine ⟨hid, fun htoken => hcontext ?_⟩
    exact murmurHash_decimal_inj (h.small r hr ht) (h.small r' hr' ht') htoken
  channelToken_ne := fun r hr ht => murmurHash_decimal_ne_noToken (h.small r hr ht)
  objects := fun r hr r' hr' hne ht ht' hid => absurd hid (h.objects r hr r' hr' hne ht ht')
  types := h.types
  values := h.values

/-- Which object serves a request does not depend on the request. -/
theorem ChannelDefault.Built.buildObjectToken_shipped {rules : HousekeepingRule → Prop}
    {channelId : Int} {channel : ChannelDefault}
    (h : Built murmurHash ((Core.new {}).baseChannel {} channelId) rules channel)
    (pair pair' : ObjectDifferentiationPair) :
    channel.submissionQueue.buildObjectToken murmurHash pair =
      ((Core.new {}).baseChannel {} channelId).submissionQueue.buildObjectToken murmurHash pair' := by
  have hb : channel.submissionQueue.diffBuilder =
      ((Core.new {}).baseChannel {} channelId).submissionQueue.diffBuilder :=
    congrArg (fun ch => ch.submissionQueue.diffBuilder) h.skeleton
  rw [SubmissionQueue.buildObjectToken, hb]
  rfl

theorem EnforcementObject.getEnforcementObjectId_timeless (object : EnforcementObject) :
    object.timeless.getEnforcementObjectId = object.getEnforcementObjectId := by
  cases object <;> rfl

/-- The object of a rule has the identifier of the rule. -/
theorem ChannelDefault.ruleObject_id {ch : ChannelDefault} {r : HousekeepingRule}
    {object : EnforcementObject} (h : ch.ruleObject r = some object) :
    object.getEnforcementObjectId = r.enforcementObjectId := by
  rw [ruleObject] at h
  obtain ⟨type, _, hinit⟩ := Option.bind_eq_some_iff.mp h
  obtain ⟨object₀, hobject, rfl⟩ := Option.map_eq_some_iff.mp hinit
  rw [EnforcementObject.getEnforcementObjectId_timeless]
  cases ho : ch.initialObject (fun _ => 0) r.enforcementObjectId type r.objectConfigurations with
  | error f =>
    rw [ho] at hobject
    cases hobject
  | ok object₁ =>
    rw [ho] at hobject
    cases hobject
    exact initialObject_id ho

theorem Core.passesTo_of_select {opt : Options} {hash : String → UInt32} {core : Core}
    {context : Context} {token : UInt32} {channel : ChannelDefault}
    (htoken : core.channelToken hash context.channelTuple = token)
    (hsel : core.selectChannel token = some channel) :
    core.PassesTo opt hash context token channel := by
  intro clock fuel buffer size result
  cases hrun : channel.channelEnforce opt hash clock fuel context buffer size result with
  | ok p => simp only [enforceRequest, htoken, hsel, hrun]
  | error f => simp only [enforceRequest, htoken, hsel, hrun]

namespace Agent

/-- Under the shipped options and with the hash that the stage uses, all channels and objects are
created; a request is handled by the channel of its context, and by its object when it has one, and
by no channel when there is none for the context. -/
theorem employAll_shipped (clock : UInt64 → Clock) {rules : List HousekeepingRule}
    (h : ShippedRules rules) (hbefore : Core.ChannelsBefore rules) :
    ∃ agent : Agent, ({ core := Core.new {} } : Agent).employAll {} murmurHash clock rules =
        .ok (agent, rules.map fun _ => .returned .ok) ∧
      ∀ context : Context,
        (∀ r ∈ rules, r.ruleType = .createChannel →
          r.channelTuple.operationContext = toUInt32 context.operationContext →
          ∃ token channel, agent.core.channelIdToTokenLinkers.lookup r.channelId = some token ∧
            agent.core.selectChannel token = some channel ∧
            channel.CreatedFor {} murmurHash r.channelId ∧
            agent.core.PassesTo {} murmurHash context token channel ∧
            ∀ o ∈ rules, o.ruleType = .createObject → o.channelId = r.channelId →
              ∃ objectToken object,
                (o.enforcementObjectId, objectToken) ∈ channel.objectIdToTokenLinkers ∧
                channel.submissionQueue.selectEnforcementObject objectToken = some object ∧
                object.getEnforcementObjectId = o.enforcementObjectId ∧
                channel.RunsObject {} murmurHash context objectToken object) ∧
        ((∀ r ∈ rules, r.ruleType = .createChannel →
            r.channelTuple.operationContext ≠ toUInt32 context.operationContext) →
          toUInt32 context.operationContext < 10000 →
          ∀ clock fuel buffer size result,
            agent.core.enforceRequest {} murmurHash clock fuel context buffer size result =
              .ok (agent.core, result)) := by
  have hw₀ : (Core.new {}).WellLinked {} murmurHash := Core.wellLinked_new
  have hstart : Received {} murmurHash (Core.new {})
      (· ∈ ([] : List HousekeepingRule).map HousekeepingRule.ruleId)
      (· ∈ ([] : List HousekeepingRule)) { core := Core.new {} } :=
    (received_start hw₀).congr (by simp) (by simp)
  obtain ⟨agent, hrun, hbuilt⟩ :=
    employAll_independent hw₀ rfl clock h.independent hbefore rules [] rfl hstart
  refine ⟨agent, hrun, fun context => ⟨?_, ?_⟩⟩
  · intro r hr ht hcontext
    have hlink : (r.channelId, (Core.new {}).channelToken murmurHash r.channelTuple) ∈
        agent.core.channelIdToTokenLinkers :=
      (hbuilt.linkers _ _).mpr (.inr ⟨r, hr, ht, rfl, rfl⟩)
    obtain ⟨channel, hsel, hcreated⟩ := hbuilt.wellLinked.entry _ _ hlink
    have htoken : agent.core.channelToken murmurHash context.channelTuple =
        (Core.new {}).channelToken murmurHash r.channelTuple := by
      rw [hbuilt.channelToken_eq, Core.channelToken_shipped, Core.channelToken_shipped, hcontext]
      rfl
    refine ⟨_, channel, AssocList.lookup_of_mem hbuilt.wellLinked.ids_nodup hlink, hsel, hcreated,
      Core.passesTo_of_select htoken hsel, fun o ho hot hid => ?_⟩
    have hb := hbuilt.channels _ _ channel hlink hsel
    have howned : o ∈ rules ∧ o.ruleType = .createObject ∧ o.channelId = r.channelId :=
      ⟨ho, hot, hid⟩
    obtain ⟨object₀, hobject₀⟩ := Option.isSome_iff_exists.mp (hb.possible o howned)
    obtain ⟨object, hselect, rfl⟩ := Option.map_eq_some_iff.mp
      ((hb.objects _ object₀).mpr (.inr ⟨o, howned, rfl, hobject₀⟩))
    refine ⟨_, object, (hb.linkers _).mpr (.inr ⟨o, howned, rfl⟩), hselect, ?_,
      ChannelDefault.runsObject_of_select (hb.buildObjectToken_shipped _ _) hselect⟩
    rw [← object.getEnforcementObjectId_timeless]
    exact ChannelDefault.ruleObject_id hobject₀
  · intro hnone hsmall clock' fuel buffer size result
    have hsel : agent.core.selectChannel
        (agent.core.channelToken murmurHash context.channelTuple) = none := by
      rw [Core.selectChannel, Finmap.lookup_eq_none, hbuilt.mem_channels hw₀]
      rintro (hold | ⟨r, hr, ht, htoken⟩)
      · exact Finmap.notMem_empty hold
      · rw [hbuilt.channelToken_eq, Core.channelToken_shipped, Core.channelToken_shipped] at htoken
        exact hnone r hr ht (murmurHash_decimal_inj (h.small r hr ht) hsmall htoken)
    simp only [Core.enforceRequest, hsel]

/-- The channel of the flushes, with a limiter, and the channel of a foreground flow. -/
def flowRules : List HousekeepingRule :=
  [{ ruleId := 1, ruleType := .createChannel, channelId := 2000, properties := [0, 0, 0, 2000] },
    { ruleId := 2, ruleType := .createObject, channelId := 2000, enforcementObjectId := 1
      properties := [0, 0, 0, 1, 1000000, 10] },
    { ruleId := 3, ruleType := .createChannel, channelId := 1000, properties := [0, 0, 0, 1000] }]

theorem shippedRules_flowRules : ShippedRules flowRules := by
  refine ⟨?_, by decide, by decide, by decide, by decide, by decide, by decide, by decide⟩
  simp [flowRules, HousekeepingRule.Creates]

theorem employAll_shipped_flows :
    ∃ agent : Agent, ({ core := Core.new {} } : Agent).employAll {} murmurHash (fun _ _ => 0)
        flowRules = .ok (agent, List.replicate 3 (.returned .ok)) ∧
      ∃ token channel, agent.core.channelIdToTokenLinkers.lookup 2000 = some token ∧
        agent.core.PassesTo {} murmurHash { operationContext := 2000 } token channel := by
  obtain ⟨agent, hrun, hrequests⟩ :=
    employAll_shipped (fun _ _ => 0) shippedRules_flowRules (by decide)
  obtain ⟨token, channel, hlookup, _, _, hpasses, _⟩ :=
    (hrequests { operationContext := 2000 }).1 _ List.mem_cons_self rfl (by decide)
  exact ⟨agent, hrun, token, channel, hlookup, hpasses⟩

end Agent

end Paio
