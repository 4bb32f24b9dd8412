import Mathlib.Data.List.Basic

/-!
# Paio.Library.BlockHash

Hashes that take a message in by blocks: whole blocks one after the other, then what is left of the
message, then a final step that also sees the length. A `BlockHash` carries that no step confuses
two states or two blocks, so that nothing is lost as long as only one block varies
(`digest_inj_of_agreeOutside`). For messages that differ in two blocks there is no such statement:
a digest is shorter than most messages.
-/

variable {α σ δ : Type}

structure BlockHash (α σ δ : Type) where
  blockSize : Nat
  blockSize_pos : 0 < blockSize
  init : σ
  body : σ → List α → σ
  tail : σ → List α → σ
  finish : Nat → σ → δ
  body_state_inj : ∀ block, Function.Injective fun state => body state block
  body_block_inj : ∀ state block block', block.length = blockSize → block'.length = blockSize →
    body state block = body state block' → block = block'
  tail_state_inj : ∀ rest, Function.Injective fun state => tail state rest
  tail_rest_inj : ∀ state rest rest', rest.length = rest'.length → rest.length < blockSize →
    tail state rest = tail state rest' → rest = rest'
  finish_inj : ∀ length, Function.Injective (finish length)

namespace BlockHash

variable (H : BlockHash α σ δ)

/-- The `i`-th block of a message. -/
def block (message : List α) (i : Nat) : List α := (message.drop (i * H.blockSize)).take H.blockSize

def numberOfBlocks (message : List α) : Nat := message.length / H.blockSize

/-- What comes after the whole blocks. -/
def rest (message : List α) : List α := message.drop (H.numberOfBlocks message * H.blockSize)

/-- The state after the first `n` blocks. -/
def absorb (message : List α) (n : Nat) : σ :=
  (List.range n).foldl (fun state i => H.body state (H.block message i)) H.init

def digest (message : List α) : δ :=
  H.finish message.length
    (H.tail (H.absorb message (H.numberOfBlocks message)) (H.rest message))

/-- Two messages of the same length, equal but for their `i`-th block. The block after the whole
ones is what is left of the message. -/
structure AgreeOutside (i : Nat) (message message' : List α) : Prop where
  length : message.length = message'.length
  element : ∀ j, j / H.blockSize ≠ i → message[j]? = message'[j]?

variable {H} {i : Nat} {message message' : List α}

theorem absorb_succ (n : Nat) :
    H.absorb message (n + 1) = H.body (H.absorb message n) (H.block message n) := by
  simp [absorb, List.range_succ]

theorem foldl_eq_absorb {step : σ → Nat → σ}
    (h : ∀ state i, step state i = H.body state (H.block message i)) (n : Nat) :
    (List.range n).foldl step H.init = H.absorb message n := by
  obtain rfl : step = fun state i => H.body state (H.block message i) := funext₂ h
  rfl

theorem getElem?_block (n j : Nat) :
    (H.block message n)[j]? =
      if j < H.blockSize then message[n * H.blockSize + j]? else none := by
  rw [block, List.getElem?_take]
  split
  · rw [List.getElem?_drop]
  · rfl

theorem length_block {n : Nat} (hn : n < H.numberOfBlocks message) :
    (H.block message n).length = H.blockSize := by
  have hle : (n + 1) * H.blockSize ≤ message.length :=
    Nat.le_trans (Nat.mul_le_mul_right _ hn) (Nat.div_mul_le_self _ _)
  rw [Nat.succ_mul] at hle
  rw [block, List.length_take, List.length_drop]
  omega

theorem length_rest : (H.rest message).length = message.length % H.blockSize := by
  rw [rest, List.length_drop, numberOfBlocks, Nat.mul_comm, Nat.mod_eq_sub]

theorem length_rest_lt : (H.rest message).length < H.blockSize := by
  rw [length_rest]
  exact Nat.mod_lt _ H.blockSize_pos

namespace AgreeOutside

variable (h : H.AgreeOutside i message message')

include h

theorem numberOfBlocks_eq : H.numberOfBlocks message = H.numberOfBlocks message' := by
  rw [numberOfBlocks, numberOfBlocks, h.length]

theorem block_eq {n : Nat} (hn : n ≠ i) : H.block message n = H.block message' n := by
  apply List.ext_getElem?
  intro j
  rw [getElem?_block, getElem?_block]
  split
  · rename_i hj
    apply h.element
    rw [Nat.mul_comm, Nat.mul_add_div H.blockSize_pos, Nat.div_eq_of_lt hj, Nat.add_zero]
    exact hn
  · rfl

theorem rest_eq (hi : i < H.numberOfBlocks message) : H.rest message = H.rest message' := by
  apply List.ext_getElem?
  intro j
  rw [rest, rest, h.numberOfBlocks_eq.symm, List.getElem?_drop, List.getElem?_drop]
  apply h.element
  have hle : H.numberOfBlocks message ≤
      (H.numberOfBlocks message * H.blockSize + j) / H.blockSize := by
    rw [Nat.le_div_iff_mul_le H.blockSize_pos]
    exact Nat.le_add_right _ _
  omega

/-- Before the block that varies the states are the same. -/
theorem absorb_eq {n : Nat} (hn : n ≤ i) : H.absorb message n = H.absorb message' n := by
  induction n with
  | zero => rfl
  | succ n ih => rw [absorb_succ, absorb_succ, ih (by omega), h.block_eq (by omega)]

/-- After it they are as different as the blocks are. -/
theorem block_eq_of_absorb {n : Nat} (hin : i < n) (hn : n ≤ H.numberOfBlocks message)
    (heq : H.absorb message n = H.absorb message' n) : H.block message i = H.block message' i := by
  induction n with
  | zero => omega
  | succ n ih =>
    rw [absorb_succ, absorb_succ] at heq
    rcases Nat.lt_or_ge i n with hlt | hge
    · rw [h.block_eq (by omega)] at heq
      exact ih hlt (by omega) (H.body_state_inj _ heq)
    · obtain rfl : i = n := by omega
      rw [h.absorb_eq (Nat.le_refl _)] at heq
      have hlen : i < H.numberOfBlocks message' := by
        rw [← h.numberOfBlocks_eq]
        omega
      exact H.body_block_inj _ _ _ (length_block (by omega)) (length_block hlen) heq

theorem eq_of_block (heq : H.block message i = H.block message' i) : message = message' := by
  apply List.ext_getElem?
  intro j
  by_cases hj : j / H.blockSize = i
  · have hmod : j % H.blockSize < H.blockSize := Nat.mod_lt _ H.blockSize_pos
    have hsum : i * H.blockSize + j % H.blockSize = j := by
      rw [← hj, Nat.mul_comm]
      exact Nat.div_add_mod j H.blockSize
    have hget := congrArg (fun block => block[j % H.blockSize]?) heq
    simp only [getElem?_block, if_pos hmod, hsum] at hget
    exact hget
  · exact h.element j hj

theorem eq_of_rest (heq : H.rest message = H.rest message')
    (hi : H.numberOfBlocks message ≤ i) : message = message' := by
  apply List.ext_getElem?
  intro j
  by_cases hj : j / H.blockSize = i
  · have hle : H.numberOfBlocks message * H.blockSize ≤ j :=
      Nat.le_trans (Nat.mul_le_mul_right _ (hj ▸ hi)) (Nat.div_mul_le_self _ _)
    have hget := congrArg (fun rest => rest[j - H.numberOfBlocks message * H.blockSize]?) heq
    simp only [rest, h.numberOfBlocks_eq.symm, List.getElem?_drop,
      Nat.add_sub_of_le hle] at hget
    exact hget
  · exact h.element j hj

end AgreeOutside

/-- Messages that differ in one block only have different digests. -/
theorem digest_inj_of_agreeOutside (h : H.AgreeOutside i message message')
    (heq : H.digest message = H.digest message') : message = message' := by
  rw [digest, digest, ← h.length] at heq
  have htail := H.finish_inj _ heq
  rw [← h.numberOfBlocks_eq] at htail
  rcases Nat.lt_or_ge i (H.numberOfBlocks message) with hi | hi
  · rw [h.rest_eq hi] at htail
    exact h.eq_of_block (h.block_eq_of_absorb hi (Nat.le_refl _) (H.tail_state_inj _ htail))
  · rw [h.absorb_eq hi] at htail
    have hlen : (H.rest message).length = (H.rest message').length := by
      rw [length_rest, length_rest, h.length]
    exact h.eq_of_rest (H.tail_rest_inj _ _ _ hlen length_rest_lt htail) hi

/-- Messages with a block at most are told apart among those of their length. -/
theorem digest_inj_of_length_le (hlen : message.length = message'.length)
    (hle : message.length ≤ H.blockSize) (heq : H.digest message = H.digest message') :
    message = message' := by
  refine digest_inj_of_agreeOutside (i := 0) ⟨hlen, ?_⟩ heq
  intro j hj
  have hout : H.blockSize ≤ j := by
    by_contra hlt
    exact hj (Nat.div_eq_of_lt (Nat.not_le.mp hlt))
  rw [List.getElem?_eq_none (Nat.le_trans hle hout),
    List.getElem?_eq_none (Nat.le_trans (hlen ▸ hle) hout)]

end BlockHash
