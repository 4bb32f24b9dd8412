import Mathlib.Data.Int.Order.Basic
import Paio.Channel
import Paio.RateBound

/-!
# Paio.PayloadCost

What a request is charged for. The payload of a ticket is the product of the operation size and the
number of operations, taken on `uint64_t` and kept as a `long`. A size of zero counts as one when
the request brings no content, and as zero when it does; and a product from 2^63 on is negative or
wrong. `chargesWork_iff` says exactly when the payload is the work that was asked for.
-/

namespace Paio

/-! ## Products on `uint64_t` -/

theorem toLong_eq_bmod (x : UInt64) : toLong x = (x.toNat : Int).bmod (2 ^ 64) :=
  BitVec.toInt_eq_toNat_bmod x.toBitVec

theorem toLong_lt (x : UInt64) : toLong x < 2 ^ 63 := x.toInt64.toInt_lt

/-- The product of a size and a count that is not negative. -/
theorem toLong_mul_eq_iff {n : Int} (h0 : 0 ≤ n) (hint : n < 2 ^ 31) (size : UInt64) :
    toLong (size * UInt64.ofInt n) = size.toNat * n ↔ size.toNat * n < 2 ^ 63 := by
  obtain ⟨count, rfl⟩ := Int.eq_ofNat_of_zero_le h0
  have hcount : (UInt64.ofInt count).toNat = count := by
    rw [UInt64.ofInt, UInt64.toNat_ofNat']
    omega
  constructor
  · intro h
    rw [← h]
    exact toLong_lt _
  · intro hlt
    have hlt' : size.toNat * count < 2 ^ 63 := by exact_mod_cast hlt
    rw [toLong_eq_bmod, UInt64.toNat_mul, hcount, Nat.mod_eq_of_lt (by omega),
      Int.bmod_eq_of_le (by omega) (by omega)]
    push_cast
    rfl

/-! ## Payloads -/

/-- What a request asks for: its operations, each of them of at least one unit. -/
def Context.work (c : Context) : Int := max (c.operationSize.toNat : Int) 1 * c.totalOperations

namespace ChannelDefault

variable {ch : ChannelDefault} {context : Context} {buffer : Buffer} {size : Nat}

/-- A ticket whose payload is the work, so that no limiter gains tokens from it: whatever the clock
and however far the request has come, every amount that was subtracted is at least zero. -/
structure ChargesWork (ch : ChannelDefault) (context : Context) (buffer : Buffer) (size : Nat) :
    Prop where
  payload_eq : (ch.buildTicket context buffer size).1.payload = context.work
  payload_nonneg : 0 ≤ (ch.buildTicket context buffer size).1.payload
  subtracted_nonneg : ∀ (d : DynamicRateLimiter) clock fuel instant, 0 ≤ d.bucket.capacity →
    ∀ e ∈ (d.consume clock fuel instant (ch.buildTicket context buffer size).1).session.consumed,
      0 ≤ e.2

/-- The size that a request is charged for each operation. -/
theorem buildTicket_payload (ch : ChannelDefault) (context : Context) (buffer : Buffer)
    (size : Nat) : (ch.buildTicket context buffer size).1.payload =
      toLong ((if context.operationSize = 0 ∧ (buffer = none ∨ size = 0) then 1
        else context.operationSize) * UInt64.ofInt context.totalOperations) := by
  cases buffer with
  | none => simp [buildTicket, buildTicket.withoutContent]
  | some p =>
    rcases Nat.eq_zero_or_pos size with rfl | hpos
    · simp [buildTicket, buildTicket.withoutContent]
    · simp [buildTicket, hpos, hpos.ne']

/-- A request that does not pay a negative amount never adds tokens. -/
theorem consume_subtracted_nonneg {t : Ticket} (ht : 0 ≤ t.payload) (d : DynamicRateLimiter)
    (clock : Clock) (fuel instant : Nat) (hC : 0 ≤ d.bucket.capacity) :
    ∀ e ∈ (d.consume clock fuel instant t).session.consumed, 0 ≤ e.2 := by
  have hcost : 0 ≤ d.basicIoCost t := d.basicIoCost_nonneg ht
  have hr : Session.Refines clock (fun _ _ => True) { bucket := d.bucket, instant := instant }
      (d.consume clock fuel instant t).session :=
    Session.tryConsume_refines (fun _ => trivial) hcost fuel hC
  intro e he
  have hspent := hr.run.spent_nonneg (by simp [Session.account]) (clock e.1, e.2)
  exact hspent (List.mem_map_of_mem he)

/-- For every context whose number of operations is not negative, and every buffer, the payload is
the work exactly when a request of size zero that has something to do brings no content, and the
work fits into a `long`. -/
theorem chargesWork_iff (ch : ChannelDefault) (context : Context)
    (h0 : 0 ≤ context.totalOperations) (hint : context.totalOperations < 2 ^ 31) (buffer : Buffer)
    (size : Nat) :
    ch.ChargesWork context buffer size ↔
      (context.operationSize ≠ 0 ∨ buffer = none ∨ size = 0 ∨ context.totalOperations = 0) ∧
        context.work < 2 ^ 63 := by
  have hpayload := buildTicket_payload ch context buffer size
  have hwork : 0 ≤ context.work := Int.mul_nonneg (by omega) h0
  have hcharges : ch.ChargesWork context buffer size ↔
      (ch.buildTicket context buffer size).1.payload = context.work := by
    refine ⟨ChargesWork.payload_eq, fun h => ⟨h, h ▸ hwork, ?_⟩⟩
    intro d clock fuel instant hC
    exact consume_subtracted_nonneg (h ▸ hwork) d clock fuel instant hC
  rw [hcharges, hpayload]
  by_cases hzero : context.operationSize = 0
  · have hwork' : context.work = context.totalOperations := by
      simp [Context.work, hzero]
    by_cases hnone : buffer = none ∨ size = 0
    · have hone := toLong_mul_eq_iff h0 hint 1
      rw [show ((UInt64.toNat 1 : Nat) : Int) = 1 from rfl, Int.one_mul] at hone
      rw [if_pos ⟨hzero, hnone⟩, hwork', hone]
      exact (and_iff_right (.inr (or_assoc.mp (.inl hnone)))).symm
    · have hfree : toLong (0 * UInt64.ofInt context.totalOperations) = 0 := by
        rw [UInt64.zero_mul]
        rfl
      rw [if_neg (fun h => hnone h.2), hzero, hfree, hwork']
      constructor
      · intro h
        exact ⟨.inr (.inr (.inr h.symm)), by omega⟩
      · rintro ⟨hcase, -⟩
        rcases hcase with h | h | h | h
        · exact absurd rfl h
        · exact absurd (.inl h) hnone
        · exact absurd (.inr h) hnone
        · exact h.symm
  · have hpos : 0 < context.operationSize.toNat := by
      have hne : context.operationSize.toNat ≠ 0 := fun h => hzero (UInt64.toNat_inj.mp h)
      omega
    have hwork' : context.work = context.operationSize.toNat * context.totalOperations := by
      rw [Context.work, max_eq_left (by omega)]
    rw [if_neg (fun h => hzero h.1), hwork', toLong_mul_eq_iff h0 hint]
    exact (and_iff_right (.inl hzero)).symm

/-- Three operations of four kilobytes each. -/
theorem chargesWork_iff_three :
    (new {} 1 fun _ => 0).ChargesWork { operationSize := 4096, totalOperations := 3 }
      (some fun _ => 7) 4096 := by
  refine (chargesWork_iff _ _ ?_ ?_ _ _).mpr ⟨.inl ?_, ?_⟩
  · decide
  · decide
  · decide
  · decide

/-- An operation of size zero is charged one without content and nothing with it; an operation of
size 2^63 is charged a negative amount. -/
theorem empty_operation_free :
    let ch := new {} 1 fun _ => 0
    (ch.buildTicket { totalOperations := 1 } none 0).1.payload = 1 ∧
      (ch.buildTicket { totalOperations := 1 } (some fun _ => 7) 1).1.payload = 0 ∧
      ¬ ch.ChargesWork { totalOperations := 1 } (some fun _ => 7) 1 ∧
      (ch.buildTicket { operationSize := 9223372036854775808, totalOperations := 1 } none 0).1.payload
        = -9223372036854775808 := by
  refine ⟨by decide, by decide, ?_, by decide⟩
  intro h
  have hpayload := h.payload_eq
  revert hpayload
  decide

end ChannelDefault

end Paio
