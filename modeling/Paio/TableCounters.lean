import Paio.Core
import Paio.Library.MapCount
import Paio.Library.RunCondition

/-!
# Paio.TableCounters

The two counters of the housekeeping table over runs of its operations. `Counted` is what every
operation keeps: the map and the counters move together, except that the insertion of a rule which
is already marked as enforced is counted as one more rule to employ. `counters_agree_iff` says for
which runs the getters report what is in the map.
-/

namespace Paio

namespace HousekeepingTable

open MapCount

/-- A call on the table. -/
inductive Operation where
  | insert (rule : HousekeepingRule)
  | insertOf (ruleId : UInt64) (operation : HousekeepingOperation)
      (channelId enforcementObjectId : Int) (properties : List Int)
  | select (ruleId : UInt64)
  | mark (ruleId : UInt64)
  | remove (ruleId : UInt64)

def apply (t : HousekeepingTable) : Operation → HousekeepingTable
  | .insert rule => (t.insertHousekeepingRule rule).1
  | .insertOf ruleId operation channelId enforcementObjectId properties =>
    (t.insertHousekeepingRuleOf ruleId operation channelId enforcementObjectId properties).1
  | .select _ => t
  | .mark ruleId => (t.markHousekeepingRuleAsEnforced ruleId).1
  | .remove ruleId => (t.removeHousekeepingRule ruleId).1

def applyAll (t : HousekeepingTable) (operations : List Operation) : HousekeepingTable :=
  operations.foldl apply t

/-- A rule that is still to be employed. -/
def pending (rule : HousekeepingRule) : Bool := !rule.enforced

/-- The getters report what is in the map, and rules are stored under their own identifiers. -/
structure Agrees (t : HousekeepingTable) : Prop where
  size : t.getHousekeepingTableSize = t.housekeepingRules.keys.card
  left : t.getTotalOfRulesLeftToEmploy = count pending t.housekeepingRules
  keyed : ∀ id rule, t.housekeepingRules.lookup id = some rule → rule.ruleId = id

/-- The condition on a call: a rule with a new identifier is not marked as enforced, and there is
room for it in an `int`. -/
def Regular (t : HousekeepingTable) : Operation → Prop
  | .insert rule => rule.ruleId ∈ t.housekeepingRules ∨
      (rule.enforced = false ∧ t.housekeepingRules.keys.card + 1 < 2 ^ 31)
  | .insertOf ruleId _ _ _ _ => ruleId ∈ t.housekeepingRules ∨
      t.housekeepingRules.keys.card + 1 < 2 ^ 31
  | _ => True

/-- The counters without the wrap-around; `drift` is what the rules to employ are ahead. -/
structure Counted (drift : Nat) (t : HousekeepingTable) : Prop where
  size : t.numberOfRules = count (fun _ => true) t.housekeepingRules
  left : t.numberOfRulesLeftToEmploy = count pending t.housekeepingRules + drift
  keyed : ∀ id rule, t.housekeepingRules.lookup id = some rule → rule.ruleId = id

variable {t : HousekeepingTable} {drift : Nat}

theorem counted_new : Counted 0 {} := by
  refine ⟨by simp, by simp, ?_⟩
  intro id rule h
  simp at h

theorem keyed_insert (h : Counted drift t) {id : UInt64} {rule : HousekeepingRule}
    (hid : rule.ruleId = id) (id' : UInt64) (rule' : HousekeepingRule)
    (hl : (t.housekeepingRules.insert id rule).lookup id' = some rule') : rule'.ruleId = id' := by
  by_cases hii : id' = id
  · subst hii
    rw [Finmap.lookup_insert] at hl
    cases hl
    exact hid
  · rw [Finmap.lookup_insert_of_ne _ hii] at hl
    exact h.keyed id' rule' hl

theorem weight_pending (rule : HousekeepingRule) :
    weight pending (some rule) = if rule.enforced then 0 else 1 := by
  cases h : rule.enforced <;> simp [weight, pending, h]

theorem weight_all (rule : HousekeepingRule) : weight (fun _ => true) (some rule) = 1 := rfl

/-- A rule with a new identifier: one that is enforced already is counted as left to employ. -/
theorem Counted.stage (h : Counted drift t) {rule : HousekeepingRule}
    (hnew : rule.ruleId ∉ t.housekeepingRules) :
    Counted (drift + if rule.enforced then 1 else 0) (t.stage rule) := by
  have hnone := Finmap.lookup_eq_none.mpr hnew
  refine ⟨?_, ?_, ?_⟩
  · simp only [HousekeepingTable.stage, h.size, count_insert_new hnone, weight_all]
    omega
  · simp only [HousekeepingTable.stage, h.left, count_insert_new hnone, weight_pending]
    split <;> omega
  · exact keyed_insert h rfl

theorem Counted.mark (h : Counted drift t) (ruleId : UInt64) :
    Counted drift (t.markHousekeepingRuleAsEnforced ruleId).1 := by
  unfold markHousekeepingRuleAsEnforced
  split
  · rename_i rule hl
    split
    · rename_i henf
      have hsize := count_erase (fun _ => true) t.housekeepingRules ruleId
      have hleft := count_erase pending t.housekeepingRules ruleId
      rw [hl, weight_all] at hsize
      rw [hl, weight_pending, if_neg (by simpa using henf)] at hleft
      refine ⟨?_, ?_, ?_⟩
      · simp only [count_insert, weight_all, h.size, hsize]
      · simp only [count_insert, weight_pending, if_true, h.left, hleft]
        omega
      · exact keyed_insert h (h.keyed ruleId rule hl)
    · exact h
  · exact h

theorem Counted.remove (h : Counted drift t) (ruleId : UInt64) :
    Counted drift (t.removeHousekeepingRule ruleId).1 := by
  unfold removeHousekeepingRule
  split
  · rename_i rule hl
    have hsize := count_erase (fun _ => true) t.housekeepingRules ruleId
    have hleft := count_erase pending t.housekeepingRules ruleId
    rw [hl, weight_all] at hsize
    rw [hl, weight_pending] at hleft
    refine ⟨?_, ?_, ?_⟩
    · simp only [h.size, hsize]
      omega
    · simp only [h.left, hleft]
      cases rule.enforced with
      | true => simp
      | false => simp; omega
    · intro id' rule' hl'
      by_cases hii : id' = ruleId
      · subst hii
        rw [Finmap.lookup_erase] at hl'
        cases hl'
      · rw [Finmap.lookup_erase_ne hii] at hl'
        exact h.keyed id' rule' hl'
  · exact h

/-- `Counted` without drift, in a table that is not too large for an `int`. -/
structure Exact (t : HousekeepingTable) : Prop where
  counted : Counted 0 t
  small : t.housekeepingRules.keys.card < 2 ^ 31

theorem Exact.agrees (h : Exact t) : Agrees t := by
  have hcount := count_le pending t.housekeepingRules
  have hsmall := h.small
  refine ⟨?_, ?_, h.counted.keyed⟩
  · rw [getHousekeepingTableSize, h.counted.size, count_true, toInt32_natCast hsmall]
  · rw [getTotalOfRulesLeftToEmploy, h.counted.left, Nat.cast_zero, add_zero,
      toInt32_natCast (by omega)]

/-- An identifier that was new is one more key. -/
theorem card_stage {rule : HousekeepingRule} (hnew : rule.ruleId ∉ t.housekeepingRules) :
    (t.stage rule).housekeepingRules.keys.card = t.housekeepingRules.keys.card + 1 := by
  rw [← count_true, ← count_true]
  exact count_insert_new (Finmap.lookup_eq_none.mpr hnew) rule

theorem Exact.stage (h : Exact t) {rule : HousekeepingRule}
    (hnew : rule.ruleId ∉ t.housekeepingRules) (henf : rule.enforced = false)
    (hroom : t.housekeepingRules.keys.card + 1 < 2 ^ 31) : Exact (t.stage rule) := by
  refine ⟨?_, ?_⟩
  · simpa [henf] using h.counted.stage hnew
  · rw [card_stage hnew]
    exact hroom

/-- Without the condition one of the getters is wrong right after the insertion. -/
theorem Exact.stage_not_agrees (h : Exact t) {rule : HousekeepingRule}
    (hnew : rule.ruleId ∉ t.housekeepingRules)
    (hbad : rule.enforced = true ∨ ¬ t.housekeepingRules.keys.card + 1 < 2 ^ 31) :
    ¬ Agrees (t.stage rule) := by
  intro ha
  have hc := h.counted.stage hnew
  rcases hbad with henf | hroom
  · have hleft := ha.left
    rw [getTotalOfRulesLeftToEmploy, hc.left, toInt32] at hleft
    simp only [henf, if_true, zero_add, Nat.cast_one] at hleft
    have hmod := Int.bmod_emod (x := count pending (t.stage rule).housekeepingRules + 1)
      (m := 2 ^ 32)
    rw [hleft] at hmod
    omega
  · have hsmall := h.small
    have hsize := ha.size
    rw [getHousekeepingTableSize, hc.size, count_true, card_stage hnew, toInt32] at hsize
    have hlt := Int.bmod_lt (x := ((t.housekeepingRules.keys.card + 1 : Nat) : Int))
      (m := 2 ^ 32) (by decide)
    omega

/-- A call that changes nothing but flags and removes rules keeps the table small. -/
theorem Exact.mark (h : Exact t) (ruleId : UInt64) :
    Exact (t.markHousekeepingRuleAsEnforced ruleId).1 := by
  refine ⟨h.counted.mark ruleId, ?_⟩
  have hkeys : (t.markHousekeepingRuleAsEnforced ruleId).1.housekeepingRules.keys =
      t.housekeepingRules.keys := by
    ext id
    simp only [Finmap.mem_keys, mem_markHousekeepingRuleAsEnforced]
  rw [hkeys]
  exact h.small

theorem Exact.remove (h : Exact t) (ruleId : UInt64) :
    Exact (t.removeHousekeepingRule ruleId).1 := by
  refine ⟨h.counted.remove ruleId, ?_⟩
  have hsmall := h.small
  unfold removeHousekeepingRule
  split
  · have hkeys := count_erase (fun _ => true) t.housekeepingRules ruleId
    rw [count_true, count_true] at hkeys
    show (t.housekeepingRules.erase ruleId).keys.card < 2 ^ 31
    omega
  · exact hsmall

/-- One call keeps the counters exact when it is regular. -/
theorem Exact.apply (h : Exact t) {o : Operation} (ho : Regular t o) : Exact (t.apply o) := by
  cases o with
  | insert rule =>
    show Exact (t.insertHousekeepingRule rule).1
    rw [insertHousekeepingRule_eq]
    split
    · exact h
    · rename_i hnew
      obtain ⟨henf, hroom⟩ := ho.resolve_left hnew
      exact h.stage hnew henf hroom
  | insertOf ruleId operation channelId enforcementObjectId properties =>
    show Exact (t.insertHousekeepingRuleOf _ _ _ _ _).1
    rw [insertHousekeepingRuleOf, insertHousekeepingRule_eq]
    split
    · exact h
    · rename_i hnew
      exact h.stage hnew rfl (ho.resolve_left hnew)
  | select ruleId => exact h
  | mark ruleId => exact h.mark ruleId
  | remove ruleId => exact h.remove ruleId

/-- A call that is not regular leaves a counter that is wrong. -/
theorem Exact.regular_of_agrees (h : Exact t) {o : Operation} (ha : Agrees (t.apply o)) :
    Regular t o := by
  cases o with
  | insert rule =>
    by_cases hold : rule.ruleId ∈ t.housekeepingRules
    · exact .inl hold
    · by_contra hnot
      have hins : t.apply (.insert rule) = t.stage rule := by
        show (t.insertHousekeepingRule rule).1 = _
        rw [insertHousekeepingRule_eq, if_neg hold]
      rw [hins] at ha
      refine h.stage_not_agrees hold ?_ ha
      simp only [Regular, hold, false_or, not_and_or, Bool.not_eq_false] at hnot
      exact hnot
  | insertOf ruleId operation channelId enforcementObjectId properties =>
    by_cases hold : ruleId ∈ t.housekeepingRules
    · exact .inl hold
    · by_contra hnot
      have hins : t.apply (.insertOf ruleId operation channelId enforcementObjectId properties) =
          t.stage ⟨ruleId, operation, channelId, enforcementObjectId, properties, false⟩ := by
        show (t.insertHousekeepingRuleOf _ _ _ _ _).1 = _
        rw [insertHousekeepingRuleOf, insertHousekeepingRule_eq, if_neg hold]
      rw [hins] at ha
      refine h.stage_not_agrees hold (.inr ?_) ha
      simpa only [Regular, hold, false_or] using hnot
  | select _ | mark _ | remove _ => trivial

theorem exact_new : Exact {} := ⟨counted_new, by simp⟩

theorem applyAll_concat (t : HousekeepingTable) (run : List Operation) (o : Operation) :
    t.applyAll (run ++ [o]) = (t.applyAll run).apply o := by
  simp [applyAll]

/-- In every run from the empty table, the getters report what is in the map after each call
exactly when no call brings in a rule that is already marked as enforced, or a rule for which an
`int` is too small. -/
theorem counters_agree_iff (operations : List Operation) :
    (∀ run, run <+: operations → Agrees (applyAll {} run)) ↔
      ∀ before o, before ++ [o] <+: operations → Regular (applyAll {} before) o := by
  have hiff := RunCondition.good_iff_cond (fun run t => applyAll {} run = t)
    (fun t o t' => t.apply o = t') Exact (fun t ht => ht ▸ exact_new)
    (fun run o t' => by simp [applyAll_concat]) (fun _ => Exact.agrees)
    (fun t o t' ht ho hstep => hstep ▸ ht.apply ho)
    (fun t o ht ha => ht.regular_of_agrees (ha _ rfl)) operations
  simpa only [forall_eq'] using hiff

/-- A rule that arrives marked as enforced leaves one rule to employ where there is none. -/
theorem enforced_rule_counted_as_left :
    ¬ Agrees (applyAll {} [.insert { ruleId := 7, ruleType := .createChannel, enforced := true }]) := by
  intro h
  have hleft := h.left
  revert hleft
  decide

end HousekeepingTable

end Paio
