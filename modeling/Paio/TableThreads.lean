import Paio.Library.DeferredUpdates
import Paio.TableCounters

/-!
# Paio.TableThreads

The housekeeping table under calls of many threads. Every call works on the map under `m_lock`;
an insertion gives the lock back and counts the rule only then, one counter after the other, while
removals and marks count under the lock. A thread that reads a counter in between may see a rule
that is in the map and not counted yet, and the size of the table may even be negative.

`insertions_lag_behind` says what the counters are worth at any moment: the calls are linearizable
by the table of one thread, and each counter is short of the map by the insertions that have not
counted yet, which are no more than the threads in a call.
-/

namespace Paio

namespace HousekeepingTable

open MapCount Linearizability DeferredUpdates

/-- The status of a call, and the rule that `select_housekeeping_rule` copies. -/
abbrev Reply := PStatus × Option HousekeepingRule

/-- A call that is alone, with its reply. -/
def perform (t : HousekeepingTable) : Operation → HousekeepingTable × Reply
  | .insert rule =>
    let out := t.insertHousekeepingRule rule
    (out.1, out.2, none)
  | .insertOf ruleId operation channelId enforcementObjectId properties =>
    let out := t.insertHousekeepingRuleOf ruleId operation channelId enforcementObjectId properties
    (out.1, out.2, none)
  | .select ruleId =>
    match t.selectHousekeepingRule ruleId with
    | some rule => (t, .ok, some rule)
    | none => (t, .notFound, none)
  | .mark ruleId =>
    let out := t.markHousekeepingRuleAsEnforced ruleId
    (out.1, out.2, none)
  | .remove ruleId =>
    let out := t.removeHousekeepingRule ruleId
    (out.1, out.2, none)

/-! ## Sections and counters -/

inductive Counter where
  | numberOfRules
  | numberOfRulesLeftToEmploy
  deriving DecidableEq

/-- An increment of a counter, outside of the lock. -/
def increment : Counter → HousekeepingTable → HousekeepingTable
  | .numberOfRules, t => { t with numberOfRules := t.numberOfRules + 1 }
  | .numberOfRulesLeftToEmploy, t =>
    { t with numberOfRulesLeftToEmploy := t.numberOfRulesLeftToEmploy + 1 }

/-- What an insertion does under the lock, and what it counts when it has given the lock back. -/
def emplace (t : HousekeepingTable) (rule : HousekeepingRule) :
    HousekeepingTable × Reply × List Counter :=
  match t.housekeepingRules.lookup rule.ruleId with
  | none =>
    ({ t with housekeepingRules := t.housekeepingRules.insert rule.ruleId rule }, (.ok, none),
      [.numberOfRules, .numberOfRulesLeftToEmploy])
  | some _ => (t, (.error, none), [])

/-- The part of a call that is under the lock. -/
def critical (t : HousekeepingTable) : Operation → HousekeepingTable × Reply × List Counter
  | .insert rule => t.emplace rule
  | .insertOf ruleId operation channelId enforcementObjectId properties =>
    t.emplace
      { ruleId := ruleId
        ruleType := operation
        channelId := channelId
        enforcementObjectId := enforcementObjectId
        properties := properties }
  | .select ruleId =>
    match t.selectHousekeepingRule ruleId with
    | some rule => (t, (.ok, some rule), [])
    | none => (t, (.notFound, none), [])
  | .mark ruleId =>
    let out := t.markHousekeepingRuleAsEnforced ruleId
    (out.1, (out.2, none), [])
  | .remove ruleId =>
    let out := t.removeHousekeepingRule ruleId
    (out.1, (out.2, none), [])

/-! Sections do not look at the counters. -/

@[simp] theorem housekeepingRules_increment (c : Counter) (t : HousekeepingTable) :
    (increment c t).housekeepingRules = t.housekeepingRules := by
  cases c <;> rfl

theorem increment_comm (c d : Counter) (t : HousekeepingTable) :
    increment c (increment d t) = increment d (increment c t) := by
  cases c <;> cases d <;> rfl

theorem emplace_increment (c : Counter) (t : HousekeepingTable) (rule : HousekeepingRule) :
    emplace (increment c t) rule = (increment c (t.emplace rule).1, (t.emplace rule).2) := by
  simp only [emplace, housekeepingRules_increment]
  cases t.housekeepingRules.lookup rule.ruleId with
  | none => cases c <;> rfl
  | some _ => rfl

theorem mark_increment (c : Counter) (t : HousekeepingTable) (ruleId : UInt64) :
    (increment c t).markHousekeepingRuleAsEnforced ruleId =
      (increment c (t.markHousekeepingRuleAsEnforced ruleId).1,
        (t.markHousekeepingRuleAsEnforced ruleId).2) := by
  simp only [markHousekeepingRuleAsEnforced, housekeepingRules_increment]
  cases t.housekeepingRules.lookup ruleId with
  | none => rfl
  | some rule =>
    cases henf : rule.enforced with
    | true => simp [henf]
    | false => cases c <;> simp [increment, henf]

theorem remove_increment (c : Counter) (t : HousekeepingTable) (ruleId : UInt64) :
    (increment c t).removeHousekeepingRule ruleId =
      (increment c (t.removeHousekeepingRule ruleId).1, (t.removeHousekeepingRule ruleId).2) := by
  simp only [removeHousekeepingRule, housekeepingRules_increment]
  cases t.housekeepingRules.lookup ruleId with
  | none => rfl
  | some rule =>
    cases c with
    | numberOfRules =>
      simp only [increment, add_sub_right_comm]
    | numberOfRulesLeftToEmploy =>
      cases henf : rule.enforced with
      | true => simp [increment, henf]
      | false => simp [increment, henf]

theorem critical_increment (c : Counter) (t : HousekeepingTable) (op : Operation) :
    critical (increment c t) op = (increment c (t.critical op).1, (t.critical op).2) := by
  cases op with
  | insert rule => exact emplace_increment c t rule
  | insertOf _ _ _ _ _ => exact emplace_increment c t _
  | select ruleId =>
    simp only [critical, selectHousekeepingRule, housekeepingRules_increment]
    cases t.housekeepingRules.lookup ruleId <;> rfl
  | mark ruleId => simp only [critical, mark_increment]
  | remove ruleId => simp only [critical, remove_increment]

/-- The table as a component with a lock and counters beside it. -/
def component : Component HousekeepingTable Operation Reply Counter where
  body := critical
  update := increment
  update_comm := increment_comm
  body_update := critical_increment

/-- An insertion with its two increments is the insertion of one thread. -/
theorem emplace_settled (t : HousekeepingTable) (rule : HousekeepingRule) :
    ((t.emplace rule).2.2.foldr increment (t.emplace rule).1, (t.emplace rule).2.1) =
      ((t.insertHousekeepingRule rule).1, (t.insertHousekeepingRule rule).2, none) := by
  rw [emplace, insertHousekeepingRule]
  cases t.housekeepingRules.lookup rule.ruleId with
  | none => rfl
  | some _ => rfl

theorem component_apply (t : HousekeepingTable) (op : Operation) :
    component.apply t op = t.perform op := by
  cases op with
  | insert rule => exact emplace_settled t rule
  | insertOf _ _ _ _ _ => exact emplace_settled t _
  | select ruleId =>
    simp only [Component.apply, component, critical, perform]
    cases t.selectHousekeepingRule ruleId <;> rfl
  | mark ruleId => rfl
  | remove ruleId => rfl

/-- An insertion counts each counter once, the other calls none. -/
theorem critical_nodup (t : HousekeepingTable) (op : Operation) : (t.critical op).2.2.Nodup := by
  have hemplace : ∀ rule, (t.emplace rule).2.2.Nodup := by
    intro rule
    rw [emplace]
    cases t.housekeepingRules.lookup rule.ruleId with
    | none => simp
    | some _ => exact List.nodup_nil
  cases op with
  | insert rule => exact hemplace rule
  | insertOf _ _ _ _ _ => exact hemplace _
  | select ruleId =>
    simp only [critical]
    cases t.selectHousekeepingRule ruleId <;> exact List.nodup_nil
  | mark ruleId => exact List.nodup_nil
  | remove ruleId => exact List.nodup_nil

/-! ## The counters of the calls one after the other -/

/-- How many rules a call brings in that are marked as enforced: they are counted as rules to
employ all the same. -/
def early : Operation → Reply → Nat
  | .insert rule, (.ok, _) => if rule.enforced then 1 else 0
  | _, _ => 0

def earlyAll (lin : List (Entry Nat Operation Reply)) : Nat :=
  (lin.map fun e => early e.op e.reply).sum

/-- One call keeps the counters beside the map, up to what it brings in early. -/
theorem Counted.perform {t : HousekeepingTable} {drift : Nat} (h : Counted drift t)
    (op : Operation) : Counted (drift + early op (t.perform op).2) (t.perform op).1 := by
  cases op with
  | insert rule =>
    simp only [HousekeepingTable.perform, insertHousekeepingRule_eq]
    split
    · exact h
    · rename_i hnew
      exact h.stage hnew
  | insertOf ruleId operation channelId enforcementObjectId properties =>
    simp only [HousekeepingTable.perform, insertHousekeepingRuleOf, insertHousekeepingRule_eq]
    split
    · exact h
    · rename_i hnew
      let rule : HousekeepingRule :=
        ⟨ruleId, operation, channelId, enforcementObjectId, properties, false⟩
      exact h.stage (show rule.ruleId ∉ t.housekeepingRules from hnew)
  | select ruleId =>
    simp only [HousekeepingTable.perform]
    split <;> exact h
  | mark ruleId => exact h.mark ruleId
  | remove ruleId => exact h.remove ruleId

theorem Counted.legal {t t' : HousekeepingTable} {lin : List (Entry Nat Operation Reply)}
    {drift : Nat} (h : Counted drift t)
    (hl : Legal (fun s op reply s' => component.apply s op = (s', reply)) t lin t') :
    Counted (drift + earlyAll lin) t' := by
  induction lin generalizing t drift with
  | nil =>
    cases hl
    exact h
  | cons e lin ih =>
    obtain ⟨s₁, hstep, hrest⟩ := hl
    rw [component_apply] at hstep
    have hone := h.perform e.op
    rw [hstep] at hone
    have hall := ih hone hrest
    rwa [Nat.add_assoc] at hall

/-! ## Runs of many threads -/

variable {θ : Type} [Fintype θ] [DecidableEq θ]

/-- What one counter is when increments are owed. -/
theorem foldr_increment (t : HousekeepingTable) (owed : Multiset Counter) :
    (owed.foldr component.update t).housekeepingRules = t.housekeepingRules ∧
      (owed.foldr component.update t).numberOfRules =
        t.numberOfRules + owed.count .numberOfRules ∧
      (owed.foldr component.update t).numberOfRulesLeftToEmploy =
        t.numberOfRulesLeftToEmploy + owed.count .numberOfRulesLeftToEmploy := by
  induction owed using Multiset.induction_on with
  | empty => simp
  | cons c owed ih =>
    obtain ⟨hmap, hsize, hleft⟩ := ih
    rw [Multiset.foldr_cons]
    refine ⟨(housekeepingRules_increment c _).trans hmap, ?_, ?_⟩
    · cases c with
      | numberOfRules =>
        show (owed.foldr component.update t).numberOfRules + 1 = _
        rw [hsize, Multiset.count_cons_self]
        omega
      | numberOfRulesLeftToEmploy =>
        show (owed.foldr component.update t).numberOfRules = _
        rw [hsize, Multiset.count_cons_of_ne (by decide)]
    · cases c with
      | numberOfRules =>
        show (owed.foldr component.update t).numberOfRulesLeftToEmploy = _
        rw [hleft, Multiset.count_cons_of_ne (by decide)]
      | numberOfRulesLeftToEmploy =>
        show (owed.foldr component.update t).numberOfRulesLeftToEmploy + 1 = _
        rw [hleft, Multiset.count_cons_self]
        omega

/-- In every run of any number of threads, the calls are linearizable by the table of one thread.
The map is the one that the calls leave in this order. Each counter is short of the map by the
insertions that have not counted yet (rules that came marked as enforced are ahead of it), and the
getters report that as an `int`; these insertions are no more than the threads in a call, and none
when nobody is in a call. -/
theorem insertions_lag_behind
    {m : DeferredUpdates.Machine HousekeepingTable Operation Reply Counter θ}
    {h : List (Event Nat Operation Reply)} (hr : component.Runs {} m h) :
    ∃ lin t, Linearization (fun s op reply s' => s.perform op = (s', reply)) {} h lin t ∧
      m.state.housekeepingRules = t.housekeepingRules ∧
      m.state.numberOfRules + m.owed.count .numberOfRules =
        m.state.housekeepingRules.keys.card ∧
      m.state.numberOfRulesLeftToEmploy + m.owed.count .numberOfRulesLeftToEmploy =
        count pending m.state.housekeepingRules + earlyAll lin ∧
      m.state.getHousekeepingTableSize =
        toInt32 (m.state.housekeepingRules.keys.card - m.owed.count .numberOfRules) ∧
      m.state.getTotalOfRulesLeftToEmploy =
        toInt32 (count pending m.state.housekeepingRules + earlyAll lin -
          m.owed.count .numberOfRulesLeftToEmploy) ∧
      (∀ c, m.owed.count c ≤ m.busy.card) ∧
      ((∀ i, m.threads i = .idle) → m.state = t) := by
  obtain ⟨lin, hlin, hidle⟩ := linearizable hr
  have hcounted := counted_new.legal hlin.legal
  obtain ⟨hmap, hsize, hleft⟩ := foldr_increment m.state m.owed
  have hsettled : m.settled component = m.owed.foldr component.update m.state := rfl
  have hrules : m.state.numberOfRules + m.owed.count .numberOfRules =
      m.state.housekeepingRules.keys.card := by
    rw [← hsize, ← hsettled, hcounted.size, count_true, hsettled, hmap]
  have hpending : m.state.numberOfRulesLeftToEmploy + m.owed.count .numberOfRulesLeftToEmploy =
      count pending m.state.housekeepingRules + earlyAll lin := by
    rw [← hleft, ← hsettled, hcounted.left, hsettled, hmap]
    simp
  refine ⟨lin, m.settled component, ?_, ?_, hrules, hpending, ?_, ?_,
    count_owed_le critical_nodup hr, fun h => (hidle h).symm⟩
  · simp only [component_apply] at hlin
    exact hlin
  · rw [hsettled, hmap]
  · rw [getHousekeepingTableSize, ← hrules, add_sub_cancel_right]
  · rw [getTotalOfRulesLeftToEmploy, ← hpending, add_sub_cancel_right]

/-- One thread removes the rule that another has inserted and not counted. -/
def overtaking : List (DeferredUpdates.Action Operation Bool) :=
  [.call false (.insert { ruleId := 7 }), .body false, .call true (.remove 7), .body true,
    .finish true]

def overtaken : DeferredUpdates.Machine HousekeepingTable Operation Reply Counter Bool ×
    List (Event Nat Operation Reply) :=
  (component.run ({ state := {} }, []) overtaking).getD ({ state := {} }, [])

theorem runs_overtaken : component.Runs {} overtaken.1 overtaken.2 :=
  have hrun : component.run ({ state := {} }, []) overtaking = some overtaken := rfl
  Component.runs_run hrun

/-- The getter reports a table of `-1` rules; there is one insertion that is still to count. -/
theorem insertions_lag_behind_overtaken :
    overtaken.1.state.getHousekeepingTableSize = -1 ∧
      overtaken.1.owed.count .numberOfRules = 1 := by
  obtain ⟨_, _, _, _, hrules, _, hsize, _⟩ := insertions_lag_behind runs_overtaken
  have hnumber : overtaken.1.state.numberOfRules = -1 := rfl
  have hcard : overtaken.1.state.housekeepingRules.keys.card = 0 := rfl
  rw [hnumber, hcard] at hrules
  have howed : overtaken.1.owed.count .numberOfRules = 1 := by omega
  rw [hcard, howed] at hsize
  exact ⟨hsize.trans (by decide), howed⟩

end HousekeepingTable

end Paio
