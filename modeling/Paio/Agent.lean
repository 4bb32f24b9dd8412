import Paio.Core
import Paio.Library.CallSequence

/-!
# Paio.Agent

The agent receives the rules of the control plane and hands them to the core. With
`execute_on_receive` a housekeeping rule is inserted in the table and executed at once; without it
the rule stays in the table until `execute_housekeeping_rules`.
-/

namespace Paio

structure Agent where
  core : Core
  executeOnReceive : Bool := true

namespace Agent

variable (opt : Options) (hash : String → UInt32)

def employHousekeepingRule (clock : Clock) (agent : Agent) (rule : HousekeepingRule) :
    Except Fault (Agent × Completion) :=
  match rule.ruleType with
  | .createChannel | .createObject =>
    let (core, status) := agent.core.insertHousekeepingRule rule
    if status.isOk && agent.executeOnReceive then
      match core.executeHousekeepingRule opt hash clock rule.ruleId with
      | .ok (core', completion) => .ok ({ agent with core := core' }, completion)
      | .error f => .error f
    else .ok ({ agent with core := core }, .returned status)
  | .configure | .remove | .noOp => .ok (agent, .threw "Agent: unexpected HousekeepingRule type")

/-- A list of rules submitted one after the other, with what each call came back with; the clock of
a rule is given by its identifier. -/
def employAll (clock : UInt64 → Clock) (rules : List HousekeepingRule) (agent : Agent) :
    Except Fault (Agent × List Completion) :=
  CallSequence.run
    (fun agent rule => agent.employHousekeepingRule opt hash (clock rule.ruleId) rule) agent rules

def executeHousekeepingRules (clock : UInt64 → Clock) (order : List UInt64) (agent : Agent) :
    Except Fault (Agent × Completion) :=
  match agent.core.executeHousekeepingRules opt hash clock order with
  | .ok (core, .returned status) =>
    .ok ({ agent with core := core }, .returned (if status.isOk then status else .error))
  | .ok (core, .threw what) => .ok ({ agent with core := core }, .threw what)
  | .error f => .error f

/-! ## What a submission can do -/

/-- A rule whose identifier is in the table is refused. -/
theorem employHousekeepingRule_duplicate (clock : Clock) {agent : Agent} {rule : HousekeepingRule}
    (htype : rule.ruleType = .createChannel ∨ rule.ruleType = .createObject)
    (h : rule.ruleId ∈ agent.core.housekeepingTable.housekeepingRules) :
    agent.employHousekeepingRule opt hash clock rule = .ok (agent, .returned .error) := by
  have hins := agent.core.insertHousekeepingRule_eq rule
  rw [if_pos h] at hins
  rcases htype with ht | ht <;>
    simp [employHousekeepingRule, ht, hins, PStatus.isOk]

/-- A rule with a new identifier is put in the table and, on `execute_on_receive`, executed. -/
theorem employHousekeepingRule_new (clock : Clock) {agent : Agent} {rule : HousekeepingRule}
    (htype : rule.ruleType = .createChannel ∨ rule.ruleType = .createObject)
    (h : rule.ruleId ∉ agent.core.housekeepingTable.housekeepingRules) :
    agent.employHousekeepingRule opt hash clock rule =
      if agent.executeOnReceive then
        match (agent.core.stage rule).executeHousekeepingRule opt hash clock rule.ruleId with
        | .ok (core, completion) => .ok ({ agent with core := core }, completion)
        | .error f => .error f
      else .ok ({ agent with core := agent.core.stage rule }, .returned .ok) := by
  have hins := agent.core.insertHousekeepingRule_eq rule
  rw [if_neg h] at hins
  rcases htype with ht | ht <;>
    simp [employHousekeepingRule, ht, hins, PStatus.isOk]

end Agent

end Paio
