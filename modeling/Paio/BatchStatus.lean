import Paio.RuleOutcome

/-!
# Paio.BatchStatus

The status of `execute_housekeeping_rules` against the table it leaves. The call returns the status
of the last pending rule it has visited, starting from an error, and stops early at an error only.
`executeRulesLoop_ends` follows the loop over any order: it gets through all pending rules, it
faults, or it stops at a rule that is refused. `batch_status_iff` reads off it when the status tells
whether the whole table is enforced.
-/

namespace Paio

variable {opt : Options} {hash : String → UInt32}

/-- The pending rules of a table in the order in which an iteration visits them. -/
def HousekeepingTable.pendingRules (table : UnorderedMap UInt64 HousekeepingRule)
    (order : List UInt64) : List HousekeepingRule :=
  order.filterMap fun id => (table.lookup id).filter fun rule => !rule.enforced

def HousekeepingTable.AllEnforced (t : HousekeepingTable) : Prop :=
  ∀ id rule, t.housekeepingRules.lookup id = some rule → rule.enforced = true

namespace Core

variable (opt hash)

/-- The call comes back, and with OK exactly when it leaves every rule enforced. -/
def StatusAgrees (clock : UInt64 → Clock) (order : List UInt64) (core : Core) : Prop :=
  ∃ core' completion, core.executeHousekeepingRules opt hash clock order = .ok (core', completion) ∧
    (completion = .returned .ok ↔ core'.housekeepingTable.AllEnforced)

/-- The loop goes on after the rule. -/
def Passes (core₀ : Core) (done : List HousekeepingRule) (r : HousekeepingRule) : Prop :=
  Fits opt hash core₀ (· ∈ done) r ∨ (r.Unsupported ∧ core₀.Addressable hash (· ∈ done) r)

/-- The rules that are built after the loop has gone past one more. -/
def andThen (done : List HousekeepingRule) (r : HousekeepingRule) : List HousekeepingRule :=
  if r.Unsupported then done else done ++ [r]

/-- The loop goes past all of the rules. -/
def PassAll (core₀ : Core) : List HousekeepingRule → List HousekeepingRule → Prop
  | _, [] => True
  | done, r :: rest => Passes opt hash core₀ done r ∧ PassAll core₀ (andThen done r) rest

/-- The loop comes to a rule that asks for a configuration value it does not carry. -/
def Faults (core₀ : Core) : List HousekeepingRule → List HousekeepingRule → Prop
  | _, [] => False
  | done, r :: rest => Faulty opt hash core₀ (· ∈ done) r ∨
      (Passes opt hash core₀ done r ∧ Faults core₀ (andThen done r) rest)

/-- The status after the loop has gone past the rules. -/
def endStatus (status : PStatus) (rules : List HousekeepingRule) : PStatus :=
  rules.foldl (fun _ r => if r.Unsupported then .notSupported else .ok) status

/-- What the loop makes of an entry that it visits. -/
def visit (r : HousekeepingRule) : HousekeepingRule :=
  if r.Unsupported then r else { r with enforced := true }

variable {opt hash} {core₀ core core' : Core} {done : List HousekeepingRule}
  {r : HousekeepingRule} {clock : UInt64 → Clock}

theorem Faulty.not_passes (h : Faulty opt hash core₀ (· ∈ done) r) :
    ¬ Passes opt hash core₀ done r := by
  rintro (hfits | ⟨hr, _⟩)
  · exact h.not_fits hfits
  · exact h.not_unsupported hr

theorem Faults.not_passAll {rules : List HousekeepingRule} :
    ∀ {done : List HousekeepingRule}, Faults opt hash core₀ done rules →
      ¬ PassAll opt hash core₀ done rules := by
  induction rules with
  | nil => exact fun h _ => h
  | cons r rest ih =>
    rintro done (hf | ⟨_, hrest⟩) hpass
    · exact hf.not_passes hpass.1
    · exact ih hrest hpass.2

/-- One of the rules asks for a configuration value it does not carry. -/
theorem Faults.exists_faulty {rules : List HousekeepingRule} :
    ∀ {done : List HousekeepingRule}, Faults opt hash core₀ done rules →
      ∃ (done' : List HousekeepingRule) (r : HousekeepingRule),
        r ∈ rules ∧ Faulty opt hash core₀ (· ∈ done') r := by
  induction rules with
  | nil => exact fun h => h.elim
  | cons r rest ih =>
    rintro done (hf | ⟨_, hrest⟩)
    · exact ⟨done, r, List.mem_cons_self, hf⟩
    · obtain ⟨done', r', hr', hf⟩ := ih hrest
      exact ⟨done', r', List.mem_cons_of_mem _ hr', hf⟩

/-! ## The loop -/

/-- The state of the loop: the rules gone past are built, those to come are as they were. -/
structure BatchState (opt : Options) (hash : String → UInt32) (core₀ : Core)
    (table : UnorderedMap UInt64 HousekeepingRule) (done : List HousekeepingRule)
    (rest : List UInt64) (core : Core) : Prop where
  built : Built opt hash core₀ (· ∈ done) core
  table_eq : ∀ id ∈ rest, core.housekeepingTable.housekeepingRules.lookup id = table.lookup id

/-- How the loop ends. -/
inductive BatchEnd (opt : Options) (hash : String → UInt32) (core₀ : Core)
    (table : UnorderedMap UInt64 HousekeepingRule) (done pending : List HousekeepingRule)
    (rest : List UInt64) (status : PStatus) (core : Core) :
    Except Fault (Core × Completion) → Prop
  | through {core' : Core} (hpass : PassAll opt hash core₀ done pending)
      (hvisited : ∀ id ∈ rest, core'.housekeepingTable.housekeepingRules.lookup id =
        (table.lookup id).map visit)
      (hother : ∀ id, id ∉ rest → core'.housekeepingTable.housekeepingRules.lookup id =
        core.housekeepingTable.housekeepingRules.lookup id) :
      BatchEnd opt hash core₀ table done pending rest status core
        (.ok (core', .returned (endStatus status pending)))
  | faulted {f : Fault} (hfaults : Faults opt hash core₀ done pending) :
      BatchEnd opt hash core₀ table done pending rest status core (.error f)
  | stopped {core' : Core} {completion : Completion}
      (hpass : ¬ PassAll opt hash core₀ done pending)
      (hfaults : ¬ Faults opt hash core₀ done pending)
      (hc : completion ≠ .returned .ok)
      (hleft : ¬ core'.housekeepingTable.AllEnforced) :
      BatchEnd opt hash core₀ table done pending rest status core (.ok (core', completion))

section Loop

variable {table : UnorderedMap UInt64 HousekeepingRule} {pending : List HousekeepingRule}
  {id : UInt64} {rest : List UInt64} {status : PStatus} {core₁ : Core}
  {out : Except Fault (Core × Completion)}

open HousekeepingTable

/-- An entry that the loop passes over stays as it is. -/
theorem BatchEnd.skip (hid : id ∉ rest)
    (hself : core.housekeepingTable.housekeepingRules.lookup id = (table.lookup id).map visit)
    (h : BatchEnd opt hash core₀ table done pending rest status core out) :
    BatchEnd opt hash core₀ table done pending (id :: rest) status core out := by
  cases h with
  | through hpass hvisited hother =>
    refine .through hpass ?_ ?_
    · intro id' hid'
      rcases List.mem_cons.mp hid' with rfl | hrest
      · rw [hother id' hid, hself]
      · exact hvisited id' hrest
    · intro id' hid'
      exact hother id' (List.not_mem_of_not_mem_cons hid')
  | faulted hfaults => exact .faulted hfaults
  | stopped hpass hfaults hc hleft => exact .stopped hpass hfaults hc hleft

/-- The loop goes past a pending rule. -/
theorem BatchEnd.pass (hid : id ∉ rest) (hl : table.lookup id = some r)
    (hpasses : Passes opt hash core₀ done r)
    (hself : core₁.housekeepingTable.housekeepingRules.lookup id = some (visit r))
    (hothers : ∀ id', id' ≠ id → core₁.housekeepingTable.housekeepingRules.lookup id' =
      core.housekeepingTable.housekeepingRules.lookup id')
    (h : BatchEnd opt hash core₀ table (andThen done r) pending rest
      (if r.Unsupported then .notSupported else .ok) core₁ out) :
    BatchEnd opt hash core₀ table done (r :: pending) (id :: rest) status core out := by
  cases h with
  | through hpass hvisited hother =>
    show BatchEnd opt hash core₀ table done (r :: pending) (id :: rest) status core
      (.ok (_, .returned (endStatus status (r :: pending))))
    refine .through ⟨hpasses, hpass⟩ ?_ ?_
    · intro id' hid'
      rcases List.mem_cons.mp hid' with rfl | hrest
      · rw [hother id' hid, hself, hl, Option.map_some]
      · exact hvisited id' hrest
    · intro id' hid'
      obtain ⟨hne, hrest⟩ := not_or.mp (mt List.mem_cons.mpr hid')
      rw [hother id' hrest, hothers id' hne]
  | faulted hfaults => exact .faulted (.inr ⟨hpasses, hfaults⟩)
  | stopped hpass hfaults hc hleft =>
    refine .stopped (fun h => hpass h.2) ?_ hc hleft
    rintro (hf | ⟨_, hrest⟩)
    · exact hf.not_passes hpasses
    · exact hfaults hrest

/-- The loop stops at a rule that is refused, and the rule stays pending. -/
theorem BatchEnd.stop {completion : Completion} (hpass : ¬ Passes opt hash core₀ done r)
    (hf : ¬ Faulty opt hash core₀ (· ∈ done) r) (henf : r.enforced = false)
    (hself : core.housekeepingTable.housekeepingRules.lookup id = some r)
    (hc : completion ≠ .returned .ok) :
    BatchEnd opt hash core₀ table done (r :: pending) (id :: rest) status core
      (.ok (core, completion)) := by
  refine .stopped (fun h => hpass h.1) ?_ hc ?_
  · rintro (h | ⟨h, _⟩)
    · exact hf h
    · exact hpass h
  · intro hall
    simp [hall id r hself] at henf

theorem pendingRules_cons_enforced
    (h : ∀ r, table.lookup id = some r → r.enforced = true) :
    pendingRules table (id :: rest) = pendingRules table rest := by
  apply List.filterMap_cons_none
  cases hl : table.lookup id with
  | none => rfl
  | some r => simp [h r hl]

theorem pendingRules_cons_pending (hl : table.lookup id = some r) (henf : r.enforced = false) :
    pendingRules table (id :: rest) = r :: pendingRules table rest := by
  apply List.filterMap_cons_some
  simp [hl, henf]

theorem map_visit_enforced (h : ∀ r, table.lookup id = some r → r.enforced = true) :
    (table.lookup id).map visit = table.lookup id := by
  cases hl : table.lookup id with
  | none => rfl
  | some r =>
    rw [Option.map_some, visit]
    split
    · rfl
    · rw [← h r hl]

theorem BatchState.tail (h : BatchState opt hash core₀ table done (id :: rest) core) :
    BatchState opt hash core₀ table done rest core :=
  ⟨h.built, fun id' hid' => h.table_eq id' (List.mem_cons_of_mem id hid')⟩

/-- A rule that succeeds is built and marked. -/
theorem BatchState.created (h : BatchState opt hash core₀ table done (id :: rest) core)
    (hid : id ∉ rest)
    (he : core.employRule opt hash (clock id) r = .ok (core₁, .returned .ok))
    (hb : Built opt hash core₀ (fun r' => r' ∈ done ∨ r' = r) core₁) :
    BatchState opt hash core₀ table (done ++ [r]) rest (core₁.markEnforced id) := by
  refine ⟨?_, ?_⟩
  · exact Built.congr (hb.keep rfl rfl rfl rfl) fun r' => by simp
  · intro id' hid'
    rw [lookup_executed_ne he (ne_of_mem_of_not_mem hid' hid)]
    exact h.tail.table_eq id' hid'

theorem executeRulesLoop_notSupported
    (hl : core.housekeepingTable.housekeepingRules.lookup id = some r) (henf : r.enforced = false)
    (he : core.employRule opt hash (clock id) r = .ok (core, .returned .notSupported)) :
    core.executeRulesLoop opt hash clock (id :: rest) status =
      core.executeRulesLoop opt hash clock rest .notSupported := by
  simp only [executeRulesLoop, hl, henf, executeHousekeepingRule_pending opt hash _ hl henf, he]
  rfl

theorem executeRulesLoop_threw {what : String}
    (hl : core.housekeepingTable.housekeepingRules.lookup id = some r) (henf : r.enforced = false)
    (he : core.employRule opt hash (clock id) r = .ok (core, .threw what)) :
    core.executeRulesLoop opt hash clock (id :: rest) status = .ok (core, .threw what) := by
  simp only [executeRulesLoop, hl, henf, executeHousekeepingRule_pending opt hash _ hl henf, he]
  rfl

theorem executeRulesLoop_fault {f : Fault}
    (hl : core.housekeepingTable.housekeepingRules.lookup id = some r) (henf : r.enforced = false)
    (he : core.employRule opt hash (clock id) r = .error f) :
    core.executeRulesLoop opt hash clock (id :: rest) status = .error f := by
  simp only [executeRulesLoop, hl, henf, executeHousekeepingRule_pending opt hash _ hl henf, he]
  rfl

/-- The loop over the rest of an order, from any state in which it can be. -/
theorem executeRulesLoop_ends (hw₀ : core₀.WellLinked opt hash)
    (table : UnorderedMap UInt64 HousekeepingRule) (clock : UInt64 → Clock) :
    ∀ (rest : List UInt64) (done : List HousekeepingRule) (status : PStatus) (core : Core),
      rest.Nodup → BatchState opt hash core₀ table done rest core →
      BatchEnd opt hash core₀ table done (pendingRules table rest) rest status core
        (core.executeRulesLoop opt hash clock rest status) := by
  intro rest
  induction rest with
  | nil =>
    intro done status core _ _
    exact .through trivial (by simp) (fun _ _ => rfl)
  | cons id rest ih =>
    intro done status core hnd hstate
    obtain ⟨hid, hnd'⟩ := List.nodup_cons.mp hnd
    have hlid := hstate.table_eq id List.mem_cons_self
    by_cases hpending : ∃ r, table.lookup id = some r ∧ r.enforced = false
    · obtain ⟨r, hl, henf⟩ := hpending
      rw [hl] at hlid
      rw [pendingRules_cons_pending hl henf]
      cases hstate.built.outcome hw₀ (clock id) r with
      | @created core₁ hfits he hb =>
        have hsup := hfits.not_unsupported
        have hl₁ : core₁.housekeepingTable.housekeepingRules.lookup id = some r := by
          rw [employRule_housekeepingTable he, hlid]
        rw [executeRulesLoop_ok hlid henf he]
        refine BatchEnd.pass hid hl (.inl hfits) ?_ (fun _ hne => lookup_executed_ne he hne) ?_
        · rw [lookup_markEnforced hl₁ id, if_pos rfl, visit, if_neg hsup]
        · rw [andThen, if_neg hsup, if_neg hsup]
          exact ih (done ++ [r]) .ok (core₁.markEnforced id) hnd' (hstate.created hid he hb)
      | unsupported hr ha he =>
        rw [executeRulesLoop_notSupported hlid henf he]
        refine BatchEnd.pass hid hl (.inr ⟨hr, ha⟩) ?_ (fun _ _ => rfl) ?_
        · rw [hlid, visit, if_pos hr]
        · rw [andThen, if_pos hr, if_pos hr]
          exact ih done .notSupported core hnd' hstate.tail
      | faulted hf he =>
        rw [executeRulesLoop_fault hlid henf he]
        exact .faulted (.inl hf)
      | refused hfits hr hf he hc =>
        have hpass : ¬ Passes opt hash core₀ done r := by
          rintro (h | ⟨h, ha⟩)
          · exact hfits h
          · exact hr h ha
        rcases hc with rfl | ⟨what, rfl⟩
        · rw [executeRulesLoop_error hlid henf he]
          exact .stop hpass hf henf hlid (by simp)
        · rw [executeRulesLoop_threw hlid henf he]
          exact .stop hpass hf henf hlid (by simp)
    · -- nothing is left to do for this identifier
      have hdone : ∀ r, table.lookup id = some r → r.enforced = true := by
        intro r hl
        by_contra henf
        exact hpending ⟨r, hl, Bool.not_eq_true _ ▸ henf⟩
      rw [executeRulesLoop_skip fun r hl => hdone r (hlid ▸ hl), pendingRules_cons_enforced hdone]
      refine (ih done status core hnd' hstate.tail).skip hid ?_
      rw [hlid, map_visit_enforced hdone]

end Loop

/-! ## The status and the table -/

section Status

variable {order : List UInt64} {pending : List HousekeepingRule}

open HousekeepingTable

theorem mem_pendingRules {table : UnorderedMap UInt64 HousekeepingRule} :
    r ∈ pendingRules table order ↔
      ∃ id ∈ order, table.lookup id = some r ∧ r.enforced = false := by
  simp [pendingRules, Option.filter_eq_some_iff]

theorem visit_enforced : (visit r).enforced = true ↔ r.enforced = true ∨ ¬ r.Unsupported := by
  unfold visit
  split <;> simp_all

/-- The status after the loop is that of the last rule. -/
theorem endStatus_ok_iff :
    endStatus .error pending = .ok ↔ ∃ r, pending.getLast? = some r ∧ ¬ r.Unsupported := by
  induction pending using List.reverseRecOn with
  | nil => simp [endStatus]
  | append_singleton before r _ =>
    simp only [endStatus, List.foldl_append, List.foldl_cons, List.foldl_nil,
      List.getLast?_append, List.getLast?_singleton, Option.some_or, Option.some.injEq,
      exists_eq_left']
    split <;> simp_all

/-- After a loop that has gone past every rule, the rules without a supported type are left. -/
theorem allEnforced_iff {table : UnorderedMap UInt64 HousekeepingRule}
    (horder : ∀ id, id ∈ order ↔ id ∈ table)
    (hvisited : ∀ id ∈ order, core'.housekeepingTable.housekeepingRules.lookup id =
      (table.lookup id).map visit)
    (hother : ∀ id, id ∉ order → core'.housekeepingTable.housekeepingRules.lookup id =
      table.lookup id) :
    core'.housekeepingTable.AllEnforced ↔ ∀ r ∈ pendingRules table order, ¬ r.Unsupported := by
  constructor
  · intro hall r hr
    obtain ⟨id, hid, hl, henf⟩ := mem_pendingRules.mp hr
    have hvisit := hall id (visit r) (by rw [hvisited id hid, hl]; rfl)
    rcases visit_enforced.mp hvisit with h | h
    · simp [henf] at h
    · exact h
  · intro hsup id rule hl
    by_cases hid : id ∈ order
    · rw [hvisited id hid] at hl
      obtain ⟨r, hr, rfl⟩ := Option.map_eq_some_iff.mp hl
      rw [visit_enforced]
      cases henf : r.enforced with
      | true => exact .inl rfl
      | false => exact .inr (hsup r (mem_pendingRules.mpr ⟨id, hid, hr, henf⟩))
    · rw [hother id hid] at hl
      exact absurd ((horder id).mpr (Finmap.mem_of_lookup_eq_some hl)) hid

/-- When the last rule tells about all of them. -/
theorem last_tells_iff :
    (endStatus .error pending = .ok ↔ ∀ r ∈ pending, ¬ r.Unsupported) ↔
      pending ≠ [] ∧ ((∃ r ∈ pending, r.Unsupported) →
        ∃ r, pending.getLast? = some r ∧ r.Unsupported) := by
  rw [endStatus_ok_iff]
  rcases List.eq_nil_or_concat pending with rfl | ⟨before, r, rfl⟩
  · simp
  · have hlast : (before ++ [r]).getLast? = some r := by simp
    have hmem : r ∈ before ++ [r] := by simp
    simp only [List.concat_eq_append, hlast, Option.some.injEq, exists_eq_left']
    constructor
    · intro h
      refine ⟨by simp, ?_⟩
      rintro ⟨r', hr', hun⟩
      by_contra hr
      exact h.mp hr r' hr' hun
    · rintro ⟨_, h⟩
      constructor
      · intro hr r' hr' hun
        exact hr (h ⟨r', hr', hun⟩)
      · intro hall
        exact hall r hmem

/-- In every reachable core and for every order of its table, `execute_housekeeping_rules` comes
back, with OK exactly when it has left every rule enforced, if and only if some rule is pending, no
rule that it comes to asks for a configuration value it does not carry, and, should it go past
every pending rule while one of them is of an unsupported type, the last one is of such a type. -/
theorem batch_status_iff (hreach : core.Reachable opt hash)
    (horder : core.housekeepingTable.IsIterationOrder order) (clock : UInt64 → Clock) :
    StatusAgrees opt hash clock order core ↔
      pendingRules core.housekeepingTable.housekeepingRules order ≠ [] ∧
      ¬ Faults opt hash core [] (pendingRules core.housekeepingTable.housekeepingRules order) ∧
      (PassAll opt hash core [] (pendingRules core.housekeepingTable.housekeepingRules order) →
        (∃ r ∈ pendingRules core.housekeepingTable.housekeepingRules order, r.Unsupported) →
        ∃ r, (pendingRules core.housekeepingTable.housekeepingRules order).getLast? = some r ∧
          r.Unsupported) := by
  have hw := hreach.wellLinked
  have hstart : Built opt hash core (· ∈ ([] : List HousekeepingRule)) core :=
    (built_start hw).congr fun r => by simp
  have hend := executeRulesLoop_ends hw core.housekeepingTable.housekeepingRules clock order []
    .error core horder.1 ⟨hstart, fun _ _ => rfl⟩
  unfold StatusAgrees executeHousekeepingRules
  generalize core.executeRulesLoop opt hash clock order .error = out at hend
  cases hend with
  | through hpass hvisited hother =>
    rw [and_iff_right (fun hf => Faults.not_passAll hf hpass), imp_iff_right hpass,
      ← last_tells_iff, ← allEnforced_iff horder.2 hvisited hother]
    constructor
    · rintro ⟨core'', completion, heq, hiff⟩
      cases heq
      rw [← hiff, Completion.returned.injEq]
    · intro hiff
      exact ⟨_, _, rfl, by rw [← hiff, Completion.returned.injEq]⟩
  | faulted hfaults => simp [hfaults]
  | stopped hpass hfaults hc hleft =>
    have hne : pendingRules core.housekeepingTable.housekeepingRules order ≠ [] := by
      intro hnil
      rw [hnil] at hpass
      exact hpass trivial
    constructor
    · intro _
      exact ⟨hne, hfaults, fun h => absurd h hpass⟩
    · intro _
      exact ⟨_, _, rfl, iff_of_false hc hleft⟩

/-- A core with one channel to create. -/
def oneRuleCore : Core := ((Core.new {}).insertHousekeepingRule Agent.channelRule).1

theorem oneRuleCore_reachable : oneRuleCore.Reachable {} numeralHash :=
  Reachable.step .new (.insertHousekeepingRule _ _)

/-- Two channels, and between them an object of type 9. -/
def mixedCore : Core :=
  ((oneRuleCore.insertHousekeepingRule
    { ruleId := 2
      ruleType := .createObject
      channelId := 5
      enforcementObjectId := 1
      properties := [0, 0, 0, 9] }).1.insertHousekeepingRule
    { ruleId := 3, ruleType := .createChannel, channelId := 6, properties := [0, 2, 0, 1] }).1

theorem mixedCore_reachable : mixedCore.Reachable {} numeralHash :=
  (oneRuleCore_reachable.step (.insertHousekeepingRule _ _)).step (.insertHousekeepingRule _ _)

theorem mixedCore_order {order : List UInt64} (hperm : order.Perm [1, 2, 3]) :
    mixedCore.housekeepingTable.IsIterationOrder order := by
  refine ⟨hperm.nodup_iff.mpr (by decide), fun id => ?_⟩
  have hkeys : mixedCore.housekeepingTable.housekeepingRules.keys = {1, 2, 3} := by decide
  rw [← Finmap.mem_keys, hkeys, hperm.mem_iff]
  simp

/-- When the object of the unsupported type comes last, the status tells it. -/
theorem batch_status_mixed :
    mixedCore.Reachable {} numeralHash ∧
      mixedCore.housekeepingTable.IsIterationOrder [1, 3, 2] ∧
      StatusAgrees {} numeralHash (fun _ _ => 0) [1, 3, 2] mixedCore := by
  have horder : mixedCore.housekeepingTable.IsIterationOrder [1, 3, 2] :=
    mixedCore_order (by decide)
  refine ⟨mixedCore_reachable, horder,
    (batch_status_iff mixedCore_reachable horder _).mpr ⟨by decide, ?_, ?_⟩⟩
  · have htypes : ∀ r ∈ pendingRules mixedCore.housekeepingTable.housekeepingRules [1, 3, 2],
        r.ruleType = .createObject → r.objectType = none := by decide
    intro hfaults
    obtain ⟨done, r, hr, hfaulty⟩ := Faults.exists_faulty hfaults
    exact hfaulty.supported (htypes r hr hfaulty.type)
  · intro _ _
    exact ⟨_, rfl, by decide⟩

/-- With nothing pending the call returns an error; and it returns OK after it has gone past the
object of an unsupported type, because the last rule has succeeded. -/
theorem batch_status_fails :
    ((Core.new {}).Reachable {} numeralHash ∧
      (Core.new {}).housekeepingTable.IsIterationOrder [] ∧
      ¬ StatusAgrees {} numeralHash (fun _ _ => 0) [] (Core.new {})) ∧
    (mixedCore.Reachable {} numeralHash ∧
      mixedCore.housekeepingTable.IsIterationOrder [1, 2, 3] ∧
      ¬ StatusAgrees {} numeralHash (fun _ _ => 0) [1, 2, 3] mixedCore) := by
  refine ⟨⟨.new, ⟨by simp, by simp [Core.new, Finmap.notMem_empty]⟩, ?_⟩, mixedCore_reachable,
    mixedCore_order (List.Perm.refl _), ?_⟩
  · rintro ⟨core', completion, heq, hiff⟩
    cases heq
    have hok := hiff.mpr (by intro id rule hl; simp [Core.new] at hl)
    cases hok
  · rintro ⟨core', completion, heq, hiff⟩
    have hrun : (mixedCore.executeHousekeepingRules {} numeralHash (fun _ _ => 0)
        [1, 2, 3]).toOption.map (fun out => (out.2,
          (out.1.housekeepingTable.housekeepingRules.lookup 2).map HousekeepingRule.enforced)) =
        some (.returned .ok, some false) := by decide
    rw [heq] at hrun
    simp only [Except.toOption, Option.map_some, Option.some.injEq, Prod.mk.injEq] at hrun
    obtain ⟨rule, hl, henf⟩ := Option.map_eq_some_iff.mp hrun.2
    have hall := hiff.mp hrun.1 2 rule hl
    simp [henf] at hall

end Status

end Core

end Paio
