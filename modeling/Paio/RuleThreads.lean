import Paio.RuleOutcome

/-!
# Paio.RuleThreads

Any number of threads in `execute_housekeeping_rule` at the same time. A call has three critical
sections, each under a lock of its own: it copies the rule from the table, it creates the channel or
the object under `m_channels_lock`, and it marks the rule as enforced. Between them other threads
run, so that two calls can both hold a copy of a rule that is pending.

* `RuleThread` names the next critical section of a thread. A step of the machine is a call, one
  critical section of one thread, or the insertion of a rule.
* A creation that reads a configuration value which is not there has no step.
* `history` records calls, creations and returns. No step depends on it.

What keeps a rule from being executed twice is the registry: `Core.Built` describes it by the rules
that created something, and a rule does not fit next to itself.
-/

namespace Paio

variable (opt : Options) (hash : String → UInt32)

inductive RuleThread where
  | idle
  | selecting (ruleId : UInt64)
  | creating (ruleId : UInt64) (rule : HousekeepingRule)
  | marking (ruleId : UInt64)
  deriving DecidableEq, Repr

inductive RuleEvent where
  | called (thread : Nat) (ruleId : UInt64)
  | created (thread : Nat) (ruleId : UInt64) (rule : HousekeepingRule)
  | returned (thread : Nat) (ruleId : UInt64) (completion : Completion)
  deriving DecidableEq, Repr

namespace RuleEvent

def thread : RuleEvent → Nat
  | called thread _ => thread
  | created thread _ _ => thread
  | returned thread _ _ => thread

def isCreation (ruleId : UInt64) : RuleEvent → Bool
  | created _ id _ => id = ruleId
  | _ => false

def isOk (ruleId : UInt64) : RuleEvent → Bool
  | returned _ id completion => id = ruleId && completion = .returned .ok
  | _ => false

end RuleEvent

structure RuleMachine where
  core : Core
  threads : Nat → RuleThread := fun _ => .idle
  history : List RuleEvent := []

inductive RuleAction where
  | call (thread : Nat) (ruleId : UInt64)
  | go (thread : Nat) (clock : Clock)
  | insert (rule : HousekeepingRule)

namespace RuleMachine

/-- One thread goes on, with what it did to the core and what is recorded of it. -/
def move (m : RuleMachine) (thread : Nat) (next : RuleThread) (core : Core)
    (events : List RuleEvent) : RuleMachine where
  core := core
  threads := Function.update m.threads thread next
  history := m.history ++ events

/-- The next critical section of a thread. -/
def goThread (m : RuleMachine) (thread : Nat) (clock : Clock) : Option RuleMachine :=
  match m.threads thread with
  | .idle => none
  | .selecting ruleId =>
    match m.core.housekeepingTable.selectHousekeepingRule ruleId with
    | none => some (m.move thread .idle m.core [.returned thread ruleId (.returned .notFound)])
    | some rule =>
      if rule.enforced then
        some (m.move thread .idle m.core [.returned thread ruleId (.returned .enforced)])
      else some (m.move thread (.creating ruleId rule) m.core [])
  | .creating ruleId rule =>
    match m.core.employRule opt hash clock rule with
    | .ok (core, .returned .ok) =>
      some (m.move thread (.marking ruleId) core [.created thread ruleId rule])
    | .ok (core, completion) => some (m.move thread .idle core [.returned thread ruleId completion])
    | .error _ => none
  | .marking ruleId =>
    some (m.move thread .idle (m.core.markEnforced ruleId)
      [.returned thread ruleId (.returned .ok)])

def step (m : RuleMachine) : RuleAction → Option RuleMachine
  | .call thread ruleId =>
    if m.threads thread = .idle then
      some (m.move thread (.selecting ruleId) m.core [.called thread ruleId])
    else none
  | .go thread clock => m.goThread opt hash thread clock
  | .insert rule => some { m with core := (m.core.insertHousekeepingRule rule).1 }

def run (m : RuleMachine) : List RuleAction → Option RuleMachine
  | [] => some m
  | action :: rest => (m.step opt hash action).bind fun m' => m'.run rest

/-- The states that steps lead to. -/
abbrev Reaches : RuleMachine → RuleMachine → Prop :=
  Relation.ReflTransGen fun m m' => ∃ action, m.step opt hash action = some m'

variable {opt hash} {m m' : RuleMachine} {thread : Nat} {ruleId : UInt64} {rule : HousekeepingRule}

@[simp] theorem move_core (next : RuleThread) (core : Core) (events : List RuleEvent) :
    (m.move thread next core events).core = core := rfl

@[simp] theorem move_history (next : RuleThread) (core : Core) (events : List RuleEvent) :
    (m.move thread next core events).history = m.history ++ events := rfl

@[simp] theorem move_threads_self (m : RuleMachine) (thread : Nat) (next : RuleThread) (core : Core)
    (events : List RuleEvent) : (m.move thread next core events).threads thread = next :=
  Function.update_self _ _ _

theorem move_threads_ne {other : Nat} (h : other ≠ thread) (next : RuleThread) (core : Core)
    (events : List RuleEvent) :
    (m.move thread next core events).threads other = m.threads other :=
  Function.update_of_ne h _ _

/-- After a move a thread is where it went, or it is another one and where it was. -/
theorem threads_move_cases {other : Nat} {next state : RuleThread} {core : Core}
    {events : List RuleEvent} (h : (m.move thread next core events).threads other = state) :
    (other = thread ∧ next = state) ∨ (other ≠ thread ∧ m.threads other = state) := by
  rcases eq_or_ne other thread with rfl | hne
  · rw [move_threads_self] at h
    exact .inl ⟨rfl, h⟩
  · rw [move_threads_ne hne] at h
    exact .inr ⟨hne, h⟩

theorem reaches_of_run {actions : List RuleAction} (h : m.run opt hash actions = some m') :
    Reaches opt hash m m' := by
  induction actions generalizing m with
  | nil =>
    cases h
    exact .refl
  | cons action rest ih =>
    obtain ⟨m₁, hstep, hrest⟩ := Option.bind_eq_some_iff.mp h
    exact .head ⟨action, hstep⟩ (ih hrest)

variable (opt hash) in
theorem goThread_selecting (h : m.threads thread = .selecting ruleId) (clock : Clock) :
    m.goThread opt hash thread clock =
      match m.core.housekeepingTable.selectHousekeepingRule ruleId with
      | none => some (m.move thread .idle m.core [.returned thread ruleId (.returned .notFound)])
      | some rule =>
        if rule.enforced then
          some (m.move thread .idle m.core [.returned thread ruleId (.returned .enforced)])
        else some (m.move thread (.creating ruleId rule) m.core []) := by
  rw [goThread, h]

variable (opt hash) in
theorem goThread_creating (h : m.threads thread = .creating ruleId rule) (clock : Clock) :
    m.goThread opt hash thread clock =
      match m.core.employRule opt hash clock rule with
      | .ok (core, .returned .ok) =>
        some (m.move thread (.marking ruleId) core [.created thread ruleId rule])
      | .ok (core, completion) =>
        some (m.move thread .idle core [.returned thread ruleId completion])
      | .error _ => none := by
  rw [goThread, h]

variable (opt hash) in
theorem goThread_marking (h : m.threads thread = .marking ruleId) (clock : Clock) :
    m.goThread opt hash thread clock =
      some (m.move thread .idle (m.core.markEnforced ruleId)
        [.returned thread ruleId (.returned .ok)]) := by
  rw [goThread, h]

/-! ## One thread alone -/

variable (opt hash) in
/-- The thread can go on alone until its call returns, with this effect. -/
def Finishes (m : RuleMachine) (thread : Nat) (ruleId : UInt64) (core : Core)
    (completion : Completion) : Prop :=
  ∃ m', Reaches opt hash m m' ∧ m'.core = core ∧ m'.threads thread = .idle ∧
    .returned thread ruleId completion ∈ m'.history

theorem Finishes.head (action : RuleAction) {core : Core} {completion : Completion}
    (hstep : m.step opt hash action = some m')
    (h : m'.Finishes opt hash thread ruleId core completion) :
    m.Finishes opt hash thread ruleId core completion := by
  obtain ⟨m'', hreach, hrest⟩ := h
  exact ⟨m'', .head ⟨action, hstep⟩ hreach, hrest⟩

/-- A step that returns finishes the call. -/
theorem finishes_of_return (action : RuleAction) {core : Core} {completion : Completion}
    (hstep : m.step opt hash action =
      some (m.move thread .idle core [.returned thread ruleId completion])) :
    m.Finishes opt hash thread ruleId core completion :=
  ⟨_, .single ⟨action, hstep⟩, by simp, by simp, by simp⟩

theorem finishes_of_creating {clock : Clock} {core : Core} {completion : Completion}
    (hpc : m.threads thread = .creating ruleId rule)
    (he : m.core.employRule opt hash clock rule = .ok (core, completion)) :
    m.Finishes opt hash thread ruleId
      (if completion = .returned .ok then core.markEnforced ruleId else core) completion := by
  have hgo : m.step opt hash (.go thread clock) = _ := goThread_creating opt hash hpc clock
  rw [he] at hgo
  by_cases hok : completion = .returned .ok
  · subst hok
    rw [if_pos rfl]
    refine .head (.go thread clock) hgo (finishes_of_return (.go thread clock) ?_)
    exact goThread_marking opt hash (move_threads_self m thread _ _ _) clock
  · rw [if_neg hok]
    refine finishes_of_return (.go thread clock) (hgo.trans ?_)
    split
    · rename_i hcompletion
      cases hcompletion
      exact absurd rfl hok
    · rename_i hcompletion
      cases hcompletion
      rfl
    · rename_i hcompletion
      cases hcompletion

/-- A call whose critical sections follow one another does what the function does. -/
theorem execute_alone {clock : Clock} {core : Core} {completion : Completion}
    (h : m.core.executeHousekeepingRule opt hash clock ruleId = .ok (core, completion))
    (hidle : m.threads thread = .idle) : m.Finishes opt hash thread ruleId core completion := by
  refine .head (.call thread ruleId) (if_pos hidle) ?_
  have hgo : (m.move thread (.selecting ruleId) m.core [.called thread ruleId]).step opt hash
      (.go thread clock) = _ :=
    goThread_selecting opt hash (move_threads_self m thread _ _ _) clock
  rw [move_core] at hgo
  rw [Core.executeHousekeepingRule] at h
  cases hsel : m.core.housekeepingTable.selectHousekeepingRule ruleId with
  | none =>
    rw [hsel] at h hgo
    cases h
    exact finishes_of_return (.go thread clock) hgo
  | some rule =>
    rw [hsel] at h hgo
    cases henf : rule.enforced with
    | true =>
      simp only [henf, if_true] at h hgo
      cases h
      exact finishes_of_return (.go thread clock) hgo
    | false =>
      simp only [henf, Bool.false_eq_true, if_false] at h hgo
      refine .head (.go thread clock) hgo ?_
      split at h
      · rename_i core₁ he
        cases h
        exact finishes_of_creating (move_threads_self _ thread _ _ _) he
      · rename_i core₁ completion₁ hne he
        cases h
        have hok : completion ≠ .returned .ok := hne
        have hcore : core = if completion = .returned .ok then core.markEnforced ruleId else core :=
          (if_neg hok).symm
        rw [hcore]
        exact finishes_of_creating (move_threads_self _ thread _ _ _) he
      · cases h

/-! ## What a step can do -/

end RuleMachine

/-- Exactly one channel or exactly one object comes into existence. -/
inductive Core.Adds (core core' : Core) : Prop
  | channel {channelId : Int} {token : UInt32} {channel : ChannelDefault}
      (htoken : token ∉ core.channels)
      (hch : core'.channels = core.channels.insert token channel)
      (hl : core'.channelIdToTokenLinkers = core.channelIdToTokenLinkers ++ [(channelId, token)])
  | object {token : UInt32} {channel : ChannelDefault} {objectId : Int} {objectToken : UInt32}
      {object : EnforcementObject}
      (hsel : core.selectChannel token = some channel)
      (htoken : objectToken ∉ AssocList.keys channel.submissionQueue.enfObjects)
      (hch : core'.channels =
        core.channels.insert token (channel.addObject objectId objectToken object))
      (hl : core'.channelIdToTokenLinkers = core.channelIdToTokenLinkers)

/-- The channels and their objects are the same. -/
def Core.KeepsRegistry (core core' : Core) : Prop :=
  core'.channels = core.channels ∧
    core'.channelIdToTokenLinkers = core.channelIdToTokenLinkers

variable {opt hash}

theorem Core.adds_of_employRule {clock : Clock} {core core' : Core} {rule : HousekeepingRule}
    (h : core.employRule opt hash clock rule = .ok (core', .returned .ok)) :
    rule.Creates ∧ core.Adds core' := by
  obtain ⟨_, ht, hc, hcompl⟩ | ⟨_, ht, hc, hcompl⟩ | ⟨_, _, _, _, hcompl⟩ :=
    employRule_cases opt hash h
  · refine ⟨.inl ht, ?_⟩
    cases hcompl
    obtain ⟨htoken, _, heq⟩ | ⟨_, heq⟩ :=
      createChannel_cases opt hash clock core rule.channelId rule.channelTuple
    · rw [heq] at hc
      cases hc
      exact .channel htoken rfl rfl
    · rw [heq] at hc
      cases hc
  · refine ⟨.inr ht, ?_⟩
    cases hcompl
    obtain ⟨_, hst⟩ | ⟨token, channel, channel', _, _, hsel, hw, rfl⟩ := onChannel_cases hc
    · cases hst
    · obtain ⟨_, hne, _⟩ | ⟨_, _, _, _, hfree, _, rfl⟩ :=
        ChannelDefault.createEnforcementObject_cases hash hw
      · exact absurd rfl hne
      · exact .object hsel hfree rfl rfl
  · cases hcompl

/-- An operation that does not succeed leaves the core as it was, also when it throws. -/
theorem Core.employRule_failed {clock : Clock} {core core' : Core} {rule : HousekeepingRule}
    {completion : Completion}
    (h : core.employRule opt hash clock rule = .ok (core', completion))
    (hc : completion ≠ .returned .ok) : core' = core := by
  cases completion with
  | returned status => exact employRule_not_ok h fun hs => hc (by rw [hs])
  | threw what =>
    obtain ⟨_, _, _, hcompl⟩ | ⟨_, _, _, hcompl⟩ | ⟨_, _, _, rfl, _⟩ := employRule_cases opt hash h
    · cases hcompl
    · cases hcompl
    · rfl

namespace RuleMachine

variable {m m' : RuleMachine}

variable (opt hash) in
/-- The ways in which the machine can go on. -/
inductive Moves (m : RuleMachine) : RuleMachine → Prop
  | insert (rule : HousekeepingRule) :
      Moves m { m with core := (m.core.insertHousekeepingRule rule).1 }
  | call {thread : Nat} (ruleId : UInt64) (hpc : m.threads thread = .idle) :
      Moves m (m.move thread (.selecting ruleId) m.core [.called thread ruleId])
  | refuse {thread : Nat} {ruleId : UInt64} {completion : Completion}
      (hc : completion ≠ .returned .ok) :
      Moves m (m.move thread .idle m.core [.returned thread ruleId completion])
  | select {thread : Nat} {ruleId : UInt64} {rule : HousekeepingRule}
      (hpc : m.threads thread = .selecting ruleId)
      (hsel : m.core.housekeepingTable.selectHousekeepingRule ruleId = some rule)
      (henf : rule.enforced = false) : Moves m (m.move thread (.creating ruleId rule) m.core [])
  | create {thread : Nat} {ruleId : UInt64} {rule : HousekeepingRule} {clock : Clock} {core : Core}
      (hpc : m.threads thread = .creating ruleId rule)
      (he : m.core.employRule opt hash clock rule = .ok (core, .returned .ok)) :
      Moves m (m.move thread (.marking ruleId) core [.created thread ruleId rule])
  | mark {thread : Nat} {ruleId : UInt64} (hpc : m.threads thread = .marking ruleId) :
      Moves m (m.move thread .idle (m.core.markEnforced ruleId)
        [.returned thread ruleId (.returned .ok)])

theorem goThread_moves {thread : Nat} {clock : Clock}
    (h : m.goThread opt hash thread clock = some m') : Moves opt hash m m' := by
  cases hpc : m.threads thread with
  | idle =>
    rw [goThread, hpc] at h
    cases h
  | selecting ruleId =>
    rw [goThread_selecting opt hash hpc] at h
    split at h
    · cases h
      exact .refuse (by simp)
    · rename_i rule hsel
      split at h
      · cases h
        exact .refuse (by simp)
      · rename_i henf
        cases h
        exact .select hpc hsel (by simpa using henf)
  | creating ruleId rule =>
    rw [goThread_creating opt hash hpc] at h
    split at h
    · rename_i core he
      cases h
      exact .create hpc he
    · rename_i core completion hne he
      cases h
      rw [Core.employRule_failed he hne]
      exact .refuse hne
    · cases h
  | marking ruleId =>
    rw [goThread_marking opt hash hpc] at h
    cases h
    exact .mark hpc

theorem step_moves {action : RuleAction} (h : m.step opt hash action = some m') :
    Moves opt hash m m' := by
  cases action with
  | call thread ruleId =>
    simp only [step] at h
    split at h
    · rename_i hpc
      cases h
      exact .call ruleId hpc
    · cases h
  | go thread clock => exact goThread_moves h
  | insert rule =>
    cases h
    exact .insert rule

/-- The registry changes by creations only. -/
theorem Moves.registry (h : Moves opt hash m m') :
    m.core.KeepsRegistry m'.core ∨
      ∃ thread ruleId rule, m'.history = m.history ++ [.created thread ruleId rule] ∧
        m.core.Adds m'.core := by
  cases h with
  | insert rule => exact .inl ⟨rfl, rfl⟩
  | call ruleId hpc => exact .inl ⟨rfl, rfl⟩
  | refuse hc => exact .inl ⟨rfl, rfl⟩
  | select hpc hsel henf => exact .inl ⟨rfl, rfl⟩
  | create hpc he => exact .inr ⟨_, _, _, rfl, (Core.adds_of_employRule he).2⟩
  | mark hpc => exact .inl ⟨rfl, rfl⟩

end RuleMachine

/-! ## The table -/

namespace Core

/-- The rule is in the table under the identifier, whether it is enforced or not. -/
def HoldsRule (core : Core) (ruleId : UInt64) (rule : HousekeepingRule) : Prop :=
  ∃ current, core.housekeepingTable.housekeepingRules.lookup ruleId = some current ∧
    rule = { current with enforced := false }

/-- The rule under the identifier is enforced. -/
def EnforcedRule (core : Core) (ruleId : UInt64) : Prop :=
  ∃ current, core.housekeepingTable.housekeepingRules.lookup ruleId = some current ∧
    current.enforced = true

variable {core core' : Core} {ruleId id : UInt64} {rule rule' current : HousekeepingRule}

theorem HoldsRule.unique (h : core.HoldsRule ruleId rule) (h' : core.HoldsRule ruleId rule') :
    rule = rule' := by
  obtain ⟨current, hl, rfl⟩ := h
  obtain ⟨current', hl', rfl⟩ := h'
  rw [hl] at hl'
  cases hl'
  rfl

theorem holdsRule_of_pending
    (h : core.housekeepingTable.selectHousekeepingRule ruleId = some rule)
    (henf : rule.enforced = false) : core.HoldsRule ruleId rule := by
  refine ⟨rule, h, ?_⟩
  cases rule
  cases henf
  rfl

theorem lookup_insertHousekeepingRule
    (h : core.housekeepingTable.housekeepingRules.lookup id = some current)
    (rule : HousekeepingRule) :
    (core.insertHousekeepingRule rule).1.housekeepingTable.housekeepingRules.lookup id =
      some current := by
  rw [insertHousekeepingRule_eq]
  split
  · exact h
  · rename_i hnew
    refine (Finmap.lookup_insert_of_ne _ ?_).trans h
    rintro rfl
    exact hnew (Finmap.mem_of_lookup_eq_some h)

theorem HoldsRule.insertHousekeepingRule (h : core.HoldsRule id rule')
    (rule : HousekeepingRule) : (core.insertHousekeepingRule rule).1.HoldsRule id rule' := by
  obtain ⟨current, hl, rfl⟩ := h
  exact ⟨current, lookup_insertHousekeepingRule hl rule, rfl⟩

theorem HoldsRule.markEnforced (h : core.HoldsRule id rule) (ruleId : UInt64) :
    (core.markEnforced ruleId).HoldsRule id rule := by
  obtain ⟨current, hl, rfl⟩ := h
  refine ⟨_, lookup_markEnforced hl ruleId, ?_⟩
  split <;> rfl

theorem HoldsRule.enforced (h : core.HoldsRule ruleId rule) :
    (core.markEnforced ruleId).EnforcedRule ruleId := by
  obtain ⟨current, hl, rfl⟩ := h
  exact ⟨_, lookup_markEnforced hl ruleId, by rw [if_pos rfl]⟩

theorem EnforcedRule.insertHousekeepingRule (h : core.EnforcedRule id) (rule : HousekeepingRule) :
    (core.insertHousekeepingRule rule).1.EnforcedRule id := by
  obtain ⟨current, hl, henf⟩ := h
  exact ⟨current, lookup_insertHousekeepingRule hl rule, henf⟩

theorem EnforcedRule.markEnforced (h : core.EnforcedRule id) (ruleId : UInt64) :
    (core.markEnforced ruleId).EnforcedRule id := by
  obtain ⟨current, hl, henf⟩ := h
  refine ⟨_, lookup_markEnforced hl ruleId, ?_⟩
  split
  · rfl
  · exact henf

/-- A rule does not fit next to itself. -/
theorem Separate.irrefl {core₀ : Core} (htype : rule.Creates) :
    ¬ Separate opt hash core₀ rule rule := by
  intro h
  rcases htype with ht | ht
  · exact (h.channels ht ht).1 rfl
  · exact h.objects ht ht rfl rfl

end Core

namespace RuleMachine

/-! ## The invariant -/

variable (opt hash) in
/-- What holds between the threads, the table, the registry and what was recorded. -/
structure Invariant (core₀ : Core) (m : RuleMachine) : Prop where
  copies : ∀ thread ruleId rule, m.threads thread = .creating ruleId rule →
    m.core.HoldsRule ruleId rule
  creations : ∀ thread ruleId rule, .created thread ruleId rule ∈ m.history →
    m.core.HoldsRule ruleId rule
  built : Core.Built opt hash core₀ (fun r => ∃ thread ruleId, .created thread ruleId r ∈ m.history)
    m.core
  created_once : ∀ ruleId, m.history.countP (RuleEvent.isCreation ruleId) ≤ 1
  marking : ∀ thread ruleId, m.threads thread = .marking ruleId →
    (∃ rule, .created thread ruleId rule ∈ m.history) ∧
      m.history.countP (RuleEvent.isOk ruleId) = 0
  enforced : ∀ ruleId, 0 < m.history.countP (RuleEvent.isOk ruleId) →
    m.core.EnforcedRule ruleId ∧ 0 < m.history.countP (RuleEvent.isCreation ruleId)
  ok_once : ∀ ruleId, m.history.countP (RuleEvent.isOk ruleId) ≤ 1
  late : ∀ thread ruleId before after, m.history = before ++ .called thread ruleId :: after →
    (∀ e ∈ after, e.thread ≠ thread) → 0 < before.countP (RuleEvent.isOk ruleId) →
    m.threads thread = .selecting ruleId

variable {core₀ : Core} {m m' : RuleMachine} {thread : Nat} {ruleId : UInt64}
  {rule : HousekeepingRule} {e : RuleEvent} {next : RuleThread}

theorem eq_of_countP_le_one {p : RuleEvent → Bool} {l : List RuleEvent} (h : l.countP p ≤ 1)
    {a b : RuleEvent} (ha : a ∈ l) (hb : b ∈ l) (hpa : p a = true) (hpb : p b = true) : a = b := by
  rw [List.countP_eq_length_filter] at h
  have ha' := List.mem_filter.mpr ⟨ha, hpa⟩
  have hb' := List.mem_filter.mpr ⟨hb, hpb⟩
  generalize l.filter p = found at h ha' hb'
  rcases found with _ | ⟨c, _ | ⟨d, rest⟩⟩
  · cases ha'
  · rw [List.mem_singleton.mp ha', List.mem_singleton.mp hb']
  · simp at h

/-- Where a call can be in a history with one more event. -/
theorem split_concat {l before after : List RuleEvent} {c : RuleEvent}
    (h : l ++ [e] = before ++ c :: after) :
    e = c ∨ e ∈ after ∧ ∃ after', l = before ++ c :: after' ∧ ∀ x ∈ after', x ∈ after := by
  rcases List.eq_nil_or_concat after with rfl | ⟨after', x, rfl⟩
  · exact .inl (List.cons.inj (List.append_inj_right' h rfl)).1
  · rw [List.concat_eq_append, ← List.cons_append, ← List.append_assoc] at h
    obtain ⟨hl, hx⟩ := List.append_inj' h rfl
    obtain rfl : e = x := (List.cons.inj hx).1
    refine .inr ⟨by simp, after', hl, ?_⟩
    intro y hy
    simp [hy]

/-- One more event of a thread does not concern the calls of the others. -/
theorem Invariant.late_concat (h : Invariant opt hash core₀ m) (core : Core)
    (he : e.thread = thread) (hcall : ∀ id, e = .called thread id → next = .selecting id)
    (other : Nat) (id : UInt64) (before after : List RuleEvent)
    (hsplit : (m.move thread next core [e]).history = before ++ .called other id :: after)
    (hafter : ∀ x ∈ after, x.thread ≠ other)
    (hok : 0 < before.countP (RuleEvent.isOk id)) :
    (m.move thread next core [e]).threads other = .selecting id := by
  rcases split_concat hsplit with rfl | ⟨hmem, after', hl, hsub⟩
  · obtain rfl : other = thread := he
    rw [move_threads_self]
    exact hcall id rfl
  · have hne : other ≠ thread := fun heq => hafter e hmem (he.trans heq.symm)
    rw [move_threads_ne hne]
    exact h.late other id before after' hl (fun x hx => hafter x (hsub x hx)) hok

theorem mem_created_concat {other : Nat} {id : UInt64} {l : List RuleEvent}
    (he : ∀ id, e.isCreation id = false) :
    .created other id rule ∈ l ++ [e] ↔ .created other id rule ∈ l := by
  rw [List.mem_append, List.mem_singleton, or_iff_left]
  rintro rfl
  simpa [RuleEvent.isCreation] using he id

/-! ### Every step keeps it -/

theorem Invariant.insert (h : Invariant opt hash core₀ m) (rule : HousekeepingRule) :
    Invariant opt hash core₀ { m with core := (m.core.insertHousekeepingRule rule).1 } where
  copies := fun t id r hpc => (h.copies t id r hpc).insertHousekeepingRule rule
  creations := fun t id r hmem => (h.creations t id r hmem).insertHousekeepingRule rule
  built := h.built.keep rfl rfl rfl rfl
  created_once := h.created_once
  marking := h.marking
  enforced := fun id hok =>
    ⟨(h.enforced id hok).1.insertHousekeepingRule rule, (h.enforced id hok).2⟩
  ok_once := h.ok_once
  late := h.late

/-- A call starts, or returns without success. -/
theorem Invariant.quiet (h : Invariant opt hash core₀ m) (he : e.thread = thread)
    (hcreation : ∀ id, e.isCreation id = false) (hok : ∀ id, e.isOk id = false)
    (hcall : ∀ id, e = .called thread id → next = .selecting id)
    (hnext : next = .idle ∨ ∃ id, next = .selecting id) :
    Invariant opt hash core₀ (m.move thread next m.core [e]) where
  copies := by
    intro t id r hpc
    obtain ⟨_, hstate⟩ | ⟨_, hkept⟩ := threads_move_cases hpc
    · rcases hnext with rfl | ⟨_, rfl⟩ <;> cases hstate
    · exact h.copies t id r hkept
  creations := fun t id r hmem => h.creations t id r ((mem_created_concat hcreation).mp hmem)
  built := h.built.congr fun r => by simp only [move_history, mem_created_concat hcreation]
  created_once := by
    intro id
    simpa [hcreation] using h.created_once id
  marking := by
    intro t id hpc
    obtain ⟨_, hstate⟩ | ⟨_, hkept⟩ := threads_move_cases hpc
    · rcases hnext with rfl | ⟨_, rfl⟩ <;> cases hstate
    · simpa [hok, mem_created_concat hcreation] using h.marking t id hkept
  enforced := by
    intro id hcount
    simpa [hcreation] using h.enforced id (by simpa [hok] using hcount)
  ok_once := by
    intro id
    simpa [hok] using h.ok_once id
  late := h.late_concat m.core he hcall

/-- A copy of a pending rule is taken. A call that began after a success does not get here. -/
theorem Invariant.select (h : Invariant opt hash core₀ m)
    (hpc : m.threads thread = .selecting ruleId)
    (hsel : m.core.housekeepingTable.selectHousekeepingRule ruleId = some rule)
    (henf : rule.enforced = false) :
    Invariant opt hash core₀ (m.move thread (.creating ruleId rule) m.core []) where
  copies := by
    intro t id r hpc'
    obtain ⟨_, hstate⟩ | ⟨_, hkept⟩ := threads_move_cases hpc'
    · cases hstate
      exact Core.holdsRule_of_pending hsel henf
    · exact h.copies t id r hkept
  creations := by simpa using h.creations
  built := by simpa using h.built
  created_once := by simpa using h.created_once
  marking := by
    intro t id hpc'
    obtain ⟨_, hstate⟩ | ⟨_, hkept⟩ := threads_move_cases hpc'
    · cases hstate
    · simpa using h.marking t id hkept
  enforced := by simpa using h.enforced
  ok_once := by simpa using h.ok_once
  late := by
    intro t id before after hsplit hafter hok
    rw [move_history, List.append_nil] at hsplit
    have hselecting := h.late t id before after hsplit hafter hok
    rcases eq_or_ne t thread with rfl | hne
    · exfalso
      rw [hpc] at hselecting
      cases hselecting
      have hcount : 0 < m.history.countP (RuleEvent.isOk ruleId) := by
        rw [hsplit, List.countP_append]
        omega
      obtain ⟨current, hl, hcurrent⟩ := (h.enforced ruleId hcount).1
      rw [HousekeepingTable.selectHousekeepingRule, hl] at hsel
      cases hsel
      rw [henf] at hcurrent
      cases hcurrent
    · rw [move_threads_ne hne]
      exact hselecting

/-- A rule that can still be created was not created before. -/
theorem Invariant.countP_creation_eq_zero (hw₀ : core₀.WellLinked opt hash)
    (h : Invariant opt hash core₀ m) (hpc : m.threads thread = .creating ruleId rule)
    {clock : Clock} {core : Core}
    (he : m.core.employRule opt hash clock rule = .ok (core, .returned .ok)) :
    m.history.countP (RuleEvent.isCreation ruleId) = 0 := by
  obtain ⟨htype, _⟩ := Core.adds_of_employRule he
  obtain ⟨_, _, hseparate, _⟩ := h.built.fits_of_employRule hw₀ htype he
  rw [List.countP_eq_zero]
  intro e hmem hcreation
  cases e with
  | called t id => simp [RuleEvent.isCreation] at hcreation
  | returned t id c => simp [RuleEvent.isCreation] at hcreation
  | created t id r =>
    obtain rfl : id = ruleId := by simpa [RuleEvent.isCreation] using hcreation
    obtain rfl : r = rule := (h.creations t id r hmem).unique (h.copies thread id rule hpc)
    exact Core.Separate.irrefl htype (hseparate r ⟨t, id, hmem⟩)

theorem Invariant.create (hw₀ : core₀.WellLinked opt hash) (h : Invariant opt hash core₀ m)
    (hpc : m.threads thread = .creating ruleId rule) {clock : Clock} {core : Core}
    (he : m.core.employRule opt hash clock rule = .ok (core, .returned .ok)) :
    Invariant opt hash core₀
      (m.move thread (.marking ruleId) core [.created thread ruleId rule]) := by
  have hnone := h.countP_creation_eq_zero hw₀ hpc he
  have htable := Core.employRule_housekeepingTable he
  have hholds : ∀ {id r}, m.core.HoldsRule id r → core.HoldsRule id r := by
    intro id r hr
    rw [Core.HoldsRule, htable]
    exact hr
  have hok : ∀ id, (RuleEvent.created thread ruleId rule).isOk id = false := fun id => rfl
  refine ⟨?_, ?_, ?_, ?_, ?_, ?_, ?_, ?_⟩
  · intro t id r hpc'
    obtain ⟨_, hstate⟩ | ⟨_, hkept⟩ := threads_move_cases hpc'
    · cases hstate
    · exact hholds (h.copies t id r hkept)
  · intro t id r hmem
    rcases List.mem_append.mp hmem with hold | hnew
    · exact hholds (h.creations t id r hold)
    · cases List.mem_singleton.mp hnew
      exact hholds (h.copies thread ruleId rule hpc)
  · obtain ⟨_, _, _, hb⟩ :=
      h.built.fits_of_employRule hw₀ (Core.adds_of_employRule he).1 he
    refine hb.congr fun r => ?_
    simp only [move_history, List.mem_append, List.mem_singleton, RuleEvent.created.injEq]
    constructor
    · rintro (⟨t, id, hmem⟩ | rfl)
      · exact ⟨t, id, .inl hmem⟩
      · exact ⟨thread, ruleId, .inr ⟨rfl, rfl, rfl⟩⟩
    · rintro ⟨t, id, hmem | ⟨_, _, rfl⟩⟩
      · exact .inl ⟨t, id, hmem⟩
      · exact .inr rfl
  · intro id
    rw [move_history, List.countP_append]
    rcases eq_or_ne id ruleId with rfl | hne
    · simp [hnone, RuleEvent.isCreation]
    · simpa [RuleEvent.isCreation, hne.symm] using h.created_once id
  · intro t id hpc'
    obtain ⟨rfl, hstate⟩ | ⟨_, hkept⟩ := threads_move_cases hpc'
    · cases hstate
      refine ⟨⟨rule, by simp⟩, ?_⟩
      have hzero : m.history.countP (RuleEvent.isOk ruleId) = 0 := by
        by_contra hpos
        have hcreated := (h.enforced ruleId (Nat.pos_of_ne_zero hpos)).2
        omega
      simp [hzero, hok]
    · obtain ⟨⟨r, hmem⟩, hzero⟩ := h.marking t id hkept
      exact ⟨⟨r, by simp [hmem]⟩, by simp [hzero, hok]⟩
  · intro id hcount
    obtain ⟨⟨current, hl, henf⟩, hcreated⟩ := h.enforced id (by simpa [hok] using hcount)
    refine ⟨⟨current, by rw [move_core, htable]; exact hl, henf⟩, ?_⟩
    rw [move_history, List.countP_append]
    omega
  · intro id
    simpa [hok] using h.ok_once id
  · exact h.late_concat core rfl (by simp)

theorem Invariant.mark (h : Invariant opt hash core₀ m)
    (hpc : m.threads thread = .marking ruleId) :
    Invariant opt hash core₀ (m.move thread .idle (m.core.markEnforced ruleId)
      [.returned thread ruleId (.returned .ok)]) := by
  obtain ⟨⟨rule, hcreated⟩, hzero⟩ := h.marking thread ruleId hpc
  have hcreation : ∀ id, (RuleEvent.returned thread ruleId (.returned .ok)).isCreation id = false :=
    fun id => rfl
  have hother : ∀ id, id ≠ ruleId →
      (RuleEvent.returned thread ruleId (.returned .ok)).isOk id = false := by
    intro id hne
    simp [RuleEvent.isOk, hne.symm]
  refine ⟨?_, ?_, ?_, ?_, ?_, ?_, ?_, ?_⟩
  · intro t id r hpc'
    obtain ⟨_, hstate⟩ | ⟨_, hkept⟩ := threads_move_cases hpc'
    · cases hstate
    · exact (h.copies t id r hkept).markEnforced ruleId
  · intro t id r hmem
    exact (h.creations t id r ((mem_created_concat hcreation).mp hmem)).markEnforced ruleId
  · have hkept : Core.Built opt hash core₀ (fun r => ∃ t id, .created t id r ∈ m.history ++
        [.returned thread ruleId (.returned .ok)]) m.core :=
      h.built.congr fun r => by simp only [mem_created_concat hcreation]
    exact hkept.keep rfl rfl rfl rfl
  · intro id
    simpa [hcreation] using h.created_once id
  · intro t id hpc'
    obtain ⟨_, hstate⟩ | ⟨hne, hkept⟩ := threads_move_cases hpc'
    · cases hstate
    · obtain ⟨⟨r, hmem⟩, hzero'⟩ := h.marking t id hkept
      have hid : id ≠ ruleId := by
        -- two threads that mark the same rule would both have created it
        rintro rfl
        have hsame := eq_of_countP_le_one (h.created_once id) hmem hcreated
          (by simp [RuleEvent.isCreation]) (by simp [RuleEvent.isCreation])
        cases hsame
        exact hne rfl
      exact ⟨⟨r, by simp [hmem]⟩, by simp [hzero', hother id hid]⟩
  · intro id hcount
    rcases eq_or_ne id ruleId with rfl | hne
    · refine ⟨(h.creations thread id rule hcreated).enforced, ?_⟩
      rw [move_history, List.countP_append]
      have hpos : 0 < m.history.countP (RuleEvent.isCreation id) :=
        List.countP_pos_iff.mpr ⟨_, hcreated, by simp [RuleEvent.isCreation]⟩
      omega
    · obtain ⟨henf, hpos⟩ := h.enforced id (by simpa [hother id hne] using hcount)
      refine ⟨henf.markEnforced ruleId, ?_⟩
      rw [move_history, List.countP_append]
      omega
  · intro id
    rw [move_history, List.countP_append]
    rcases eq_or_ne id ruleId with rfl | hne
    · simp [hzero, RuleEvent.isOk]
    · simpa [hother id hne] using h.ok_once id
  · exact h.late_concat _ rfl (by simp)

theorem Invariant.moves (hw₀ : core₀.WellLinked opt hash) (h : Invariant opt hash core₀ m)
    (hmoves : Moves opt hash m m') : Invariant opt hash core₀ m' := by
  cases hmoves with
  | insert rule => exact h.insert rule
  | call ruleId hpc =>
    refine h.quiet rfl (fun _ => rfl) (fun _ => rfl) ?_ (.inr ⟨ruleId, rfl⟩)
    intro id hcall
    cases hcall
    rfl
  | refuse hc =>
    refine h.quiet rfl (fun _ => rfl) ?_ (by simp) (.inl rfl)
    intro id
    simp [RuleEvent.isOk, hc]
  | select hpc hsel henf => exact h.select hpc hsel henf
  | create hpc he => exact h.create hw₀ hpc he
  | mark hpc => exact h.mark hpc

theorem invariant_start (hw₀ : core₀.WellLinked opt hash) :
    Invariant opt hash core₀ { core := core₀ } where
  copies := by simp
  creations := by simp
  built := (Core.built_start hw₀).congr (by simp)
  created_once := by simp
  marking := by simp
  enforced := by simp
  ok_once := by simp
  late := by simp

theorem Reaches.invariant (hw₀ : core₀.WellLinked opt hash)
    (h : Reaches opt hash { core := core₀ } m) : Invariant opt hash core₀ m := by
  induction h with
  | refl => exact invariant_start hw₀
  | tail _ hstep ih =>
    obtain ⟨action, haction⟩ := hstep
    exact ih.moves hw₀ (step_moves haction)

/-- In every interleaving, each rule creates at most one channel or object and at most one call on
it comes back with success; the registry changes by these creations only; and a call that starts
after such a success can only return `Enforced`, and changes nothing. -/
theorem executed_at_most_once (hreach : core₀.Reachable opt hash)
    (h : Reaches opt hash { core := core₀ } m) :
    (∀ ruleId, m.history.countP (RuleEvent.isCreation ruleId) ≤ 1) ∧
    (∀ ruleId, m.history.countP (RuleEvent.isOk ruleId) ≤ 1) ∧
    (∀ action m', m.step opt hash action = some m' →
      m.core.KeepsRegistry m'.core ∨
        ∃ thread ruleId rule, m'.history = m.history ++ [.created thread ruleId rule] ∧
          m.core.Adds m'.core) ∧
    (∀ thread ruleId before after,
      m.history = before ++ .called thread ruleId :: after →
      (∀ e ∈ after, e.thread ≠ thread) → (∃ e ∈ before, e.isOk ruleId = true) →
      ∀ clock, m.step opt hash (.go thread clock) =
        some (m.move thread .idle m.core [.returned thread ruleId (.returned .enforced)])) := by
  have hinv := h.invariant hreach.wellLinked
  refine ⟨hinv.created_once, hinv.ok_once, fun action m' hstep => (step_moves hstep).registry, ?_⟩
  intro thread ruleId before after hsplit hafter hok clock
  have hpos : 0 < before.countP (RuleEvent.isOk ruleId) := List.countP_pos_iff.mpr hok
  have hpc := hinv.late thread ruleId before after hsplit hafter hpos
  have hcount : 0 < m.history.countP (RuleEvent.isOk ruleId) := by
    rw [hsplit, List.countP_append]
    omega
  obtain ⟨current, hl, henf⟩ := (hinv.enforced ruleId hcount).1
  have hgo := goThread_selecting opt hash hpc clock
  rw [HousekeepingTable.selectHousekeepingRule, hl] at hgo
  simp only [henf, if_true] at hgo
  exact hgo

/-- Two threads hold a copy of the same pending rule; a third call starts after one returned. -/
def racingActions : List RuleAction :=
  [.insert Agent.channelRule, .call 0 1, .call 1 1, .go 0 (fun _ => 0), .go 1 (fun _ => 0),
    .go 1 (fun _ => 0), .go 0 (fun _ => 0), .go 1 (fun _ => 0), .call 2 1]

theorem executed_at_most_once_racing :
    ∃ m, ({ core := Core.new {} } : RuleMachine).run {} numeralHash racingActions = some m ∧
      m.history.countP (RuleEvent.isCreation 1) ≤ 1 ∧ m.history.countP (RuleEvent.isOk 1) ≤ 1 ∧
      m.step {} numeralHash (.go 2 (fun _ => 0)) =
        some (m.move 2 .idle m.core [.returned 2 1 (.returned .enforced)]) := by
  have hhistory : (({ core := Core.new {} } : RuleMachine).run {} numeralHash racingActions).map
      RuleMachine.history = some
        [.called 0 1, .called 1 1, .created 1 1 Agent.channelRule,
          .returned 0 1 (.returned .error), .returned 1 1 (.returned .ok), .called 2 1] := by
    decide
  obtain ⟨m, hrun, hm⟩ := Option.map_eq_some_iff.mp hhistory
  obtain ⟨hcreated, hok, _, hlate⟩ := executed_at_most_once .new (reaches_of_run hrun)
  have hsplit : m.history = [.called 0 1, .called 1 1, .created 1 1 Agent.channelRule,
      .returned 0 1 (.returned .error), .returned 1 1 (.returned .ok)] ++ .called 2 1 :: [] := hm
  refine ⟨m, hrun, hcreated 1, hok 1, hlate 2 1 _ [] hsplit (by simp) ?_ (fun _ => 0)⟩
  exact ⟨.returned 1 1 (.returned .ok), by simp, by decide⟩

end RuleMachine

end Paio
