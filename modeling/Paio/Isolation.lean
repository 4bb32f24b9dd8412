import Paio.Core
import Paio.Library.CallSequence

/-!
# Paio.Isolation

Channels do not disturb each other. With the channels created and the classifiers fixed, a stage
only sees requests and enforcement rules; each of them reaches at most one channel. What a channel
answers and the state it ends in depend on the calls that reach it and on nothing else: the calls
for other channels can be left out of the run.
-/

namespace Paio

variable (opt : Options) (hash : String → UInt32)

/-- A request or an enforcement rule, with what it reads: a request reads the clock. -/
inductive Call where
  | request (clock : Clock) (fuel : Nat) (context : Context) (buffer : Buffer) (size : Nat)
      (result : Result)
  | rule (channelId objectId : Int) (ruleType : Int) (configurations : List Int)

inductive Reply where
  | result (r : Result)
  | status (s : PStatus)
  deriving DecidableEq, Repr

namespace Core

def call (core : Core) : Call → Except Fault (Core × Reply)
  | .request clock fuel context buffer size result =>
    match core.enforceRequest opt hash clock fuel context buffer size result with
    | .ok (core', result') => .ok (core', .result result')
    | .error f => .error f
  | .rule channelId objectId ruleType configurations =>
    match core.employEnforcementRule channelId objectId ruleType configurations with
    | .ok (core', status) => .ok (core', .status status)
    | .error f => .error f

/-- The call is routed, as a request, or addressed, as a rule, to the channel under the token. -/
def reaches (core : Core) (token : UInt32) : Call → Bool
  | .request _ _ context _ _ _ =>
    core.channelDiffBuilder.buildDifferentiationToken hash context.channelTuple = token
  | .rule channelId _ _ _ => core.channelIdToTokenLinkers.lookup channelId = some token

/-- The cores route alike and hold the same channel under the token. -/
structure AgreeOn (token : UInt32) (core core₂ : Core) : Prop where
  builder : core₂.channelDiffBuilder = core.channelDiffBuilder
  linkers : core₂.channelIdToTokenLinkers = core.channelIdToTokenLinkers
  channel : core₂.selectChannel token = core.selectChannel token

theorem selectChannel_setChannel_self (core : Core) (token : UInt32) (channel : ChannelDefault) :
    (core.setChannel token channel).selectChannel token = some channel :=
  Finmap.lookup_insert _

theorem selectChannel_setChannel_ne {token token' : UInt32} (h : token' ≠ token) (core : Core)
    (channel : ChannelDefault) :
    (core.setChannel token channel).selectChannel token' = core.selectChannel token' :=
  Finmap.lookup_insert_of_ne _ h

variable {opt hash}

/-- A call leaves the routing alone, and the channels it does not reach. -/
theorem AgreeOn.call_other {token : UInt32} {core core' core₂ : Core} {c : Call} {reply : Reply}
    (hreach : core.reaches hash token c = false) (h : AgreeOn token core core₂)
    (hc : core.call opt hash c = .ok (core', reply)) : AgreeOn token core' core₂ := by
  cases c with
  | request clock fuel context buffer size result =>
    simp only [call] at hc
    split at hc
    · rename_i core₁ result' he
      cases hc
      obtain ⟨_, rfl, _⟩ | ⟨channel, channel', hsel, hw, rfl⟩ := enforceRequest_cases opt hash he
      · exact h
      · simp only [reaches, decide_eq_false_iff_not] at hreach
        refine ⟨h.builder, h.linkers, ?_⟩
        rw [selectChannel_setChannel_ne (Ne.symm hreach)]
        exact h.channel
    · cases hc
  | rule channelId objectId ruleType configurations =>
    simp only [call] at hc
    split at hc
    · rename_i core₁ status he
      cases hc
      obtain ⟨rfl, _⟩ | ⟨token', channel, channel', hl, _, hsel, hw, rfl⟩ := onChannel_cases he
      · exact h
      · simp only [reaches, hl, decide_eq_false_iff_not, Option.some.injEq] at hreach
        refine ⟨h.builder, h.linkers, ?_⟩
        rw [selectChannel_setChannel_ne (Ne.symm hreach)]
        exact h.channel
    · cases hc

/-- A call that reaches the channel does the same to it in both cores, with the same reply. -/
theorem AgreeOn.call_reached {token : UInt32} {core core' core₂ : Core} {c : Call} {reply : Reply}
    (hreach : core.reaches hash token c = true) (h : AgreeOn token core core₂)
    (hc : core.call opt hash c = .ok (core', reply)) :
    ∃ core₂', core₂.call opt hash c = .ok (core₂', reply) ∧ AgreeOn token core' core₂' := by
  have hset : ∀ channel : ChannelDefault,
      AgreeOn token (core.setChannel token channel) (core₂.setChannel token channel) :=
    fun channel => ⟨h.builder, h.linkers, by simp only [selectChannel_setChannel_self]⟩
  cases c with
  | request clock fuel context buffer size result =>
    simp only [reaches, decide_eq_true_eq] at hreach
    simp only [call, enforceRequest, h.builder, hreach, h.channel] at hc ⊢
    cases hsel : core.selectChannel token with
    | none =>
      simp only [hsel, Except.ok.injEq, Prod.mk.injEq] at hc
      obtain ⟨rfl, rfl⟩ := hc
      exact ⟨core₂, rfl, h⟩
    | some channel =>
      simp only [hsel] at hc ⊢
      cases hw : channel.channelEnforce opt hash clock fuel context buffer size result with
      | error f => simp [hw] at hc
      | ok out =>
        simp only [hw, Except.ok.injEq, Prod.mk.injEq] at hc
        obtain ⟨rfl, rfl⟩ := hc
        exact ⟨_, rfl, hset out.1⟩
  | rule channelId objectId ruleType configurations =>
    simp only [reaches, decide_eq_true_eq] at hreach
    simp only [call, employEnforcementRule, onChannel, getChannelDiffToken, h.linkers, hreach,
      Option.getD_some, h.channel] at hc ⊢
    by_cases htoken : token = noToken
    · simp only [if_pos htoken, Except.ok.injEq, Prod.mk.injEq] at hc ⊢
      obtain ⟨rfl, rfl⟩ := hc
      exact ⟨core₂, ⟨rfl, rfl⟩, h⟩
    · simp only [if_neg htoken] at hc ⊢
      cases hsel : core.selectChannel token with
      | none =>
        simp only [hsel, Except.ok.injEq, Prod.mk.injEq] at hc
        obtain ⟨rfl, rfl⟩ := hc
        exact ⟨core₂, rfl, h⟩
      | some channel =>
        simp only [hsel] at hc ⊢
        cases hw : channel.configureEnforcementObject objectId ruleType configurations with
        | error f => simp [hw] at hc
        | ok out =>
          simp only [hw, Except.ok.injEq, Prod.mk.injEq] at hc
          obtain ⟨rfl, rfl⟩ := hc
          exact ⟨_, rfl, hset out.1⟩

/-- The routing of a core is what a run of calls never changes. -/
structure SameRouting (core₀ core : Core) : Prop where
  builder : core.channelDiffBuilder = core₀.channelDiffBuilder
  linkers : core.channelIdToTokenLinkers = core₀.channelIdToTokenLinkers

theorem SameRouting.reaches_eq {core₀ core : Core} (h : SameRouting core₀ core) (token : UInt32)
    (c : Call) : core.reaches hash token c = core₀.reaches hash token c := by
  cases c <;> simp only [reaches, h.builder, h.linkers]

theorem SameRouting.call {core₀ core core' : Core} {c : Call} {reply : Reply}
    (h : SameRouting core₀ core) (hc : core.call opt hash c = .ok (core', reply)) :
    SameRouting core₀ core' := by
  cases c with
  | request clock fuel context buffer size result =>
    simp only [Core.call] at hc
    split at hc
    · rename_i core₁ result' he
      cases hc
      obtain ⟨_, rfl, _⟩ | ⟨channel, channel', _, _, rfl⟩ := enforceRequest_cases opt hash he
      · exact h
      · exact ⟨h.builder, h.linkers⟩
    · cases hc
  | rule channelId objectId ruleType configurations =>
    simp only [Core.call] at hc
    split at hc
    · rename_i core₁ status he
      cases hc
      obtain ⟨rfl, _⟩ | ⟨token', channel, channel', _, _, _, _, rfl⟩ := onChannel_cases he
      · exact h
      · exact ⟨h.builder, h.linkers⟩
    · cases hc

/-- For every channel, a run of calls that all come back leaves the channel in the same state, and
gives the calls that reach it the same replies, as the run of these calls alone. -/
theorem run_isolated {core core' : Core} {calls : List Call} {replies : List Reply}
    (h : CallSequence.run (call opt hash) core calls = .ok (core', replies)) (token : UInt32) :
    ∃ alone, CallSequence.run (call opt hash) core (calls.filter (core.reaches hash token)) =
        .ok (alone, CallSequence.repliesTo (core.reaches hash token) calls replies) ∧
      alone.selectChannel token = core'.selectChannel token := by
  obtain ⟨alone, hrun, hagree, _⟩ := CallSequence.run_filter (core.reaches hash token)
    (fun s t => AgreeOn token s t ∧ SameRouting core s)
    (fun hr hR hs => ⟨hR.1.call_other ((hR.2.reaches_eq token _).trans hr) hs, hR.2.call hs⟩)
    (fun hr hR hs => by
      obtain ⟨t', ht, hR'⟩ := hR.1.call_reached ((hR.2.reaches_eq token _).trans hr) hs
      exact ⟨t', ht, hR', hR.2.call hs⟩)
    ⟨⟨rfl, rfl, rfl⟩, ⟨rfl, rfl⟩⟩ h
  exact ⟨alone, hrun, hagree.channel⟩

/-- Two channels told apart by their workflow: the second is not disturbed by two requests and a
rule for the first. -/
theorem run_isolated_two :
    let opt : Options :=
      { channelDifferentiationWorkflow := true, channelDifferentiationOperationContext := false }
    let core := Core.newWith opt numeralHash 2 true true fun _ _ => 0
    let request := fun workflowId =>
      Call.request (fun _ => 0) 5 { workflowId := workflowId, totalOperations := 1 } none 0 {}
    let calls := [request 1, request 2, .rule 1 0 1 [1000, 10], request 1]
    ∃ core' replies, CallSequence.run (call opt numeralHash) core calls = .ok (core', replies) ∧
      ∃ alone, CallSequence.run (call opt numeralHash) core
          (calls.filter (core.reaches numeralHash 2)) =
          .ok (alone, CallSequence.repliesTo (core.reaches numeralHash 2) calls replies) ∧
        alone.selectChannel 2 = core'.selectChannel 2 := by
  intro opt core request calls
  have hok : (CallSequence.run (call opt numeralHash) core calls).isOk = true := by decide
  cases h : CallSequence.run (call opt numeralHash) core calls with
  | error f => rw [h] at hok; cases hok
  | ok out => exact ⟨out.1, out.2, rfl, run_isolated h 2⟩

end Core

end Paio
