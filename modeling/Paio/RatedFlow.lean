import Paio.ChannelFrames
import Paio.LimiterLife
import Paio.Routing
import Paio.StageRequests

/-!
# Paio.RatedFlow

What a rate limiter guarantees at the stage. The requests of a flow are those that the classifiers
lead to one limiter in one channel. Between them the application sends requests of other flows, and
the control plane creates channels and objects, collects statistics, and configures this limiter and
others; none of it but the configurations of this limiter touches its tokens.

`FlowLife.rate_le`: whatever happens in between, what a flow is charged in a window is bounded as
the tokens of its limiter are, and so is the payload that it gets through the stage in all that time.
-/

namespace Paio

variable {opt : Options} {hash : String → UInt32}

open TokenAccount TunedAccount
open DynamicRateLimiter.Timed (Limits Within ledger tuned fillsAt run_enforced run_tuned)

/-! ## What a request pays -/

namespace Session

variable {clock : Clock} {s s' : Session} {x left chunk : ℚ} {fuel : Nat}

/-- All that was subtracted. -/
def paid (s : Session) : ℚ := (s.consumed.map Prod.snd).sum

theorem tryRefill_consumed : (s.tryRefill clock).2.consumed = s.consumed := by
  simp only [tryRefill, isTimeToRefill, refillOperation]
  split
  · split <;> rfl
  · rfl

theorem awaitRefill_consumed (h : s.awaitRefill clock = .ok s') : s'.consumed = s.consumed := by
  simp only [awaitRefill] at h
  split at h
  · split at h
    · cases h
      rfl
    · cases h
  · cases h
    rfl

theorem consumeOperation_paid (h : s.consumeOperation clock fuel x = .returned s') :
    s'.paid = x + s.paid := by
  induction fuel generalizing s with
  | zero => cases h
  | succ fuel ih =>
    have hrefill : (s.tryRefill clock).2.paid = s.paid := by
      rw [paid, tryRefill_consumed, paid]
    simp only [consumeOperation] at h
    split at h
    · split at h
      · split at h
        · rename_i s'' hawait
          rw [ih h, paid, awaitRefill_consumed hawait]
          exact congrArg (x + ·) hrefill
        · cases h
      · rw [ih h, hrefill]
    · cases h
      rfl

/-- The pieces of a large request add up to it. -/
theorem consumeChunks_paid (hleft : 0 ≤ left) (hchunk : chunk ≤ left)
    (hcap : chunk ≤ s.bucket.capacity)
    (h : s.consumeChunks clock fuel left chunk = .returned s') : s'.paid = left + s.paid := by
  induction fuel generalizing left chunk s with
  | zero => cases h
  | succ fuel ih =>
    simp only [consumeChunks] at h
    split at h
    · split at h
      · cases h
      · rename_i s₁ hs₁
        have hpaid := consumeOperation_paid hs₁
        have hshape := consumeOperation_sameShape clock fuel chunk s
        rw [hs₁] at hshape
        have hcap₁ : chunk ≤ s₁.bucket.capacity := hcap.trans_eq hshape.capacity.symm
        have hrest : 0 ≤ left - chunk := sub_nonneg.mpr hchunk
        split at h
        · rename_i hlast
          rw [ih hrest (le_refl _) hlast.le h, hpaid]
          ring
        · rename_i hmore
          rw [ih hrest (hcap₁.trans (not_lt.mp hmore)) hcap₁ h, hpaid]
          ring
    · rename_i hdone
      cases h
      rw [le_antisymm (not_lt.mp hdone) hleft, zero_add]

/-- A request that comes back has paid what it asked for. -/
theorem tryConsume_paid (hx : 0 ≤ x) (h : s.tryConsume clock fuel x = .returned s') :
    s'.paid = x + s.paid := by
  simp only [tryConsume] at h
  split at h
  · rename_i hlarge
    exact consumeChunks_paid hx hlarge.le (le_refl _) h
  · exact consumeOperation_paid h

end Session

/-! ## Configurations -/

namespace DynamicRateLimiter

/-- The configuration that values stand for. -/
def configurationOf (conf : Int) (confValues : List Int) : Option Call :=
  match DRLConfiguration.ofInt conf, confValues with
  | some .init, refillPeriod :: rate :: _ => some (.init refillPeriod rate)
  | some .rate, rateValue :: _ => some (.rate rateValue)
  | some .refill, window :: _ => some (.refill window)
  | _, _ => none

/-- What becomes of a limiter by a configuration, or by values that stand for none. -/
def TunedBy (d : DynamicRateLimiter) : Option Call → DynamicRateLimiter → Prop
  | some c, d' => d' = tuned d c
  | none, d' => d' = d ∨ d' = d.updateTokenBucketRate

theorem objConfigure_tunedBy {d d' : DynamicRateLimiter} {conf : Int} {confValues : List Int}
    {status : PStatus} (h : d.objConfigure conf confValues = .ok (d', status)) :
    d.TunedBy (configurationOf conf confValues) d' := by
  simp only [objConfigure] at h
  split at h <;> rename_i hconf
  case h_4 =>
    cases h
    simp only [configurationOf, hconf]
    exact .inr rfl
  all_goals
    split at h
    · cases h
      simp only [configurationOf, hconf]
      rfl
    · cases h

theorem costPerRequest_tuned (d : DynamicRateLimiter) (c : Call) :
    (tuned d c).costPerRequest = d.costPerRequest := by
  cases c <;> rfl

end DynamicRateLimiter

/-! ## The limiter of a flow -/

/-- The requests of one limiter, by the token of its channel and its own token in it. -/
structure Flow where
  token : UInt32
  objectToken : UInt32

namespace ChannelDefault

variable {ch ch' : ChannelDefault} {objectToken : UInt32} {d : DynamicRateLimiter}

def limiterAt (ch : ChannelDefault) (objectToken : UInt32) : Option DynamicRateLimiter :=
  match ch.submissionQueue.selectEnforcementObject objectToken with
  | some (.drl d) => some d
  | some (.noop _) | none => none

theorem limiterAt_eq_some : ch.limiterAt objectToken = some d ↔
    ch.submissionQueue.selectEnforcementObject objectToken = some (.drl d) := by
  simp only [limiterAt]
  cases ch.submissionQueue.selectEnforcementObject objectToken with
  | none => simp
  | some object => cases object <;> simp

/-- Every object is there as it was. -/
def ObjectsRemain (ch ch' : ChannelDefault) : Prop :=
  ∀ token object, ch.submissionQueue.selectEnforcementObject token = some object →
    ch'.submissionQueue.selectEnforcementObject token = some object

theorem ObjectsRemain.frame : Frame ObjectsRemain where
  refl _ := fun _ _ hsel => hsel
  trans h h' := fun token object hsel => h' token object (h token object hsel)
  add ch objectId token object hfree := by
    intro token' object' hsel
    have hne : token' ≠ token := by
      rintro rfl
      exact hfree (AssocList.exists_lookup_iff_mem.mp ⟨_, hsel⟩)
    exact (AssocList.lookup_append_singleton_ne hne _ _).trans hsel

theorem Collected.objectsRemain (h : Collected ch ch') : ObjectsRemain ch ch' := by
  cases h with
  | general h =>
    simp only [collectGeneralStatistics] at h
    repeat' split at h
    all_goals cases h
    all_goals exact fun _ _ hsel => hsel
  | detailed h =>
    simp only [collectDetailedStatistics] at h
    repeat' split at h
    all_goals cases h
    all_goals exact fun _ _ hsel => hsel

theorem limiterAt_replace_self {d' : DynamicRateLimiter}
    (htoken : objectToken ∈ AssocList.keys ch.submissionQueue.enfObjects)
    (hobjects : ch'.submissionQueue.enfObjects =
      AssocList.replaceFirst objectToken (.drl d') ch.submissionQueue.enfObjects) :
    ch'.limiterAt objectToken = some d' := by
  rw [limiterAt_eq_some, SubmissionQueue.selectEnforcementObject, hobjects]
  exact AssocList.lookup_replaceFirst_self _ htoken

theorem limiterAt_replace_ne {token : UInt32} {object' : EnforcementObject}
    (hne : objectToken ≠ token)
    (hobjects : ch'.submissionQueue.enfObjects =
      AssocList.replaceFirst token object' ch.submissionQueue.enfObjects) :
    ch'.limiterAt objectToken = ch.limiterAt objectToken := by
  simp only [limiterAt, SubmissionQueue.selectEnforcementObject, hobjects,
    AssocList.lookup_replaceFirst_ne hne]

/-- The token under which the object for a request is looked up. -/
def tokenOf (hash : String → UInt32) (ch : ChannelDefault) (context : Context) : UInt32 :=
  ch.submissionQueue.buildObjectToken hash context.objectPair

/-- A request is consumed by the limiter that its classifiers lead to, and leaves the others. -/
theorem channelEnforce_limiter {clock : Clock} {fuel : Nat} {context : Context} {buffer : Buffer}
    {size : Nat} {result result' : Result} (hd : ch.limiterAt objectToken = some d)
    (h : ch.channelEnforce opt hash clock fuel context buffer size result = .ok (ch', result')) :
    if ch.tokenOf hash context = objectToken then
      ∃ s, d.consume clock fuel 0 (ch.buildTicket context buffer size).1 = .returned s ∧
        ch'.limiterAt objectToken = some { d with bucket := s.bucket }
    else ch'.limiterAt objectToken = some d := by
  obtain ⟨q, result'', stats, hq, rfl⟩ := channelEnforce_cases opt hash h
  simp only [SubmissionQueue.enforceMechanism, buildTicket_objectPair] at hq
  split at hq
  · rename_i object hsel
    split at hq
    · rename_i object' r ho
      cases hq
      have hkey : ch.tokenOf hash context ∈
          AssocList.keys ch.submissionQueue.enfObjects :=
        AssocList.exists_lookup_iff_mem.mp ⟨_, hsel⟩
      split
      · rename_i htoken
        subst htoken
        obtain rfl : object = .drl d := Option.some.inj (hsel.symm.trans (limiterAt_eq_some.mp hd))
        simp only [EnforcementObject.objEnforce, DynamicRateLimiter.objEnforce] at ho
        cases hc : d.consume clock fuel 0 (ch.buildTicket context buffer size).1 with
        | stopped f s => simp [hc] at ho
        | returned s =>
          simp only [hc] at ho
          cases ho
          exact ⟨s, rfl, limiterAt_replace_self hkey rfl⟩
      · rename_i htoken
        exact (limiterAt_replace_ne (Ne.symm htoken) rfl).trans hd
    · cases hq
  · rename_i hsel
    cases hq
    split
    · rename_i htoken
      subst htoken
      cases hsel.symm.trans (limiterAt_eq_some.mp hd)
    · exact hd

/-- The configuration of a limiter that a call of `configure_enforcement_object` makes. -/
def configuredBy (ch : ChannelDefault) (objectToken : UInt32) (objectId config : Int)
    (configurations : List Int) : Option DynamicRateLimiter.Call :=
  if ch.getEnforcementObjectDiffToken objectId = objectToken ∧ objectToken ≠ noToken then
    DynamicRateLimiter.configurationOf config configurations
  else none

/-- A configuration reaches the limiter that its identifier is linked to. -/
theorem configureEnforcementObject_limiter {objectId config : Int} {configurations : List Int}
    {status : PStatus} (hd : ch.limiterAt objectToken = some d)
    (h : ch.configureEnforcementObject objectId config configurations = .ok (ch', status)) :
    ∃ d', ch'.limiterAt objectToken = some d' ∧
      d.TunedBy (ch.configuredBy objectToken objectId config configurations) d' := by
  simp only [configureEnforcementObject] at h
  rw [configuredBy]
  split at h
  · rename_i hnone
    cases h
    rw [if_neg fun hlinked => hlinked.2 (hlinked.1 ▸ hnone)]
    exact ⟨d, hd, .inl rfl⟩
  · rename_i hsome
    split at h
    · rename_i q status' hq
      cases h
      simp only [SubmissionQueue.configureEnforcementObject] at hq
      by_cases htoken : ch.getEnforcementObjectDiffToken objectId = objectToken
      · subst htoken
        simp only [limiterAt_eq_some.mp hd, EnforcementObject.objConfigure] at hq
        rw [if_pos ⟨rfl, hsome⟩]
        have hkey : ch.getEnforcementObjectDiffToken objectId ∈
            AssocList.keys ch.submissionQueue.enfObjects :=
          AssocList.exists_lookup_iff_mem.mp ⟨_, limiterAt_eq_some.mp hd⟩
        cases hconfigured : d.objConfigure config configurations with
        | error f =>
          rw [hconfigured] at hq
          cases hq
        | ok configured =>
          rw [hconfigured] at hq
          cases hq
          exact ⟨configured.1, limiterAt_replace_self hkey rfl,
            DynamicRateLimiter.objConfigure_tunedBy hconfigured⟩
      · rw [if_neg fun hlinked => htoken hlinked.1]
        refine ⟨d, ?_, .inl rfl⟩
        split at hq
        · cases hq
          exact hd
        · split at hq
          · cases hq
            exact (limiterAt_replace_ne (Ne.symm htoken) rfl).trans hd
          · cases hq
    · cases h

end ChannelDefault

/-! ## Flows of a stage -/

namespace Stage

/-- The limiter of a flow. -/
def limiterOf (stage : Stage) (flow : Flow) : Option DynamicRateLimiter :=
  (stage.agent.core.selectChannel flow.token).bind (·.limiterAt flow.objectToken)

/-- The channel is that of the flow, and the classifiers of the request lead to its limiter. -/
def LeadsTo (hash : String → UInt32) (flow : Flow) (context : Context) (stage : Stage)
    (channel : ChannelDefault) : Prop :=
  stage.agent.core.channelToken hash context.channelTuple = flow.token ∧
    channel.tokenOf hash context = flow.objectToken

instance (flow : Flow) (context : Context) (stage : Stage) (channel : ChannelDefault) :
    Decidable (LeadsTo hash flow context stage channel) :=
  inferInstanceAs (Decidable (_ ∧ _))

variable (hash) in
/-- The ticket with which a request is charged on the limiter of a flow, and the calls of the bucket
for it. A request that does not lead to the limiter is not charged. -/
def chargedOn (flow : Flow) (clock : Clock) (fuel : Nat) (stage : Stage) (context : Context)
    (buffer : Buffer) (size : Nat) : Option (Ticket × Session) :=
  match stage.agent.core.selectChannel flow.token, stage.limiterOf flow with
  | some channel, some d =>
    if stage.ready = true ∧ LeadsTo hash flow context stage channel then
      let ticket := (channel.buildTicket context buffer size).1
      some (ticket, (d.consume clock fuel 0 ticket).session)
    else none
  | _, _ => none

/-- The configuration of the limiter of a flow that an enforcement rule makes. -/
def configuredBy (flow : Flow) (stage : Stage) (rule : EnforcementRule) :
    Option DynamicRateLimiter.Call :=
  match stage.agent.core.selectChannel flow.token with
  | some channel =>
    if stage.agent.core.getChannelDiffToken rule.channelId = flow.token ∧
        flow.token ≠ noToken then
      channel.configuredBy flow.objectToken rule.enforcementObjectId rule.operationType
        rule.configurations
    else none
  | none => none

variable {stage stage' : Stage} {flow : Flow} {channel channel' : ChannelDefault}
  {d : DynamicRateLimiter}

theorem limiterOf_eq_some : stage.limiterOf flow = some d ↔
    ∃ channel, stage.agent.core.selectChannel flow.token = some channel ∧
      channel.limiterAt flow.objectToken = some d :=
  Option.bind_eq_some_iff

theorem limiterOf_of_select (hsel : stage.agent.core.selectChannel flow.token = some channel) :
    stage.limiterOf flow = channel.limiterAt flow.objectToken := by
  rw [limiterOf, hsel, Option.bind_some]

theorem chargedOn_eq (hsel : stage.agent.core.selectChannel flow.token = some channel)
    (hd : channel.limiterAt flow.objectToken = some d) (clock : Clock) (fuel : Nat)
    (context : Context) (buffer : Buffer) (size : Nat) :
    stage.chargedOn hash flow clock fuel context buffer size =
      if stage.ready = true ∧ LeadsTo hash flow context stage channel then
        some ((channel.buildTicket context buffer size).1,
          (d.consume clock fuel 0 (channel.buildTicket context buffer size).1).session)
      else none := by
  rw [chargedOn, limiterOf_of_select hsel, hsel, hd]

/-- Another channel is written. -/
theorem limiterOf_setChannel_ne {token : UInt32} (hne : flow.token ≠ token)
    (hcore : stage'.agent.core = stage.agent.core.setChannel token channel) :
    stage'.limiterOf flow = stage.limiterOf flow := by
  rw [limiterOf, limiterOf, hcore, Core.selectChannel_setChannel_ne hne]

/-- The channel of the flow is written. -/
theorem limiterOf_setChannel_self
    (hcore : stage'.agent.core = stage.agent.core.setChannel flow.token channel) :
    stage'.limiterOf flow = channel.limiterAt flow.objectToken := by
  rw [limiterOf, hcore, Core.selectChannel_setChannel_self, Option.bind_some]

/-- Objects that remain are the limiters that they were. -/
theorem limiterOf_of_keeps (hd : stage.limiterOf flow = some d)
    (hkeeps : stage.agent.core.KeepsChannels ChannelDefault.ObjectsRemain stage'.agent.core) :
    stage'.limiterOf flow = some d := by
  obtain ⟨channel, hsel, hd⟩ := limiterOf_eq_some.mp hd
  obtain ⟨channel', hsel', hremain⟩ := hkeeps.channels flow.token channel hsel
  refine limiterOf_eq_some.mpr ⟨channel', hsel', ?_⟩
  rw [ChannelDefault.limiterAt_eq_some] at hd ⊢
  exact hremain flow.objectToken _ hd

/-- An enforcement rule makes the configuration that it stands for, and leaves the limiters of other
flows. -/
theorem limiterOf_employ {rule : EnforcementRule} {status : PStatus} {core : Core}
    (hd : stage.limiterOf flow = some d) (he : stage.agent.core.employ rule = .ok (core, status))
    (hcore : stage'.agent.core = core) :
    ∃ d', stage'.limiterOf flow = some d' ∧ d.TunedBy (stage.configuredBy flow rule) d' := by
  obtain ⟨channel, hsel, hlimiter⟩ := limiterOf_eq_some.mp hd
  simp only [configuredBy, hsel]
  simp only [Core.employ, Core.employEnforcementRule, Core.onChannel] at he
  split at he
  · rename_i hnone
    cases he
    rw [if_neg fun hlinked => hlinked.2 (hlinked.1 ▸ hnone)]
    refine ⟨d, ?_, .inl rfl⟩
    rw [limiterOf, hcore]
    exact hd
  · rename_i hsome
    by_cases htoken : stage.agent.core.getChannelDiffToken rule.channelId = flow.token
    · rw [htoken] at he hsome
      simp only [hsel] at he
      rw [if_pos ⟨htoken, hsome⟩]
      split at he
      · rename_i channel' status' hconfigured
        cases he
        rw [limiterOf_setChannel_self hcore]
        exact ChannelDefault.configureEnforcementObject_limiter hlimiter hconfigured
      · cases he
    · rw [if_neg fun hlinked => htoken hlinked.1]
      refine ⟨d, ?_, .inl rfl⟩
      split at he
      · split at he
        · cases he
          exact (limiterOf_setChannel_ne (Ne.symm htoken) hcore).trans hd
        · cases he
      · cases he
        rw [limiterOf, hcore]
        exact hd

end Stage

/-- The books of a flow: the instant they have got to, what its limiter was charged and when, when
it was filled, and the payload of the requests that came back. -/
structure FlowRecord where
  now : Int
  charged : List (Int × ℚ) := []
  fills : List Int := []
  payload : Int := 0

namespace FlowRecord

/-- A request is charged at the readings of its clock. -/
def charge (clock : Clock) (record : FlowRecord) : Option (Ticket × Session) → FlowRecord
  | some (ticket, s) =>
    { record with
      now := clock s.instant
      charged := s.consumed.map (fun e => (clock e.1, e.2)) ++ record.charged
      payload := record.payload + ticket.payload }
  | none => record

def configure (record : FlowRecord) : Option DynamicRateLimiter.Call → FlowRecord
  | some c => { record with fills := fillsAt record.now c ++ record.fills }
  | none => record

end FlowRecord

/-- Requests of the application and control operations that come back, in any order, with the books
of a flow. Time does not go back, and the requests and the configurations of the flow are within the
limits; nothing is asked of those of other flows. -/
inductive FlowLife (opt : Options) (hash : String → UInt32) (limits : Limits) (flow : Flow)
    (stage₀ : Stage) (t₀ : Int) : Stage → FlowRecord → Prop
  | start : FlowLife opt hash limits flow stage₀ t₀ stage₀ { now := t₀ }
  | request {stage stage' : Stage} {record : FlowRecord} {clock : Clock} {fuel : Nat}
      {context : Context} {buffer : Buffer} {size : Nat} {result result' : Result}
      {status : PStatus} (h : FlowLife opt hash limits flow stage₀ t₀ stage record)
      (hclock : Monotone clock) (hnow : record.now ≤ clock 0)
      (hpayload : ∀ charged ∈ stage.chargedOn hash flow clock fuel context buffer size,
        0 ≤ charged.1.payload)
      (he : stage.enforceRequest opt hash clock fuel context buffer size result =
        .ok (stage', status, result')) :
      FlowLife opt hash limits flow stage₀ t₀ stage'
        (record.charge clock (stage.chargedOn hash flow clock fuel context buffer size))
  | handled {stage : Stage} {record : FlowRecord} {env : Environment}
      {operation : ControlOperation} {received : List UInt8} {handled : Handled}
      (h : FlowLife opt hash limits flow stage₀ t₀ stage record)
      (hallow : ∀ c ∈ (Southbound.enforcementRuleOf operation received).bind
        (stage.configuredBy flow), limits.Allow c)
      (hh : Southbound.handleControlOperation opt hash env operation received stage = .ok handled) :
      FlowLife opt hash limits flow stage₀ t₀ handled.stage
        (record.configure ((Southbound.enforcementRuleOf operation received).bind
          (stage.configuredBy flow)))
  | pass {stage : Stage} {record : FlowRecord} {t : Int}
      (h : FlowLife opt hash limits flow stage₀ t₀ stage record) (ht : record.now ≤ t) :
      FlowLife opt hash limits flow stage₀ t₀ stage { record with now := t }

/-- The limiter of the flow as a tuned account, run by what it was charged and how it was filled;
what it was charged is what the requests have cost. -/
structure Rated (limits : Limits) (flow : Flow) (d₀ : DynamicRateLimiter) (t₀ : Int) (stage : Stage)
    (record : FlowRecord) (d : DynamicRateLimiter) : Prop where
  limiter : stage.limiterOf flow = some d
  within : Within limits d
  cost : d.costPerRequest = d₀.costPerRequest
  run : TunedAccount.Run limits.maxCapacity limits.minPeriod (ledger d₀ t₀ [] [])
    (ledger d record.now record.charged record.fills)
  charged : (record.charged.map Prod.snd).sum =
    ((d₀.costPerRequest.toNat * record.payload : Int) : ℚ)

namespace Rated

variable {limits : Limits} {flow : Flow} {d₀ d : DynamicRateLimiter} {t₀ : Int}
  {stage stage' : Stage} {record : FlowRecord}

theorem start (hd : stage.limiterOf flow = some d₀) (hw : Within limits d₀) :
    Rated limits flow d₀ t₀ stage { now := t₀ } d₀ where
  limiter := hd
  within := hw
  cost := rfl
  run := .refl
  charged := by simp

/-- What leaves the limiter alone leaves the books alone. -/
theorem congr (h : Rated limits flow d₀ t₀ stage record d)
    (hlimiter : stage'.limiterOf flow = some d) : Rated limits flow d₀ t₀ stage' record d :=
  ⟨hlimiter, h.within, h.cost, h.run, h.charged⟩

theorem pass (h : Rated limits flow d₀ t₀ stage record d) {t : Int} (ht : record.now ≤ t) :
    Rated limits flow d₀ t₀ stage { record with now := t } d :=
  ⟨h.limiter, h.within, h.cost, h.run.tail (.pass ht), h.charged⟩

/-- A request that is charged on the limiter. -/
theorem charge (h : Rated limits flow d₀ t₀ stage record d) {clock : Clock} {fuel : Nat}
    {ticket : Ticket} {s : Session} (hclock : Monotone clock) (hnow : record.now ≤ clock 0)
    (hpayload : 0 ≤ ticket.payload) (hs : d.consume clock fuel 0 ticket = .returned s)
    (hlimiter : stage'.limiterOf flow = some { d with bucket := s.bucket }) :
    Rated limits flow d₀ t₀ stage' (record.charge clock (some (ticket, s)))
      { d with bucket := s.bucket } := by
  have hsession : (d.consume clock fuel 0 ticket).session = s := by rw [hs]; rfl
  obtain ⟨hrun, hwithin⟩ :=
    run_enforced hclock h.within hpayload fuel 0 record.charged record.fills hsession
  have hpaid : s.paid = d.basicIoCost ticket := by
    have hpaid := Session.tryConsume_paid (d.basicIoCost_nonneg hpayload) hs
    simpa [Session.paid] using hpaid
  refine ⟨hlimiter, hwithin, h.cost, (h.run.tail (.pass hnow)).trans hrun, ?_⟩
  have hconsumed : (s.consumed.map Prod.snd).sum = d.basicIoCost ticket := hpaid
  have hmap : (s.consumed.map fun e => (clock e.1, e.2)).map Prod.snd =
      s.consumed.map Prod.snd := by
    rw [List.map_map]
    rfl
  simp only [FlowRecord.charge, List.map_append, List.sum_append, hmap, hconsumed, h.charged]
  rw [DynamicRateLimiter.basicIoCost, h.cost]
  push_cast
  ring

/-- What a configuration within the limits makes of the limiter; values that stand for none leave
the bucket as it is. -/
theorem configure (h : Rated limits flow d₀ t₀ stage record d) (hpos : 0 < limits.minPeriod)
    {c : Option DynamicRateLimiter.Call} {d' : DynamicRateLimiter}
    (hallow : ∀ call ∈ c, limits.Allow call) (htuned : d.TunedBy c d')
    (hlimiter : stage'.limiterOf flow = some d') :
    Rated limits flow d₀ t₀ stage' (record.configure c) d' := by
  cases c with
  | some call =>
    obtain rfl : d' = tuned d call := htuned
    exact {
      limiter := hlimiter
      within := h.within.tuned hpos (hallow call rfl)
      cost := (DynamicRateLimiter.costPerRequest_tuned d call).trans h.cost
      run := h.run.trans (run_tuned h.within hpos (hallow call rfl) record.now record.charged
        record.fills)
      charged := h.charged }
  | none =>
    obtain rfl | rfl := htuned
    · exact h.congr hlimiter
    · obtain ⟨rate, hconsistent, hrate⟩ := h.within.consistent
      exact {
        limiter := hlimiter
        within := ⟨⟨rate, hconsistent.updateTokenBucketRate, hrate⟩, h.within.minPeriod_le,
          h.within.le_maxPeriod⟩
        cost := h.cost
        run := h.run
        charged := h.charged }

/-- A request that comes back. -/
theorem request (h : Rated limits flow d₀ t₀ stage record d) {clock : Clock} {fuel : Nat}
    {context : Context} {buffer : Buffer} {size : Nat} {result result' : Result}
    {status : PStatus} (hclock : Monotone clock) (hnow : record.now ≤ clock 0)
    (hpayload : ∀ charged ∈ stage.chargedOn hash flow clock fuel context buffer size,
      0 ≤ charged.1.payload)
    (he : stage.enforceRequest opt hash clock fuel context buffer size result =
      .ok (stage', status, result')) :
    ∃ d', Rated limits flow d₀ t₀ stage'
      (record.charge clock (stage.chargedOn hash flow clock fuel context buffer size)) d' := by
  obtain ⟨channel, hsel, hlimiter⟩ := Stage.limiterOf_eq_some.mp h.limiter
  rw [Stage.chargedOn_eq hsel hlimiter] at hpayload ⊢
  unfold Stage.enforceRequest at he
  split at he
  · rename_i hready
    split at he
    · rename_i core result'' hcore
      cases he
      obtain ⟨hnone, rfl, _⟩ | ⟨other, other', hother, hw, rfl⟩ :=
        Core.enforceRequest_cases opt hash hcore
      · -- no channel, and nothing is charged
        rw [if_neg]
        · exact ⟨d, h⟩
        · rintro ⟨_, htoken, _⟩
          rw [← htoken, Core.channelToken, hnone] at hsel
          cases hsel
      · by_cases htoken : flow.token = stage.agent.core.channelToken hash context.channelTuple
        · rw [Core.channelToken] at htoken
          rw [← htoken] at hother
          cases hsel.symm.trans hother
          rw [← htoken]
          have hserved := ChannelDefault.channelEnforce_limiter hlimiter hw
          split at hserved
          · rename_i hleads
            obtain ⟨s, hs, hlimiter'⟩ := hserved
            have hcharged : stage.ready = true ∧
                Stage.LeadsTo hash flow context stage channel := ⟨hready, htoken.symm, hleads⟩
            rw [if_pos hcharged, hs] at hpayload ⊢
            refine ⟨_, h.charge hclock hnow (hpayload _ rfl) hs ?_⟩
            exact Eq.trans (Stage.limiterOf_setChannel_self rfl) hlimiter'
          · rename_i hleads
            rw [if_neg fun hcharged => hleads hcharged.2.2]
            exact ⟨d, h.congr (Eq.trans (Stage.limiterOf_setChannel_self rfl) hserved)⟩
        · rw [if_neg fun hcharged => htoken hcharged.2.1.symm]
          exact ⟨d, h.congr (Eq.trans (Stage.limiterOf_setChannel_ne htoken rfl) h.limiter)⟩
    · cases he
  · rename_i hready
    cases he
    rw [if_neg fun hcharged => hready hcharged.1]
    exact ⟨d, h⟩

/-- A control operation that is handled. -/
theorem handled (h : Rated limits flow d₀ t₀ stage record d) (hpos : 0 < limits.minPeriod)
    {env : Environment} {operation : ControlOperation} {received : List UInt8}
    {handled : Handled}
    (hallow : ∀ c ∈ (Southbound.enforcementRuleOf operation received).bind
      (stage.configuredBy flow), limits.Allow c)
    (hh : Southbound.handleControlOperation opt hash env operation received stage = .ok handled) :
    ∃ d', Rated limits flow d₀ t₀ handled.stage
      (record.configure ((Southbound.enforcementRuleOf operation received).bind
        (stage.configuredBy flow))) d' := by
  obtain ⟨hnone, hkeeps⟩ | ⟨rule, status, hrule, he⟩ := Southbound.handleControlOperation_cases
    ChannelDefault.ObjectsRemain.frame (fun _ _ => ChannelDefault.Collected.objectsRemain) hh
  · rw [hnone]
    exact ⟨d, h.congr (Stage.limiterOf_of_keeps h.limiter hkeeps)⟩
  · rw [hrule, Option.bind_some] at hallow ⊢
    obtain ⟨d', hlimiter, htuned⟩ := Stage.limiterOf_employ h.limiter he rfl
    exact ⟨d', h.configure hpos hallow htuned hlimiter⟩

end Rated

namespace FlowLife

variable {limits : Limits} {flow : Flow} {d₀ : DynamicRateLimiter} {t₀ : Int}
  {stage₀ stage : Stage} {record : FlowRecord}

theorem rated (hd : stage₀.limiterOf flow = some d₀) (hw : Within limits d₀)
    (hpos : 0 < limits.minPeriod) (h : FlowLife opt hash limits flow stage₀ t₀ stage record) :
    ∃ d, Rated limits flow d₀ t₀ stage record d := by
  induction h with
  | start => exact ⟨d₀, .start hd hw⟩
  | request _ hclock hnow hpayload he ih =>
    obtain ⟨d, hrated⟩ := ih
    exact hrated.request hclock hnow hpayload he
  | handled _ hallow hh ih =>
    obtain ⟨d, hrated⟩ := ih
    exact hrated.handled hpos hallow hh
  | pass _ ht ih =>
    obtain ⟨d, hrated⟩ := ih
    exact ⟨d, hrated.pass ht⟩

/-- While requests and control operations go through a stage, a flow is charged in a window of
length `T` no more than `T / P₁ + 2` times the tokens of the longest period at the highest rate, and
once more for each `init` and `refill` of its limiter in the window; and the payload that it gets
through in all that time costs no more than the time allows. -/
theorem rate_le (hd : stage₀.limiterOf flow = some d₀) (hw : Within limits d₀)
    (hpos : 0 < limits.minPeriod)
    (h : FlowLife opt hash limits flow stage₀ t₀ stage record) :
    (∀ start T : Int, 0 ≤ T → spentIn start (start + T) record.charged ≤
      limits.maxCapacity * ((T / limits.minPeriod : Int) + 2 +
        fillsIn start (start + T) record.fills)) ∧
    ((d₀.costPerRequest.toNat * record.payload : Int) : ℚ) ≤
      limits.maxCapacity * (((record.now - t₀) / limits.minPeriod : Int) + 2 +
        record.fills.length) := by
  obtain ⟨d, hrated⟩ := h.rated hd hw hpos
  obtain ⟨rate, hconsistent, _⟩ := hw.consistent
  have hcapacity : 0 ≤ limits.maxCapacity :=
    hconsistent.capacity_nonneg.trans (DynamicRateLimiter.Timed.capacity_le hw)
  have hbalance : d₀.bucket.tokens ≤ limits.maxCapacity :=
    hconsistent.tokens_le.trans (DynamicRateLimiter.Timed.capacity_le hw)
  refine ⟨fun start T hT => ?_, ?_⟩
  · have hbound := Run.spentIn_le start hcapacity hpos hT hbalance rfl hrated.run
    exact hbound
  · have hbound := Run.total_le hcapacity hpos hbalance rfl hrated.run
    rw [← hrated.charged]
    exact hbound

end FlowLife

namespace Stage

/-- Channels by the workflow, objects by the operation type. -/
def flowOptions : Options :=
  { Core.workflowOptions with objectDifferentiationOperationType := true }

/-- A limiter of 1000 tokens a second in a channel, refilled every 0.1 s. -/
def addLimiter (core : Core) (channelId : Int) : Core :=
  match core.createEnforcementObject numeralHash (fun _ => 0) channelId 7 { operationType := 2 }
      (some .drl) [100000, 1000] with
  | .ok (core', _) => core'
  | .error _ => core

/-- Two channels with a limiter in each. -/
def limitedCore : Core :=
  [1, 2].foldl addLimiter (Core.newWith flowOptions numeralHash 2 true false fun _ _ => 0)

def limitedStage : Stage where
  agent := { core := limitedCore }
  ready := true

/-- A request of a workflow to its limiter. -/
def limited (workflow : Int) (size : UInt64) : Context :=
  { workflowId := workflow, operationType := 2, operationSize := size, totalOperations := 1 }

def requestLimiter (stage : Stage) (clock : Clock) (workflow : Int) (size : UInt64) :
    Except Fault (Stage × PStatus × Result) :=
  stage.enforceRequest flowOptions numeralHash clock 100 (limited workflow size) none 0 {}

/-- A configuration of the limiter in the first channel. -/
def tuneLimiter (stage : Stage) (operation : DRLConfiguration) (value : Int) :
    Except Break Handled :=
  Southbound.handleControlOperation flowOptions numeralHash {}
    { operationType := 6, size := 56 }
    (EnforcementRuleRaw.layout.encode
      { channelId := 1, enforcementObjectId := 7, enforcementOperation := operation.toInt,
        propertyFirst := value })
    stage

def afterRequest (stage : Stage) (clock : Clock) (workflow : Int) (size : UInt64) : Stage :=
  match stage.requestLimiter clock workflow size with
  | .ok (stage', _, _) => stage'
  | .error _ => stage

def afterTune (stage : Stage) (operation : DRLConfiguration) (value : Int) : Stage :=
  match stage.tuneLimiter operation value with
  | .ok handled => handled.stage
  | .error _ => stage

theorem requestLimiter_ok (stage : Stage) (clock : Clock) (workflow : Int) (size : UInt64)
    (hok : (stage.requestLimiter clock workflow size).isOk = true) :
    ∃ status result, stage.enforceRequest flowOptions numeralHash clock 100
      (limited workflow size) none 0 {} =
        .ok (stage.afterRequest clock workflow size, status, result) := by
  cases hrequest : stage.requestLimiter clock workflow size with
  | ok out =>
    refine ⟨out.2.1, out.2.2, ?_⟩
    rw [afterRequest, hrequest]
    exact hrequest
  | error f =>
    rw [hrequest] at hok
    cases hok

theorem tuneLimiter_ok (stage : Stage) (operation : DRLConfiguration) (value : Int)
    (hok : (stage.tuneLimiter operation value).isOk = true) :
    ∃ handled, stage.tuneLimiter operation value = .ok handled ∧
      handled.stage = stage.afterTune operation value := by
  cases htune : stage.tuneLimiter operation value with
  | ok handled =>
    refine ⟨handled, rfl, ?_⟩
    rw [afterTune, htune]
  | error f =>
    rw [htune] at hok
    cases hok

end Stage

namespace FlowLife

open Stage

def paced : Clock := fun k => 50000 * k

theorem paced_monotone : Monotone paced := by
  intro j k hjk
  simp only [paced]
  omega

/-- A request in two pieces, and one of the other workflow. -/
def bothServed : Stage :=
  (limitedStage.afterRequest paced 1 160).afterRequest (fun _ => 1100000) 2 70

/-- A lower rate, and a shorter period. -/
def afterTuning : Stage := (bothServed.afterTune .rate 500).afterTune .refill 50000

/-- Another request after that. -/
theorem rate_le_two_flows :
    let limits : Limits := { maxRate := 1000, minPeriod := 50000, maxPeriod := 100000 }
    ∃ stage record,
      FlowLife flowOptions numeralHash limits ⟨1, 2⟩ limitedStage 0 stage record ∧
      record.charged.map Prod.snd = [20, 60, 100] ∧ record.fills = [1100000] ∧
      (∀ start T : Int, 0 ≤ T → spentIn start (start + T) record.charged ≤
        limits.maxCapacity * ((T / limits.minPeriod : Int) + 2 +
          fillsIn start (start + T) record.fills)) ∧
      ((1 * record.payload : Int) : ℚ) ≤
        limits.maxCapacity * (((record.now - 0) / limits.minPeriod : Int) + 2 +
          record.fills.length) := by
  intro limits
  obtain ⟨_, _, he₁⟩ := requestLimiter_ok limitedStage paced 1 160 (by decide +kernel)
  have h₁ := (@FlowLife.start flowOptions numeralHash limits ⟨1, 2⟩ limitedStage 0).request
    paced_monotone (by decide) (by decide +kernel) he₁
  obtain ⟨_, _, he₂⟩ := requestLimiter_ok (limitedStage.afterRequest paced 1 160)
    (fun _ => 1100000) 2 70 (by decide +kernel)
  have h₂ := h₁.request monotone_const (by decide +kernel) (by decide +kernel) he₂
  obtain ⟨_, hh₃, hstage₃⟩ := tuneLimiter_ok bothServed .rate 500 (by decide +kernel)
  have h₃ := h₂.handled (by decide +kernel) hh₃
  rw [hstage₃] at h₃
  obtain ⟨_, hh₄, hstage₄⟩ := tuneLimiter_ok (bothServed.afterTune .rate 500) .refill 50000
    (by decide +kernel)
  have h₄ := h₃.handled (by decide +kernel) hh₄
  rw [hstage₄] at h₄
  obtain ⟨_, _, he₅⟩ := requestLimiter_ok afterTuning (fun _ => 1200000) 1 20 (by decide +kernel)
  have h₅ := h₄.request monotone_const (by decide +kernel) (by decide +kernel) he₅
  obtain ⟨d₀, hd, hcost, hw⟩ : ∃ d₀, limitedStage.limiterOf ⟨1, 2⟩ = some d₀ ∧
      d₀.costPerRequest.toNat = 1 ∧ Within limits d₀ := by
    refine ⟨_, rfl, by decide +kernel, ⟨1000, ?_, by decide⟩, by decide +kernel, by decide +kernel⟩
    exact ⟨by decide, by decide +kernel, by decide +kernel, by decide +kernel, by decide +kernel⟩
  obtain ⟨hwindow, htotal⟩ := rate_le hd hw (by decide) h₅
  rw [hcost] at htotal
  exact ⟨_, _, h₅, by decide +kernel, by decide +kernel, hwindow, htotal⟩

end FlowLife

end Paio
