import Paio.ControlSession
import Paio.RulesFile
import Paio.StageRules

/-!
# Paio.FrontEnds

A stage is set up in one of two ways. Without a controller the constructor of its agent reads two
files: lines are cut into tokens, keywords are looked up by their hashes, numbers are converted from
decimal. With a controller the same rules come as structures over the socket.

`controllerless_eq_session` says that the two agree: the constructor leaves the agent that a session
leaves in which the rules of channels are sent, then those of objects, then, if the last of them
went well, that the stage is ready and the rules of its rate limiters.
-/

namespace Paio

open RulesParser Southbound StageCommand StructLayout

/-! ## Rules of both kinds -/

inductive StageRule where
  | channel (r : ChannelRule)
  | object (r : ObjectRule)

namespace StageRule

def tokens : StageRule → List Text
  | .channel r => r.tokens
  | .object r => r.tokens

def rule : StageRule → HousekeepingRule
  | .channel r => r.rule
  | .object r => r.rule

def command : StageRule → StageCommand
  | .channel r => .createChannel r.raw
  | .object r => .createObject r.raw

def isChannel : StageRule → Bool
  | .channel _ => true
  | .object _ => false

/-- The rules of a file in the order in which they are employed: those of channels before those of
objects, and of both as many as are wanted. -/
def employed (n : Int) (rules : List StageRule) : List StageRule :=
  (rules.filter isChannel).take (limit n).toNat ++
    (rules.filter fun r => !r.isChannel).take (limit n).toNat

theorem printable_tokens (r : StageRule) : Printable r.tokens := by
  cases r with
  | channel r => exact r.printable_tokens
  | object r => exact r.printable_tokens

theorem command_fits (r : StageRule) : r.command.Fits := by
  cases r with
  | channel r => exact r.raw_fits
  | object r => exact r.raw_fits

theorem converts_tokens (r : StageRule) :
    createChannelRule r.tokens = .ok (if r.isChannel then some r.rule else none) ∧
      createObjectRule r.tokens = .ok (if r.isChannel then none else some r.rule) := by
  cases r with
  | channel r => exact ⟨r.createChannelRule_tokens, r.createObjectRule_tokens⟩
  | object r => exact ⟨r.createChannelRule_tokens, r.createObjectRule_tokens⟩

/-- A converter that makes rules of some lines only takes the rules of these lines. -/
theorem rulesOf_tokens {convert : List Text → Except ParseFault (Option HousekeepingRule)}
    (wanted : StageRule → Bool)
    (hconvert : ∀ r, convert (tokens r) = .ok (if wanted r then some r.rule else none))
    (rules : List StageRule) :
    rulesOf convert (rules.map tokens) = (rules.filter wanted).map rule := by
  induction rules with
  | nil => rfl
  | cons r rest ih =>
    rw [List.map_cons, rulesOf, List.filterMap_cons, hconvert, List.filter_cons]
    rw [rulesOf] at ih
    cases wanted r with
    | true => simp [ih]
    | false => simp [ih]

/-- The rules that are parsed from a file with the lines of some rules. -/
theorem fileRules_printRules {files : Text → Option Text} {path : Text} {n : Int}
    {rules : List StageRule} (hpath : path ≠ [])
    (hfile : files path = some (printRules (rules.map tokens))) (hn : 0 < limit n) :
    Agent.fileRules files path n = .ok ((employed n rules).map rule) := by
  have hread : readRulesFromFile (files path) = rules.map tokens := by
    rw [hfile]
    refine readRulesFromFile_printRules fun stagedRule hstaged => ?_
    obtain ⟨r, _, rfl⟩ := List.mem_map.mp hstaged
    exact r.printable_tokens
  have hget : ∀ {convert : List Text → Except ParseFault (Option HousekeepingRule)}
      {wanted : StageRule → Bool},
      (∀ r, convert (tokens r) = .ok (if wanted r then some r.rule else none)) →
      collectRules convert (limit n) 0 (rules.map tokens) =
        .ok (((rules.filter wanted).take (limit n).toNat).map rule) := by
    intro convert wanted hconvert
    rw [collectRules_eq_take, rulesOf_tokens wanted hconvert, if_pos hn, Int.sub_zero,
      List.map_take]
    intro l hl
    obtain ⟨r, _, rfl⟩ := List.mem_map.mp hl
    exact ⟨_, hconvert r⟩
  have hchannels := hget fun r => r.converts_tokens.1
  have hobjects := @hget createObjectRule (fun r => !r.isChannel) fun r => by
    rw [r.converts_tokens.2]
    cases r.isChannel <;> rfl
  rw [Agent.fileRules, if_neg hpath]
  simp only [hread, getCreateChannelRules, getCreateObjectRules, hchannels, hobjects, employed,
    List.map_append]

end StageRule

theorem getEnforcementRules_printRules {files : Text → Option Text} {path : Text}
    {limits : List LimiterRule}
    (hfile : files path = some (printRules (limits.map LimiterRule.tokens))) :
    getEnforcementRules (readRulesFromFile (files path)) (-1) =
      .ok ((limits.take (2 ^ 31 - 1)).map LimiterRule.rule) := by
  have hread : readRulesFromFile (files path) = limits.map LimiterRule.tokens := by
    rw [hfile]
    refine readRulesFromFile_printRules fun stagedRule hstaged => ?_
    obtain ⟨r, _, rfl⟩ := List.mem_map.mp hstaged
    exact r.printable_tokens
  rw [hread, getEnforcementRules]
  exact collectRules_map LimiterRule.rule LimiterRule.enforcementRule_tokens _ limits 0 (by decide)

/-! ## The loops over a file -/

section Loops

variable {opt : Options} {hash : String → UInt32} {env : Nat → Environment}
  {clock : UInt64 → Clock}

/-- From the `i`-th on, the calls read off the clock what the constructor reads for the rules. -/
def SameClock (env : Nat → Environment) (clock : UInt64 → Clock) : Nat → List StageRule → Prop
  | _, [] => True
  | i, r :: rest => (env i).clock = clock r.rule.ruleId ∧ SameClock env clock (i + 1) rest

theorem perform_command (r : StageRule) (e : Environment) (stage : Stage) :
    r.command.perform opt hash e stage =
      StageCommand.employHousekeepingRule opt hash e stage r.rule := by
  cases r with
  | channel r => rw [StageRule.command, perform, r.raw_rule, StageRule.rule]
  | object r => rw [StageRule.command, perform, r.raw_rule, StageRule.rule]

/-- The loop over the housekeeping rules makes the calls of the commands. -/
theorem employFileRules_iff (hquiet : ∀ i, (env i).application = id) {rules : List StageRule}
    {i : Nat} (hclock : SameClock env clock i rules) (stage : Stage) (status : PStatus)
    (agent' : Agent) (ok : Bool) :
    (∃ status', stage.agent.employFileRules opt hash clock status (rules.map StageRule.rule) =
        .ok (agent', status') ∧ status'.isOk = ok) ↔
      ∃ oks, performAll opt hash env i stage (rules.map StageRule.command) =
        .ok ({ stage with agent := agent' }, oks) ∧ oks.getLast?.getD status.isOk = ok := by
  induction rules generalizing i stage status with
  | nil =>
    obtain ⟨agent, ready⟩ := stage
    simp [Agent.employFileRules, performAll]
  | cons r rest ih =>
    obtain ⟨hhead, htail⟩ := hclock
    simp only [List.map_cons, Agent.employFileRules, performAll_cons, hquiet, perform_command,
      StageCommand.employHousekeepingRule, hhead, id_eq]
    cases stage.agent.employHousekeepingRule opt hash (clock r.rule.ruleId) r.rule with
    | error f => simp
    | ok out =>
      obtain ⟨agent, completion⟩ := out
      cases completion with
      | threw what => simp
      | returned status' =>
        refine (ih htail { stage with agent := agent } status').trans ?_
        -- the last status of the rest, or that of this rule when there is no rest
        constructor
        · rintro ⟨oks, hrest, hlast⟩
          exact ⟨status'.isOk :: oks, ⟨_, _, oks, rfl, hrest, rfl⟩, by
            rw [List.getLast?_cons, Option.getD_some, hlast]⟩
        · rintro ⟨_, ⟨_, _, oks, ⟨⟩, hrest, rfl⟩, hlast⟩
          rw [List.getLast?_cons, Option.getD_some] at hlast
          exact ⟨oks, hrest, hlast⟩

/-- A rule for the agent does not make the stage ready. -/
theorem ready_of_employHousekeepingRule {e : Environment} {stage stage' : Stage}
    {r : HousekeepingRule} {ok : Bool}
    (h : StageCommand.employHousekeepingRule opt hash e stage r = .ok (stage', ok)) :
    stage'.ready = stage.ready := by
  rw [StageCommand.employHousekeepingRule] at h
  cases hemploy : stage.agent.employHousekeepingRule opt hash e.clock r with
  | error f => rw [hemploy] at h; cases h
  | ok out =>
    obtain ⟨agent, completion⟩ := out
    rw [hemploy] at h
    cases completion with
    | threw what => cases h
    | returned status => cases h; rfl

theorem ready_of_performAll (hquiet : ∀ i, (env i).application = id) {rules : List StageRule}
    {i : Nat} {stage stage' : Stage} {oks : List Bool}
    (h : performAll opt hash env i stage (rules.map StageRule.command) = .ok (stage', oks)) :
    stage'.ready = stage.ready := by
  induction rules generalizing i stage oks with
  | nil => cases h; rfl
  | cons r rest ih =>
    obtain ⟨stage₁, ok, oks', hcall, hrest, _⟩ := performAll_cons.mp h
    rw [hquiet, perform_command] at hcall
    exact (ih hrest).trans (ready_of_employHousekeepingRule hcall)

/-- The loop over the enforcement rules makes the calls of the commands. -/
theorem employEnforcementRules_iff (hquiet : ∀ i, (env i).application = id)
    {limits : List LimiterRule} {i : Nat} (stage : Stage) (rulesEnforced : Int) (agent' : Agent) :
    (∃ count, stage.agent.employEnforcementRules rulesEnforced (limits.map LimiterRule.rule) =
        .ok (agent', count)) ↔
      ∃ oks, performAll opt hash env i stage
        (limits.map fun r => .createEnforcementRule r.raw) =
          .ok ({ stage with agent := agent' }, oks) := by
  induction limits generalizing i stage rulesEnforced with
  | nil =>
    obtain ⟨agent, ready⟩ := stage
    simp [Agent.employEnforcementRules, performAll]
  | cons r rest ih =>
    simp only [List.map_cons, Agent.employEnforcementRules, performAll_cons, hquiet, perform,
      r.ofRaw_raw, id_eq]
    cases stage.agent.core.employ r.rule with
    | error f => simp
    | ok out =>
      obtain ⟨core, status⟩ := out
      have hrest := @ih (i + 1) { stage with agent := { stage.agent with core := core } }
        (if status.isOk = true then rulesEnforced + 1 else rulesEnforced)
      refine hrest.trans ?_
      constructor
      · rintro ⟨oks, h⟩
        exact ⟨status.isOk :: oks, _, _, oks, rfl, h, rfl⟩
      · rintro ⟨_, _, _, oks, ⟨⟩, h, rfl⟩
        exact ⟨oks, h⟩

/-! ## The constructor -/

/-- The calls of the rules limiters are sent: the stage is ready, and as many rules as the getter
takes from a file. -/
def limiterCommands (limits : List LimiterRule) : List StageCommand :=
  .markStageReady { markStage := true } ::
    (limits.take (2 ^ 31 - 1)).map fun r => .createEnforcementRule r.raw

variable {core : Core} {executeOnReceive : Bool} {files : Text → Option Text}
  {housekeepingRulesFile enforcementRulesFile : Text} {instances : Int} {rules : List StageRule}
  {limits : List LimiterRule}

/-- Files with the lines of some rules. -/
structure Written (files : Text → Option Text) (housekeepingRulesFile enforcementRulesFile : Text)
    (rules : List StageRule) (limits : List LimiterRule) : Prop where
  housekeepingPath : housekeepingRulesFile ≠ []
  enforcementPath : enforcementRulesFile ≠ []
  housekeeping : files housekeepingRulesFile = some (printRules (rules.map StageRule.tokens))
  enforcement : files enforcementRulesFile = some (printRules (limits.map LimiterRule.tokens))

variable (opt hash) in
theorem insertHousekeepingRulesFromFile_iff
    (hfiles : Written files housekeepingRulesFile enforcementRulesFile rules limits)
    (hn : 0 < limit instances) (hquiet : ∀ i, (env i).application = id)
    (hclock : SameClock env clock 0 (StageRule.employed instances rules)) (stage : Stage)
    (agent' : Agent) (ok : Bool) :
    (∃ status, stage.agent.insertHousekeepingRulesFromFile opt hash clock files
        housekeepingRulesFile instances = .ok (agent', status) ∧ status.isOk = ok) ↔
      ∃ oks, performAll opt hash env 0 stage
          ((StageRule.employed instances rules).map StageRule.command) =
        .ok ({ stage with agent := agent' }, oks) ∧ oks.getLast?.getD false = ok := by
  have hrules := StageRule.fileRules_printRules hfiles.housekeepingPath hfiles.housekeeping hn
  rw [Agent.insertHousekeepingRulesFromFile_eq hrules]
  exact employFileRules_iff hquiet hclock stage .error agent' ok

variable (opt hash) in
theorem insertEnforcementRulesFromFile_iff
    (hfiles : Written files housekeepingRulesFile enforcementRulesFile rules limits)
    (hquiet : ∀ i, (env i).application = id) (i : Nat) (stage : Stage) (agent' : Agent) :
    (∃ count, stage.agent.insertEnforcementRulesFromFile files enforcementRulesFile (-1) =
        .ok (agent', count)) ↔
      ∃ oks, performAll opt hash env i stage
          ((limits.take (2 ^ 31 - 1)).map fun r => .createEnforcementRule r.raw) =
        .ok ({ stage with agent := agent' }, oks) := by
  rw [Agent.insertEnforcementRulesFromFile, if_neg hfiles.enforcementPath,
    getEnforcementRules_printRules hfiles.enforcement]
  exact employEnforcementRules_iff hquiet stage 0 agent'

/-- The stage is marked ready and its limiters are configured. -/
theorem performAll_limiterCommands (hquiet : ∀ i, (env i).application = id) {i : Nat}
    {stage stage' : Stage} {oks : List Bool} :
    performAll opt hash env i stage (limiterCommands limits) = .ok (stage', oks) ↔
      ∃ oks', performAll opt hash env (i + 1) stage.markDataPlaneStageReady
          ((limits.take (2 ^ 31 - 1)).map fun r => .createEnforcementRule r.raw) =
        .ok (stage', oks') ∧ oks = true :: oks' := by
  rw [limiterCommands, performAll_cons, hquiet]
  constructor
  · rintro ⟨_, _, oks', ⟨⟩, h, rfl⟩
    exact ⟨oks', h, rfl⟩
  · rintro ⟨oks', h, rfl⟩
    exact ⟨_, _, oks', rfl, h, rfl⟩

/-- The constructor makes the stage ready when the calls for both files come back and the last rule
of the first one went well. -/
theorem newControllerless_ready_iff
    (hfiles : Written files housekeepingRulesFile enforcementRulesFile rules limits)
    (hn : 0 < limit instances) (hquiet : ∀ i, (env i).application = id)
    (hclock : SameClock env clock 0 (StageRule.employed instances rules)) (agent' : Agent) :
    Agent.newControllerless opt hash clock core executeOnReceive files housekeepingRulesFile
        enforcementRulesFile instances = .ok (agent', true) ↔
      ∃ stage₁ oks oks', performAll opt hash env 0
          { agent := { core := core, executeOnReceive := executeOnReceive } }
          ((StageRule.employed instances rules).map StageRule.command) = .ok (stage₁, oks) ∧
        oks.getLast?.getD false = true ∧
        performAll opt hash env (StageRule.employed instances rules).length stage₁
          (limiterCommands limits) = .ok ({ agent := agent', ready := true }, oks') := by
  have hinsert := insertHousekeepingRulesFromFile_iff opt hash hfiles hn hquiet hclock
    { agent := { core := core, executeOnReceive := executeOnReceive } }
  have hlimiters := insertEnforcementRulesFromFile_iff opt hash hfiles hquiet
    ((StageRule.employed instances rules).length + 1)
  rw [Agent.newControllerless]
  constructor
  · intro h
    cases hfirst : Agent.insertHousekeepingRulesFromFile opt hash clock
        { core := core, executeOnReceive := executeOnReceive } files housekeepingRulesFile
        instances with
    | error f => rw [hfirst] at h; cases h
    | ok out =>
      obtain ⟨agent₁, status⟩ := out
      rw [hfirst] at h
      simp only at h
      cases hok : status.isOk with
      | false => rw [hok] at h; cases h
      | true =>
        rw [hok, if_pos rfl] at h
        obtain ⟨oks, hcalls, hlast⟩ := (hinsert agent₁ true).mp ⟨status, hfirst, hok⟩
        cases hsecond : agent₁.insertEnforcementRulesFromFile files enforcementRulesFile (-1) with
        | error f => rw [hsecond] at h; cases h
        | ok out₂ =>
          rw [hsecond] at h
          cases h
          obtain ⟨oks', hconfigured⟩ := (hlimiters { agent := agent₁, ready := true } _).mp
            ⟨_, hsecond⟩
          exact ⟨_, oks, true :: oks', hcalls, hlast,
            (performAll_limiterCommands hquiet).mpr ⟨oks', hconfigured, rfl⟩⟩
  · rintro ⟨stage₁, oks, oks', hcalls, hlast, hready⟩
    obtain ⟨oks₂, hconfigured, rfl⟩ := (performAll_limiterCommands hquiet).mp hready
    have hstage : stage₁ = { agent := stage₁.agent } := by
      have hkept := ready_of_performAll hquiet hcalls
      obtain ⟨agent₁, ready⟩ := stage₁
      cases hkept
      rfl
    rw [hstage] at hcalls
    obtain ⟨status, hfirst, hok⟩ := (hinsert stage₁.agent true).mpr ⟨oks, hcalls, hlast⟩
    obtain ⟨count, hsecond⟩ := (hlimiters stage₁.markDataPlaneStageReady agent').mpr
      ⟨oks₂, hconfigured⟩
    rw [hfirst]
    simp only [hok, if_true]
    rw [show stage₁.markDataPlaneStageReady.agent = stage₁.agent from rfl] at hsecond
    rw [hsecond]

/-- The constructor leaves the stage as it is when the last rule did not go well. -/
theorem newControllerless_not_ready_iff
    (hfiles : Written files housekeepingRulesFile enforcementRulesFile rules limits)
    (hn : 0 < limit instances) (hquiet : ∀ i, (env i).application = id)
    (hclock : SameClock env clock 0 (StageRule.employed instances rules)) (agent' : Agent) :
    Agent.newControllerless opt hash clock core executeOnReceive files housekeepingRulesFile
        enforcementRulesFile instances = .ok (agent', false) ↔
      ∃ oks, performAll opt hash env 0
          { agent := { core := core, executeOnReceive := executeOnReceive } }
          ((StageRule.employed instances rules).map StageRule.command) =
            .ok ({ agent := agent' }, oks) ∧
        oks.getLast?.getD false = false := by
  have hinsert := insertHousekeepingRulesFromFile_iff opt hash hfiles hn hquiet hclock
    { agent := { core := core, executeOnReceive := executeOnReceive } } agent' false
  refine Iff.trans ?_ hinsert
  rw [Agent.newControllerless]
  constructor
  · intro h
    cases hfirst : Agent.insertHousekeepingRulesFromFile opt hash clock
        { core := core, executeOnReceive := executeOnReceive } files housekeepingRulesFile
        instances with
    | error f => rw [hfirst] at h; cases h
    | ok out =>
      obtain ⟨agent₁, status⟩ := out
      rw [hfirst] at h
      simp only at h
      cases hok : status.isOk with
      | false =>
        rw [hok] at h
        cases h
        exact ⟨status, rfl, hok⟩
      | true =>
        rw [hok, if_pos rfl] at h
        cases hsecond : agent₁.insertEnforcementRulesFromFile files enforcementRulesFile (-1) with
        | error f => rw [hsecond] at h; cases h
        | ok out₂ => rw [hsecond] at h; cases h
  · rintro ⟨status, hfirst, hok⟩
    rw [hfirst]
    simp only [hok, Bool.false_eq_true, if_false]

/-! ## The session -/

/-- How a session ends whose commands are read as a whole. -/
theorem session_closed_iff {split : Nat → Nat} (hsplit : ∀ k, 72 ≤ split k)
    {sent : List (Int × StageCommand)} (hsent : ∀ c ∈ sent, Sendable c) {stage stage' : Stage}
    {oks : List Bool} :
    (listen opt hash env split (FramedStream.Protocol.encode (messages sent)) stage).2 =
        .closed { stage := stage', answers := oks.map answer } ↔
      performAll opt hash env 0 stage (sent.map Prod.snd) = .ok (stage', oks) := by
  have hwhole := wholeReads_of_split opt hash env hsplit hsent
  rw [listen_messages hsent hwhole, handleAll_commands hsent]
  cases performAll opt hash env 0 stage (sent.map Prod.snd) with
  | error b => simp
  | ok out =>
    obtain ⟨stage₁, oks₁⟩ := out
    simp [answer_injective.list_map.eq_iff]

/-- The operations have identifiers that fit; the commands are those of rules. -/
theorem sendable_of_commands {sent : List (Int × StageCommand)} {commands : List StageCommand}
    (hcommands : sent.map Prod.snd = commands) (hfits : ∀ c ∈ commands, c.Fits)
    (hids : ∀ c ∈ sent, IsSigned 32 c.1) : ∀ c ∈ sent, Sendable c := by
  intro c hc
  refine ⟨hids c hc, hfits c.2 ?_⟩
  rw [← hcommands]
  exact List.mem_map_of_mem hc

theorem fits_limiterCommands : ∀ c ∈ limiterCommands limits, c.Fits := by
  intro c hc
  rcases List.mem_cons.mp hc with rfl | hc
  · trivial
  · obtain ⟨r, _, rfl⟩ := List.mem_map.mp hc
    exact r.raw_fits

/-- The messages of both sessions can be sent. -/
theorem sendable_sessions {housekeeping enforcement : List (Int × StageCommand)}
    (hhousekeeping : housekeeping.map Prod.snd =
      (StageRule.employed instances rules).map StageRule.command)
    (henforcement : enforcement.map Prod.snd = limiterCommands limits)
    (hids : ∀ c ∈ housekeeping ++ enforcement, IsSigned 32 c.1) :
    ∀ c ∈ housekeeping ++ enforcement, Sendable c := by
  have hfits : ∀ c ∈ (StageRule.employed instances rules).map StageRule.command, c.Fits := by
    intro c hc
    obtain ⟨r, _, rfl⟩ := List.mem_map.mp hc
    exact r.command_fits
  have hfirst := sendable_of_commands hhousekeeping hfits
    fun c hc => hids c (List.mem_append_left _ hc)
  have hsecond := sendable_of_commands henforcement fits_limiterCommands
    fun c hc => hids c (List.mem_append_right _ hc)
  intro c hc
  exact (List.mem_append.mp hc).elim (hfirst c) (hsecond c)

/-- The constructor that reads the files of a stage leaves the agent, and makes the stage ready, as
a session does in which the same rules are sent: those of channels first, then those of objects,
and if the last of them went well, that the stage is ready and the rules of its rate limiters. -/
theorem controllerless_eq_session
    (hfiles : Written files housekeepingRulesFile enforcementRulesFile rules limits)
    (hn : 0 < limit instances) (hquiet : ∀ i, (env i).application = id)
    (hclock : SameClock env clock 0 (StageRule.employed instances rules))
    {housekeeping enforcement : List (Int × StageCommand)}
    (hhousekeeping : housekeeping.map Prod.snd =
      (StageRule.employed instances rules).map StageRule.command)
    (henforcement : enforcement.map Prod.snd = limiterCommands limits)
    (hids : ∀ c ∈ housekeeping ++ enforcement, IsSigned 32 c.1)
    {split : Nat → Nat} (hsplit : ∀ k, 72 ≤ split k) (agent' : Agent) :
    let construct := Agent.newControllerless opt hash clock core executeOnReceive files
      housekeepingRulesFile enforcementRulesFile instances
    let session := fun sent => (listen opt hash env split
      (FramedStream.Protocol.encode (messages sent))
      { agent := { core := core, executeOnReceive := executeOnReceive } }).2
    (construct = .ok (agent', true) ↔
      ∃ oks oks' : List Bool, oks.length = housekeeping.length ∧ oks.getLast?.getD false = true ∧
        session (housekeeping ++ enforcement) = .closed
          { stage := { agent := agent', ready := true }, answers := (oks ++ oks').map answer }) ∧
    (construct = .ok (agent', false) ↔
      ∃ oks : List Bool, oks.getLast?.getD false = false ∧
        session housekeeping = .closed
          { stage := { agent := agent' }, answers := oks.map answer }) := by
  have hboth := sendable_sessions hhousekeeping henforcement hids
  have hfirst : ∀ c ∈ housekeeping, Sendable c := fun c hc => hboth c (List.mem_append_left _ hc)
  have hlength : housekeeping.length = (StageRule.employed instances rules).length := by
    rw [← List.length_map, hhousekeeping, List.length_map]
  simp only
  constructor
  · refine (newControllerless_ready_iff hfiles hn hquiet hclock agent').trans ?_
    simp only [session_closed_iff hsplit hboth]
    simp only [List.map_append, hhousekeeping, henforcement, performAll_append, List.length_map,
      Nat.zero_add]
    constructor
    · rintro ⟨stage₁, oks, oks', hcalls, hlast, hready⟩
      have hoks := length_of_performAll hcalls
      rw [List.length_map, ← hlength] at hoks
      exact ⟨oks, oks', hoks, hlast, stage₁, oks, oks', hcalls, hready, rfl⟩
    · rintro ⟨oks, oks', hoks, hlast, stage₁, oks₁, oks₁', hcalls, hready, heq⟩
      have hoks₁ := length_of_performAll hcalls
      rw [List.length_map, ← hlength, ← hoks] at hoks₁
      obtain ⟨rfl, rfl⟩ := List.append_inj heq hoks₁.symm
      exact ⟨stage₁, oks, oks', hcalls, hlast, hready⟩
  · refine (newControllerless_not_ready_iff hfiles hn hquiet hclock agent').trans ?_
    simp only [session_closed_iff hsplit hfirst, hhousekeeping]
    exact exists_congr fun oks => and_comm

end Loops

/-! ### One flow with a limit -/

/-- The channel 10 for the flow 1, with a rate limiter 20. -/
def flowRules : List StageRule :=
  let keywords : ContextKeywords :=
    { context := ("general", ⟨"PAIO_GENERAL", generalDefinitions⟩)
      operationType := ("no_op", 0)
      operationContext := ("foreground", 1)
      context_mem := List.mem_cons_self
      operationType_mem := by decide
      operationContext_mem := by decide }
  [.object
    { ruleId := 2
      channelId := 10
      objectId := 20
      keywords := keywords
      objectType := .drl
      first := 1000
      second := 500
      fits := by decide },
   .channel
    { ruleId := 1
      channelId := 10
      workflow := 1
      keywords := keywords
      fits := by decide }]

/-- The limiter gets the rate 700. -/
def flowLimits : List LimiterRule :=
  [{ ruleId := 3
     supplied := { channelId := 10, objectId := 20, operation := .rate, values := [700],
                   length_values := rfl }
     fits := by decide
     written := by decide
     given := by decide }]

/-- The files `h` and `e`. -/
def flowFiles (path : Text) : Option Text :=
  if path = text "h" then some (printRules (flowRules.map StageRule.tokens))
  else some (printRules (flowLimits.map LimiterRule.tokens))

/-- The operations 1 and 2, and then 3 and 4. -/
def flowHousekeeping : List (Int × StageCommand) :=
  [1, 2].zip ((StageRule.employed (-1) flowRules).map StageRule.command)

def flowEnforcement : List (Int × StageCommand) := [3, 4].zip (limiterCommands flowLimits)

/-- The rule of the object is before that of its channel in the file. The constructor makes the
stage ready with the agent that the session leaves, in which all four commands are acknowledged. -/
theorem controllerless_eq_session_flow :
    ∃ agent' : Agent,
      Agent.newControllerless {} numeralHash (fun _ _ => 0) (Core.new {}) true flowFiles (text "h")
        (text "e") (-1) = .ok (agent', true) ∧
      (listen {} numeralHash (fun _ => {}) (fun _ => 72)
        (FramedStream.Protocol.encode (messages (flowHousekeeping ++ flowEnforcement)))
        { agent := { core := Core.new {} } }).2 =
        .closed { stage := { agent := agent', ready := true }
                  answers := [true, true, true, true].map answer } := by
  have hfiles : Written flowFiles (text "h") (text "e") flowRules flowLimits :=
    ⟨by decide, by decide, if_pos rfl, if_neg (by decide)⟩
  have hhousekeeping : flowHousekeeping.map Prod.snd =
      (StageRule.employed (-1) flowRules).map StageRule.command := rfl
  have henforcement : flowEnforcement.map Prod.snd = limiterCommands flowLimits := rfl
  have hids : ∀ c ∈ flowHousekeeping ++ flowEnforcement, IsSigned 32 c.1 := by
    have hall : ((flowHousekeeping ++ flowEnforcement).map Prod.fst).all fun id =>
        decide (IsSigned 32 id) := by decide
    intro c hc
    exact of_decide_eq_true (List.all_eq_true.mp hall c.1 (List.mem_map_of_mem hc))
  have hsplit : ∀ k : Nat, 72 ≤ (fun _ => 72 : Nat → Nat) k := fun _ => Nat.le_refl 72
  have hoks : (performAll {} numeralHash (fun _ => {}) 0 { agent := { core := Core.new {} } }
      ((flowHousekeeping ++ flowEnforcement).map Prod.snd)).toOption.map
        (fun out => (out.1.ready, out.2)) = some (true, [true, true, true, true]) := by
    decide
  cases hcalls : performAll {} numeralHash (fun _ => {}) 0 { agent := { core := Core.new {} } }
      ((flowHousekeeping ++ flowEnforcement).map Prod.snd) with
  | error b =>
    rw [hcalls] at hoks
    cases hoks
  | ok out =>
    obtain ⟨⟨agent', ready⟩, oks⟩ := out
    rw [hcalls] at hoks
    obtain ⟨rfl, rfl⟩ := Prod.mk.inj (Option.some.inj hoks)
    have hsent := sendable_sessions hhousekeeping henforcement hids
    have hsession := (session_closed_iff hsplit hsent).mpr hcalls
    refine ⟨agent', ?_, hsession⟩
    have hclock : SameClock (fun _ => {}) (fun _ _ => 0) 0 (StageRule.employed (-1) flowRules) :=
      ⟨rfl, rfl, trivial⟩
    refine (controllerless_eq_session hfiles (by decide) (fun _ => rfl) hclock hhousekeeping
      henforcement hids hsplit agent').1.mpr ?_
    exact ⟨[true, true], [true, true], rfl, rfl, hsession⟩

end Paio
