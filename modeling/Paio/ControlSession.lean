import Paio.ControlLoop
import Paio.Framing

/-!
# Paio.ControlSession

A control plane that sends rules calls the agent of a stage from afar. A command is written into a
structure, the structure goes over the socket behind a header that announces it, and `listen`
dispatches on the header, takes the structure apart, calls the agent and answers with an ACK.

`control_session_eq` says that nothing of this shows: a session of commands that are read as a
whole is the calls made on the stage itself, one after the other. Each ACK is the status of its
call, and a call that does not come back ends the session at its command.
-/

namespace Paio

open Southbound StructLayout

/-- What is asked of a stage besides its statistics. -/
inductive StageCommand where
  | markStageReady (raw : StageReadyRaw)
  | createChannel (raw : HousekeepingCreateChannelRaw)
  | createObject (raw : HousekeepingCreateObjectRaw)
  | createEnforcementRule (raw : EnforcementRuleRaw)
  | executeHousekeepingRules

namespace StageCommand

/-! ## Commands as messages -/

/-- The members are in the ranges of their types. -/
def Fits : StageCommand → Prop
  | .markStageReady raw => StageReadyRaw.layout.fits raw
  | .createChannel raw => HousekeepingCreateChannelRaw.layout.fits raw
  | .createObject raw => HousekeepingCreateObjectRaw.layout.fits raw
  | .createEnforcementRule raw => EnforcementRuleRaw.layout.fits raw
  | .executeHousekeepingRules => True

/-- The structure as it stands in the socket. -/
def payload : StageCommand → List UInt8
  | .markStageReady raw => StageReadyRaw.layout.encode raw
  | .createChannel raw => HousekeepingCreateChannelRaw.layout.encode raw
  | .createObject raw => HousekeepingCreateObjectRaw.layout.encode raw
  | .createEnforcementRule raw => EnforcementRuleRaw.layout.encode raw
  | .executeHousekeepingRules => []

/-- The size of the structure. -/
def size : StageCommand → Nat
  | .markStageReady _ => StageReadyRaw.layout.size
  | .createChannel _ => HousekeepingCreateChannelRaw.layout.size
  | .createObject _ => HousekeepingCreateObjectRaw.layout.size
  | .createEnforcementRule _ => EnforcementRuleRaw.layout.size
  | .executeHousekeepingRules => 0

/-- The type and the subtype of the operation. -/
def operationTypes : StageCommand → Int × Int
  | .markStageReady _ => (1, 0)
  | .createChannel _ => (4, 1)
  | .createObject _ => (4, 2)
  | .createEnforcementRule _ => (6, 0)
  | .executeHousekeepingRules => (7, 0)

/-- The operation that announces the structure. -/
def operation (operationId : Int) (command : StageCommand) : ControlOperation where
  operationId := operationId
  operationType := command.operationTypes.1
  operationSubtype := command.operationTypes.2
  size := command.size

def message (operationId : Int) (command : StageCommand) : Message :=
  Message.ofOperation (command.operation operationId) command.payload

theorem length_payload (command : StageCommand) : command.payload.length = command.size := by
  cases command with
  | markStageReady raw => exact Layout.length_encode _ raw
  | createChannel raw => exact Layout.length_encode _ raw
  | createObject raw => exact Layout.length_encode _ raw
  | createEnforcementRule raw => exact Layout.length_encode _ raw
  | executeHousekeepingRules => rfl

theorem fits_operation (command : StageCommand) {operationId : Int} (h : IsSigned 32 operationId) :
    ControlOperation.layout.fits (command.operation operationId) := by
  refine ⟨h, ?_⟩
  cases command <;> simp only [operation, operationTypes, size] <;> decide

theorem payloadCount_operation (command : StageCommand) (operationId : Int) :
    (command.operation operationId).payloadCount.getD 0 = command.size := by
  have hrequested : ∀ c : StageCommand,
      ControlOperation.payloadCount.requested (c.operation operationId) = some c.size := by
    intro c
    exact if_pos (Int.natCast_nonneg c.size)
  cases command with
  | executeHousekeepingRules => rfl
  | _ => exact congrArg (Option.getD · 0) (hrequested _)

/-! ## Commands as calls -/

section Calls

variable (opt : Options) (hash : String → UInt32)

/-- `employ_housekeeping_rule` with the status that it returns. -/
def employHousekeepingRule (env : Environment) (stage : Stage) (rule : HousekeepingRule) :
    Except Break (Stage × Bool) :=
  match stage.agent.employHousekeepingRule opt hash env.clock rule with
  | .error f => .error (.fault f)
  | .ok (_, .threw what) => .error (.threw what)
  | .ok (agent, .returned status) => .ok ({ stage with agent := agent }, status.isOk)

/-- The call that a command stands for: the stage after it and whether it went well. -/
def perform (env : Environment) (stage : Stage) : StageCommand → Except Break (Stage × Bool)
  | .markStageReady raw =>
    .ok (if raw.markStage then stage.markDataPlaneStageReady else stage, raw.markStage)
  | .createChannel raw => employHousekeepingRule opt hash env stage raw.rule
  | .createObject raw => employHousekeepingRule opt hash env stage raw.rule
  | .createEnforcementRule raw =>
    match stage.agent.core.employ (.ofRaw raw) with
    | .error f => .error (.fault f)
    | .ok (core, status) =>
      .ok ({ stage with agent := { stage.agent with core := core } }, status.isOk)
  | .executeHousekeepingRules =>
    match stage.agent.executeHousekeepingRules opt hash env.ruleClock env.order with
    | .error f => .error (.fault f)
    | .ok (_, .threw what) => .error (.threw what)
    | .ok (agent, .returned status) => .ok ({ stage with agent := agent }, !status.isError)

/-- The calls one after the other; what the application does meanwhile comes before each of them. -/
def performAll (env : Nat → Environment) :
    Nat → Stage → List StageCommand → Except Break (Stage × List Bool)
  | _, stage, [] => .ok (stage, [])
  | i, stage, command :: rest =>
    match command.perform opt hash (env i) ((env i).application stage) with
    | .error b => .error b
    | .ok (stage₁, ok) =>
      match performAll env (i + 1) stage₁ rest with
      | .error b => .error b
      | .ok (stage₂, oks) => .ok (stage₂, ok :: oks)

variable {opt hash} {env : Nat → Environment}

theorem performAll_cons {i : Nat} {stage stage' : Stage} {command : StageCommand}
    {rest : List StageCommand} {oks : List Bool} :
    performAll opt hash env i stage (command :: rest) = .ok (stage', oks) ↔
      ∃ stage₁ ok oks', command.perform opt hash (env i) ((env i).application stage) =
          .ok (stage₁, ok) ∧
        performAll opt hash env (i + 1) stage₁ rest = .ok (stage', oks') ∧ oks = ok :: oks' := by
  rw [performAll]
  cases command.perform opt hash (env i) ((env i).application stage) with
  | error b => simp
  | ok out =>
    obtain ⟨stage₁, ok⟩ := out
    simp only
    cases hrest : performAll opt hash env (i + 1) stage₁ rest with
    | error b =>
      constructor
      · intro h
        cases h
      · rintro ⟨_, _, oks', ⟨⟩, h, _⟩
        rw [hrest] at h
        cases h
    | ok out₁ =>
      obtain ⟨stage₂, oks₁⟩ := out₁
      constructor
      · rintro ⟨⟩
        exact ⟨stage₁, ok, oks₁, rfl, hrest, rfl⟩
      · rintro ⟨_, _, oks', ⟨⟩, h, rfl⟩
        rw [hrest] at h
        cases h
        rfl

theorem performAll_append {i : Nat} {stage stage' : Stage} {first second : List StageCommand}
    {oks : List Bool} :
    performAll opt hash env i stage (first ++ second) = .ok (stage', oks) ↔
      ∃ stage₁ oks₁ oks₂, performAll opt hash env i stage first = .ok (stage₁, oks₁) ∧
        performAll opt hash env (i + first.length) stage₁ second = .ok (stage', oks₂) ∧
        oks = oks₁ ++ oks₂ := by
  induction first generalizing i stage oks with
  | nil =>
    constructor
    · intro h
      exact ⟨stage, [], oks, rfl, h, rfl⟩
    · rintro ⟨_, _, oks₂, ⟨⟩, h, rfl⟩
      exact h
  | cons command rest ih =>
    have hindex : i + (command :: rest).length = i + 1 + rest.length := by
      rw [List.length_cons]
      omega
    rw [List.cons_append, performAll_cons, hindex]
    constructor
    · rintro ⟨stage₁, ok, oks', hperform, hrest, rfl⟩
      obtain ⟨stage₂, oks₁, oks₂, hfirst, hsecond, rfl⟩ := ih.mp hrest
      exact ⟨stage₂, ok :: oks₁, oks₂, performAll_cons.mpr ⟨_, _, _, hperform, hfirst, rfl⟩,
        hsecond, rfl⟩
    · rintro ⟨stage₂, oks₁, oks₂, hfirst, hsecond, rfl⟩
      obtain ⟨stage₁, ok, oks', hperform, hrest, rfl⟩ := performAll_cons.mp hfirst
      exact ⟨stage₁, ok, oks' ++ oks₂, hperform, ih.mpr ⟨_, _, _, hrest, hsecond, rfl⟩, rfl⟩

theorem length_of_performAll {i : Nat} {stage stage' : Stage} {commands : List StageCommand}
    {oks : List Bool} (h : performAll opt hash env i stage commands = .ok (stage', oks)) :
    oks.length = commands.length := by
  induction commands generalizing i stage oks with
  | nil =>
    cases h
    rfl
  | cons command rest ih =>
    obtain ⟨stage₁, ok, oks', _, hrest, rfl⟩ := performAll_cons.mp h
    rw [List.length_cons, List.length_cons, ih hrest]

/-! ## The handler makes the call -/

/-- The handler of a rule makes the call and answers with its status. -/
theorem southbound_employHousekeepingRule (env : Environment) (stage : Stage)
    (rule : HousekeepingRule) :
    Southbound.employHousekeepingRule opt hash env rule stage =
      (employHousekeepingRule opt hash env stage rule).map fun out => .ack out.1 out.2 := by
  rw [Southbound.employHousekeepingRule, employHousekeepingRule]
  cases stage.agent.employHousekeepingRule opt hash env.clock rule with
  | error f => rfl
  | ok out =>
    obtain ⟨agent, completion⟩ := out
    cases completion <;> rfl

/-- A structure that is there as a whole is read as it was written. -/
theorem readInto_encode {α : Type} (L : Layout α) (initial : α) {raw : α} (h : L.fits raw) :
    readInto L initial (L.encode raw) = .ok raw := by
  rw [readInto_whole L initial (Layout.length_encode L raw), Layout.decode_encode L h]

theorem payload_ne_nil (command : StageCommand) (h : command ≠ .executeHousekeepingRules) :
    command.payload ≠ [] := by
  rw [← List.length_pos_iff, length_payload]
  cases command with
  | executeHousekeepingRules => exact absurd rfl h
  | _ =>
    simp only [size]
    decide

theorem handleControlOperation_command {command : StageCommand} (h : command.Fits)
    (operationId : Int) (env : Environment) (stage : Stage) :
    handleControlOperation opt hash env (command.operation operationId) command.payload stage =
      (command.perform opt hash env stage).map fun out => .ack out.1 out.2 := by
  cases command with
  | markStageReady raw =>
    have hne := payload_ne_nil (.markStageReady raw) (by simp)
    show markStageAsReady _ stage = _
    rw [markStageAsReady, if_neg hne]
    simp only [payload, readInto_encode _ _ h, perform]
    cases raw.markStage <;> rfl
  | createChannel raw =>
    have hne := payload_ne_nil (.createChannel raw) (by simp)
    simp only [handleControlOperation, ControlOperation.type, createHousekeepingRule,
      ControlOperation.subtype, operation, operationTypes, ControlPlaneOperationType.ofInt,
      ControlPlaneOperationSubtype.ofInt, if_neg hne]
    simp only [payload, readInto_encode _ _ h, perform]
    exact southbound_employHousekeepingRule env stage raw.rule
  | createObject raw =>
    have hne := payload_ne_nil (.createObject raw) (by simp)
    simp only [handleControlOperation, ControlOperation.type, createHousekeepingRule,
      ControlOperation.subtype, operation, operationTypes, ControlPlaneOperationType.ofInt,
      ControlPlaneOperationSubtype.ofInt, if_neg hne]
    simp only [payload, readInto_encode _ _ h, perform]
    exact southbound_employHousekeepingRule env stage raw.rule
  | createEnforcementRule raw =>
    have hne := payload_ne_nil (.createEnforcementRule raw) (by simp)
    show Southbound.createEnforcementRule _ stage = _
    rw [Southbound.createEnforcementRule, if_neg hne]
    simp only [payload, readInto_encode _ _ h, perform]
    cases stage.agent.core.employ (.ofRaw raw) <;> rfl
  | executeHousekeepingRules =>
    show Southbound.executeHousekeepingRules opt hash env stage = _
    rw [Southbound.executeHousekeepingRules, perform]
    cases stage.agent.executeHousekeepingRules opt hash env.ruleClock env.order with
    | error f => rfl
    | ok out =>
      obtain ⟨agent, completion⟩ := out
      cases completion <;> rfl

end Calls

/-! ## Sessions -/

section Sessions

variable {opt : Options} {hash : String → UInt32} {env : Nat → Environment}

/-- The answer to a command. -/
def answer (ok : Bool) : Answer where
  replies := [.ack (if ok then .ok else .error)]
  value := 4

/-- A command that can be sent: a header and a structure with members in range. -/
structure Sendable (sent : Int × StageCommand) : Prop where
  operationId : IsSigned 32 sent.1
  fits : sent.2.Fits

theorem handle_command {sent : Int × StageCommand} (h : Sendable sent) (i : Nat)
    (session : Southbound.Session) :
    (protocol opt hash env).handle i session (sent.2.message sent.1).header
        (sent.2.message sent.1).payload =
      match sent.2.perform opt hash (env i) ((env i).application session.stage) with
      | .error b => .error b
      | .ok (stage, ok) => .ok { stage := stage, answers := session.answers ++ [answer ok] } := by
  have hoperation : ControlOperation.layout.decode (sent.2.message sent.1).header =
      sent.2.operation sent.1 :=
    Message.operation_ofOperation (fits_operation sent.2 h.operationId) _
  have hpayload : (sent.2.message sent.1).payload = sent.2.payload := rfl
  show handle opt hash (env i) session _ _ = _
  rw [handle, hoperation, hpayload, handleControlOperation_command h.fits]
  cases sent.2.perform opt hash (env i) ((env i).application session.stage) with
  | error b => rfl
  | ok out => rfl

theorem sent_command {sent : Int × StageCommand} (h : Sendable sent) :
    (protocol opt hash env).Sent (sent.2.message sent.1) := by
  have hoperation : ControlOperation.layout.decode (sent.2.message sent.1).header =
      sent.2.operation sent.1 :=
    Message.operation_ofOperation (fits_operation sent.2 h.operationId) _
  refine ⟨Layout.length_encode _ _, ?_⟩
  show sent.2.payload.length = _
  rw [length_payload, ← payloadCount_operation sent.2 sent.1, ← hoperation]
  rfl

/-- The messages of a session. -/
def messages (sent : List (Int × StageCommand)) : List Message :=
  sent.map fun c => c.2.message c.1

theorem messages_append (first second : List (Int × StageCommand)) :
    messages (first ++ second) = messages first ++ messages second :=
  List.map_append

theorem handleAll_commands {sent : List (Int × StageCommand)} (h : ∀ c ∈ sent, Sendable c)
    (i : Nat) (session : Southbound.Session) :
    (protocol opt hash env).handleAll i session (messages sent) =
      match performAll opt hash env i session.stage (sent.map Prod.snd) with
      | .error b => .error b
      | .ok (stage, oks) =>
        .ok { stage := stage, answers := session.answers ++ oks.map answer } := by
  induction sent generalizing i session with
  | nil => simp [messages, FramedStream.Protocol.handleAll, performAll]
  | cons c rest ih =>
    have hrest : ∀ c' ∈ rest, Sendable c' := fun c' hc' => h c' (List.mem_cons_of_mem c hc')
    rw [messages, List.map_cons, FramedStream.Protocol.handleAll, List.map_cons, performAll,
      handle_command (h c List.mem_cons_self)]
    cases c.2.perform opt hash (env i) ((env i).application session.stage) with
    | error b => rfl
    | ok out =>
      have hloop := ih hrest (i + 1)
        { stage := out.1, answers := session.answers ++ [answer out.2] }
      simp only [messages] at hloop
      simp only [hloop]
      cases performAll opt hash env (i + 1) out.1 (rest.map Prod.snd) with
      | error b => rfl
      | ok out₁ => simp [List.append_assoc]

theorem sent_messages {sent : List (Int × StageCommand)} (hsent : ∀ c ∈ sent, Sendable c) :
    ∀ m ∈ messages sent, (protocol opt hash env).Sent m := by
  intro m hm
  obtain ⟨c, hc, rfl⟩ := List.mem_map.mp hm
  exact sent_command (hsent c hc)

/-- Without a short read the loop ends as the handlers of the messages do. -/
theorem listen_messages {split : Nat → Nat} {sent : List (Int × StageCommand)}
    (hsent : ∀ c ∈ sent, Sendable c) (hwhole : WholeReads opt hash env split (messages sent))
    (stage : Stage) :
    (listen opt hash env split (FramedStream.Protocol.encode (messages sent)) stage).2 =
      match (protocol opt hash env).handleAll 0 { stage := stage } (messages sent) with
      | .ok session => .closed session
      | .error b => .failed b := by
  rw [Southbound.listen, FramedStream.Protocol.serve_end
    { pending := FramedStream.Protocol.encode (messages sent) } (sent_messages hsent) hwhole
    (Layout.length_encode _ _) rfl (Nat.lt_succ_self _)]
  cases (protocol opt hash env).handleAll 0 { stage := stage } (messages sent) <;> rfl

/-- Calls that all come back are a session that handles all messages. -/
theorem listen_commands {split : Nat → Nat} {sent : List (Int × StageCommand)}
    (hsent : ∀ c ∈ sent, Sendable c) (hwhole : WholeReads opt hash env split (messages sent))
    {stage stage' : Stage} {oks : List Bool}
    (hcalls : performAll opt hash env 0 stage (sent.map Prod.snd) = .ok (stage', oks)) :
    listen opt hash env split (FramedStream.Protocol.encode (messages sent)) stage =
      (messages sent, .closed { stage := stage', answers := oks.map answer }) := by
  refine FramedStream.Protocol.serve_of_whole (sent_messages hsent) hwhole
    (Layout.length_encode _ _) rfl (Nat.lt_succ_self _) ?_
  rw [handleAll_commands hsent, hcalls]
  rfl

variable (opt hash env) in
/-- Reads that may return the largest structure are not short. -/
theorem wholeReads_of_split {split : Nat → Nat} (hsplit : ∀ k, 72 ≤ split k)
    {sent : List (Int × StageCommand)} (hsent : ∀ c ∈ sent, Sendable c) :
    WholeReads opt hash env split (messages sent) := by
  have hwhole : ∀ reads, (protocol opt hash env).Whole split reads (messages sent) := by
    induction sent with
    | nil =>
      intro reads
      trivial
    | cons c rest ih =>
      intro reads
      have hrest := ih fun c' hc' => hsent c' (List.mem_cons_of_mem c hc')
      have hheader := hsplit reads
      have hpayload := hsplit (reads + 1)
      have hsize : (protocol opt hash env).headerSize = 16 := rfl
      have hstructure : c.2.size ≤ 72 := by cases c.2 <;> simp only [size] <;> decide
      have hwants : (protocol opt hash env).wants (c.2.message c.1).header =
          (c.2.operation c.1).payloadCount :=
        congrArg ControlOperation.payloadCount (Message.operation_ofOperation
          (fits_operation c.2 (hsent c List.mem_cons_self).operationId) _)
      have hcount := payloadCount_operation c.2 c.1
      refine ⟨by omega, ?_⟩
      rw [hwants]
      cases hp : (c.2.operation c.1).payloadCount with
      | none => exact hrest (reads + 1)
      | some count =>
        rw [hp, Option.getD_some] at hcount
        exact ⟨by omega, hrest (reads + 2)⟩
  exact hwhole 0

/-- A session of commands without a short read is the calls that the commands stand for. When all
calls come back, all messages are handled, and the session ends with the stage that the calls leave
and an ACK for each of them. When one does not, the session ends at its message, with its fault or
exception, and the messages before it have left the stage and the ACKs of the calls before it. -/
theorem control_session_eq {split : Nat → Nat} {sent : List (Int × StageCommand)}
    (hsent : ∀ c ∈ sent, Sendable c) (hwhole : WholeReads opt hash env split (messages sent))
    (stage : Stage) :
    match performAll opt hash env 0 stage (sent.map Prod.snd) with
    | .ok (stage', oks) =>
      listen opt hash env split (FramedStream.Protocol.encode (messages sent)) stage =
        (messages sent, .closed { stage := stage', answers := oks.map answer })
    | .error b =>
      ∃ done c rest stage' oks, sent = done ++ c :: rest ∧
        performAll opt hash env 0 stage (done.map Prod.snd) = .ok (stage', oks) ∧
        c.2.perform opt hash (env done.length) ((env done.length).application stage') = .error b ∧
        listen opt hash env split (FramedStream.Protocol.encode (messages done)) stage =
          (messages done, .closed { stage := stage', answers := oks.map answer }) ∧
        listen opt hash env split (FramedStream.Protocol.encode (messages sent)) stage =
          (messages (done ++ [c]), .failed b) := by
  cases hcalls : performAll opt hash env 0 stage (sent.map Prod.snd) with
  | ok out => exact listen_commands hsent hwhole hcalls
  | error b =>
    have hall : (protocol opt hash env).handleAll 0 { stage := stage } (messages sent) =
        .error b := by
      rw [handleAll_commands hsent, hcalls]
    obtain ⟨before, f, after, session, hmessages, hbefore, hfails⟩ :=
      FramedStream.Protocol.handleAll_eq_error hall
    -- the messages before the failure are those of the commands before it
    obtain ⟨done, behind, rfl, rfl, hbehind⟩ := List.map_eq_append_iff.mp hmessages
    obtain ⟨c, rest, rfl, rfl, rfl⟩ := List.map_eq_cons_iff.mp hbehind
    have hdone : ∀ c' ∈ done, Sendable c' := fun c' hc' => hsent c' (List.mem_append_left _ hc')
    have hc : Sendable c := hsent c (List.mem_append_right _ List.mem_cons_self)
    have hframes := @sent_messages opt hash env _ hsent
    have hlisten : listen opt hash env split (FramedStream.Protocol.encode
        (messages (done ++ c :: rest))) stage = (messages (done ++ [c]), .failed b) := by
      rw [messages_append] at hframes hwhole
      rw [messages_append, messages_append]
      exact FramedStream.Protocol.serve_failed _ hframes hwhole (Layout.length_encode _ _) rfl
        (Nat.lt_succ_self _) hbefore hfails
    rw [← messages, handleAll_commands hdone] at hbefore
    rw [List.length_map, Nat.zero_add, handle_command hc] at hfails
    cases hfirst : performAll opt hash env 0 stage (done.map Prod.snd) with
    | error b' =>
      rw [hfirst] at hbefore
      cases hbefore
    | ok out =>
      rw [hfirst] at hbefore
      cases hbefore
      rw [messages_append] at hwhole
      refine ⟨done, c, rest, out.1, out.2, rfl, hfirst, ?_, listen_commands hdone hwhole.of_append
        hfirst, hlisten⟩
      cases hperform : c.2.perform opt hash (env done.length)
          ((env done.length).application out.1) with
      | error b' =>
        rw [hperform] at hfails
        cases hfails
        rfl
      | ok out' =>
        rw [hperform] at hfails
        cases hfails

/-- A channel is created for the flow 1, and the stage is marked ready. -/
def twoCommands : List (Int × StageCommand) :=
  [(7, .createChannel { ruleId := 1, channelId := 10, workflowId := 1, operationContext := 1 }),
    (8, .markStageReady { markStage := true })]

theorem sendable_twoCommands : ∀ c ∈ twoCommands, Sendable c := by
  intro c hc
  rcases List.mem_pair.mp hc with rfl | rfl
  · exact ⟨by decide, by decide, by decide⟩
  · exact ⟨by decide, trivial⟩

/-- A rate limiter is created in that channel, and configured with one value where it reads two; the
command behind it is not read any more. -/
def faultyCommands : List (Int × StageCommand) :=
  [(7, .createChannel { ruleId := 1, channelId := 10, workflowId := 1, operationContext := 1 }),
    (8, .createObject
      { ruleId := 2, channelId := 10, enforcementObjectId := 20, enforcementObjectType := 1
        propertyFirst := 1000, propertySecond := 500 }),
    (9, .createEnforcementRule
      { ruleId := 3, channelId := 10, enforcementObjectId := 20, enforcementOperation := 1
        propertyFirst := 1000, propertySecond := -1 }),
    (10, .markStageReady { markStage := true })]

theorem sendable_faultyCommands : ∀ c ∈ faultyCommands, Sendable c := by
  intro c hc
  simp only [faultyCommands, List.mem_cons, List.not_mem_nil, or_false] at hc
  rcases hc with rfl | rfl | rfl | rfl
  · exact ⟨by decide, by decide, by decide⟩
  · exact ⟨by decide, by decide, by decide⟩
  · exact ⟨by decide, by decide, by decide⟩
  · exact ⟨by decide, trivial⟩

/-- The first session is acknowledged; the other one ends before its commands do. -/
theorem control_session_eq_two :
    (∃ stage', listen {} numeralHash (fun _ => {}) (fun _ => 72)
        (FramedStream.Protocol.encode (messages twoCommands)) emptyStage =
          (messages twoCommands,
            .closed { stage := stage', answers := [answer true, answer true] })) ∧
      ∃ done c rest session, faultyCommands = done ++ c :: rest ∧
        listen {} numeralHash (fun _ => {}) (fun _ => 72)
          (FramedStream.Protocol.encode (messages done)) emptyStage =
            (messages done, .closed session) ∧
        listen {} numeralHash (fun _ => {}) (fun _ => 72)
          (FramedStream.Protocol.encode (messages faultyCommands)) emptyStage =
            (messages (done ++ [c]), .failed (.fault .outOfBounds)) := by
  have hwhole : ∀ sent : List (Int × StageCommand), (∀ c ∈ sent, Sendable c) →
      WholeReads {} numeralHash (fun _ => {}) (fun _ => 72) (messages sent) :=
    fun sent hsent =>
      wholeReads_of_split {} numeralHash (fun _ => {}) (fun _ => Nat.le_refl 72) hsent
  constructor
  · have hsession := control_session_eq sendable_twoCommands (hwhole _ sendable_twoCommands)
      emptyStage
    have hoks : (performAll {} numeralHash (fun _ => {}) 0 emptyStage
        (twoCommands.map Prod.snd)).toOption.map Prod.snd = some [true, true] := by decide
    cases hcalls : performAll {} numeralHash (fun _ => {}) 0 emptyStage
        (twoCommands.map Prod.snd) with
    | error b =>
      rw [hcalls] at hoks
      cases hoks
    | ok out =>
      rw [hcalls] at hoks hsession
      obtain ⟨stage', oks⟩ := out
      obtain rfl : oks = [true, true] := Option.some.inj hoks
      exact ⟨stage', hsession⟩
  · have hsession := control_session_eq sendable_faultyCommands (hwhole _ sendable_faultyCommands)
      emptyStage
    have hcalls : performAll {} numeralHash (fun _ => {}) 0 emptyStage
        (faultyCommands.map Prod.snd) = .error (.fault .outOfBounds) := rfl
    rw [hcalls] at hsession
    obtain ⟨done, c, rest, stage', oks, hsplit, -, -, hdone, hfailed⟩ := hsession
    exact ⟨done, c, rest, _, hsplit, hdone, hfailed⟩

theorem answer_injective : Function.Injective answer := by
  intro ok ok' h
  cases ok <;> cases ok' <;> first | rfl | cases h

end Sessions

end StageCommand

end Paio
