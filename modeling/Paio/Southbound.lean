import Paio.Collection
import Paio.ControlMessages

/-!
# Paio.Southbound

The handler of the southbound connection: it reads a control operation, reads the structure that
goes with it, acts on the stage and answers. `listen` is this loop over the bytes that the control
plane sends.

Every handler that reads a structure does so before anything else, and takes what the read returns
for the whole structure. Writing to the socket always succeeds in full. Between two operations the
threads of the application work on the stage; `Environment` says what they did and what the calls
of a handler read off the clock and in which order the housekeeping table is visited.
-/

namespace Paio

open ChannelStatistics (ChannelStatsRaw)

/-! ## The stage and its answers -/

structure Stage where
  agent : Agent
  ready : Bool := false

/-- `mark_data_plane_stage_ready`. -/
def Stage.markDataPlaneStageReady (stage : Stage) : Stage := { stage with ready := true }

structure Environment where
  clock : Clock := fun _ => 0
  ruleClock : UInt64 → Clock := fun _ _ => 0
  order : List UInt64 := []
  readings : Readings := fun _ => (0, 0)
  /-- What the application made of the stage before the operation is handled. -/
  application : Stage → Stage := id

inductive AckCode where
  | ok
  | error
  deriving DecidableEq, Repr

structure StatsSilkRaw where
  fgTasks : ℚ := 0
  bgTasksFlush : ℚ := 0
  bgTasksCompactionL0 : ℚ := 0
  bgTasksCompactionLN : ℚ := 0
  deriving DecidableEq

structure StatsTensorFlowRaw where
  readRate : ℚ := 0
  writeRate : ℚ := 0
  deriving DecidableEq

structure StatsGlobalRaw where
  totalRate : ℚ := 0
  deriving DecidableEq

structure StatsDataMetadataRaw where
  totalMetadataRate : ℚ := 0
  totalDataRate : ℚ := 0
  deriving DecidableEq

/-- The structures that are written to the control plane. -/
inductive ControlReply where
  | ack (code : AckCode)
  | collectStatistics (metadata : CollectStatisticsMetadata)
  | channelStats (raw : ChannelStatsRaw)
  | silk (raw : StatsSilkRaw)
  | tensorFlow (raw : StatsTensorFlowRaw)
  | global (raw : StatsGlobalRaw)
  | dataMetadata (raw : StatsDataMetadataRaw)
  deriving DecidableEq

/-- The size of the structure. -/
def ControlReply.size : ControlReply → Nat
  | .ack _ => 4
  | .collectStatistics _ => 16
  | .channelStats _ => 24
  | .silk _ => 32
  | .tensorFlow _ => 16
  | .global _ => 8
  | .dataMetadata _ => 16

/-- A handler that comes back: the stage, what was written and the value that is returned. -/
structure Handled where
  stage : Stage
  replies : List ControlReply
  value : Int

namespace Handled

/-- One structure is written and the number of its bytes returned. -/
def reply (stage : Stage) (r : ControlReply) : Handled where
  stage := stage
  replies := [r]
  value := r.size

/-- The ACK for a status. -/
def ack (stage : Stage) (ok : Bool) : Handled :=
  reply stage (.ack (if ok then .ok else .error))

end Handled

/-! ## Aggregating detailed statistics -/

/-- The sum of the entries at some positions, `entry.second[...]` without a check. The positions are
enumerators modulo the number of enumerators, which are the enumerators themselves. -/
def sumAt (entries : List ℚ) : List Nat → Except Fault ℚ
  | [] => .ok 0
  | position :: rest =>
    match entries[position]? with
    | none => .error .outOfBounds
    | some value =>
      match sumAt entries rest with
      | .ok sum => .ok (value + sum)
      | .error f => .error f

/-- The sums that the loop of `aggregate_kvs_statistics` keeps. -/
structure KvsRates where
  fgTasks : ℚ := 0
  bgTasksFlush : ℚ := 0
  bgTasksCompactionL0 : ℚ := 0
  bgTasksCompactionLN : ℚ := 0
  validL0CompactionIoFlows : Nat := 0

/-- The channels below 2000 are foreground flows, 2000 is the flush and those above are
compactions. -/
def KvsRates.addEntry (rates : KvsRates) (entry : Int × List ℚ) : Except Fault KvsRates :=
  if entry.1 < 2000 then
    match sumAt entry.2 [8] with
    | .ok foreground => .ok { rates with fgTasks := rates.fgTasks + foreground }
    | .error f => .error f
  else if entry.1 = 2000 then
    match sumAt entry.2 [1] with
    | .ok flush => .ok { rates with bgTasksFlush := rates.bgTasksFlush + flush }
    | .error f => .error f
  else
    match sumAt entry.2 [3, 4] with
    | .error f => .error f
    | .ok compactionL0 =>
      match sumAt entry.2 [5, 6, 7] with
      | .error f => .error f
      | .ok compactionLN =>
        .ok { rates with
          bgTasksCompactionL0 := rates.bgTasksCompactionL0 + compactionL0
          bgTasksCompactionLN := rates.bgTasksCompactionLN + compactionLN
          validL0CompactionIoFlows :=
            -- high-priority compactions are counted for the flows that had some
            if rates.bgTasksCompactionL0 + compactionL0 > rates.bgTasksCompactionL0 then
              rates.validL0CompactionIoFlows + 1
            else rates.validL0CompactionIoFlows }

def aggregateKvsStatistics (stats : DetailedStats) (raw : StatsSilkRaw) :
    Except Fault (PStatus × StatsSilkRaw) :=
  if stats = [] then .ok (.error, raw)
  else
    match stats.foldlM KvsRates.addEntry {} with
    | .error f => .error f
    | .ok rates =>
      .ok (.ok,
        { fgTasks := rates.fgTasks
          bgTasksFlush := rates.bgTasksFlush
          bgTasksCompactionL0 :=
            if rates.bgTasksCompactionL0 ≠ 0 then
              rates.bgTasksCompactionL0 / rates.validL0CompactionIoFlows
            else rates.bgTasksCompactionL0
          bgTasksCompactionLN := rates.bgTasksCompactionLN })

/-- A pass through the loops over two sums, each with its positions. -/
def addPair (first second : List Nat) (sums : ℚ × ℚ) (entry : Int × List ℚ) :
    Except Fault (ℚ × ℚ) :=
  match sumAt entry.2 first with
  | .error f => .error f
  | .ok x =>
    match sumAt entry.2 second with
    | .ok y => .ok (sums.1 + x, sums.2 + y)
    | .error f => .error f

/-- Reading is `no_op`, `read`, `pread` and `pread64`, writing is `write`, `pwrite` and
`pwrite64`. -/
def aggregateTfStatistics (stats : DetailedStats) (raw : StatsTensorFlowRaw) :
    Except Fault (PStatus × StatsTensorFlowRaw) :=
  if stats = [] then .ok (.error, raw)
  else
    match stats.foldlM (addPair [0, 1, 3, 5] [2, 4, 6]) (0, 0) with
    | .ok (readRate, writeRate) => .ok (.ok, { readRate := readRate, writeRate := writeRate })
    | .error f => .error f

def aggregateGlobalStatistics (stats : DetailedStats) (raw : StatsGlobalRaw) :
    Except Fault (PStatus × StatsGlobalRaw) :=
  if stats = [] then .ok (.error, raw)
  else .ok (.ok, { totalRate := (stats.map fun entry => entry.2.sum).sum })

/-- The positions are `data_op` and `meta_op`. -/
def aggregateMetadataDataStatistics (stats : DetailedStats) (raw : StatsDataMetadataRaw) :
    Except Fault (PStatus × StatsDataMetadataRaw) :=
  if stats = [] then .ok (.error, raw)
  else
    match stats.foldlM (addPair [6] [7]) (0, 0) with
    | .ok (dataRate, metadataRate) =>
      .ok (.ok, { totalMetadataRate := metadataRate, totalDataRate := dataRate })
    | .error f => .error f

/-! ## The handlers

`received` are the bytes that the read of the payload returned; a read that fails returns none. -/

namespace Southbound

variable (opt : Options) (hash : String → UInt32) (env : Environment)

def markStageAsReady (received : List UInt8) (stage : Stage) : Except Break Handled :=
  if received = [] then .ok (.ack stage false)
  else
    match readInto StageReadyRaw.layout {} received with
    | .error f => .error (.fault f)
    | .ok markStage =>
      if markStage.markStage then .ok (.ack stage.markDataPlaneStageReady true)
      else .ok (.ack stage false)

/-- The number of channels is written with the size that the operation gives. -/
def collectStatistics (operation : ControlOperation) (received : List UInt8) (stage : Stage) :
    Except Break Handled :=
  if received = [] then
    .error (.threw ("Error while reading CollectStatisticsMetadata object (" ++
      toString (if operation.size < 0 then (-1 : Int) else 0) ++ ")."))
  else
    match readInto CollectStatisticsMetadata.layout {} received with
    | .error f => .error (.fault f)
    | .ok metadata =>
      match stage.agent.collectChannelStatistics env.readings metadata.channelId with
      | .error b => .error b
      | .ok (agent, status, channelStats) =>
        if status.isOk then
          if operation.size ≠ CollectStatisticsMetadata.layout.size then
            .error (.threw "CollectStatistics: failed to send the number of collected statistics.")
          else
            let replies :=
              .collectStatistics
                { channelId := -1, numberOfChannels := toInt32 channelStats.length } ::
              channelStats.map .channelStats
            .ok { stage := { stage with agent := agent }
                  replies := replies
                  value := (replies.map ControlReply.size).sum }
        else .ok { stage := { stage with agent := agent }, replies := [], value := 0 }

/-- The answer to the statistics of all channels: they are aggregated when they could be collected,
and the structure is written in any case. -/
def replyStatistics {ρ : Type} (aggregate : DetailedStats → ρ → Except Fault (PStatus × ρ))
    (initial : ρ) (reply : ρ → ControlReply) (stage : Stage) :
    Except Break (Agent × PStatus × DetailedStats) → Except Break Handled
  | .error b => .error b
  | .ok (agent, status, stats) =>
    if status.isOk then
      match aggregate stats initial with
      | .ok (_, raw) => .ok (.reply { stage with agent := agent } (reply raw))
      | .error f => .error (.fault f)
    else .ok (.reply { stage with agent := agent } (reply initial))

/-- What the four subtypes share. -/
def answerInstanceStatistics {ρ : Type}
    (aggregate : DetailedStats → ρ → Except Fault (PStatus × ρ)) (initial : ρ)
    (reply : ρ → ControlReply) (stage : Stage) : Except Break Handled :=
  replyStatistics aggregate initial reply stage
    (stage.agent.collectDetailedChannelStatistics env.readings (-1))

def collectInstanceStatistics (operation : ControlOperation) (stage : Stage) :
    Except Break Handled :=
  match operation.subtype with
  | some .collectStatsRocksdb =>
    answerInstanceStatistics env aggregateKvsStatistics {} .silk stage
  | some .collectStatsTensorflow =>
    answerInstanceStatistics env aggregateTfStatistics {} .tensorFlow stage
  | some .collectStatsGlobal =>
    answerInstanceStatistics env aggregateGlobalStatistics {} .global stage
  | some .collectStatsMetadataData =>
    answerInstanceStatistics env aggregateMetadataDataStatistics {} .dataMetadata stage
  | some .hskCreateChannel | some .hskCreateObject | some .collectStatsMds | some .noOp | none =>
    .ok { stage := stage, replies := [], value := -1 }

/-- The rule goes to the agent, and its status decides on the ACK. -/
def employHousekeepingRule (rule : HousekeepingRule) (stage : Stage) : Except Break Handled :=
  match stage.agent.employHousekeepingRule opt hash env.clock rule with
  | .error f => .error (.fault f)
  | .ok (_, .threw what) => .error (.threw what)
  | .ok (agent, .returned status) => .ok (.ack { stage with agent := agent } status.isOk)

def createHousekeepingRule (operation : ControlOperation) (received : List UInt8)
    (stage : Stage) : Except Break Handled :=
  match operation.subtype with
  | some .hskCreateChannel =>
    if received = [] then .ok (.ack stage false)
    else
      match readInto HousekeepingCreateChannelRaw.layout {} received with
      | .error f => .error (.fault f)
      | .ok createChannelRule => employHousekeepingRule opt hash env createChannelRule.rule stage
  | some .hskCreateObject =>
    if received = [] then .ok (.ack stage false)
    else
      match readInto HousekeepingCreateObjectRaw.layout {} received with
      | .error f => .error (.fault f)
      | .ok createObjectRule => employHousekeepingRule opt hash env createObjectRule.rule stage
  | some .noOp | some .collectStatsRocksdb | some .collectStatsTensorflow
  | some .collectStatsGlobal | some .collectStatsMetadataData | some .collectStatsMds =>
    .error (.threw "Unsupported operation type.")
  | none => .ok (.ack stage false)

def createEnforcementRule (received : List UInt8) (stage : Stage) : Except Break Handled :=
  if received = [] then .ok (.ack stage false)
  else
    match readInto EnforcementRuleRaw.layout {} received with
    | .error f => .error (.fault f)
    | .ok enforcementRule =>
      match stage.agent.core.employ (EnforcementRule.ofRaw enforcementRule) with
      | .error f => .error (.fault f)
      | .ok (core, status) =>
        .ok (.ack { stage with agent := { stage.agent with core := core } } status.isOk)

def executeHousekeepingRules (stage : Stage) : Except Break Handled :=
  match stage.agent.executeHousekeepingRules opt hash env.ruleClock env.order with
  | .error f => .error (.fault f)
  | .ok (_, .threw what) => .error (.threw what)
  | .ok (agent, .returned status) => .ok (.ack { stage with agent := agent } (!status.isError))

def handleControlOperation (operation : ControlOperation) (received : List UInt8)
    (stage : Stage) : Except Break Handled :=
  match operation.type with
  | some .markStageReady => markStageAsReady received stage
  | some .collectStats => collectStatistics env operation received stage
  | some .collectDetailedStats => collectInstanceStatistics env operation stage
  | some .createHskRule => createHousekeepingRule opt hash env operation received stage
  | some .createDifRule => .error (.threw "create_differentiation_rule not implemented.")
  | some .createEnfRule => createEnforcementRule received stage
  | some .execHskRules => executeHousekeepingRules opt hash env stage
  | some .removeRule => .error (.threw "remove_rule not implemented.")
  | some .stageHandshake | none =>
    .error (.threw "SouthboundConnectionHandler: unknown operation type")

/-! ## The loop -/

/-- What a handled operation got: the replies and the value that was returned. -/
structure Answer where
  replies : List ControlReply
  value : Int
  deriving DecidableEq

/-- The stage with the answers that were given so far. -/
structure Session where
  stage : Stage
  answers : List Answer := []

/-- One pass through the loop of `listen`, after its reads. -/
def handle (session : Session) (header received : List UInt8) : Except Break Session :=
  match handleControlOperation opt hash env (ControlOperation.layout.decode header) received
      (env.application session.stage) with
  | .error b => .error b
  | .ok handled =>
    if handled.value ≤ 0 then
      .error (.threw "ConnectionManager: failed to receive control operation.")
    else
      .ok { stage := handled.stage
            answers := session.answers ++ [{ replies := handled.replies, value := handled.value }] }

/-- The loop goes on when the handler comes back with a positive value. -/
theorem handle_eq_ok {session session' : Session} {header received : List UInt8} :
    handle opt hash env session header received = .ok session' ↔
      ∃ handled, handleControlOperation opt hash env (ControlOperation.layout.decode header)
          received (env.application session.stage) = .ok handled ∧ 0 < handled.value ∧
        session' = { stage := handled.stage
                     answers := session.answers ++
                       [{ replies := handled.replies, value := handled.value }] } := by
  rw [handle]
  generalize handleControlOperation opt hash env (ControlOperation.layout.decode header)
    received (env.application session.stage) = out
  cases out with
  | error b => simp
  | ok handled =>
    by_cases hvalue : handled.value ≤ 0
    · simp [hvalue, not_lt.mpr hvalue]
    · simp [hvalue, not_le.mp hvalue, eq_comm]

/-- How the messages are framed and handled; `env i` is the environment of the `i`-th. -/
def protocol (env : Nat → Environment) : FramedStream.Protocol UInt8 Session Break where
  headerSize := ControlOperation.layout.size
  header_pos := by decide
  wants header := (ControlOperation.layout.decode header).payloadCount
  handle i := handle opt hash (env i)

/-- `listen` on a stream of bytes; `split` limits what each read returns. The stage is not shut
down meanwhile. -/
def listen (env : Nat → Environment) (split : Nat → Nat) (stream : List UInt8) (stage : Stage) :
    List Message × FramedStream.End Session Break :=
  (protocol opt hash env).serve split (stream.length + 1) 0 (ControlOperation.layout.encode {})
    { pending := stream } { stage := stage }

/-- Every pass takes at least one byte from the stream, so that `listen` comes to an end. -/
theorem listen_ends (env : Nat → Environment) (split : Nat → Nat) (stream : List UInt8)
    (stage : Stage) : (listen opt hash env split stream stage).2 ≠ .outOfFuel := by
  unfold listen
  apply FramedStream.Protocol.serve_ne_outOfFuel
  exact Nat.lt_succ_self _

end Southbound

end Paio
