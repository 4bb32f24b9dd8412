import Paio.Channel

/-!
# Paio.FastPath

The two ways through a channel, for a request that is alone in it. On the fast path the object
writes into the caller's Result; on the queue path the caller's Result is overwritten by a copy of
a fresh one. Objects and statistics end up the same on both. The Results do not always: a request
without content leaves the content and the content size of the caller's Result in place on the
fast path, while the queue path clears them.
-/

namespace Paio

variable (opt : Options) (hash : String → UInt32)

/-- What a caller can read of a Result. -/
structure Result.Observation where
  ticketId : UInt64
  resultStatus : ResultStatus
  hasContent : Bool
  contentSize : Nat
  contentBytes : List UInt8
  deriving DecidableEq, Repr

def Result.observe (r : Result) : Result.Observation where
  ticketId := r.ticketId
  resultStatus := r.resultStatus
  hasContent := r.hasContent
  contentSize := r.contentSize
  contentBytes := r.contentBytes

/-- Two calls that both fail to come back in the same way, or come back with the same Result, the
same statistics and the same objects. -/
def SameOutcome (fast queue : Except Fault (ChannelDefault × Result)) : Prop :=
  match fast, queue with
  | .ok (chF, rF), .ok (chQ, rQ) =>
    rF.observe = rQ.observe ∧ chF.channelStatistics = chQ.channelStatistics ∧
      chF.submissionQueue = chQ.submissionQueue
  | .error f, .error f' => f = f'
  | _, _ => False

instance (fast queue : Except Fault (ChannelDefault × Result)) :
    Decidable (SameOutcome fast queue) :=
  match fast, queue with
  | .ok _, .ok _ => inferInstanceAs (Decidable (_ ∧ _ ∧ _))
  | .error f, .error f' => inferInstanceAs (Decidable (f = f'))
  | .ok _, .error _ => .isFalse id
  | .error _, .ok _ => .isFalse id

/-- A Result that holds no content, neither its own nor that of an older request. -/
def Result.HoldsNothing (r : Result) : Prop := r.contentSize = 0 ∧ r.contentBytes = []

namespace ChannelDefault

def onFastPath (ch : ChannelDefault) : ChannelDefault := { ch with useFastPath := true }

def onQueuePath (ch : ChannelDefault) : ChannelDefault := { ch with useFastPath := false }

/-- A ticket carries a buffer exactly when the request has a pointer and a positive size. -/
theorem buildTicket_bufferSize_pos (ch : ChannelDefault) (context : Context) (buffer : Buffer)
    (size : Nat) :
    0 < (ch.buildTicket context buffer size).1.bufferSize ↔ buffer ≠ none ∧ 0 < size := by
  cases buffer with
  | none => simp [buildTicket, buildTicket.withoutContent]
  | some p =>
    by_cases h : 0 < size
    · simp [buildTicket, h]
    · simp [buildTicket, buildTicket.withoutContent, h]

/-- Both paths write the same Result exactly when the ticket carries a buffer or the caller's
Result holds nothing. -/
theorem writeResult_observe_iff (t : Ticket) (r : Result) :
    (t.writeResult (r.setTicketId t.ticketId)).observe = t.freshResult.observe ↔
      0 < t.bufferSize ∨ r.HoldsNothing := by
  rcases Nat.eq_zero_or_pos t.bufferSize with h | h
  · rw [Ticket.writeResult_noContent h]
    simp [Result.observe, Result.setTicketId, Ticket.freshResult, h, Result.HoldsNothing,
      Result.contentBytes]
  · rw [Ticket.writeResult_content h]
    simp [Result.observe, Result.setTicketId, Ticket.freshResult, h, Result.contentBytes]

/-- The queue path does to the channel what the fast path does, and leaves the Result that the
ticket alone determines. -/
theorem onQueuePath_channelEnforce (clock : Clock) (fuel : Nat) (ch : ChannelDefault)
    (context : Context) (buffer : Buffer) (size : Nat) (r : Result) :
    ch.onQueuePath.channelEnforce opt hash clock fuel context buffer size r =
      match ch.onFastPath.channelEnforce opt hash clock fuel context buffer size r with
      | .ok (chF, _) =>
        .ok (chF.onQueuePath, (ch.buildTicket context buffer size).1.freshResult)
      | .error f => .error f := by
  have hticket : ∀ ch₂ : ChannelDefault, ch₂.ticketId = ch.ticketId →
      (ch₂.buildTicket context buffer size).1 = (ch.buildTicket context buffer size).1 :=
    fun ch₂ h => buildTicket_congr ch ch₂ h context buffer size
  simp only [channelEnforce_eq, finishRequest, hticket ch.onQueuePath rfl, hticket ch.onFastPath rfl]
  simp only [onQueuePath, onFastPath, if_true, Bool.false_eq_true, if_false]
  cases ch.submissionQueue.enforceMechanism hash clock fuel
      (ch.buildTicket context buffer size).1 (r.setTicketId ch.ticketId) with
  | error f => rfl
  | ok out =>
    obtain ⟨q, r'⟩ := out
    simp only
    have hrecord := recordStatistics_congr opt
      { ch with ticketId := ch.ticketId + 1, submissionQueue := q, useFastPath := true }
      { ch with ticketId := ch.ticketId + 1, submissionQueue := q, useFastPath := false }
      rfl rfl context
    rw [hrecord]
    cases hs : ({ ch with
        ticketId := ch.ticketId + 1
        submissionQueue := q
        useFastPath := true } : ChannelDefault).recordStatistics opt context with
    | error f => rfl
    | ok ch' =>
      obtain ⟨stats, rfl⟩ := recordStatistics_cases opt hs
      rfl

theorem onFastPath_result {clock : Clock} {fuel : Nat} {ch chF : ChannelDefault}
    {context : Context} {buffer : Buffer} {size : Nat} {r rF : Result}
    (h : ch.onFastPath.channelEnforce opt hash clock fuel context buffer size r = .ok (chF, rF)) :
    rF = (ch.buildTicket context buffer size).1.writeResult (r.setTicketId ch.ticketId) := by
  have hticket : (ch.onFastPath.buildTicket context buffer size).1 =
      (ch.buildTicket context buffer size).1 := buildTicket_congr ch ch.onFastPath rfl _ _ _
  rw [channelEnforce_eq, hticket] at h
  simp only [finishRequest] at h
  split at h
  · cases h
  · rename_i q r' hq
    have hr' := SubmissionQueue.enforceMechanism_result hash hq
    split at h
    · cases h
      exact hr'
    · cases h

/-- A request that comes back has the same outcome on both paths exactly when it carries content
or the caller's Result holds none. -/
theorem sameOutcome_iff {clock : Clock} {fuel : Nat} {ch : ChannelDefault} {context : Context}
    {buffer : Buffer} {size : Nat} {r : Result}
    (hret : (ch.onFastPath.channelEnforce opt hash clock fuel context buffer size r).isOk) :
    SameOutcome (ch.onFastPath.channelEnforce opt hash clock fuel context buffer size r)
        (ch.onQueuePath.channelEnforce opt hash clock fuel context buffer size r) ↔
      (buffer ≠ none ∧ 0 < size) ∨ r.HoldsNothing := by
  rw [onQueuePath_channelEnforce, ← ch.buildTicket_bufferSize_pos context buffer size]
  cases h : ch.onFastPath.channelEnforce opt hash clock fuel context buffer size r with
  | error f => rw [h] at hret; cases hret
  | ok out =>
    obtain ⟨chF, rF⟩ := out
    have hid : (ch.buildTicket context buffer size).1.ticketId = ch.ticketId := by simp
    rw [onFastPath_result opt hash h, ← hid, ← writeResult_observe_iff]
    constructor
    · rintro ⟨ho, _, _⟩
      exact ho
    · intro ho
      exact ⟨ho, rfl, rfl⟩

/-- A request with four bytes of content, on a Result that still holds the content of another. -/
theorem sameOutcome_iff_four :
    let ch := ChannelDefault.new {} 1 fun _ => 0
    let r : Result := { hasContent := true, contentSize := 2, content := some [7, 7] }
    let buffer : Buffer := some fun i => UInt8.ofNat i
    SameOutcome (ch.onFastPath.channelEnforce {} numeralHash (fun _ => 0) 0 {} buffer 4 r)
        (ch.onQueuePath.channelEnforce {} numeralHash (fun _ => 0) 0 {} buffer 4 r) :=
  (sameOutcome_iff {} numeralHash (by decide)).mpr (.inl ⟨by decide, by decide⟩)

/-- A request without content, on a Result that an earlier request left with two bytes: on the fast
path the two bytes stay in it. -/
theorem sameOutcome_fails_reused :
    let ch := ChannelDefault.new {} 1 fun _ => 0
    let r : Result :=
      { resultStatus := .success, hasContent := true, contentSize := 2, content := some [7, 7] }
    ¬ SameOutcome (ch.onFastPath.channelEnforce {} numeralHash (fun _ => 0) 0 {} none 0 r)
        (ch.onQueuePath.channelEnforce {} numeralHash (fun _ => 0) 0 {} none 0 r) := by
  decide

/-- A request that never comes back does so on both paths. -/
theorem sameOutcome_of_error {clock : Clock} {fuel : Nat} {ch : ChannelDefault}
    {context : Context} {buffer : Buffer} {size : Nat} {r : Result} {f : Fault}
    (h : ch.onFastPath.channelEnforce opt hash clock fuel context buffer size r = .error f) :
    SameOutcome (ch.onFastPath.channelEnforce opt hash clock fuel context buffer size r)
      (ch.onQueuePath.channelEnforce opt hash clock fuel context buffer size r) := by
  rw [onQueuePath_channelEnforce, h]
  rfl

end ChannelDefault

end Paio
