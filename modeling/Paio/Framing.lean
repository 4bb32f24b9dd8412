import Paio.Southbound

/-!
# Paio.Framing

The stream of the control plane against the reads of `listen`. The socket may return fewer bytes
than a read asks for; the sizes are checked where structures are written, but what a read returns
is taken for the whole structure. `handles_exactly_iff` says that `listen` handles exactly the
messages that were sent if and only if no read is short, given that the messages are such that the
loop goes on after each of them.
-/

namespace Paio

namespace Southbound

variable {opt : Options} {hash : String → UInt32} {env : Nat → Environment}

/-- `listen` handles the messages, each once and in order, and comes to the end of the stream. -/
def HandlesExactly (opt : Options) (hash : String → UInt32) (env : Nat → Environment)
    (split : Nat → Nat) (stage : Stage) (messages : List Message) : Prop :=
  ∃ session, listen opt hash env split (FramedStream.Protocol.encode messages) stage =
    (messages, .closed session)

/-- Handed one after the other to `handle_control_operation`, every message is answered with a
positive value, so that none of them ends the loop. -/
def Accepted (opt : Options) (hash : String → UInt32) (env : Nat → Environment) (stage : Stage)
    (messages : List Message) : Prop :=
  ∃ session, (protocol opt hash env).handleAll 0 { stage := stage } messages = .ok session

/-- No read that is made for the messages returns less than it asks for. -/
def WholeReads (opt : Options) (hash : String → UInt32) (env : Nat → Environment)
    (split : Nat → Nat) (messages : List Message) : Prop :=
  (protocol opt hash env).Whole split 0 messages

/-- The handler of an operation that comes back has asked for the whole structure. -/
theorem payloadCount_of_handled {e : Environment} {operation : ControlOperation}
    {received : List UInt8} {stage : Stage} {handled : Handled}
    (hsize : operation.size = operation.structureSize)
    (h : handleControlOperation opt hash e operation received stage = .ok handled) :
    operation.payloadCount.getD 0 = operation.structureSize := by
  have hrequested : ControlOperation.payloadCount.requested operation =
      some operation.structureSize := by
    rw [ControlOperation.payloadCount.requested, hsize, if_pos (Int.natCast_nonneg _),
      Int.toNat_natCast]
  unfold handleControlOperation at h
  unfold ControlOperation.payloadCount
  cases htype : operation.type with
  | none => rw [htype] at h; cases h
  | some type =>
    rw [htype] at h
    cases type with
    | stageHandshake => cases h
    | createDifRule => cases h
    | removeRule => cases h
    | markStageReady => simp only [hrequested, Option.getD_some]
    | collectStats => simp only [hrequested, Option.getD_some]
    | createEnfRule => simp only [hrequested, Option.getD_some]
    | collectDetailedStats => simp [ControlOperation.structureSize, htype]
    | execHskRules => simp [ControlOperation.structureSize, htype]
    | createHskRule =>
      cases hsub : operation.subtype with
      | none => simp [ControlOperation.structureSize, htype, hsub]
      | some subtype =>
        cases subtype with
        | hskCreateChannel => simp only [hrequested, Option.getD_some]
        | hskCreateObject => simp only [hrequested, Option.getD_some]
        | _ => simp [ControlOperation.structureSize, htype, hsub]

theorem sent_of_handle {e : Environment} {m : Message} {session session' : Session}
    (hm : m.WellFormed)
    (h : handle opt hash e session m.header m.payload = .ok session') :
    (protocol opt hash env).Sent m := by
  refine ⟨hm.header, ?_⟩
  have hsize := hm.size
  have hpayload := hm.payload
  rw [Message.operation] at hsize hpayload
  rw [hpayload, protocol]
  obtain ⟨handled, hhandled, _, _⟩ := (handle_eq_ok opt hash e).mp h
  rw [payloadCount_of_handled hsize hhandled]

theorem sent_of_handleAll {i : Nat} {session session' : Session} {messages : List Message}
    (hwf : ∀ m ∈ messages, Message.WellFormed m)
    (h : (protocol opt hash env).handleAll i session messages = .ok session') :
    ∀ m ∈ messages, (protocol opt hash env).Sent m := by
  intro m hm
  obtain ⟨j, session₁, session₂, hhandle⟩ := FramedStream.Protocol.handle_of_handleAll h hm
  rw [protocol] at hhandle
  exact sent_of_handle (hwf m hm) hhandle

theorem listen_eq_iff {split : Nat → Nat} {stage : Stage} {messages : List Message}
    {session : Session} (hsent : ∀ m ∈ messages, (protocol opt hash env).Sent m) :
    listen opt hash env split (FramedStream.Protocol.encode messages) stage =
        (messages, .closed session) ↔
      WholeReads opt hash env split messages ∧
        (protocol opt hash env).handleAll 0 { stage := stage } messages = .ok session :=
  FramedStream.Protocol.serve_frames_iff hsent (StructLayout.Layout.length_encode _ _)
    (Nat.lt_succ_self _)

/-- Well-formed messages are handled exactly as they were sent if and only if no read is short and
none of the messages ends the loop. -/
theorem handles_exactly_iff (opt : Options) (hash : String → UInt32) (env : Nat → Environment)
    (split : Nat → Nat) (stage : Stage) {messages : List Message}
    (hwf : ∀ m ∈ messages, Message.WellFormed m) :
    HandlesExactly opt hash env split stage messages ↔
      WholeReads opt hash env split messages ∧ Accepted opt hash env stage messages := by
  constructor
  · rintro ⟨session, h⟩
    have hall : (protocol opt hash env).handleAll 0 { stage := stage } messages = .ok session :=
      FramedStream.Protocol.serve_closed_handled h
    exact ⟨((listen_eq_iff (sent_of_handleAll hwf hall)).mp h).1, session, hall⟩
  · rintro ⟨hwhole, session, hall⟩
    exact ⟨session, (listen_eq_iff (sent_of_handleAll hwf hall)).mpr ⟨hwhole, hall⟩⟩

/-! ### Two messages -/

/-- A stage without channels. -/
def emptyStage : Stage := { agent := { core := Core.new {} } }

/-- The stage is to be marked ready. -/
def readyMessage : Message :=
  Message.ofOperation { operationId := 1, operationType := 1, size := 1 } [1]

/-- The housekeeping rules are to be executed. -/
def executeMessage : Message := Message.ofOperation { operationId := 2, operationType := 7 } []

theorem wellFormed_readyMessage : readyMessage.WellFormed := ⟨by decide, by decide, by decide⟩

theorem wellFormed_executeMessage : executeMessage.WellFormed := ⟨by decide, by decide, by decide⟩

theorem handles_exactly_two_messages :
    HandlesExactly {} numeralHash (fun _ => {}) (fun _ => 16) emptyStage
      [readyMessage, executeMessage] := by
  have hwf : ∀ m ∈ [readyMessage, executeMessage], Message.WellFormed m := by
    intro m hm
    rcases List.mem_pair.mp hm with rfl | rfl
    · exact wellFormed_readyMessage
    · exact wellFormed_executeMessage
  refine (handles_exactly_iff {} numeralHash (fun _ => {}) (fun _ => 16) emptyStage hwf).mpr
    ⟨?_, _, rfl⟩
  exact ⟨by decide, by decide, by decide, trivial⟩

/-- With reads of 8 bytes the second half of the first header is taken for an operation of its own.
With whole reads the same bytes are the two messages. -/
theorem short_read_misframed :
    (listen {} numeralHash (fun _ => {}) (fun _ => 16)
      (FramedStream.Protocol.encode [readyMessage, executeMessage]) emptyStage).1 =
        [readyMessage, executeMessage] ∧
    ¬ HandlesExactly {} numeralHash (fun _ => {}) (fun _ => 8) emptyStage
      [readyMessage, executeMessage] := by
  refine ⟨by decide, ?_⟩
  rintro ⟨session, h⟩
  have hframes : (listen {} numeralHash (fun _ => {}) (fun _ => 8)
      (FramedStream.Protocol.encode [readyMessage, executeMessage]) emptyStage).1 ≠
        [readyMessage, executeMessage] := by decide
  exact hframes (by rw [h])

end Southbound

end Paio
