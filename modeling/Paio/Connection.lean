import Paio.ControlSession
import Paio.StageInfo

/-!
# Paio.Connection

From the options of a connection to the session of the control plane. The connection manager
connects the handshake handler to the address of its options; the handler waits for a handshake,
sends who the stage is, and is told where to connect next. There the southbound handler listens for
control operations, under the communication type that the stage was compiled with.

`connected_session_eq`: a stage that connects and is sent a list of commands says who it is, and
ends as the calls end that the commands stand for. When the stage was compiled without a
communication type, as the shipped options have it, the southbound handler never listens, whatever
the options of the connection and whatever the control plane sends; a handshake is all that is
answered.
-/

namespace Paio

open CString (cString)
open FieldMemory (Memory Store)
open StructLayout

inductive CommunicationType where
  | none
  | unix
  | inet
  | rpc
  deriving DecidableEq, Repr

/-- `option_default_communication_type`. -/
def optionDefaultCommunicationType : CommunicationType := .none

structure ConnectionOptions where
  connectionType : CommunicationType
  address : Text
  port : Int

/-- The other end of a connection: what it sends, and what a read returns of it. -/
structure Peer where
  stream : List UInt8
  split : Nat → Nat

/-- Who answers at a path, and at an address with its port. -/
structure Network where
  unix : Text → Option Peer
  inet : Text → Nat → Option Peer

/-! ## The handlers -/

namespace ConnectionHandler

/-- `strncpy` into `sun_path`, which has room for 107 bytes and a terminator. -/
def sunPath (socketName : Text) : Text := (cString socketName).take 107

/-- `htons`: the port as 16 bits. -/
def htons (port : Int) : Nat := unsigned 16 port

/-- Without a socket the handler keeps the descriptor `-1`; a socket that is not connected is an
exception. -/
def connectToControlPlane (net : Network) (type : CommunicationType) (address : Text)
    (port : Int) : Except String (Option Peer) :=
  match type with
  | .unix =>
    match net.unix (sunPath address) with
    | some peer => .ok (some peer)
    | none => .error "Error while creating connection."
  | .inet =>
    match net.inet (cString address) (htons port) with
    | some peer => .ok (some peer)
    | none => .error "Error while creating connection."
  | .rpc | .none => .ok none

/-- `log_control_operation`: the text of a type that is not known is an exception. -/
def logControlOperation (debug : Bool) (operation : ControlOperation) : Except Break Unit :=
  if debug then
    match operation.type with
    | some _ => .ok ()
    | none => .error (.threw ("ConnectionHandler: unrecognized operation type (" ++
        toString operation.operationType ++ ")"))
  else .ok ()

end ConnectionHandler

/-- `StageHandshakeRaw`: where the southbound handler connects. -/
structure StageHandshake where
  address : Text
  port : Int
  deriving DecidableEq, Repr

namespace StageHandshake

def maxAddressSize : Nat := 100

/-- `sizeof (StageHandshakeRaw)`. -/
def size : Nat := maxAddressSize + 4

/-- The structure before anything is received: an empty address and the port `-1`. -/
def initial : List UInt8 := List.replicate maxAddressSize 0 ++ toBytes 4 (unsigned 32 (-1))

/-- The members of the structure. An address without a terminator is read beyond its field. -/
def ofBytes (bytes : List UInt8) : Except Fault StageHandshake :=
  if 0 ∈ bytes.take maxAddressSize then
    .ok { address := cString (bytes.take maxAddressSize)
          port := signed 32 (StructLayout.ofBytes (bytes.drop maxAddressSize)) }
  else .error .outOfBounds

/-- What a control plane sends. -/
def encode (h : StageHandshake) : List UInt8 :=
  h.address ++ List.replicate (maxAddressSize - h.address.length) 0 ++
    toBytes 4 (unsigned 32 h.port)

/-- An address with its terminator, and a port that is an `int`. -/
structure Valid (h : StageHandshake) : Prop where
  nulFree : 0 ∉ h.address
  short : h.address.length < maxAddressSize
  port : IsSigned 32 h.port

theorem length_encode {h : StageHandshake} (hv : h.Valid) : h.encode.length = size := by
  have hshort := hv.short
  simp only [encode, size, List.length_append, List.length_replicate, length_toBytes]
  omega

theorem ofBytes_encode {h : StageHandshake} (hv : h.Valid) : ofBytes h.encode = .ok h := by
  have hshort := hv.short
  have hlength : (h.address ++ List.replicate (maxAddressSize - h.address.length) 0).length =
      maxAddressSize := by
    rw [List.length_append, List.length_replicate]
    omega
  obtain ⟨n, hn⟩ : ∃ n, maxAddressSize - h.address.length = n + 1 :=
    ⟨maxAddressSize - h.address.length - 1, by omega⟩
  have hbytes := StructLayout.ofBytes_toBytes 4 (unsigned 32 h.port)
  rw [ofBytes, encode, List.take_left' hlength, List.drop_left' hlength, hn, List.replicate_succ,
    if_pos (by simp), CString.cString_append_nul hv.nulFree, hbytes, signed_int hv.port]

end StageHandshake

/-! ## The handshake -/

namespace StageInfo

/-- `sizeof (StageInfoRaw)`, a multiple of the alignment of its numbers. -/
def rawSize (limits : NameLimits) : Nat :=
  (260 + limits.hostNameMax + limits.loginNameMax + 3) / 4 * 4

/-- `StageInfoRaw {}`: empty texts and the numbers `-1`. -/
def initialRaw : Memory := fun i => if 252 ≤ i ∧ i < 260 then 255 else 0

/-- `get_stage_info` and the bytes of the structure, unless a text leaves its field. -/
def rawBytes (limits : NameLimits) (info : StageInfo) : Except Break (List UInt8) :=
  match info.serialize limits with
  | .error what => .error (.threw what)
  | .ok stores =>
    if ∀ s ∈ stores, s.bytes.length ≤ RawField.size limits s.field then
      .ok (FieldMemory.bytesAt (FieldMemory.applyAll (rawLayout limits) initialRaw stores) 0
        (rawSize limits))
    else .error (.fault .outOfBounds)

/-- The bytes as the memory of the one that receives them. -/
def received (bytes : List UInt8) : Memory := fun i => bytes.getD i 0

end StageInfo

namespace HandshakeConnectionHandler

/-- A handshake that was made: what was sent, and where to connect next. -/
structure Handshake where
  sent : List UInt8
  southbound : StageHandshake

/-- `stage_handshake`, on what is left of the stream; nothing received is an exception of
`listen`. -/
def stageHandshake (limits : NameLimits) (info : StageInfo) (split : Nat → Nat)
    (src : FramedStream.Source UInt8) : Except Break Handshake :=
  match info.rawBytes limits with
  | .error b => .error b
  | .ok sent =>
    let received := (src.read split StageHandshake.size).1
    if received = [] then
      .error (.threw "ConnectionManager: failed to receive control operation.")
    else
      match StageHandshake.ofBytes (overlay received StageHandshake.initial) with
      | .error f => .error (.fault f)
      | .ok southbound => .ok { sent := sent, southbound := southbound }

def listen (debug : Bool) (limits : NameLimits) (info : StageInfo) :
    Option Peer → Except Break Handshake
  | none => .error (.threw "HandshakeConnectionHandler: invalid socket")
  | some peer =>
    let src : FramedStream.Source UInt8 := { pending := peer.stream }
    let received := src.read peer.split ControlOperation.layout.size
    if received.1 = [] then
      .error (.threw "ConnectionManager: failed to receive control operation.")
    else
      let operation := ControlOperation.layout.decode
        (overlay received.1 (ControlOperation.layout.encode {}))
      match ConnectionHandler.logControlOperation debug operation with
      | .error b => .error b
      | .ok () =>
        match operation.type with
        | some .stageHandshake => stageHandshake limits info peer.split received.2
        | _ => .error (.threw ("HandshakeConnectionHandler: unknown operation type (" ++
            toString operation.operationType ++ ")"))

end HandshakeConnectionHandler

/-! ## The connection manager -/

/-- What becomes of a connection manager. An exception in its constructor refuses the stage, one in
a thread of its own terminates the program. -/
inductive Course where
  | standalone
  | refused (what : String)
  | terminated (b : Break)
  | listening (sent : List UInt8) (messages : List Message)
      (ending : FramedStream.End Southbound.Session Break)

section

variable (opt : Options) (hash : String → UInt32) (env : Nat → Environment)

/-- `ConnectionManager::connect`. The southbound handler is given the default communication type,
whatever the options say. -/
def ConnectionManager.connect (net : Network) (defaultType : CommunicationType) (debug : Bool)
    (limits : NameLimits) (info : StageInfo) (options : ConnectionOptions) (stage : Stage) :
    Course :=
  match ConnectionHandler.connectToControlPlane net options.connectionType options.address
      options.port with
  | .error what => .refused what
  | .ok socket =>
    if options.connectionType = .none then
      match ConnectionHandler.connectToControlPlane net defaultType [] (-1) with
      | .error what => .refused what
      | .ok _ => .standalone
    else
      match HandshakeConnectionHandler.listen debug limits info socket with
      | .error b => .terminated b
      | .ok handshake =>
        match ConnectionHandler.connectToControlPlane net defaultType
            handshake.southbound.address handshake.southbound.port with
        | .error what => .refused what
        | .ok none => .terminated (.threw "SouthboundConnectionHandler: invalid socket")
        | .ok (some peer) =>
          let out := Southbound.listen opt hash env peer.split peer.stream stage
          .listening handshake.sent out.1 out.2

end

/-! ## A stage that says who it is -/

namespace StageInfo

variable {limits : NameLimits} {info : StageInfo}

/-- A structure whose texts all fit is sent as it is. -/
theorem rawBytes_of_fits (hnul : info.NulFree) (hfits : Fits limits info) :
    info.rawBytes limits = .ok (FieldMemory.bytesAt
      (FieldMemory.applyAll (rawLayout limits) initialRaw info.stores) 0 (rawSize limits)) := by
  have hstrcpy : ∀ (field : RawField) {s : Text}, 0 ∉ s → s.length < field.size limits →
      (strcpy field s).bytes.length ≤ RawField.size limits (strcpy field s).field :=
    fun field s hs hlt => by
      have hinside : (strcpy field s).Inside (rawLayout limits) := (inside_strcpy_iff hs).mpr hlt
      exact Store.inside_iff.mp hinside
  obtain ⟨hname, hopt, hhostname, hloginName⟩ := hfits
  have hinside : ∀ s ∈ info.stores, s.bytes.length ≤ RawField.size limits s.field := by
    simp only [stores, List.forall_mem_cons, List.not_mem_nil, false_implies, implies_true,
      and_true]
    exact ⟨hstrcpy .stageName hnul.name hname, hstrcpy .stageOpt hnul.opt hopt,
      (length_toBytes 4 _).le, (length_toBytes 4 _).le,
      hstrcpy .stageHostname hnul.hostname hhostname,
      hstrcpy .stageLoginName hnul.loginName hloginName⟩
  rw [rawBytes, serialize_of_not_tooLong (Fits.not_tooLong ⟨hname, hopt, hhostname, hloginName⟩)]
  simp only [if_pos hinside]

/-- Every field lies within the structure. -/
theorem offset_add_size_le (limits : NameLimits) (field : RawField) :
    field.offset limits + field.size limits ≤ rawSize limits := by
  unfold rawSize
  cases field <;> simp only [RawField.offset, RawField.size, stageNameMaxSize, stageOptMaxSize] <;>
    omega

theorem content_received (limits : NameLimits) (raw : Memory) (field : RawField) :
    FieldMemory.content (rawLayout limits)
        (received (FieldMemory.bytesAt raw 0 (rawSize limits))) field =
      FieldMemory.content (rawLayout limits) raw field := by
  have hwithin := offset_add_size_le limits field
  refine List.map_congr_left fun i hi => ?_
  have hlt : (rawLayout limits).offset field + i < rawSize limits := by
    have hi := List.mem_range.mp hi
    exact lt_of_lt_of_le (Nat.add_lt_add_left hi _) hwithin
  simp only [received, FieldMemory.bytesAt, List.getD_eq_getElem?_getD, List.getElem?_map,
    List.getElem?_range hlt, Option.map_some, Option.getD_some, Nat.zero_add]

/-- The control plane reads who the stage is. -/
theorem exists_rawBytes (hnul : info.NulFree) (hfits : Fits limits info) :
    ∃ sent, info.rawBytes limits = .ok sent ∧ ReadsBack limits info (received sent) := by
  refine ⟨_, rawBytes_of_fits hnul hfits, ?_⟩
  have hback : ReadsBack limits info
      (FieldMemory.applyAll (rawLayout limits) initialRaw info.stores) :=
    readsBack_of_fits hnul hfits
  have htext := fun field => congrArg cString (content_received limits
    (FieldMemory.applyAll (rawLayout limits) initialRaw info.stores) field)
  have hint := fun field => congrArg (fun bytes => signed 32 (StructLayout.ofBytes bytes))
    (content_received limits
      (FieldMemory.applyAll (rawLayout limits) initialRaw info.stores) field)
  exact ⟨(htext .stageName).trans hback.name, (htext .stageOpt).trans hback.opt,
    (hint .pid).trans hback.pid, (hint .ppid).trans hback.ppid,
    (htext .stageHostname).trans hback.hostname, (htext .stageLoginName).trans hback.loginName⟩

end StageInfo

/-! ## A control plane that answers -/

/-- The operation with which a control plane begins. -/
def handshakeOperation (operationId operationSubtype size : Int) : ControlOperation where
  operationId := operationId
  operationType := 0
  operationSubtype := operationSubtype
  size := size

/-- A peer that sends a handshake, whatever comes after it. -/
structure Peer.Greets (peer : Peer) (southbound : StageHandshake) : Prop where
  sends : ∃ id subtype size rest, IsSigned 32 id ∧ IsSigned 32 subtype ∧ IsSigned 32 size ∧
    peer.stream = ControlOperation.layout.encode (handshakeOperation id subtype size) ++
      (southbound.encode ++ rest)
  valid : southbound.Valid
  whole : ∀ k, StageHandshake.size ≤ peer.split k

/-- A peer that sends these commands and nothing else. -/
structure Peer.Commands (peer : Peer) (commands : List (Int × StageCommand)) : Prop where
  sends : peer.stream = FramedStream.Protocol.encode (StageCommand.messages commands)
  sendable : ∀ c ∈ commands, StageCommand.Sendable c
  whole : ∀ k, 72 ≤ peer.split k

theorem length_pos_of_size {bytes : List UInt8} {size : Nat} (hsize : 0 < size)
    (h : bytes.length = size) : bytes ≠ [] := by
  rintro rfl
  exact hsize.ne h

theorem HandshakeConnectionHandler.listen_of_greets {peer : Peer} {southbound : StageHandshake}
    (h : peer.Greets southbound) (debug : Bool) {limits : NameLimits} {info : StageInfo}
    {sent : List UInt8} (hsent : info.rawBytes limits = .ok sent) :
    listen debug limits info (some peer) = .ok { sent := sent, southbound := southbound } := by
  obtain ⟨id, subtype, size, rest, hid, hsubtype, hsize, hstream⟩ := h.sends
  have hfits : ControlOperation.layout.fits (handshakeOperation id subtype size) :=
    ⟨hid, show IsSigned 32 0 by decide, hsubtype, hsize⟩
  have hlength := ControlOperation.layout.length_encode (handshakeOperation id subtype size)
  have hreply := StageHandshake.length_encode h.valid
  -- both structures are read as a whole
  have hfirst : (⟨peer.stream, 0⟩ : FramedStream.Source UInt8).read peer.split
      ControlOperation.layout.size =
        (ControlOperation.layout.encode (handshakeOperation id subtype size),
          ⟨southbound.encode ++ rest, 0 + 1⟩) := by
    rw [← hlength]
    refine FramedStream.Source.read_whole hstream ?_
    rw [hlength]
    have hsmall : ControlOperation.layout.size ≤ StageHandshake.size := by decide
    exact hsmall.trans ((h.whole 0).trans (Nat.le_max_right _ _))
  have hsecond : (⟨southbound.encode ++ rest, 0 + 1⟩ : FramedStream.Source UInt8).read peer.split
      StageHandshake.size = (southbound.encode, ⟨rest, 0 + 1 + 1⟩) := by
    rw [← hreply]
    refine FramedStream.Source.read_whole rfl ?_
    rw [hreply]
    exact (h.whole (0 + 1)).trans (Nat.le_max_right _ _)
  have hoperation : ControlOperation.layout.decode
      (overlay (ControlOperation.layout.encode (handshakeOperation id subtype size))
        (ControlOperation.layout.encode {})) = handshakeOperation id subtype size := by
    rw [overlay_of_length_le (by rw [hlength, ControlOperation.layout.length_encode]),
      Layout.decode_encode _ hfits]
  have hlog : ConnectionHandler.logControlOperation debug
      (handshakeOperation id subtype size) = .ok () := by
    cases debug <;> rfl
  have hhandshake : overlay southbound.encode StageHandshake.initial = southbound.encode :=
    overlay_of_length_le (by rw [hreply]; decide)
  have hheader := length_pos_of_size (by decide) hlength
  have hpayload := length_pos_of_size (by decide) hreply
  have htype : (handshakeOperation id subtype size).type = some .stageHandshake := rfl
  simp only [listen, hfirst, if_neg hheader, hoperation, hlog, htype, stageHandshake, hsent,
    hsecond, if_neg hpayload, hhandshake, StageHandshake.ofBytes_encode h.valid]

section

variable (opt : Options) (hash : String → UInt32) (env : Nat → Environment)

/-- A stage that connects, is greeted and then sent commands, says who it is and ends as the calls
end that the commands stand for, if the default communication type connects it to the address of
the handshake. Under the default type that is shipped the southbound handler never listens. -/
theorem connected_session_eq (net : Network) (debug : Bool) (limits : NameLimits)
    {info : StageInfo} (hnul : info.NulFree) (hfits : info.Fits limits)
    (options : ConnectionOptions) (stage : Stage) :
    (∀ peer southbound defaultType peer' commands,
      ConnectionHandler.connectToControlPlane net options.connectionType options.address
        options.port = .ok (some peer) → peer.Greets southbound →
      ConnectionHandler.connectToControlPlane net defaultType southbound.address
        southbound.port = .ok (some peer') → peer'.Commands commands →
      ∃ sent messages, StageInfo.ReadsBack limits info (StageInfo.received sent) ∧
        ConnectionManager.connect opt hash env net defaultType debug limits info options stage =
          .listening sent messages
            (match StageCommand.performAll opt hash env 0 stage (commands.map Prod.snd) with
            | .error b => .failed b
            | .ok (stage', oks) =>
              .closed { stage := stage', answers := oks.map StageCommand.answer })) ∧
    ∀ sent messages ending,
      ConnectionManager.connect opt hash env net optionDefaultCommunicationType debug limits info
        options stage ≠ .listening sent messages ending := by
  constructor
  · intro peer southbound defaultType peer' commands hconnect hgreets hnext hcommands
    obtain ⟨sent, hsent, hback⟩ := StageInfo.exists_rawBytes hnul hfits
    have htype : options.connectionType ≠ .none := by
      intro hnone
      rw [hnone] at hconnect
      cases hconnect
    refine ⟨sent, (Southbound.listen opt hash env peer'.split peer'.stream stage).1, hback, ?_⟩
    simp only [ConnectionManager.connect, hconnect, if_neg htype,
      HandshakeConnectionHandler.listen_of_greets hgreets debug hsent, hnext]
    congr 1
    have hwhole := StageCommand.wholeReads_of_split opt hash env hcommands.whole
      hcommands.sendable
    rw [hcommands.sends, StageCommand.listen_messages hcommands.sendable hwhole,
      StageCommand.handleAll_commands hcommands.sendable]
    cases StageCommand.performAll opt hash env 0 stage (commands.map Prod.snd) <;> rfl
  · intro sent messages ending hlistening
    have hnone : ∀ address port, ConnectionHandler.connectToControlPlane net
        optionDefaultCommunicationType address port = .ok none := fun _ _ => rfl
    simp only [ConnectionManager.connect, hnone] at hlistening
    split at hlistening
    · cases hlistening
    · split at hlistening
      · cases hlistening
      · split at hlistening <;> cases hlistening

end

/-- A control plane at one path, that sends the stage to another. -/
def twoSockets : Network where
  unix path :=
    if path = text "handshake" then
      some { stream := ControlOperation.layout.encode (handshakeOperation 1 0 0) ++
               (StageHandshake.encode ⟨text "southbound", -1⟩ ++ [])
             split := fun _ => 104 }
    else if path = text "southbound" then
      some { stream := FramedStream.Protocol.encode (StageCommand.messages
               StageCommand.twoCommands)
             split := fun _ => 104 }
    else none
  inet _ _ := none

theorem connected_session_eq_two :
    ∃ sent messages,
      StageInfo.ReadsBack .default (StageInfo.withName (text "stage"))
        (StageInfo.received sent) ∧
      ConnectionManager.connect {} numeralHash (fun _ => {}) twoSockets .unix false .default
          (StageInfo.withName (text "stage")) ⟨.unix, text "handshake", -1⟩
          Southbound.emptyStage =
        .listening sent messages
          (match StageCommand.performAll {} numeralHash (fun _ => {}) 0 Southbound.emptyStage
            (StageCommand.twoCommands.map Prod.snd) with
          | .error b => .failed b
          | .ok (stage', oks) =>
            .closed { stage := stage', answers := oks.map StageCommand.answer }) := by
  have hfits : StageInfo.Fits .default (StageInfo.withName (text "stage")) := by
    unfold StageInfo.Fits
    decide
  refine (connected_session_eq {} numeralHash (fun _ => {}) twoSockets false .default
    (StageInfo.nulFree_withName (by decide)) hfits ⟨.unix, text "handshake", -1⟩
    Southbound.emptyStage).1 _ ⟨text "southbound", -1⟩ .unix _ StageCommand.twoCommands rfl
    ⟨⟨1, 0, 0, [], by decide, by decide, by decide, rfl⟩, ⟨by decide, by decide, by decide⟩,
      fun _ => Nat.le_refl _⟩ rfl
    ⟨rfl, StageCommand.sendable_twoCommands, fun _ => show 72 ≤ 104 by decide⟩

end Paio
