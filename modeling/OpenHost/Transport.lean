import OpenHost.BigEndian
import OpenHost.Checks
import OpenHost.Decoding
import OpenHost.Execution

/-!
# Requests and responses on the wire

A message is a frame: a 64-bit length and a payload of at most 64 MiB. The
payload is decoded by a positional reader whose every slice, index and
fixed-size conversion panics outside its domain, as in the program. Bytes
that a peer has sent and bytes that were written to it are kept apart, and
an operation that fails keeps what it has consumed or written so far.
-/

namespace OpenHost

/-- Errors of the transport. -/
inductive TransportError where
  | emptyRequestId
  | emptyWorkloadId
  | invalidEndpointIdentity
  | emptyLocator
  | invalidLocator
  | invalidSourceIdentity
  | missingSourceIdentity
  | unauthorizedClient
  | emptyClientAllowlist
  | duplicateAuthorizedClientCertificate
  | certificateAssignedToMultipleIdentities
  | invalidNodeIdentity
  | invalidParticipantIdentity
  | invalidRuntimeSpec
  | invalidResources
  | endpointUnavailable
  | endpointAlreadyRegistered
  | requestRejected
  | networkFailure
  | unsupportedProtocolVersion
  | tlsConfigurationFailure
  | tlsHandshakeFailure
  | responseIdMismatch
  | frameTooLarge
  | malformedFrame
  deriving DecidableEq

/-- Where a participant executes work. -/
@[ext] structure ExecutionEndpoint where
  /-- Participant behind the endpoint. -/
  participantId : Identity
  /-- Address of the endpoint. -/
  locator : String
  deriving DecidableEq

/-- One unit of a plan, addressed to one endpoint. -/
structure ExecutionRequest where
  /-- Name of the request. -/
  requestId : String
  /-- Identity that the caller claims. -/
  sourceParticipantId : Option Identity
  /-- Workload to run. -/
  workload : WorkItem
  /-- Node that the unit belongs to. -/
  nodeId : Identity
  /-- Runtime to run it in. -/
  runtime : RuntimeSpec
  /-- Participant and resources of the unit. -/
  unit : ExecutionUnit F64
  /-- Endpoint that is to run it. -/
  endpoint : ExecutionEndpoint
  deriving DecidableEq

/-- State of an execution. -/
inductive ExecutionStatus where
  | pending
  | dispatched
  | running
  | completed
  | failed
  | cancelled
  deriving DecidableEq

/-- Answer to a request. -/
structure ExecutionResponse where
  /-- Name of the request that is answered. -/
  requestId : String
  /-- State of its execution. -/
  status : ExecutionStatus
  /-- Text of an error. -/
  error : Option String
  deriving DecidableEq

/-- The answer to a request that was executed. -/
def ExecutionResponse.completed (requestId : String) : ExecutionResponse :=
  ⟨requestId,.completed,none⟩

/-- The answer to a request that was not executed. -/
def ExecutionResponse.failed (requestId error : String) : ExecutionResponse :=
  ⟨requestId,.failed,some error⟩

/-- The checks that both ends make on a request. -/
def validateTransportRequest [UuidCrate] (request : ExecutionRequest) :
    Except TransportError Unit := do
  rejectIf (request.requestId="") .emptyRequestId
  rejectIf (request.workload.id="") .emptyWorkloadId
  rejectIf (request.nodeId.kind≠.logicalNode) .invalidNodeIdentity
  rejectIf (request.sourceParticipantId.any fun source =>
    source.kind≠.participant || !source.validate.isOk) .invalidSourceIdentity
  rejectIf (request.runtime.name="" ∨ request.runtime.version="") .invalidRuntimeSpec
  rejectIf (request.unit.participantId.kind≠.participant) .invalidParticipantIdentity
  rejectIf (request.endpoint.participantId≠request.unit.participantId) .invalidParticipantIdentity
  request.unit.resources.validateRequirement.mapError fun _ => .invalidResources

/-- Largest payload of a frame. -/
def maxFrameSize : ℕ := 64*1024*1024

/-- The one version of the protocol. -/
def protocolVersion : UInt8 := 1

/-- One end of a connection. -/
structure ByteStream where
  /-- Bytes of the peer that are still unread; behind them every read fails. -/
  incoming : List UInt8
  /-- Bytes written to the peer so far. -/
  outgoing : List UInt8
  /-- How many more bytes can be written before writing fails; none is unbounded. -/
  room : Option ℕ
  deriving DecidableEq

namespace ByteStream

/-- Fill a buffer of that many bytes, or consume what is there and fail. -/
def readExact (count : ℕ) (stream : ByteStream) :
    Option {bytes : List UInt8 // bytes.length=count} × ByteStream :=
  if h : count ≤ stream.incoming.length then
    (some ⟨stream.incoming.take count,List.length_take_of_le h⟩,
      {stream with incoming := stream.incoming.drop count})
  else (none,{stream with incoming := []})

/-- Write all the bytes, or as many as there is room for and fail. -/
def writeAll (bytes : List UInt8) (stream : ByteStream) : Bool × ByteStream :=
  match stream.room with
  | none => (true,{stream with outgoing := stream.outgoing++bytes})
  | some room =>
    (decide (bytes.length ≤ room),
      {stream with outgoing := stream.outgoing++bytes.take room,room := some (room-bytes.length)})

end ByteStream

/-- A payload that fits a frame. -/
@[ext] structure Frame where
  /-- Bytes of the payload. -/
  payload : List UInt8
  /-- The length passes the check of both ends. -/
  bounded : payload.length ≤ maxFrameSize

/-- Write a payload behind its length. -/
def writeFrame (stream : ByteStream) (payload : List UInt8) :
    Except TransportError Unit × ByteStream :=
  if maxFrameSize<payload.length then (.error .frameTooLarge,stream)
  else
    match stream.writeAll (BigEndian.toBeBytes 8 payload.length) with
    | (false,stream) => (.error .networkFailure,stream)
    | (true,stream) =>
      match stream.writeAll payload with
      | (false,stream) => (.error .networkFailure,stream)
      | (true,stream) => (.ok (),stream)

/-- Read a length, refuse it if it is too large, and read that many bytes. -/
def readFrame (stream : ByteStream) : Except TransportError Frame × ByteStream :=
  match stream.readExact 8 with
  | (none,stream) => (.error .networkFailure,stream)
  | (some header,stream) =>
    let length := BigEndian.fromBeBytes header.val
    if hl : maxFrameSize<length then (.error .frameTooLarge,stream)
    else
      match stream.readExact length with
      | (none,stream) => (.error .networkFailure,stream)
      | (some payload,stream) =>
        (.ok ⟨payload.val,payload.property.le.trans (Nat.le_of_not_lt hl)⟩,stream)

/-- Bytes of a text. -/
def utf8Bytes (value : String) : List UInt8 := value.toUTF8.data.toList

/-- Append a length and that many bytes; a length beyond 32 bits is refused. -/
def writeBytes (buffer value : List UInt8) : Except TransportError (List UInt8) :=
  if 2^32-1<value.length then .error .frameTooLarge
  else .ok (buffer++BigEndian.toBeBytes 4 value.length++value)

/-- Append the length of a text and its bytes. -/
def writeString (buffer : List UInt8) (value : String) : Except TransportError (List UInt8) :=
  writeBytes buffer (utf8Bytes value)

/-- Number of a kind on the wire. -/
def kindToU8 : Kind → UInt8
  | .participant => 0
  | .logicalNode => 1
  | .lease => 2
  | .virtualMachine => 3

/-- Number of a status on the wire. -/
def statusToU8 : ExecutionStatus → UInt8
  | .pending => 0
  | .dispatched => 1
  | .running => 2
  | .completed => 3
  | .failed => 4
  | .cancelled => 5

/-- Status of a number on the wire. -/
def u8ToStatus (value : UInt8) : Except TransportError ExecutionStatus :=
  if value=0 then .ok .pending
  else if value=1 then .ok .dispatched
  else if value=2 then .ok .running
  else if value=3 then .ok .completed
  else if value=4 then .ok .failed
  else if value=5 then .ok .cancelled
  else .error .malformedFrame

/-- Append the text and the kind of an identity. -/
def writeIdentity (buffer : List UInt8) (identity : Identity) :
    Except TransportError (List UInt8) := do
  let buffer ← writeString buffer identity.id
  .ok (buffer++[kindToU8 identity.kind])

/-- Append the claimed identity behind its flag. -/
def writeSource (buffer : List UInt8) : Option Identity → Except TransportError (List UInt8)
  | some identity => writeIdentity (buffer++[1]) identity
  | none => .ok (buffer++[0])

/-- Append the amounts and the lifetime of a fragment. -/
def writeResources (buffer : List UInt8) (resources : ResourceFragment F64) : List UInt8 :=
  let buffer := buffer++BigEndian.toBeBytes 8 resources.cpu.bits.toNat
  let buffer := buffer++BigEndian.toBeBytes 8 resources.memory.toNat
  let buffer := buffer++BigEndian.toBeBytes 8 resources.storage.toNat
  let buffer := buffer++BigEndian.toBeBytes 8 resources.network.toNat
  let buffer := buffer++BigEndian.toBeBytes 4 resources.gpu.toNat
  match resources.lifetime with
  | some duration =>
    buffer++[1]++BigEndian.toBeBytes 8 duration.asSecs.toNat++
      BigEndian.toBeBytes 4 duration.subsecNanos.toNat
  | none => buffer++[0]

/-- Build the payload of a request. -/
def requestPayload (request : ExecutionRequest) : Except TransportError (List UInt8) := do
  let payload ← writeString [protocolVersion] request.requestId
  let payload ← writeSource payload request.sourceParticipantId
  let payload ← writeString payload request.workload.id
  let payload ← writeBytes payload request.workload.payload
  let payload ← writeIdentity payload request.nodeId
  let payload ← writeString payload request.runtime.name
  let payload ← writeString payload request.runtime.version
  let payload ← writeIdentity payload request.unit.participantId
  let payload := writeResources payload request.unit.resources
  let payload ← writeIdentity payload request.endpoint.participantId
  writeString payload request.endpoint.locator

/-- Write the frame of a request. -/
def writeRequest (stream : ByteStream) (request : ExecutionRequest) :
    Except TransportError Unit × ByteStream :=
  match requestPayload request with
  | .error e => (.error e,stream)
  | .ok payload => writeFrame stream payload

/-- Build the payload of a response. -/
def responsePayload (response : ExecutionResponse) : Except TransportError (List UInt8) := do
  let payload ← writeString [protocolVersion] response.requestId
  let payload := payload++[statusToU8 response.status]
  match response.error with
  | some error => writeString (payload++[1]) error
  | none => .ok (payload++[0])

/-- Write the frame of a response. -/
def writeResponse (stream : ByteStream) (response : ExecutionResponse) :
    Except TransportError Unit × ByteStream :=
  match responsePayload response with
  | .error e => (.error e,stream)
  | .ok payload => writeFrame stream payload

/-- A slice of a byte string; a range that is reversed or too long panics. -/
def sliceRange {ε : Type} (bytes : List UInt8) (start stop : ℕ) : Outcome ε (List UInt8) :=
  if start ≤ stop ∧ stop ≤ bytes.length then .ok ((bytes.drop start).take (stop-start)) else .panic

/-- One byte of a byte string; an index out of bounds panics. -/
def indexByte {ε : Type} (bytes : List UInt8) (index : ℕ) : Outcome ε UInt8 :=
  match bytes[index]? with
  | some b => .ok b
  | none => .panic

/-- The number spelled by exactly `w` bytes; another length panics. -/
def fixedBytes {ε : Type} (w : ℕ) (bytes : List UInt8) : Outcome ε ℕ :=
  if bytes.length=w then .ok (BigEndian.fromBeBytes bytes) else .panic

/-- The text with the given bytes, if they are valid. -/
def fromUtf8 (bytes : List UInt8) : Except TransportError String :=
  match String.fromUTF8? ⟨bytes.toArray⟩ with
  | some value => .ok value
  | none => .error .malformedFrame

/-- A payload and a position in it. -/
structure Reader where
  /-- All bytes of the payload. -/
  bytes : List UInt8
  /-- Number of bytes that were taken. -/
  position : ℕ
  /-- The position never leaves the payload. -/
  inBounds : position ≤ bytes.length
  /-- Lengths in memory fit a machine word. -/
  addressable : bytes.length<2^64

namespace Reader

open Decoding

/-- A reader of transport payloads. -/
abbrev Read (α : Type) := Decoder Reader TransportError α

/-- Start at the first byte of a frame. -/
def new (frame : Frame) : Reader where
  bytes := frame.payload
  position := 0
  inBounds := Nat.zero_le _
  addressable := frame.bounded.trans_lt (by decide)

/-- Take that many bytes; the position is added with an overflow check. -/
def take (length : ℕ) : Read (List UInt8) := fun reader =>
  if 2^64 ≤ reader.position+length then .err .malformedFrame
  else if h : reader.bytes.length<reader.position+length then .err .malformedFrame
  else do
    let value ← sliceRange reader.bytes reader.position (reader.position+length)
    .ok (value,{reader with
      position := reader.position+length
      inBounds := Nat.le_of_not_lt h})

/-- Take one byte. -/
def byte : Read UInt8 := do
  let bytes ← take 1
  lift (indexByte bytes 0)

/-- Take the number spelled by the next `w` bytes. -/
def fixed (w : ℕ) : Read ℕ := do
  let bytes ← take w
  lift (fixedBytes w bytes)

/-- Take a 32-bit word. -/
def u32 : Read UInt32 := UInt32.ofNat <$> fixed 4

/-- Take a 64-bit word. -/
def u64 : Read UInt64 := UInt64.ofNat <$> fixed 8

/-- Take the pattern of a binary64 number. -/
def f64 : Read F64 := (fun n => ⟨UInt64.ofNat n⟩) <$> fixed 8

/-- Take a length and that many bytes, which must be the bytes of a text. -/
def string : Read String := do
  let length ← u32
  let bytes ← take length.toNat
  check (fromUtf8 bytes)

/-- Take a length and that many bytes. -/
def bytesField : Read (List UInt8) := do
  let length ← u32
  take length.toNat

/-- Take the number of a kind. -/
def kind : Read Kind := do
  let value ← byte
  if value=0 then pure .participant
  else if value=1 then pure .logicalNode
  else if value=2 then pure .lease
  else if value=3 then pure .virtualMachine
  else refuse .malformedFrame

/-- Take an optional field behind its flag. -/
def optional {α : Type} (field : Read α) : Read (Option α) := do
  let flag ← byte
  if flag=0 then pure none
  else if flag=1 then some <$> field
  else refuse .malformedFrame

/-- Take two words and build a span of time from them. -/
def duration : Read Duration := do
  let secs ← u64
  let nanos ← u32
  lift (Duration.new secs nanos)

/-- Take the amounts and the lifetime of a fragment and check them. -/
def resources : Read (ResourceFragment F64) := do
  let cpu ← f64
  let memory ← u64
  let storage ← u64
  let network ← u64
  let gpu ← u32
  let lifetime ← optional duration
  let resources : ResourceFragment F64 := ⟨cpu,memory,storage,network,gpu,lifetime⟩
  check (resources.validateRequirement.mapError fun _ => .invalidResources)
  pure resources

/-- Nothing may be left behind the last field. -/
def finish : Read Unit := fun reader =>
  if reader.position=reader.bytes.length then .ok ((),reader) else .err .malformedFrame

/-- Take the version of the protocol, which must be the known one. -/
def version : Read Unit := do
  let version ← byte
  check (rejectIf (version≠protocolVersion) .unsupportedProtocolVersion)

/-- Take a text and a kind and accept them as an identity. -/
def identity [UuidCrate] : Read Identity := do
  let id ← string
  let kind ← kind
  check ((Identity.parse id kind).mapError fun _ => .malformedFrame)

end Reader

open Decoding Reader

/-- Decode a whole payload as a response. -/
def responseBody : Read ExecutionResponse := do
  version
  let requestId ← string
  let value ← byte
  let status ← check (u8ToStatus value)
  let error ← optional string
  finish
  pure ⟨requestId,status,error⟩

/-- Read one frame and decode its payload. -/
def readMessage {α : Type} (body : Read α) (stream : ByteStream) :
    Outcome TransportError α × ByteStream :=
  match readFrame stream with
  | (.error e,stream) => (.err e,stream)
  | (.ok frame,stream) =>
    match body (Reader.new frame) with
    | .ok (message,_) => (.ok message,stream)
    | .err e => (.err e,stream)
    | .panic => (.panic,stream)

/-- Read a response. -/
def readResponse (stream : ByteStream) : Outcome TransportError ExecutionResponse × ByteStream :=
  readMessage responseBody stream

/-- The fields of a request in front of the resources of its unit. -/
@[ext] structure RequestHead where
  /-- Name of the request. -/
  requestId : String
  /-- Identity that the caller claims. -/
  sourceParticipantId : Option Identity
  /-- Workload to run. -/
  workload : WorkItem
  /-- Node that the unit belongs to. -/
  nodeId : Identity
  /-- Runtime to run it in. -/
  runtime : RuntimeSpec
  /-- Participant of the unit. -/
  participantId : Identity
  deriving DecidableEq

variable [UuidCrate]

/-- Decode the fields in front of the resources, in the order of the program. -/
def requestHead : Read RequestHead := do
  version
  let requestId ← string
  let sourceParticipantId ← optional identity
  let workloadId ← string
  let payload ← bytesField
  let nodeId ← identity
  let name ← string
  let version ← string
  let participantId ← identity
  pure ⟨requestId,sourceParticipantId,⟨workloadId,payload⟩,nodeId,⟨name,version⟩,participantId⟩

/-- Decode all fields of a request. -/
def requestFields : Read ExecutionRequest := do
  let head ← requestHead
  let resources ← resources
  let endpointParticipantId ← identity
  let locator ← string
  pure ⟨head.requestId,head.sourceParticipantId,head.workload,head.nodeId,head.runtime,
    ⟨head.participantId,resources⟩,⟨endpointParticipantId,locator⟩⟩

/-- Decode a whole payload as a request and check it. -/
def requestBody : Read ExecutionRequest := do
  let request ← requestFields
  finish
  check (validateTransportRequest request)
  pure request

/-- Read a request. -/
def readRequest (stream : ByteStream) : Outcome TransportError ExecutionRequest × ByteStream :=
  readMessage requestBody stream

end OpenHost
