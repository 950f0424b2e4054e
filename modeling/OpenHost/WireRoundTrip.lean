import OpenHost.WireFrame

/-!
# A written request and what the receiver makes of it

The writer spells every request whose lengths fit, valid or not. On such a
spelling the reader answers with the same request exactly when the request
passes the common checks and its node and participant are canonical, and
with an error otherwise. Whatever follows the frame is left unread.
-/

namespace OpenHost

open Decoding BigEndian

/-- The fields of a request in front of its resources. -/
def ExecutionRequest.head (request : ExecutionRequest) : RequestHead where
  requestId := request.requestId
  sourceParticipantId := request.sourceParticipantId
  workload := request.workload
  nodeId := request.nodeId
  runtime := request.runtime
  participantId := request.unit.participantId

/-- The spelling of a lifetime by the writer. -/
def lifetimeBytes (lifetime : Option Duration) : List UInt8 :=
  optionalBytes (fun d => spanBytes d.asSecs d.subsecNanos) lifetime

/-- The spelling of a fragment by the writer. -/
def resourceBytes (resources : ResourceFragment F64) : List UInt8 :=
  amountBytes resources++lifetimeBytes resources.lifetime

/-- The spelling of a request by the writer. -/
def requestBytes (request : ExecutionRequest) : List UInt8 :=
  headBytes request.head++(resourceBytes request.unit.resources++
    (identityBytes request.endpoint.participantId++textBytes request.endpoint.locator))

/-- Every length in the head of a request fits its 32-bit field. -/
structure ShortHead (head : RequestHead) : Prop where
  /-- Name of the request. -/
  requestId : ShortText head.requestId
  /-- Claimed identity, if there is one. -/
  source : ∀ source ∈ head.sourceParticipantId,ShortText source.id
  /-- Name of the workload. -/
  workloadId : ShortText head.workload.id
  /-- Bytes of the workload. -/
  payload : Short head.workload.payload
  /-- Node of the unit. -/
  nodeId : ShortText head.nodeId.id
  /-- Name of the runtime. -/
  name : ShortText head.runtime.name
  /-- Version of the runtime. -/
  version : ShortText head.runtime.version
  /-- Participant of the unit. -/
  participantId : ShortText head.participantId.id

/-- Every length in a request fits its 32-bit field. -/
structure ShortRequest (request : ExecutionRequest) : Prop where
  /-- Fields in front of the resources. -/
  head : ShortHead request.head
  /-- Participant of the endpoint. -/
  endpointId : ShortText request.endpoint.participantId.id
  /-- Address of the endpoint. -/
  locator : ShortText request.endpoint.locator

section Writer

/-- Bytes are written behind their length exactly when the length fits. -/
theorem writeBytes_eq_ok {buffer value out : List UInt8} :
    writeBytes buffer value=.ok out ↔ Short value ∧ buffer++prefixed value=out := by
  rw [writeBytes,Short,prefixed]
  split
  · next h =>
    have hn : ¬value.length<2^32 := by omega
    constructor
    · intro hw
      cases hw
    · intro hw
      exact (hn hw.1).elim
  · next h =>
    have hl : value.length<2^32 := by omega
    rw [Except.ok.injEq,List.append_assoc]
    exact (and_iff_right hl).symm

theorem writeString_eq_ok {buffer out : List UInt8} {value : String} :
    writeString buffer value=.ok out ↔ ShortText value ∧ buffer++textBytes value=out :=
  writeBytes_eq_ok

theorem writeIdentity_eq_ok {buffer out : List UInt8} {identity : Identity} :
    writeIdentity buffer identity=.ok out ↔
      ShortText identity.id ∧ buffer++identityBytes identity=out := by
  simp only [writeIdentity,Checks.bind_eq_ok,writeString_eq_ok,and_assoc,exists_and_left,
    exists_eq_left',Except.ok.injEq,identityBytes,List.append_assoc]

theorem writeSource_eq_ok {buffer out : List UInt8} {source : Option Identity} :
    writeSource buffer source=.ok out ↔ (∀ identity ∈ source,ShortText identity.id) ∧
      buffer++optionalBytes identityBytes source=out := by
  cases source with
  | none => simp [writeSource,optionalBytes]
  | some identity => simp [writeSource,optionalBytes,writeIdentity_eq_ok]

/-- Resources are always written. -/
theorem writeResources_eq (buffer : List UInt8) (resources : ResourceFragment F64) :
    writeResources buffer resources=buffer++resourceBytes resources := by
  rw [writeResources,resourceBytes,lifetimeBytes]
  cases resources.lifetime with
  | none => simp [amountBytes,optionalBytes]
  | some d => simp [amountBytes,optionalBytes,spanBytes]

/-- A payload is built exactly when every length fits, and is the spelling. -/
theorem requestPayload_eq_ok {request : ExecutionRequest} {payload : List UInt8} :
    requestPayload request=.ok payload ↔ ShortRequest request ∧ requestBytes request=payload := by
  simp only [requestPayload,Checks.bind_eq_ok,writeString_eq_ok,writeBytes_eq_ok,
    writeIdentity_eq_ok,writeSource_eq_ok,writeResources_eq,and_assoc,exists_and_left,
    exists_eq_left',List.append_assoc]
  constructor
  · rintro ⟨h1,h2,h3,h4,h5,h6,h7,h8,h9,h10,rfl⟩
    refine ⟨⟨⟨h1,h2,h3,h4,h5,h6,h7,h8⟩,h9,h10⟩,?_⟩
    simp only [requestBytes,headBytes,List.append_assoc]
    rfl
  · rintro ⟨⟨⟨h1,h2,h3,h4,h5,h6,h7,h8⟩,h9,h10⟩,rfl⟩
    refine ⟨h1,h2,h3,h4,h5,h6,h7,h8,h9,h10,?_⟩
    simp only [requestBytes,headBytes,List.append_assoc]
    rfl

/-- A successful write appends the frame of the spelling. -/
theorem writeRequest_eq_ok {stream after : ByteStream} {request : ExecutionRequest}
    (h : writeRequest stream request=(.ok (),after)) :
    ShortRequest request ∧ (requestBytes request).length ≤ maxFrameSize ∧
      after.outgoing=stream.outgoing++framed (requestBytes request) := by
  rw [writeRequest] at h
  split at h
  · cases h
  next payload hp =>
  obtain ⟨hs,rfl⟩ := requestPayload_eq_ok.mp hp
  exact ⟨hs,writeFrame_eq_ok h⟩

end Writer

namespace Reader

/-- An optional field is answered behind its flag. -/
theorem answers_optional {α : Type} {field : Read α} {bytes : α → List UInt8} {valid : α → Prop}
    {value : Option α} (hf : ∀ a ∈ value,Answers view field (bytes a) a (valid a)) :
    Answers view (optional field) (optionalBytes bytes value) value (∀ a ∈ value,valid a) := by
  cases value with
  | none =>
    have hb := reads_byte.answers (a:=0) rfl
    refine (hb.bind (Answers.pure none)).congr rfl ?_
    simp
  | some a =>
    have hb := reads_byte.answers (a:=1) rfl
    have ha := (hf a rfl).map some
    refine (hb.bind ha).congr rfl ?_
    simp

/-- A written fragment is answered if it is a valid requirement. -/
theorem answers_resources (r : ResourceFragment F64) :
    Answers view resources (resourceBytes r) r (r.validateRequirement=.ok ()) := by
  have hl : Answers view (optional duration) (lifetimeBytes r.lifetime) r.lifetime
      (∀ d ∈ r.lifetime,True) :=
    answers_optional fun d _ => reads_duration.answers ⟨_,_,rfl,Duration.new_parts d⟩
  have hc : Answers view (check (r.validateRequirement.mapError fun _ =>
      TransportError.invalidResources)) [] () (r.validateRequirement=.ok ()) :=
    Answers.check (fun h => by rw [Checks.mapError_eq_ok,h])
      (fun h => Checks.exists_error_of_unit (by rwa [Checks.mapError_eq_ok]))
  have hf : Answers view resources _ r _ := (reads_f64.answers (a:=r.cpu) rfl).bind <|
    (reads_u64.answers (a:=r.memory) rfl).bind <| (reads_u64.answers (a:=r.storage) rfl).bind <|
    (reads_u64.answers (a:=r.network) rfl).bind <| (reads_u32.answers (a:=r.gpu) rfl).bind <|
    hl.bind <| hc.bind (Answers.pure r)
  refine hf.congr ?_ ?_
  · simp only [resourceBytes,amountBytes,List.append_assoc,List.append_nil]
  · simp

variable [UuidCrate]

/-- A written identity is answered if it is canonical. -/
theorem answers_identity {i : Identity} (hs : ShortText i.id) :
    Answers view identity (identityBytes i) i (IsCanonical i.id) := by
  have hc : Answers view (check ((Identity.parse i.id i.kind).mapError fun _ =>
      TransportError.malformedFrame)) [] i (IsCanonical i.id) := by
    refine Answers.check ?_ ?_
    · intro h
      rw [Identity.parse_of_canonical h]
      rfl
    · intro h
      obtain ⟨e,he⟩ := Identity.parse_of_not_canonical h i.kind
      rw [he]
      exact ⟨_,rfl⟩
  have hf : Answers view identity _ i _ := (reads_string.answers (a:=i.id) ⟨hs,rfl⟩).bind <|
    (reads_kind.answers (a:=i.kind) rfl).bind hc
  refine hf.congr ?_ ?_
  · rw [List.append_nil,identityBytes]
  · simp

end Reader

open Reader

/-- The identities in the head of a request are canonical. -/
structure CanonicalHead (head : RequestHead) : Prop where
  /-- Claimed identity, if there is one. -/
  source : ∀ source ∈ head.sourceParticipantId,IsCanonical source.id
  /-- Node of the unit. -/
  nodeId : IsCanonical head.nodeId.id
  /-- Participant of the unit. -/
  participantId : IsCanonical head.participantId.id

section Exact

variable [UuidCrate]

/-- A written head is answered if its identities are canonical. -/
theorem answers_requestHead {head : RequestHead} (hs : ShortHead head) :
    Answers view requestHead (headBytes head) head (CanonicalHead head) := by
  have hv := reads_version.answers (a:=()) rfl
  have ho : Answers view (optional identity)
      (optionalBytes identityBytes head.sourceParticipantId) head.sourceParticipantId
      (∀ source ∈ head.sourceParticipantId,IsCanonical source.id) :=
    answers_optional fun source hm => answers_identity (hs.source source hm)
  have hf : Answers view requestHead _ head _ := hv.bind <|
    (reads_string.answers ⟨hs.requestId,rfl⟩).bind <| ho.bind <|
    (reads_string.answers ⟨hs.workloadId,rfl⟩).bind <|
    (reads_bytesField.answers ⟨hs.payload,rfl⟩).bind <| (answers_identity hs.nodeId).bind <|
    (reads_string.answers ⟨hs.name,rfl⟩).bind <| (reads_string.answers ⟨hs.version,rfl⟩).bind <|
    (answers_identity hs.participantId).bind (Answers.pure head)
  refine hf.congr ?_ ?_
  · rw [List.append_nil,headBytes]
  · constructor
    · rintro ⟨_,_,h1,_,_,h2,_,_,h3,_⟩
      exact ⟨h1,h2,h3⟩
    · rintro ⟨h1,h2,h3⟩
      exact ⟨trivial,trivial,h1,trivial,trivial,h2,trivial,trivial,h3,trivial⟩

/-- Written fields are answered if the identities are canonical and the
resources are a valid requirement. -/
theorem answers_requestFields {request : ExecutionRequest} (hs : ShortRequest request) :
    Answers view requestFields (requestBytes request) request
      (CanonicalHead request.head ∧ request.unit.resources.validateRequirement=.ok () ∧
        IsCanonical request.endpoint.participantId.id) := by
  have hf : Answers view requestFields _ request _ := (answers_requestHead hs.head).bind <|
    (answers_resources request.unit.resources).bind <| (answers_identity hs.endpointId).bind <|
    (reads_string.answers ⟨hs.locator,rfl⟩).bind (Answers.pure request)
  refine hf.congr ?_ ?_
  · rw [List.append_nil,requestBytes]
  · simp

/-- What the common checks ask of a request. -/
structure TransportValid (request : ExecutionRequest) : Prop where
  /-- The request has a name. -/
  requestId : request.requestId≠""
  /-- The workload has a name. -/
  workloadId : request.workload.id≠""
  /-- The node is a logical node. -/
  nodeKind : request.nodeId.kind=.logicalNode
  /-- The caller, if there is one, is a participant with a canonical text. -/
  source : ∀ source ∈ request.sourceParticipantId,source.kind=.participant ∧ IsCanonical source.id
  /-- The runtime has a name. -/
  name : request.runtime.name≠""
  /-- The runtime has a version. -/
  version : request.runtime.version≠""
  /-- The unit runs at a participant. -/
  participantKind : request.unit.participantId.kind=.participant
  /-- The endpoint is that participant's. -/
  endpoint : request.endpoint.participantId=request.unit.participantId
  /-- The resources are a valid requirement. -/
  resources : request.unit.resources.validateRequirement=.ok ()

/-- The common checks pass exactly on the valid requests. -/
theorem validateTransportRequest_eq_ok {request : ExecutionRequest} :
    validateTransportRequest request=.ok () ↔ TransportValid request := by
  have hsource : ¬(request.sourceParticipantId.any fun source =>
      source.kind≠.participant || !source.validate.isOk)=true ↔
      ∀ source ∈ request.sourceParticipantId,source.kind=.participant ∧ IsCanonical source.id := by
    cases request.sourceParticipantId with
    | none => simp
    | some source => simp
  simp only [validateTransportRequest,Checks.bind_eq_ok,Unique.exists_iff,PUnit.default_eq_unit,
    Checks.rejectIf_eq_ok,Checks.mapError_eq_ok,hsource,not_or,not_not]
  constructor
  · rintro ⟨h1,h2,h3,h4,⟨h5,h6⟩,h7,h8,h9⟩
    exact ⟨h1,h2,h3,h4,h5,h6,h7,h8,h9⟩
  · rintro ⟨h1,h2,h3,h4,h5,h6,h7,h8,h9⟩
    exact ⟨h1,h2,h3,h4,⟨h5,h6⟩,h7,h8,h9⟩

/-- What the receiver asks of a request that was written. -/
def Acceptable (request : ExecutionRequest) : Prop :=
  validateTransportRequest request=.ok () ∧ IsCanonical request.nodeId.id ∧
    IsCanonical request.unit.participantId.id

/-- A valid request with a canonical node and participant has no other
identity that could be refused. -/
theorem Acceptable.canonical {request : ExecutionRequest} (h : Acceptable request) :
    CanonicalHead request.head ∧ request.unit.resources.validateRequirement=.ok () ∧
      IsCanonical request.endpoint.participantId.id := by
  obtain ⟨hv,hn,hp⟩ := h
  have hr := validateTransportRequest_eq_ok.mp hv
  refine ⟨⟨fun source hm => (hr.source source hm).2,hn,hp⟩,hr.resources,?_⟩
  rw [hr.endpoint]
  exact hp

/-- The whole spelling of a request is decoded as that request exactly when
it is acceptable, and refused otherwise. -/
theorem requestBody_requestBytes {request : ExecutionRequest} (hs : ShortRequest request)
    {reader : Reader} (hv : reader.view=requestBytes request) :
    (Acceptable request → ∃ after, requestBody reader=.ok (request,after)) ∧
      (¬Acceptable request → ∃ e, requestBody reader=.err e) := by
  have hw : reader.view=requestBytes request++[] := by rw [hv,List.append_nil]
  have ha := answers_requestFields hs hw
  by_cases hc : CanonicalHead request.head ∧
      request.unit.resources.validateRequirement=.ok () ∧
      IsCanonical request.endpoint.participantId.id
  · obtain ⟨after,hf,hr⟩ := ha.1 hc
    have hb : requestBody reader=Outcome.ofExcept (validateTransportRequest request) >>= fun _ =>
        .ok (request,after) := by
      simp only [requestBody,bind_apply,hf,Outcome.ok_bind,finish_eq,hr,if_true]
      cases validateTransportRequest request <;> rfl
    rw [hb]
    constructor
    · intro h
      rw [h.1]
      exact ⟨after,rfl⟩
    · intro h
      have hn : ¬validateTransportRequest request=.ok () :=
        fun hok => h ⟨hok,hc.1.nodeId,hc.1.participantId⟩
      obtain ⟨e,he⟩ := Checks.exists_error_of_unit hn
      rw [he]
      exact ⟨e,rfl⟩
  · obtain ⟨e,he⟩ := ha.2 hc
    constructor
    · intro h
      exact (hc h.canonical).elim
    · intro _
      refine ⟨e,?_⟩
      rw [requestBody,bind_apply,he,Outcome.err_bind]

/-- The frame of a spelling is read as its request exactly when that is
acceptable, and refused otherwise; what follows it is left. -/
theorem readRequest_framed {request : ExecutionRequest} (hs : ShortRequest request)
    (hl : (requestBytes request).length ≤ maxFrameSize) {receiver : ByteStream}
    {rest : List UInt8} (hi : receiver.incoming=framed (requestBytes request)++rest) :
    (Acceptable request → readRequest receiver=(.ok request,{receiver with incoming := rest})) ∧
      (¬Acceptable request →
        ∃ e, readRequest receiver=(.err e,{receiver with incoming := rest})) := by
  let frame : Frame := ⟨requestBytes request,hl⟩
  have hf : receiver.incoming=framed frame.payload++rest := hi
  have hm : readRequest receiver=_ := readMessage_of_framed requestBody hf
  have hb := requestBody_requestBytes hs (view_new frame)
  rw [hm]
  constructor
  · intro h
    obtain ⟨after,ha⟩ := hb.1 h
    rw [ha]
    rfl
  · intro h
    obtain ⟨e,he⟩ := hb.2 h
    rw [he]
    exact ⟨e,rfl⟩

/-- A request that was written is read back, with exactly what follows it
left unread, if and only if it passes the common checks and its node and its
participant are canonical; in every other case reading it is an error. -/
theorem readRequest_writeRequest {request : ExecutionRequest} {stream after : ByteStream}
    (hw : writeRequest stream request=(.ok (),after)) :
    ∃ written, after.outgoing=stream.outgoing++written ∧
      ∀ (receiver : ByteStream) (rest : List UInt8), receiver.incoming=written++rest →
        (readRequest receiver=(.ok request,{receiver with incoming := rest}) ↔
          validateTransportRequest request=.ok () ∧ IsCanonical request.nodeId.id ∧
            IsCanonical request.unit.participantId.id) ∧
        (¬(validateTransportRequest request=.ok () ∧ IsCanonical request.nodeId.id ∧
            IsCanonical request.unit.participantId.id) →
          ∃ e, readRequest receiver=(.err e,{receiver with incoming := rest})) := by
  obtain ⟨hs,hl,ho⟩ := writeRequest_eq_ok hw
  refine ⟨framed (requestBytes request),ho,?_⟩
  intro receiver rest hi
  obtain ⟨hok,herr⟩ := readRequest_framed hs hl hi
  refine ⟨⟨?_,hok⟩,herr⟩
  intro hr
  by_contra hn
  obtain ⟨e,he⟩ := herr hn
  rw [hr] at he
  cases he

end Exact

section Sample

/-- A request for one core of a participant, for one second. -/
def sampleRequest : ExecutionRequest where
  requestId := "r"
  sourceParticipantId := some ⟨"11111111-1111-4111-8111-111111111111",.participant⟩
  workload := ⟨"w",[1,2,3]⟩
  nodeId := ⟨"22222222-2222-4222-8222-222222222222",.logicalNode⟩
  runtime := ⟨"wasm","1"⟩
  unit := ⟨⟨"11111111-1111-4111-8111-111111111111",.participant⟩,
    ⟨Cores.one,0,0,0,0,some ⟨1000000000,by decide⟩⟩⟩
  endpoint := ⟨⟨"11111111-1111-4111-8111-111111111111",.participant⟩,"h:1"⟩

/-- Every length in the sample request fits. -/
theorem sampleRequest_short : ShortRequest sampleRequest := by
  refine ⟨⟨by decide +kernel,?_,by decide +kernel,by decide +kernel,by decide +kernel,
    by decide +kernel,by decide +kernel,by decide +kernel⟩,by decide +kernel,by decide +kernel⟩
  intro source hm
  simp only [ExecutionRequest.head,sampleRequest,Option.mem_some_iff] at hm
  subst hm
  decide +kernel

/-- The sample request passes the common checks. -/
theorem sampleRequest_valid : letI := hyphenatedUuid
    validateTransportRequest sampleRequest=.ok () := by
  let := hyphenatedUuid
  refine validateTransportRequest_eq_ok.mpr ⟨by decide,by decide,rfl,?_,by decide,by decide,rfl,rfl,
    rfl⟩
  intro source hm
  simp only [sampleRequest,Option.mem_some_iff] at hm
  subst hm
  exact ⟨rfl,by decide +kernel⟩

/-- The sample request is written and read back in front of one more byte. -/
theorem readRequest_sampleRequest : letI := hyphenatedUuid
    ∃ written, writeRequest ⟨[],[],none⟩ sampleRequest=(.ok (),⟨[],written,none⟩) ∧
      readRequest ⟨written++[7],[],none⟩=(.ok sampleRequest,⟨[7],[],none⟩) := by
  let := hyphenatedUuid
  have hp := requestPayload_eq_ok.mpr ⟨sampleRequest_short,rfl⟩
  have hl : ¬maxFrameSize<(requestBytes sampleRequest).length := by decide +kernel
  have hw : writeRequest ⟨[],[],none⟩ sampleRequest=
      (.ok (),⟨[],framed (requestBytes sampleRequest),none⟩) := by
    rw [writeRequest,hp]
    dsimp only
    rw [writeFrame,if_neg hl]
    rfl
  obtain ⟨written,ho,hr⟩ := readRequest_writeRequest hw
  obtain rfl : framed (requestBytes sampleRequest)=written := ho
  refine ⟨_,hw,(hr _ [7] rfl).1.mpr ⟨sampleRequest_valid,?_,?_⟩⟩
  · decide +kernel
  · decide +kernel

end Sample

end OpenHost
