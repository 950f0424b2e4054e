import OpenHost.WireRoundTrip

/-!
# The spellings of a request

An accepted payload is spelled by its request, all but the twelve bytes of a
lifetime: seconds and nanoseconds name a span in as many ways as nanoseconds
can be carried. Written again, the request has the same length and the same
bytes elsewhere, and it is the same payload unless nanoseconds were carried.
-/

namespace OpenHost

open Decoding BigEndian

/-- A span is spelled by one pair of words. -/
theorem spanBytes_inj {a c : UInt64} {b d : UInt32} (h : spanBytes a b=spanBytes c d) :
    a=c ∧ b=d := by
  have hl : (toBeBytes 8 a.toNat).length=(toBeBytes 8 c.toNat).length := by
    rw [toBeBytes_length,toBeBytes_length]
  obtain ⟨hs,hn⟩ := List.append_inj h hl
  have hs' := congrArg fromBeBytes hs
  have hn' := congrArg fromBeBytes hn
  rw [fromBeBytes_toBeBytes a.toNat_lt,fromBeBytes_toBeBytes c.toNat_lt] at hs'
  rw [fromBeBytes_toBeBytes b.toNat_lt,fromBeBytes_toBeBytes d.toNat_lt] at hn'
  exact ⟨UInt64.toNat_inj.mp hs',UInt32.toNat_inj.mp hn'⟩

/-- The words of a span have twelve bytes. -/
theorem spanBytes_length (secs : UInt64) (nanos : UInt32) : (spanBytes secs nanos).length=12 := by
  rw [spanBytes,List.length_append,toBeBytes_length,toBeBytes_length]

/-- A span is written as it was read exactly when no nanoseconds were carried. -/
theorem spanBytes_parts_eq {secs : UInt64} {nanos : UInt32} {d : Duration}
    (h : (Duration.new secs nanos : Outcome TransportError Duration)=.ok d) :
    spanBytes d.asSecs d.subsecNanos=spanBytes secs nanos ↔ nanos.toNat<nanosPerSec := by
  have hpos : 0<nanosPerSec := by decide
  have hn : d.nanos=(secs.toNat+nanos.toNat/nanosPerSec)*nanosPerSec+nanos.toNat%nanosPerSec := by
    rw [Duration.new] at h
    split at h
    · rw [Outcome.ok.injEq] at h
      rw [← h]
    · cases h
  have hm := Nat.mod_lt nanos.toNat hpos
  have hsecs : d.asSecs.toNat=secs.toNat+nanos.toNat/nanosPerSec := by
    rw [Duration.asSecs_toNat,hn,Nat.add_comm,Nat.add_mul_div_right _ _ hpos,
      Nat.div_eq_of_lt hm,Nat.zero_add]
  have hsub : d.subsecNanos.toNat=nanos.toNat%nanosPerSec := by
    rw [Duration.subsecNanos_toNat,hn,Nat.add_comm,Nat.add_mul_mod_self_right,Nat.mod_mod]
  constructor
  · intro he
    have hnanos := congrArg UInt32.toNat (spanBytes_inj he).2
    rw [hsub] at hnanos
    omega
  · intro hlt
    have h1 : d.asSecs=secs := by
      rw [← UInt64.toNat_inj,hsecs,Nat.div_eq_of_lt hlt,Nat.add_zero]
    have h2 : d.subsecNanos=nanos := by
      rw [← UInt32.toNat_inj,hsub,Nat.mod_eq_of_lt hlt]
    rw [h1,h2]

/-- The words that are read as a span. -/
def SpanWord (d : Duration) (w : List UInt8) : Prop :=
  ∃ secs nanos,w=spanBytes secs nanos ∧
    (Duration.new secs nanos : Outcome TransportError Duration)=.ok d

/-- What a request spells in front of its lifetime. -/
def requestFront (request : ExecutionRequest) : List UInt8 :=
  headBytes request.head++amountBytes request.unit.resources

/-- What a request spells behind its lifetime. -/
def requestBack (request : ExecutionRequest) : List UInt8 :=
  identityBytes request.endpoint.participantId++textBytes request.endpoint.locator

/-- The spelling of the writer, in three parts. -/
theorem requestBytes_eq (request : ExecutionRequest) : requestBytes request=
    requestFront request++(lifetimeBytes request.unit.resources.lifetime++requestBack request) := by
  simp only [requestBytes,resourceBytes,requestFront,requestBack,List.append_assoc]

/-- A request whose texts fit and whose identities are accepted. -/
structure SpelledRequest (request : ExecutionRequest) : Prop where
  /-- Fields in front of the resources. -/
  head : SpelledHead request.head
  /-- Participant of the endpoint. -/
  endpointId : SpelledIdentity request.endpoint.participantId
  /-- Address of the endpoint. -/
  locator : ShortText request.endpoint.locator
  /-- The resources are a valid requirement. -/
  resources : request.unit.resources.validateRequirement=.ok ()

/-- The texts of such a request fit their length fields. -/
theorem SpelledRequest.short {request : ExecutionRequest} (h : SpelledRequest request) :
    ShortRequest request where
  head := ⟨h.head.requestId,fun source hs => (h.head.source source hs).short,h.head.workloadId,
    h.head.payload,h.head.nodeId.short,h.head.name,h.head.version,h.head.participantId.short⟩
  endpointId := h.endpointId.short
  locator := h.locator

namespace Reader

/-- Resources are read from the amounts and any spelling of the lifetime. -/
theorem reads_resources : Reads view resources fun r w =>
    r.validateRequirement=.ok () ∧ ∃ tail,OptionalWord SpanWord r.lifetime tail ∧
      w=amountBytes r++tail := by
  have hl : Reads view (optional duration) (OptionalWord SpanWord) := reads_optional reads_duration
  refine (reads_f64.bind fun cpu => reads_u64.bind fun memory => reads_u64.bind fun storage =>
    reads_u64.bind fun network => reads_u32.bind fun gpu => hl.bind fun lifetime =>
    let r : ResourceFragment F64 := ⟨cpu,memory,storage,network,gpu,lifetime⟩
    (Reads.check (r.validateRequirement.mapError fun _ => TransportError.invalidResources)).bind
      fun _ => Reads.pure r).congr fun r w => ?_
  constructor
  · rintro ⟨cpu,_,_,rfl,rfl,memory,_,_,rfl,rfl,storage,_,_,rfl,rfl,network,_,_,rfl,rfl,gpu,_,_,rfl,
      rfl,lifetime,tail,_,rfl,hw,_,_,_,rfl,⟨hv,rfl⟩,rfl,rfl⟩
    refine ⟨Checks.mapError_eq_ok.mp hv,tail,hw,?_⟩
    simp only [amountBytes,List.append_assoc,List.append_nil]
  · rintro ⟨hv,tail,hw,rfl⟩
    refine ⟨r.cpu,_,_,?_,rfl,r.memory,_,_,rfl,rfl,r.storage,_,_,rfl,rfl,r.network,_,_,rfl,rfl,
      r.gpu,_,_,rfl,rfl,r.lifetime,tail,[],(List.append_nil _).symm,hw,(),[],[],rfl,
      ⟨Checks.mapError_eq_ok.mpr hv,rfl⟩,rfl,rfl⟩
    simp only [amountBytes,List.append_assoc]

variable [UuidCrate]

/-- A request is read from its own bytes around any spelling of its lifetime. -/
theorem reads_requestFields : Reads view requestFields fun request w => SpelledRequest request ∧
    ∃ tail,OptionalWord SpanWord request.unit.resources.lifetime tail ∧
      w=requestFront request++(tail++requestBack request) := by
  refine (reads_requestHead.bind fun head => reads_resources.bind fun resources =>
    reads_identity.bind fun endpointId => reads_string.bind fun locator =>
    Reads.pure _).congr fun request w => ?_
  constructor
  · rintro ⟨head,_,_,rfl,⟨hh,rfl⟩,resources,_,_,rfl,⟨hv,tail,hw,rfl⟩,endpointId,_,_,rfl,⟨he,rfl⟩,
      locator,_,_,rfl,⟨hl,rfl⟩,rfl,rfl⟩
    refine ⟨⟨hh,he,hl,hv⟩,tail,hw,?_⟩
    simp only [requestFront,requestBack,List.append_assoc,List.append_nil]
    rfl
  · rintro ⟨⟨hh,he,hl,hv⟩,tail,hw,rfl⟩
    refine ⟨request.head,_,_,?_,⟨hh,rfl⟩,request.unit.resources,_,_,rfl,⟨hv,tail,hw,rfl⟩,
      request.endpoint.participantId,_,_,rfl,⟨he,rfl⟩,request.endpoint.locator,_,[],
      (List.append_nil _).symm,⟨hl,rfl⟩,rfl,rfl⟩
    simp only [requestFront,requestBack,List.append_assoc]

/-- A payload is accepted as a request exactly when it is a spelling of the
request as a whole and the request passes the common checks. -/
theorem requestBody_eq_ok {frame : Frame} {request : ExecutionRequest} :
    (∃ after,requestBody (new frame)=.ok (request,after)) ↔
      (SpelledRequest request ∧ ∃ tail,OptionalWord SpanWord request.unit.resources.lifetime tail ∧
        frame.payload=requestFront request++(tail++requestBack request)) ∧
      validateTransportRequest request=.ok () :=
  whole_eq_ok reads_requestFields

end Reader

section Exact

open Reader

variable [UuidCrate]

/-- A request that was read from a payload is written in as many bytes; they
are the same ones but for a lifetime whose nanoseconds make up a second, and
then they differ in the words of that lifetime only. -/
theorem writeRequest_readRequest {stream after : ByteStream} {payload rest : List UInt8}
    {request : ExecutionRequest} (hl : payload.length ≤ maxFrameSize)
    (hi : stream.incoming=framed payload++rest)
    (hr : readRequest stream=(.ok request,after)) :
    ∃ again,(∀ out : ByteStream,out.room=none → writeRequest out request=
        (.ok (),{out with outgoing := out.outgoing++framed again})) ∧
      again.length=payload.length ∧
      (payload=requestFront request++0::requestBack request ∧ again=payload ∨
        ∃ secs nanos secs' nanos',
          payload=requestFront request++1::(spanBytes secs nanos++requestBack request) ∧
          again=requestFront request++1::(spanBytes secs' nanos'++requestBack request) ∧
          (again=payload ↔ nanos.toNat<nanosPerSec)) := by
  obtain ⟨⟨hs,tail,hw,hp⟩,_⟩ := requestBody_eq_ok.mp ((readMessage_eq_ok hl hi).mp hr).1
  have hpayload : payload=requestFront request++(tail++requestBack request) := hp
  have hwrite : (requestBytes request).length ≤ maxFrameSize → ∀ out : ByteStream,out.room=none →
      writeRequest out request=
        (.ok (),{out with outgoing := out.outgoing++framed (requestBytes request)}) := by
    intro hlen out hroom
    rw [writeRequest,requestPayload_eq_ok.mpr ⟨hs.short,rfl⟩]
    exact writeFrame_of_le hroom hlen
  cases hlife : request.unit.resources.lifetime with
  | none =>
    rw [hlife] at hw
    have hsame : requestBytes request=payload := by
      rw [requestBytes_eq,hlife,hpayload,hw]
      rfl
    refine ⟨requestBytes request,hwrite (by rw [hsame]; exact hl),by rw [hsame],.inl ⟨?_,hsame⟩⟩
    rw [hpayload,hw]
    rfl
  | some d =>
    rw [hlife] at hw
    obtain ⟨u,rfl,secs,nanos,rfl,hd⟩ := hw
    have hagain : requestBytes request=
        requestFront request++1::(spanBytes d.asSecs d.subsecNanos++requestBack request) := by
      rw [requestBytes_eq,hlife]
      rfl
    have hbefore : payload=requestFront request++1::(spanBytes secs nanos++requestBack request) :=
      hpayload
    have hlen : (requestBytes request).length=payload.length := by
      rw [hagain,hbefore]
      simp only [List.length_append,List.length_cons,spanBytes_length]
    refine ⟨requestBytes request,hwrite (by rw [hlen]; exact hl),hlen,.inr ⟨secs,nanos,d.asSecs,
      d.subsecNanos,hbefore,hagain,?_⟩⟩
    rw [← spanBytes_parts_eq hd,hagain,hbefore]
    simp only [List.append_cancel_left_eq,List.cons.injEq,true_and,List.append_cancel_right_eq]

end Exact

section Sample

/-- The sample request with its one second spelled in nanoseconds. -/
def carriedPayload : List UInt8 :=
  requestFront sampleRequest++(1::spanBytes 0 1000000000++requestBack sampleRequest)

/-- The identities of the sample request are accepted. -/
theorem sampleRequest_spelled : SpelledRequest sampleRequest := by
  have hs := sampleRequest_short
  have hn : IsCanonical sampleRequest.nodeId.id := by decide +kernel
  have hp : IsCanonical sampleRequest.unit.participantId.id := by decide +kernel
  refine ⟨⟨hs.head.requestId,?_,hs.head.workloadId,hs.head.payload,⟨hs.head.nodeId,hn⟩,hs.head.name,
    hs.head.version,⟨hs.head.participantId,hp⟩⟩,⟨hs.endpointId,hp⟩,hs.locator,rfl⟩
  intro source hm
  refine ⟨hs.head.source source hm,?_⟩
  simp only [ExecutionRequest.head,sampleRequest,Option.mem_some_iff] at hm
  subst hm
  exact hp

/-- The carried second is read, and written again with other words. -/
theorem writeRequest_readRequest_carriedPayload : letI := hyphenatedUuid
    readRequest ⟨framed carriedPayload++[7],[],none⟩=(.ok sampleRequest,⟨[7],[],none⟩) ∧
    ∃ again,writeRequest ⟨[],[],none⟩ sampleRequest=(.ok (),⟨[],framed again,none⟩) ∧
      again.length=carriedPayload.length ∧ again≠carriedPayload := by
  let := hyphenatedUuid
  have hl : carriedPayload.length ≤ maxFrameSize := by decide +kernel
  have hword : OptionalWord SpanWord sampleRequest.unit.resources.lifetime
      (1::spanBytes 0 1000000000) := ⟨_,rfl,0,1000000000,rfl,rfl⟩
  have hb := Reader.requestBody_eq_ok.mpr
    ⟨⟨sampleRequest_spelled,_,hword,show (Frame.mk carriedPayload hl).payload=_ from rfl⟩,
      sampleRequest_valid⟩
  have hr : readRequest ⟨framed carriedPayload++[7],[],none⟩=
      (.ok sampleRequest,⟨[7],[],none⟩) := (readMessage_eq_ok hl rfl).mpr ⟨hb,rfl⟩
  obtain ⟨again,hw,hlen,hcase⟩ := writeRequest_readRequest hl rfl hr
  refine ⟨hr,again,hw ⟨[],[],none⟩ rfl,hlen,?_⟩
  have hp : carriedPayload=
      requestFront sampleRequest++1::(spanBytes 0 1000000000++requestBack sampleRequest) := rfl
  intro he
  rcases hcase with ⟨h,_⟩|⟨secs,nanos,_,_,h,_,hiff⟩
  · rw [hp,List.append_cancel_left_eq,List.cons.injEq] at h
    exact absurd h.1 (by decide)
  · rw [hp,List.append_cancel_left_eq,List.cons.injEq,List.append_cancel_right_eq] at h
    obtain ⟨_,rfl⟩ := spanBytes_inj h.2
    exact absurd (hiff.mp he) (by decide)

end Sample

end OpenHost
