import OpenHost.WireCanonical

/-!
# The spelling of a response

A response has one spelling. Written and read again it is itself, with
exactly what follows it left unread, and a payload that is accepted is the
spelling of what it was accepted as. Only the size of a frame limits it.
-/

namespace OpenHost

open Decoding BigEndian

/-- The spelling of a response. -/
def responseBytes (response : ExecutionResponse) : List UInt8 :=
  [protocolVersion]++(textBytes response.requestId++([statusToU8 response.status]++
    optionalBytes textBytes response.error))

/-- Every length in a response fits its 32-bit field. -/
structure ShortResponse (response : ExecutionResponse) : Prop where
  /-- Name of the request. -/
  requestId : ShortText response.requestId
  /-- Text of the error, if there is one. -/
  error : ∀ error ∈ response.error,ShortText error

/-- The two tables of statuses agree. -/
theorem u8ToStatus_eq_ok {value : UInt8} {status : ExecutionStatus} :
    u8ToStatus value=.ok status ↔ value=statusToU8 status := by
  rw [u8ToStatus]
  split_ifs with h0 h1 h2 h3 h4 h5
  · cases status <;> simp [statusToU8,h0]
  · cases status <;> simp [statusToU8,h1]
  · cases status <;> simp [statusToU8,h2]
  · cases status <;> simp [statusToU8,h3]
  · cases status <;> simp [statusToU8,h4]
  · cases status <;> simp [statusToU8,h5]
  · cases status <;> simp [statusToU8,h0,h1,h2,h3,h4,h5]

section Writer

/-- Bytes that are not written are too long for any frame. -/
theorem writeBytes_eq_error {buffer value : List UInt8} {e : TransportError} :
    writeBytes buffer value=.error e ↔ ¬Short value ∧ e=.frameTooLarge := by
  rw [writeBytes,Short]
  split
  · next h =>
    have hn : ¬value.length<2^32 := by omega
    rw [Except.error.injEq,eq_comm]
    exact (and_iff_right hn).symm
  · next h =>
    constructor
    · intro hw
      cases hw
    · intro hw
      exact (hw.1 (by omega)).elim

/-- A payload is built exactly when every length fits, and is the spelling. -/
theorem responsePayload_eq_ok {response : ExecutionResponse} {payload : List UInt8} :
    responsePayload response=.ok payload ↔
      ShortResponse response ∧ responseBytes response=payload := by
  rcases response with ⟨requestId,status,_|error⟩
  · simp only [responsePayload,Checks.bind_eq_ok,writeString_eq_ok,and_assoc,exists_and_left,
      exists_eq_left',Except.ok.injEq,List.append_assoc]
    constructor
    · rintro ⟨h,rfl⟩
      exact ⟨⟨h,fun _ hm => by cases hm⟩,rfl⟩
    · rintro ⟨h,rfl⟩
      exact ⟨h.requestId,rfl⟩
  · simp only [responsePayload,Checks.bind_eq_ok,writeString_eq_ok,and_assoc,exists_and_left,
      exists_eq_left',List.append_assoc]
    constructor
    · rintro ⟨h,he,rfl⟩
      exact ⟨⟨h,fun _ hm => Option.mem_some_iff.mp hm ▸ he⟩,rfl⟩
    · rintro ⟨h,rfl⟩
      exact ⟨h.requestId,h.error error rfl,rfl⟩

/-- A payload that is not built has a text that does not fit its length. -/
theorem responsePayload_eq_error {response : ExecutionResponse} {e : TransportError}
    (h : responsePayload response=.error e) : ¬ShortResponse response ∧ e=.frameTooLarge := by
  have hs : ¬ShortResponse response := by
    intro hs
    rw [responsePayload_eq_ok.mpr ⟨hs,rfl⟩] at h
    cases h
  refine ⟨hs,?_⟩
  rw [responsePayload] at h
  rcases Checks.bind_eq_error.mp h with hw|⟨payload,_,hw⟩
  · exact (writeBytes_eq_error.mp hw).2
  · dsimp only at hw
    split at hw
    · exact (writeBytes_eq_error.mp hw).2
    · cases hw

/-- A response whose spelling fits a frame has texts that fit their lengths. -/
theorem shortResponse_of_le {response : ExecutionResponse}
    (h : (responseBytes response).length ≤ maxFrameSize) : ShortResponse response := by
  have hmax : maxFrameSize<2^32 := by decide
  have hid : (utf8Bytes response.requestId).length ≤ (responseBytes response).length := by
    simp only [responseBytes,textBytes,prefixed,List.length_append]
    omega
  refine ⟨hid.trans_lt (h.trans_lt hmax),?_⟩
  intro error he
  have hspelled : optionalBytes textBytes response.error=1::textBytes error := by
    rw [Option.mem_def.mp he]
    rfl
  have herror : (utf8Bytes error).length ≤ (responseBytes response).length := by
    simp only [responseBytes,hspelled,textBytes,prefixed,List.length_append,List.length_cons]
    omega
  exact herror.trans_lt (h.trans_lt hmax)

/-- A response that fits is written behind its length while writes succeed. -/
theorem writeResponse_of_le {stream : ByteStream} {response : ExecutionResponse}
    (hroom : stream.room=none) (hl : (responseBytes response).length ≤ maxFrameSize) :
    writeResponse stream response=
      (.ok (),{stream with outgoing := stream.outgoing++framed (responseBytes response)}) := by
  rw [writeResponse,responsePayload_eq_ok.mpr ⟨shortResponse_of_le hl,rfl⟩]
  exact writeFrame_of_le hroom hl

/-- A response is too large exactly when its spelling does not fit a frame;
then nothing is written. -/
theorem writeResponse_frameTooLarge (stream : ByteStream) (response : ExecutionResponse) :
    ((writeResponse stream response).1=.error .frameTooLarge ↔
        maxFrameSize<(responseBytes response).length) ∧
      (maxFrameSize<(responseBytes response).length →
        writeResponse stream response=(.error .frameTooLarge,stream)) := by
  have hlarge : maxFrameSize<(responseBytes response).length →
      writeResponse stream response=(.error .frameTooLarge,stream) := by
    intro hl
    rw [writeResponse]
    cases hp : responsePayload response with
    | error e => rw [(responsePayload_eq_error hp).2]
    | ok payload =>
      obtain ⟨_,rfl⟩ := responsePayload_eq_ok.mp hp
      dsimp only
      rw [writeFrame,if_pos hl]
  refine ⟨⟨?_,fun hl => by rw [hlarge hl]⟩,hlarge⟩
  intro h
  by_contra hn
  have hl := Nat.not_lt.mp hn
  rw [writeResponse,responsePayload_eq_ok.mpr ⟨shortResponse_of_le hl,rfl⟩] at h
  dsimp only at h
  rw [writeFrame,if_neg hn] at h
  split at h
  · cases h
  · split at h <;> cases h

end Writer

section Reading

open Reader

/-- The fields of a response. -/
def responseFields : Read ExecutionResponse := do
  version
  let requestId ← string
  let value ← byte
  let status ← check (u8ToStatus value)
  let error ← optional string
  pure ⟨requestId,status,error⟩

/-- A response is its fields with nothing behind them. -/
theorem responseBody_eq : responseBody=responseFields >>= fun response => finish >>= fun _ =>
    check (.ok ()) >>= fun _ => pure response := by
  have hcheck : (check (.ok ()) : Read Unit)=pure () := rfl
  simp only [responseBody,responseFields,hcheck,bind_assoc,pure_bind]

/-- A response is read from its only spelling. -/
theorem reads_responseFields : Reads view responseFields fun response w =>
    ShortResponse response ∧ w=responseBytes response := by
  have ho : Reads view (optional string) fun error w =>
      (∀ text ∈ error,ShortText text) ∧ w=optionalBytes textBytes error :=
    (reads_optional reads_string).congr fun _ _ => optionalWord_iff
  refine (reads_version.bind fun _ => reads_string.bind fun requestId => reads_byte.bind fun value =>
    (Reads.check (u8ToStatus value)).bind fun status => ho.bind fun error =>
    Reads.pure _).congr fun response w => ?_
  constructor
  · rintro ⟨_,_,_,rfl,rfl,requestId,_,_,rfl,⟨hs,rfl⟩,value,_,_,rfl,rfl,status,_,_,rfl,⟨hv,rfl⟩,error,
      _,_,rfl,⟨he,rfl⟩,rfl,rfl⟩
    rw [u8ToStatus_eq_ok] at hv
    subst hv
    exact ⟨⟨hs,he⟩,by rw [List.append_nil]; rfl⟩
  · rintro ⟨⟨hs,he⟩,rfl⟩
    exact ⟨(),_,_,rfl,rfl,response.requestId,_,_,rfl,⟨hs,rfl⟩,statusToU8 response.status,_,_,rfl,rfl,
      response.status,[],_,rfl,⟨u8ToStatus_eq_ok.mpr rfl,rfl⟩,response.error,_,[],
      (List.append_nil _).symm,⟨he,rfl⟩,rfl,rfl⟩

/-- A payload is accepted as a response exactly when it is its spelling. -/
theorem responseBody_eq_ok {frame : Frame} {response : ExecutionResponse} :
    (∃ after,responseBody (new frame)=.ok (response,after)) ↔
      ShortResponse response ∧ frame.payload=responseBytes response := by
  rw [responseBody_eq,whole_eq_ok reads_responseFields]
  exact and_iff_left rfl

/-- A frame in front of the stream is read as a response exactly when its
payload is the spelling of that response; what follows it is left. -/
theorem readResponse_framed {stream after : ByteStream} {payload rest : List UInt8}
    {response : ExecutionResponse} (hl : payload.length ≤ maxFrameSize)
    (hi : stream.incoming=framed payload++rest) :
    readResponse stream=(.ok response,after) ↔
      payload=responseBytes response ∧ after={stream with incoming := rest} := by
  have hm : readMessage responseBody stream=(.ok response,after) ↔ _ := readMessage_eq_ok hl hi
  rw [readResponse,hm,responseBody_eq_ok]
  constructor
  · rintro ⟨⟨_,hp⟩,ha⟩
    exact ⟨hp,ha⟩
  · rintro ⟨rfl,ha⟩
    exact ⟨⟨shortResponse_of_le hl,rfl⟩,ha⟩

/-- Responses and the payloads that are accepted correspond one to one: what
is written is read as the same response in front of any bytes, what is
accepted is written again as it was, and a response fails to be written for
its size exactly when its spelling does not fit a frame. -/
theorem response_bijection (response : ExecutionResponse) :
    ((responseBytes response).length ≤ maxFrameSize → ∃ written,
      (∀ out : ByteStream,out.room=none →
        writeResponse out response=(.ok (),{out with outgoing := out.outgoing++written})) ∧
      ∀ (receiver : ByteStream) (rest : List UInt8),receiver.incoming=written++rest →
        readResponse receiver=(.ok response,{receiver with incoming := rest})) ∧
    (∀ (payload rest : List UInt8) (receiver after : ByteStream),payload.length ≤ maxFrameSize →
      receiver.incoming=framed payload++rest → readResponse receiver=(.ok response,after) →
      responsePayload response=.ok payload ∧ ∀ out : ByteStream,out.room=none →
        writeResponse out response=(.ok (),{out with outgoing := out.outgoing++framed payload})) ∧
    ∀ out : ByteStream,
      ((writeResponse out response).1=.error .frameTooLarge ↔
        maxFrameSize<(responseBytes response).length) ∧
      (maxFrameSize<(responseBytes response).length →
        writeResponse out response=(.error .frameTooLarge,out)) := by
  refine ⟨?_,?_,fun out => writeResponse_frameTooLarge out response⟩
  · intro hl
    refine ⟨framed (responseBytes response),fun out hroom => writeResponse_of_le hroom hl,?_⟩
    intro receiver rest hi
    exact (readResponse_framed hl hi).mpr ⟨rfl,rfl⟩
  · intro payload rest receiver after hl hi hr
    obtain ⟨rfl,_⟩ := (readResponse_framed hl hi).mp hr
    exact ⟨responsePayload_eq_ok.mpr ⟨shortResponse_of_le hl,rfl⟩,
      fun out hroom => writeResponse_of_le hroom hl⟩

end Reading

section Sample

/-- A response that reports a failure. -/
def failedResponse : ExecutionResponse := .failed "r" "denied"

/-- The failure is written, read in front of one more byte, and written again. -/
theorem response_bijection_failedResponse : ∃ written,
    writeResponse ⟨[],[],none⟩ failedResponse=(.ok (),⟨[],written,none⟩) ∧
      readResponse ⟨written++[7],[],none⟩=(.ok failedResponse,⟨[7],[],none⟩) ∧
      responsePayload failedResponse=.ok (responseBytes failedResponse) := by
  have hl : (responseBytes failedResponse).length ≤ maxFrameSize := by decide +kernel
  have h := response_bijection failedResponse
  obtain ⟨written,hw,hr⟩ := h.1 hl
  have hread := hr ⟨written++[7],[],none⟩ [7] rfl
  refine ⟨written,hw ⟨[],[],none⟩ rfl,hread,?_⟩
  have hframe : (readResponse ⟨framed (responseBytes failedResponse)++[7],[],none⟩)=
      (.ok failedResponse,⟨[7],[],none⟩) := (readResponse_framed hl rfl).mpr ⟨rfl,rfl⟩
  exact (h.2.1 _ [7] _ _ hl rfl hframe).1

end Sample

end OpenHost
