import OpenHost.WireFrame

/-!
# Which bytes make the decoder panic

Every slice, index and fixed-size conversion of the reader stays within its
domain, so decoding a response always returns. Decoding a request calls one
constructor on unchecked integers: a lifetime whose seconds overflow with
the carried nanoseconds panics, and nothing else does.
-/

namespace OpenHost

open Decoding BigEndian Reader

/-- A payload whose head is accepted and whose lifetime overflows. -/
def OverflowingPayload (payload : List UInt8) : Prop :=
  ∃ head rest, payload=headBytes head++rest ∧ SpelledHead head ∧ LifetimeOverflows rest

/-- The stream begins with a complete frame around such a payload. -/
def CarriesOverflow (incoming : List UInt8) : Prop :=
  ∃ payload trailing, incoming=framed payload++trailing ∧ payload.length ≤ maxFrameSize ∧
    OverflowingPayload payload

/-- Decoding a response never panics. -/
theorem never_responseBody : PanicsOn view responseBody fun _ => False :=
  never_version.bind_never fun _ => never_string.bind_never fun _ =>
    never_byte.bind_never fun _ => (PanicsOn.check _).bind_never fun _ =>
    (never_optional never_string).bind_never fun _ => never_finish.bind_never fun _ =>
    PanicsOn.pure _

/-- No stream makes the reading of a response panic. -/
theorem readResponse_ne_panic (stream : ByteStream) : (readResponse stream).1≠.panic := by
  intro h
  obtain ⟨_,_,_,_,hf⟩ := (readMessage_eq_panic never_responseBody stream).mp h
  exact hf

section Exact

variable [UuidCrate]

/-- Decoding the fields of a request panics exactly on the overflowing payloads. -/
theorem panicsOn_requestFields : PanicsOn view requestFields OverflowingPayload := by
  have hr (head : RequestHead) := panicsOn_resources.bind_never fun resources =>
    never_identity.bind_never fun participantId => never_string.bind_never fun locator =>
    PanicsOn.pure (⟨head.requestId,head.sourceParticipantId,head.workload,head.nodeId,
      head.runtime,⟨head.participantId,resources⟩,⟨participantId,locator⟩⟩ : ExecutionRequest)
  refine (PanicsOn.bind_of_never reads_requestHead never_requestHead hr).congr fun v => ?_
  constructor
  · rintro ⟨head,_,rest,rfl,⟨hs,rfl⟩,ho⟩
    exact ⟨head,rest,rfl,hs,ho⟩
  · rintro ⟨head,rest,rfl,hs,ho⟩
    exact ⟨head,_,rest,rfl,⟨hs,rfl⟩,ho⟩

/-- Decoding a request panics exactly on the overflowing payloads. -/
theorem panicsOn_requestBody : PanicsOn view requestBody OverflowingPayload :=
  panicsOn_requestFields.bind_never fun _ => never_finish.bind_never fun _ =>
    (PanicsOn.check _).bind_never fun _ => PanicsOn.pure _

/-- Reading a request panics exactly on the streams that carry an overflow. -/
theorem readRequest_eq_panic (stream : ByteStream) :
    (readRequest stream).1=.panic ↔ CarriesOverflow stream.incoming :=
  readMessage_eq_panic panicsOn_requestBody stream

/-- Decoding what a peer has sent returns a message or an error, unless the
stream begins with a request whose lifetime overflows. -/
theorem decoding_returns_iff (stream : ByteStream) :
    ((readRequest stream).1≠.panic ∧ (readResponse stream).1≠.panic) ↔
      ¬CarriesOverflow stream.incoming := by
  have hq := readRequest_eq_panic stream
  have hp := readResponse_ne_panic stream
  constructor
  · rintro ⟨hr,_⟩ ho
    exact hr (hq.mpr ho)
  · intro ho
    exact ⟨fun hr => ho (hq.mp hr),hp⟩

end Exact

section Sample

/-- A head whose identities are canonical and whose texts are short. -/
def sampleHead : RequestHead where
  requestId := "r"
  sourceParticipantId := some ⟨"11111111-1111-4111-8111-111111111111",.participant⟩
  workload := ⟨"w",[]⟩
  nodeId := ⟨"22222222-2222-4222-8222-222222222222",.logicalNode⟩
  runtime := ⟨"wasm","1"⟩
  participantId := ⟨"11111111-1111-4111-8111-111111111111",.participant⟩

/-- A payload that asks for a lifetime of `2^64-1` seconds and `10^9` nanoseconds. -/
def overflowingPayload : List UInt8 :=
  headBytes sampleHead++(amountBytes ResourceFragment.default++1::(spanBytes (2^64-1) 1000000000++[]))

/-- A peer that has sent that payload in one frame. -/
def overflowingStream : ByteStream := ⟨framed overflowingPayload,[],none⟩

/-- The sample head can be spelled and is accepted. -/
theorem sampleHead_spelled : SpelledHead sampleHead := by
  have hp : SpelledIdentity ⟨"11111111-1111-4111-8111-111111111111",.participant⟩ :=
    ⟨by decide +kernel,by decide +kernel⟩
  have hn : SpelledIdentity ⟨"22222222-2222-4222-8222-222222222222",.logicalNode⟩ :=
    ⟨by decide +kernel,by decide +kernel⟩
  refine ⟨by decide +kernel,?_,by decide +kernel,by decide +kernel,hn,by decide +kernel,
    by decide +kernel,hp⟩
  intro source hs
  rw [sampleHead,Option.mem_some_iff] at hs
  exact hs ▸ hp

/-- The lifetime of the sample payload overflows. -/
theorem carriesOverflow_overflowingStream : CarriesOverflow overflowingStream.incoming := by
  refine ⟨overflowingPayload,[],(List.append_nil _).symm,by decide +kernel,sampleHead,_,rfl,
    sampleHead_spelled,.default,2^64-1,1000000000,[],rfl,by decide +kernel⟩

/-- One frame that a peer can send makes the reading of a request panic. -/
theorem not_decoding_returns_overflowingStream : letI := hyphenatedUuid
    ¬((readRequest overflowingStream).1≠.panic ∧ (readResponse overflowingStream).1≠.panic) := by
  let := hyphenatedUuid
  intro h
  exact h.1 ((readRequest_eq_panic overflowingStream).mpr carriesOverflow_overflowingStream)

end Sample

end OpenHost
