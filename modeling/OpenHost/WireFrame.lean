import OpenHost.WireGrammar

/-!
# Frames on a stream

A frame is read back exactly from its length and its payload, and nothing
behind it is consumed. Reading never writes, whatever arrives.
-/

namespace OpenHost

open BigEndian Decoding

/-- A payload behind its length. -/
def framed (payload : List UInt8) : List UInt8 := toBeBytes 8 payload.length++payload

namespace ByteStream

/-- A buffer is filled from the bytes in front. -/
theorem readExact_of_append {stream : ByteStream} {count : ℕ} {u v : List UInt8}
    (hc : u.length=count) (h : stream.incoming=u++v) :
    stream.readExact count=(some ⟨u,hc⟩,{stream with incoming := v}) := by
  subst hc
  have hl : u.length ≤ stream.incoming.length := by
    rw [h,List.length_append]
    omega
  rw [readExact,dif_pos hl]
  simp only [h,List.take_left,List.drop_left]

/-- A filled buffer holds the bytes that were in front. -/
theorem append_of_readExact {stream after : ByteStream} {count : ℕ}
    {bytes : {bytes : List UInt8 // bytes.length=count}}
    (h : stream.readExact count=(some bytes,after)) :
    stream.incoming=bytes.val++after.incoming ∧
      after={stream with incoming := after.incoming} := by
  rw [readExact] at h
  split at h
  · simp only [Prod.mk.injEq,Option.some.injEq] at h
    obtain ⟨rfl,rfl⟩ := h
    exact ⟨(List.take_append_drop _ _).symm,rfl⟩
  · cases h

/-- Filling a buffer writes nothing. -/
theorem readExact_outgoing (count : ℕ) (stream : ByteStream) :
    (stream.readExact count).2.outgoing=stream.outgoing := by
  rw [readExact]
  split <;> rfl

/-- A successful write appends all its bytes. -/
theorem writeAll_of_true {stream after : ByteStream} {bytes : List UInt8}
    (h : stream.writeAll bytes=(true,after)) : after.outgoing=stream.outgoing++bytes := by
  rw [writeAll] at h
  split at h
  · simp only [Prod.mk.injEq,true_and] at h
    rw [← h]
  · next room _ =>
    simp only [Prod.mk.injEq,decide_eq_true_eq] at h
    obtain ⟨hr,rfl⟩ := h
    dsimp only
    rw [List.take_of_length_le hr]

end ByteStream

/-- A written frame fits, and is the length followed by the payload. -/
theorem writeFrame_eq_ok {stream after : ByteStream} {payload : List UInt8}
    (h : writeFrame stream payload=(.ok (),after)) :
    payload.length ≤ maxFrameSize ∧ after.outgoing=stream.outgoing++framed payload := by
  rw [writeFrame] at h
  split at h
  · cases h
  next hl =>
  split at h
  · cases h
  next s₁ h₁ =>
  split at h
  · cases h
  next s₂ h₂ =>
  simp only [Prod.mk.injEq,true_and] at h
  rw [← h,ByteStream.writeAll_of_true h₂,ByteStream.writeAll_of_true h₁,List.append_assoc]
  exact ⟨Nat.le_of_not_lt hl,rfl⟩

/-- A payload that fits is written behind its length while writes succeed. -/
theorem writeFrame_of_le {stream : ByteStream} {payload : List UInt8} (hroom : stream.room=none)
    (hl : payload.length ≤ maxFrameSize) :
    writeFrame stream payload=(.ok (),{stream with outgoing := stream.outgoing++framed payload}) := by
  have hw : ∀ (s : ByteStream) (bytes : List UInt8),s.room=none →
      s.writeAll bytes=(true,{s with outgoing := s.outgoing++bytes}) := by
    intro s bytes hs
    rw [ByteStream.writeAll,hs]
  have hn : ¬maxFrameSize<payload.length := Nat.not_lt.mpr hl
  let behind : ByteStream :=
    {stream with outgoing := stream.outgoing++toBeBytes 8 payload.length}
  have hbehind := hw behind payload hroom
  rw [writeFrame,if_neg hn,hw stream _ hroom]
  dsimp only
  rw [hbehind]
  dsimp only [behind]
  rw [List.append_assoc,framed]

/-- A frame in front of the stream is read, and what follows it is left. -/
theorem readFrame_of_framed {stream : ByteStream} {frame : Frame} {trailing : List UInt8}
    (h : stream.incoming=framed frame.payload++trailing) :
    readFrame stream=(.ok frame,{stream with incoming := trailing}) := by
  have hb := frame.bounded
  have hn : fromBeBytes (toBeBytes 8 frame.payload.length)=frame.payload.length :=
    fromBeBytes_toBeBytes (hb.trans_lt (by decide))
  have hm : ¬maxFrameSize<fromBeBytes (toBeBytes 8 frame.payload.length) := by omega
  rw [framed,List.append_assoc] at h
  have hh := ByteStream.readExact_of_append (toBeBytes_length 8 frame.payload.length) h
  let behind : ByteStream := {stream with incoming := frame.payload++trailing}
  have hp : behind.readExact (fromBeBytes (toBeBytes 8 frame.payload.length))=
      (some ⟨frame.payload,hn.symm⟩,{behind with incoming := trailing}) :=
    ByteStream.readExact_of_append hn.symm rfl
  rw [readFrame,hh]
  dsimp only
  rw [dif_neg hm,hp]

/-- Only a frame in front of the stream is read. -/
theorem framed_of_readFrame {stream after : ByteStream} {frame : Frame}
    (h : readFrame stream=(.ok frame,after)) :
    stream.incoming=framed frame.payload++after.incoming ∧
      after={stream with incoming := after.incoming} := by
  rw [readFrame] at h
  split at h
  · cases h
  next header s₁ h₁ =>
  dsimp only at h
  split at h
  · cases h
  split at h
  · cases h
  next payload s₂ h₂ =>
  simp only [Prod.mk.injEq,Except.ok.injEq] at h
  obtain ⟨rfl,rfl⟩ := h
  obtain ⟨hi₁,hs₁⟩ := ByteStream.append_of_readExact h₁
  obtain ⟨hi₂,hs₂⟩ := ByteStream.append_of_readExact h₂
  have hh := toBeBytes_fromBeBytes header.val
  rw [header.property] at hh
  refine ⟨?_,?_⟩
  · rw [hi₁,hi₂,framed]
    dsimp only
    rw [payload.property,hh,List.append_assoc]
  · rw [hs₂,hs₁]

/-- Reading a frame writes nothing. -/
theorem readFrame_outgoing (stream : ByteStream) :
    (readFrame stream).2.outgoing=stream.outgoing := by
  have hh := ByteStream.readExact_outgoing 8 stream
  rw [readFrame]
  split
  · next s₁ h₁ =>
    rw [h₁] at hh
    exact hh
  next header s₁ h₁ =>
  rw [h₁] at hh
  have hp := ByteStream.readExact_outgoing (fromBeBytes header.val) s₁
  dsimp only at hh ⊢
  split
  · exact hh
  split
  · next s₂ h₂ =>
    rw [h₂] at hp
    exact hp.trans hh
  · next payload s₂ h₂ =>
    rw [h₂] at hp
    exact hp.trans hh

/-- A message is decoded from the frame in front of the stream. -/
theorem readMessage_of_framed {α : Type} (body : Reader.Read α) {stream : ByteStream}
    {frame : Frame} {trailing : List UInt8} (h : stream.incoming=framed frame.payload++trailing) :
    readMessage body stream=(body (Reader.new frame) >>= fun p => .ok p.1,
      {stream with incoming := trailing}) := by
  rw [readMessage,readFrame_of_framed h]
  dsimp only
  cases body (Reader.new frame) <;> rfl

/-- A message is read exactly when the payload of the frame in front is
accepted as it, and what follows the frame is left. -/
theorem readMessage_eq_ok {α : Type} {body : Reader.Read α} {stream after : ByteStream}
    {payload rest : List UInt8} {message : α} (hl : payload.length ≤ maxFrameSize)
    (hi : stream.incoming=framed payload++rest) :
    readMessage body stream=(.ok message,after) ↔
      (∃ reader,body (Reader.new ⟨payload,hl⟩)=.ok (message,reader)) ∧
        after={stream with incoming := rest} := by
  let frame : Frame := ⟨payload,hl⟩
  have hi' : stream.incoming=framed frame.payload++rest := hi
  rw [readMessage_of_framed body hi',Prod.mk.injEq,Outcome.bind_eq_ok]
  constructor
  · rintro ⟨⟨⟨found,reader⟩,hb,he⟩,rfl⟩
    rw [Outcome.ok.injEq] at he
    dsimp only at he
    exact ⟨⟨reader,by rw [hb,he]⟩,rfl⟩
  · rintro ⟨⟨reader,hb⟩,rfl⟩
    exact ⟨⟨(message,reader),hb,rfl⟩,rfl⟩

/-- Reading a message panics exactly when decoding the frame in front does. -/
theorem readMessage_eq_panic {α : Type} {body : Reader.Read α} {P : List UInt8 → Prop}
    (hp : PanicsOn Reader.view body P) (stream : ByteStream) :
    (readMessage body stream).1=.panic ↔ ∃ payload trailing,
      stream.incoming=framed payload++trailing ∧ payload.length ≤ maxFrameSize ∧ P payload := by
  have hb (frame : Frame) : (body (Reader.new frame) >>= fun p => .ok p.1)=.panic ↔
      P frame.payload := by
    have hv := hp (Reader.new frame)
    rw [Reader.view_new] at hv
    rw [Outcome.bind_eq_panic,hv]
    simp
  constructor
  · intro h
    cases hf : readFrame stream with
    | mk result after =>
    cases result with
    | error e =>
      rw [readMessage,hf] at h
      cases h
    | ok frame =>
      have hi := (framed_of_readFrame hf).1
      rw [readMessage_of_framed body hi] at h
      exact ⟨frame.payload,after.incoming,hi,frame.bounded,(hb frame).mp h⟩
  · rintro ⟨payload,trailing,hi,hl,ho⟩
    let frame : Frame := ⟨payload,hl⟩
    have hi' : stream.incoming=framed frame.payload++trailing := hi
    rw [readMessage_of_framed body hi']
    exact (hb frame).mpr ho

/-- A message that was read came in a frame, and what follows it is left. -/
theorem framed_of_readMessage {α : Type} {body : Reader.Read α} {stream : ByteStream} {message : α}
    (h : (readMessage body stream).1=.ok message) : ∃ payload rest,payload.length ≤ maxFrameSize ∧
      stream.incoming=framed payload++rest ∧
      readMessage body stream=(.ok message,{stream with incoming := rest}) := by
  cases hf : readFrame stream with
  | mk result after =>
  cases result with
  | error e =>
    rw [readMessage,hf] at h
    cases h
  | ok frame =>
    have hi := (framed_of_readFrame hf).1
    have hm := readMessage_of_framed body hi
    refine ⟨frame.payload,after.incoming,frame.bounded,hi,?_⟩
    rw [hm] at h ⊢
    exact Prod.ext h rfl

/-- A message that was read was decoded from a frame. -/
theorem body_of_readMessage {α : Type} {body : Reader.Read α} {stream : ByteStream} {message : α}
    (h : (readMessage body stream).1=.ok message) :
    ∃ frame reader, body (Reader.new frame)=.ok (message,reader) := by
  obtain ⟨payload,rest,hl,hi,hr⟩ := framed_of_readMessage h
  obtain ⟨reader,hb⟩ := ((readMessage_eq_ok hl hi).mp hr).1
  exact ⟨⟨payload,hl⟩,reader,hb⟩

/-- Reading a message writes nothing. -/
theorem readMessage_outgoing {α : Type} (body : Reader.Read α) (stream : ByteStream) :
    (readMessage body stream).2.outgoing=stream.outgoing := by
  have hf := readFrame_outgoing stream
  rw [readMessage]
  split
  · next e s₁ h₁ =>
    rw [h₁] at hf
    exact hf
  next frame s₁ h₁ =>
  rw [h₁] at hf
  split <;> exact hf

end OpenHost
