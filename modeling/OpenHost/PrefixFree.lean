import OpenHost.WireResponse
import OpenHost.WireSafety

/-!
# No message begins with another

The decoder of every field returns the same value on more input and leaves
what is more. So a payload that goes on behind a message is refused by the
last check, and a payload that stops inside a message is refused before it:
its fields cannot be read, for they would be read from the whole message
too, with something left behind them.
-/

namespace OpenHost

open Decoding

namespace Reader

section Whole

variable {α : Type} {fields : Read α} {G : α → List UInt8 → Prop} {P : List UInt8 → Prop}
  {valid : α → Except TransportError Unit} {frame other : Frame} {message : α}
  {more : List UInt8}

/-- Fields with nothing behind them and a check of the message. -/
abbrev whole (fields : Read α) (valid : α → Except TransportError Unit) : Read α :=
  fields >>= fun m => finish >>= fun _ => check (valid m) >>= fun _ => pure m

/-- The fields of an accepted payload are read with nothing left. -/
theorem fields_of_whole (hf : Reads view fields G)
    (h : ∃ after,whole fields valid (new frame)=.ok (message,after)) :
    ∃ behind,fields (new frame)=.ok (message,behind) ∧ behind.view=[] := by
  have hw := ((whole_eq_ok hf).mp h).1
  exact hf.complete hw (by rw [view_new,List.append_nil])

/-- A payload that goes on behind an accepted one is refused by the last check. -/
theorem whole_of_extension (hf : Reads view fields G)
    (h : ∃ after,whole fields valid (new frame)=.ok (message,after)) (hmore : more≠[])
    (hp : other.payload=frame.payload++more) :
    whole fields valid (new other)=.err .malformedFrame := by
  obtain ⟨behind,hfields,hend⟩ := fields_of_whole hf h
  have hview : (new other).view=(new frame).view++more := by rw [view_new,view_new,hp]
  obtain ⟨left,hleft,hv⟩ := hf.extend hfields hview
  rw [hend,List.nil_append] at hv
  have hrest : ¬left.view=[] := by rwa [hv]
  rw [whole,bind_apply,hleft,Outcome.ok_bind,bind_apply,finish_eq,if_neg hrest,Outcome.err_bind]

/-- A payload that stops inside an accepted one is refused by its fields. -/
theorem whole_of_truncation (hf : Reads view fields G) (hpanic : PanicsOn view fields P)
    (hgrow : ∀ v more,P v → P (v++more))
    (h : ∃ after,whole fields valid (new frame)=.ok (message,after)) (hmore : more≠[])
    (hp : frame.payload=other.payload++more) :
    ∃ e,whole fields valid (new other)=.err e := by
  obtain ⟨behind,hfields,hend⟩ := fields_of_whole hf h
  have hview : (new frame).view=(new other).view++more := by rw [view_new,view_new,hp]
  cases ho : fields (new other) with
  | err e => exact ⟨e,by rw [whole,bind_apply,ho,Outcome.err_bind]⟩
  | ok found =>
    obtain ⟨left,hleft,hv⟩ := hf.extend ho hview
    rw [hfields,Outcome.ok.injEq,Prod.mk.injEq] at hleft
    rw [← hleft.2,hend] at hv
    exact absurd (List.append_eq_nil_iff.mp hv.symm).2 hmore
  | panic =>
    have hframe := hgrow _ more ((hpanic (new other)).mp ho)
    rw [← hview] at hframe
    rw [(hpanic (new frame)).mpr hframe] at hfields
    cases hfields

/-- Of two different payloads one of which begins with the other, not both are
accepted: where one is accepted, the other one is an error. -/
theorem whole_prefixFree (hf : Reads view fields G) (hpanic : PanicsOn view fields P)
    (hgrow : ∀ v more,P v → P (v++more))
    (h : ∃ after,whole fields valid (new frame)=.ok (message,after))
    (hne : other.payload≠frame.payload)
    (hcomparable : other.payload <+: frame.payload ∨ frame.payload <+: other.payload) :
    ∃ e,whole fields valid (new other)=.err e := by
  have hmore {u v w : List UInt8} (hw : u++w=v) (hn : u≠v) : w≠[] := by
    rintro rfl
    exact hn (by rw [← hw,List.append_nil])
  rcases hcomparable with ⟨more,hp⟩|⟨more,hp⟩
  · exact whole_of_truncation hf hpanic hgrow h (hmore hp hne) hp.symm
  · exact ⟨_,whole_of_extension hf h (hmore hp hne.symm) hp.symm⟩

end Whole

end Reader

section Messages

open BigEndian Reader

/-- Decoding the fields of a response never panics. -/
theorem never_responseFields : PanicsOn view responseFields fun _ => False :=
  never_version.bind_never fun _ => never_string.bind_never fun _ =>
    never_byte.bind_never fun _ => (PanicsOn.check _).bind_never fun _ =>
    (never_optional never_string).bind_never fun _ => PanicsOn.pure _

/-- More bytes do not undo the overflow of a lifetime. -/
theorem OverflowingPayload.append {v : List UInt8} (h : OverflowingPayload v) (more : List UInt8) :
    OverflowingPayload (v++more) := by
  obtain ⟨head,_,rfl,hhead,resources,secs,nanos,rest,rfl,hover⟩ := h
  refine ⟨head,_,List.append_assoc _ _ _,hhead,resources,secs,nanos,rest++more,?_,hover⟩
  simp only [List.append_assoc,List.cons_append]

/-- A payload whose length fits eight bytes and that is read from its frame
fits into a frame. -/
theorem length_le_of_readMessage {α : Type} {body : Read α} {stream : ByteStream}
    {payload rest : List UInt8} {message : α} (hl : payload.length<2^64)
    (hi : stream.incoming=framed payload++rest)
    (h : (readMessage body stream).1=.ok message) : payload.length ≤ maxFrameSize := by
  obtain ⟨found,behind,hfound,hstream,_⟩ := framed_of_readMessage h
  rw [hi,framed,framed,List.append_assoc,List.append_assoc] at hstream
  have hlengths : (toBeBytes 8 payload.length).length=(toBeBytes 8 found.length).length := by
    rw [toBeBytes_length,toBeBytes_length]
  have hheader := congrArg fromBeBytes (List.append_inj hstream hlengths).1
  have hshort : found.length<256^8 := hfound.trans_lt (by decide)
  have hfits : payload.length<256^8 := hl.trans_eq (by norm_num)
  rw [fromBeBytes_toBeBytes hfits,fromBeBytes_toBeBytes hshort] at hheader
  rwa [hheader]

/-- A frame is read as a message whose body returns one, and as an error whose
body returns that. -/
theorem readMessage_prefixFree {α : Type} {body : Read α} {stream other : ByteStream}
    {p q rest rest' : List UInt8} (hp : p.length<2^64) (hq : q.length ≤ maxFrameSize)
    (hi : stream.incoming=framed p++rest) (ho : other.incoming=framed q++rest')
    (hbody : ∀ (frame : Frame) (message : α),frame.payload=p →
      (∃ after,body (new frame)=.ok (message,after)) → ∃ e,body (new ⟨q,hq⟩)=.err e)
    {message : α} (h : (readMessage body stream).1=.ok message) :
    ∃ e,(readMessage body other).1=.err e := by
  have hl := length_le_of_readMessage hp hi h
  have hread := (readMessage_eq_ok hl hi).mp (Prod.ext h rfl)
  obtain ⟨e,he⟩ := hbody ⟨p,hl⟩ message rfl hread.1
  have hframe : other.incoming=framed (Frame.mk q hq).payload++rest' := ho
  rw [readMessage_of_framed body hframe,he]
  exact ⟨e,rfl⟩

variable [UuidCrate]

/-- Of two different payloads one of which begins with the other, at most one
is accepted as a request, and at most one as a response: behind the frame of
an accepted one, the frame of the other is refused with an error. -/
theorem payloads_prefixFree {p q rest rest' : List UInt8} (hp : p.length<2^64)
    (hq : q.length ≤ maxFrameSize) (hne : q≠p) (hcomparable : q <+: p ∨ p <+: q)
    {stream other : ByteStream} (hi : stream.incoming=framed p++rest)
    (ho : other.incoming=framed q++rest') :
    (∀ request,(readRequest stream).1=.ok request → ∃ e,(readRequest other).1=.err e) ∧
    ∀ response,(readResponse stream).1=.ok response → ∃ e,(readResponse other).1=.err e := by
  constructor
  · intro request hr
    refine readMessage_prefixFree hp hq hi ho (fun frame message hframe h => ?_) hr
    subst hframe
    exact whole_prefixFree reads_requestFields panicsOn_requestFields
      (fun _ more hv => hv.append more) h hne hcomparable
  · intro response hr
    refine readMessage_prefixFree hp hq hi ho (fun frame message hframe h => ?_) hr
    subst hframe
    rw [responseBody_eq] at h ⊢
    exact whole_prefixFree (P:=fun _ => False) reads_responseFields never_responseFields
      (fun _ _ hv => hv) h hne hcomparable

end Messages

section Sample

/-- The sample request is refused with one more byte, and the failure without
its last one. -/
theorem payloads_prefixFree_samples : letI := hyphenatedUuid
    (∃ e,(readRequest ⟨framed (requestBytes sampleRequest++[0]),[],none⟩).1=.err e) ∧
    ∃ e,(readResponse ⟨framed (responseBytes failedResponse).dropLast,[],none⟩).1=.err e := by
  let := hyphenatedUuid
  have hrequest : (readRequest ⟨framed (requestBytes sampleRequest),[],none⟩).1=
      .ok sampleRequest := by
    have hi : (⟨framed (requestBytes sampleRequest),[],none⟩ : ByteStream).incoming=
        framed (requestBytes sampleRequest)++[] := (List.append_nil _).symm
    have hread := (readRequest_framed sampleRequest_short (by decide +kernel) hi).1
    rw [hread ⟨sampleRequest_valid,by decide +kernel,by decide +kernel⟩]
  have hresponse : (readResponse ⟨framed (responseBytes failedResponse),[],none⟩).1=
      .ok failedResponse := by decide +kernel
  exact ⟨(payloads_prefixFree (by decide +kernel) (by decide +kernel) (by decide +kernel)
      (.inr (List.prefix_append _ _)) (List.append_nil _).symm (List.append_nil _).symm).1 _ hrequest,
    (payloads_prefixFree (by decide +kernel) (by decide +kernel) (by decide +kernel)
      (.inl (List.dropLast_prefix _)) (List.append_nil _).symm (List.append_nil _).symm).2 _ hresponse⟩

end Sample

end OpenHost
