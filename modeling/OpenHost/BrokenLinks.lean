import OpenHost.GrowingTable
import OpenHost.MutualTls
import OpenHost.RequestAnswers

/-!
# Connections that break

The connection to a server may break at any byte, in either direction, and at
a different one for each request. A server that has received part of a request
does not call its handler, and a client that has received part of an answer
does not believe it. So a plan is dispatched exactly if it would be over
connections that hold and both messages of each unit got through. Whether the
handler of a unit ran depends on the way to the server alone: a dispatch that
fails on the way back leaves work behind that the caller does not know of.
-/

namespace OpenHost

open BigEndian ExecutionDispatcher

/-- What gets through of bytes on a way that breaks behind so many; none never breaks. -/
def cut (limit : Option ℕ) (bytes : List UInt8) : List UInt8 :=
  match limit with
  | none => bytes
  | some count => bytes.take count

/-- What gets through comes first. -/
theorem cut_prefix_self (limit : Option ℕ) (bytes : List UInt8) : cut limit bytes <+: bytes := by
  cases limit with
  | none => exact List.prefix_refl bytes
  | some count => exact List.take_prefix count bytes

/-- Bytes get through exactly if the way holds for all of them. -/
theorem cut_eq_self_iff {limit : Option ℕ} {bytes : List UInt8} :
    cut limit bytes=bytes ↔ ∀ count ∈ limit,bytes.length ≤ count := by
  cases limit with
  | none => simp [cut]
  | some count => simp [cut,List.take_eq_self_iff]

/-- Bytes get through two parts of a way exactly if both hold for all of them. -/
theorem cut_cut_eq_self_iff {limit before : Option ℕ} {bytes : List UInt8} :
    cut limit (cut before bytes)=bytes ↔
      (∀ count ∈ before,bytes.length ≤ count) ∧ ∀ count ∈ limit,bytes.length ≤ count := by
  constructor
  · intro h
    have hl := (cut_prefix_self limit (cut before bytes)).length_le
    rw [h] at hl
    have hb := (cut_prefix_self before bytes).eq_of_length_le hl
    rw [hb] at h
    exact ⟨cut_eq_self_iff.mp hb,cut_eq_self_iff.mp h⟩
  · rintro ⟨hb,hl⟩
    rw [cut_eq_self_iff.mpr hb,cut_eq_self_iff.mpr hl]

/-- Nothing is left of nothing. -/
theorem cut_nil (limit : Option ℕ) : cut limit []=[] := List.prefix_nil.mp (cut_prefix_self limit [])

/-- As many bytes are written as there is room for. -/
theorem ByteStream.writeAll_outgoing (stream : ByteStream) (bytes : List UInt8) :
    (stream.writeAll bytes).2.outgoing=stream.outgoing++cut stream.room bytes := by
  rw [writeAll]
  cases stream.room <;> rfl

/-- A write that comes behind another one fills the room that is left. -/
theorem cut_append (limit : Option ℕ) (first second : List UInt8)
    (h : ∀ count ∈ limit,first.length ≤ count) : cut limit (first++second)=
      first++cut (limit.map fun count => count-first.length) second := by
  cases limit with
  | none => rfl
  | some count =>
    have hl := h count rfl
    dsimp only [cut,Option.map_some]
    rw [List.take_append,List.take_of_length_le hl]

/-- As much of a frame is written as there is room for, if the payload is short
enough, and otherwise nothing. -/
theorem writeFrame_outgoing (stream : ByteStream) (payload : List UInt8) :
    (writeFrame stream payload).2.outgoing=stream.outgoing++
      if maxFrameSize<payload.length then [] else cut stream.room (framed payload) := by
  rw [writeFrame]
  split
  · rw [List.append_nil]
  by_cases hl : ∀ room ∈ stream.room,(toBeBytes 8 payload.length).length ≤ room
  · let behind : ByteStream := {stream with
      outgoing := stream.outgoing++toBeBytes 8 payload.length
      room := stream.room.map fun room => room-(toBeBytes 8 payload.length).length}
    have hsecond := behind.writeAll_outgoing payload
    have hcut := cut_append stream.room _ payload hl
    rw [ByteStream.writeAll_of_room hl]
    dsimp only
    rw [framed,hcut,← List.append_assoc]
    split
    · next after h =>
      rw [h] at hsecond
      exact hsecond
    · next after h =>
      rw [h] at hsecond
      exact hsecond
  · have hfirst := stream.writeAll_outgoing (toBeBytes 8 payload.length)
    obtain ⟨after,hw⟩ := ByteStream.writeAll_of_full hl
    rw [hw] at hfirst ⊢
    dsimp only at hfirst ⊢
    rw [hfirst]
    obtain ⟨room,hr,hfull⟩ : ∃ room,stream.room=some room ∧
        room ≤ (toBeBytes 8 payload.length).length := by
      push Not at hl
      obtain ⟨room,hr,hlt⟩ := hl
      exact ⟨room,hr,hlt.le⟩
    rw [hr]
    dsimp only [cut]
    rw [framed,List.take_append_of_le_length hfull]

/-- What is written of a response. -/
theorem writeResponse_outgoing (stream : ByteStream) (response : ExecutionResponse) :
    (writeResponse stream response).2.outgoing=stream.outgoing++
      if maxFrameSize<(responseBytes response).length then []
      else cut stream.room (framed (responseBytes response)) := by
  by_cases hl : maxFrameSize<(responseBytes response).length
  · rw [(writeResponse_frameTooLarge stream response).2 hl,if_pos hl,List.append_nil]
  · have hshort := shortResponse_of_le (Nat.not_lt.mp hl)
    rw [writeResponse,responsePayload_eq_ok.mpr ⟨hshort,rfl⟩]
    exact writeFrame_outgoing stream _

/-- What is written of a request. -/
theorem writeRequest_outgoing {request : ExecutionRequest} (hf : Fits request)
    (stream : ByteStream) : (writeRequest stream request).2.outgoing=
      stream.outgoing++cut stream.room (framed (requestBytes request)) := by
  obtain ⟨hs,hl⟩ := hf.spelled
  rw [writeRequest,requestPayload_eq_ok.mpr ⟨hs,rfl⟩]
  have hw := writeFrame_outgoing stream (requestBytes request)
  rw [if_neg (Nat.not_lt.mpr hl)] at hw
  exact hw

/-- Two frames of which one begins the other are the same. -/
theorem eq_of_framed_prefix_framed {payload other : List UInt8} (hp : payload.length ≤ maxFrameSize)
    (ho : other.length ≤ maxFrameSize) (h : framed payload <+: framed other) :
    payload=other := by
  have hmax : maxFrameSize<256^8 := by decide
  obtain ⟨more,h⟩ := h
  rw [framed,framed,List.append_assoc] at h
  have hlengths : (toBeBytes 8 payload.length).length=(toBeBytes 8 other.length).length := by
    rw [toBeBytes_length,toBeBytes_length]
  obtain ⟨hheader,hrest⟩ := List.append_inj h hlengths
  have hlength := congrArg fromBeBytes hheader
  rw [fromBeBytes_toBeBytes (hp.trans_lt hmax),fromBeBytes_toBeBytes (ho.trans_lt hmax)] at hlength
  exact (List.append_inj (hrest.trans (List.append_nil other).symm) hlength).1

/-- A message is not read from a frame that breaks off. -/
theorem whole_of_readMessage_cut {α : Type} {body : Reader.Read α} {stream : ByteStream}
    {payload : List UInt8} {message : α} (hl : payload.length ≤ maxFrameSize)
    (hi : stream.incoming <+: framed payload) (h : (readMessage body stream).1=.ok message) :
    stream.incoming=framed payload := by
  obtain ⟨found,rest,hfound,hstream,_⟩ := framed_of_readMessage h
  have hfirst : framed found <+: stream.incoming := ⟨rest,hstream.symm⟩
  have hsame := eq_of_framed_prefix_framed hfound hl (hfirst.trans hi)
  subst hsame
  exact hi.eq_of_length_le hfirst.length_le

/-- Filling a buffer looks at what has come in only. -/
theorem ByteStream.readExact_eq (count : ℕ) (incoming outgoing : List UInt8) (room : Option ℕ) :
    readExact count ⟨incoming,outgoing,room⟩=((readExact count ⟨incoming,[],none⟩).1,
      ⟨(readExact count ⟨incoming,[],none⟩).2.incoming,outgoing,room⟩) := by
  rw [readExact,readExact]
  split <;> rfl

/-- Reading a frame looks at what has come in only. -/
theorem readFrame_eq (incoming outgoing : List UInt8) (room : Option ℕ) :
    readFrame ⟨incoming,outgoing,room⟩=((readFrame ⟨incoming,[],none⟩).1,
      ⟨(readFrame ⟨incoming,[],none⟩).2.incoming,outgoing,room⟩) := by
  rw [readFrame,readFrame,ByteStream.readExact_eq 8 incoming outgoing room]
  rcases ByteStream.readExact 8 ⟨incoming,[],none⟩ with ⟨_|header,after,written,left⟩
  · rfl
  dsimp only
  split
  · rfl
  rw [ByteStream.readExact_eq _ after outgoing room,ByteStream.readExact_eq _ after written left]
  rcases ByteStream.readExact _ ⟨after,[],none⟩ with ⟨_|payload,rest⟩ <;> rfl

/-- Reading a message looks at what has come in only. -/
theorem readMessage_eq {α : Type} (body : Reader.Read α) (incoming outgoing : List UInt8)
    (room : Option ℕ) : readMessage body ⟨incoming,outgoing,room⟩=
      ((readMessage body ⟨incoming,[],none⟩).1,
        ⟨(readMessage body ⟨incoming,[],none⟩).2.incoming,outgoing,room⟩) := by
  rw [readMessage,readMessage,readFrame_eq incoming outgoing room]
  rcases readFrame ⟨incoming,[],none⟩ with ⟨e|frame,after⟩
  · rfl
  dsimp only
  rcases body (Reader.new frame) with ⟨message,reader⟩|e|_ <;> rfl

/-- The bytes of one frame, or none. -/
def OneFrame (bytes : List UInt8) : Prop :=
  bytes=[] ∨ ∃ payload,payload.length ≤ maxFrameSize ∧ bytes=framed payload

/-- A response that a client finds in what gets through of one frame is the
whole frame, and the frame got through both parts of the way. -/
theorem OneFrame.delivers_iff {answer : List UInt8} (h : OneFrame answer)
    {response : ExecutionResponse} (hl : (responseBytes response).length ≤ maxFrameSize)
    (room returns : Option ℕ) :
    framed (responseBytes response) <+: cut returns (cut room answer) ↔
      framed (responseBytes response) <+: answer ∧
        (∀ count ∈ room,(framed (responseBytes response)).length ≤ count) ∧
        ∀ count ∈ returns,(framed (responseBytes response)).length ≤ count := by
  rcases h with rfl|⟨payload,hp,rfl⟩
  · have hnil : ¬framed (responseBytes response) <+: [] := fun hnil =>
      framed_ne_nil _ (List.prefix_nil.mp hnil)
    rw [cut_nil,cut_nil]
    exact ⟨fun hn => (hnil hn).elim,fun hn => (hnil hn.1).elim⟩
  have hway := (cut_prefix_self returns (cut room (framed payload))).trans (cut_prefix_self room _)
  constructor
  · intro hd
    have hsame := eq_of_framed_prefix_framed hl hp (hd.trans hway)
    subst hsame
    exact ⟨List.prefix_refl _,cut_cut_eq_self_iff.mp (hway.eq_of_length_le hd.length_le)⟩
  · rintro ⟨hwhole,hholds⟩
    have hsame := eq_of_framed_prefix_framed hl hp hwhole
    subst hsame
    rw [cut_cut_eq_self_iff.mpr hholds]

/-- Where the connection to a server breaks. -/
structure Link where
  /-- How many bytes the client can write. -/
  takes : Option ℕ
  /-- How many bytes reach the server. -/
  arrives : Option ℕ
  /-- How many bytes the server can write. -/
  room : Option ℕ
  /-- How many bytes reach the client. -/
  returns : Option ℕ

namespace Link

/-- The request gets through to the server. -/
structure CarriesRequest (link : Link) (request : ExecutionRequest) : Prop where
  /-- The client can write all of it. -/
  taken : ∀ count ∈ link.takes,(framed (requestBytes request)).length ≤ count
  /-- All of it reaches the server. -/
  arrived : ∀ count ∈ link.arrives,(framed (requestBytes request)).length ≤ count

/-- The response gets through to the client. -/
structure CarriesResponse (link : Link) (response : ExecutionResponse) : Prop where
  /-- The server can write all of it. -/
  written : ∀ count ∈ link.room,(framed (responseBytes response)).length ≤ count
  /-- All of it reaches the client. -/
  returned : ∀ count ∈ link.returns,(framed (responseBytes response)).length ≤ count

variable [UuidCrate]

/-- What the server does with what reaches it of the bytes that were sent. -/
def serve (link : Link) (handler : EndpointHandler) (debug : EndpointError → String)
    (sent : List UInt8) : Handled :=
  handleRequestStream ⟨cut link.arrives sent,[],link.room⟩ handler.handleRequest none debug

/-- The server as the client sees it over the connection. -/
def peer (link : Link) (handler : EndpointHandler) (debug : EndpointError → String) : Peer where
  answers := fun sent => cut link.returns (link.serve handler debug sent).stream.outgoing
  takes := link.takes

end Link

section Serving

variable [UuidCrate]

/-- A server hands its handler the same request however much it can write, and
it writes as much as it can of one frame, or nothing. -/
theorem exists_answer (incoming : List UInt8) (endpoint : ExecutionHandler)
    (debug : EndpointError → String) : ∃ answer,OneFrame answer ∧ ∀ room,
      (handleRequestStream ⟨incoming,[],room⟩ endpoint none debug).invoked=
        (handleRequestStream ⟨incoming,[],none⟩ endpoint none debug).invoked ∧
      (handleRequestStream ⟨incoming,[],room⟩ endpoint none debug).stream.outgoing=
        cut room answer := by
  obtain ⟨found,left,hread⟩ : ∃ found left,∀ room,
      readRequest ⟨incoming,[],room⟩=(found,⟨left,[],room⟩) :=
    ⟨_,_,readMessage_eq requestBody incoming []⟩
  have hwritten (response : ExecutionResponse) : ∃ answer,OneFrame answer ∧
      ∀ room,(writeResponse ⟨left,[],room⟩ response).2.outgoing=cut room answer := by
    by_cases hl : maxFrameSize<(responseBytes response).length
    · refine ⟨[],.inl rfl,fun room => ?_⟩
      rw [writeResponse_outgoing,if_pos hl,cut_nil]
      rfl
    · refine ⟨_,.inr ⟨_,Nat.not_lt.mp hl,rfl⟩,fun room => ?_⟩
      rw [writeResponse_outgoing,if_neg hl]
      rfl
  simp only [handleRequestStream,hread]
  rcases found with request|e|_
  · dsimp only [authorize]
    cases endpoint request with
    | ok response =>
      obtain ⟨answer,hone,hw⟩ := hwritten response
      exact ⟨answer,hone,fun room => ⟨rfl,hw room⟩⟩
    | err error =>
      obtain ⟨answer,hone,hw⟩ := hwritten (.failed request.requestId (debug error))
      exact ⟨answer,hone,fun room => ⟨rfl,hw room⟩⟩
    | panic => exact ⟨[],.inl rfl,fun room => ⟨rfl,(cut_nil room).symm⟩⟩
  · exact ⟨[],.inl rfl,fun room => ⟨rfl,(cut_nil room).symm⟩⟩
  · exact ⟨[],.inl rfl,fun room => ⟨rfl,(cut_nil room).symm⟩⟩

/-- What a server answers over a connection that holds. -/
theorem EndpointHandler.peer_answers (handler : EndpointHandler) (debug : EndpointError → String)
    (bytes : List UInt8) : (handler.peer debug).answers bytes=
      (handleRequestStream ⟨bytes,[],none⟩ handler.handleRequest none debug).stream.outgoing := rfl

/-- Nothing is answered where no request was read. -/
theorem exists_request_of_answered {incoming : List UInt8} (endpoint : ExecutionHandler)
    (debug : EndpointError → String)
    (h : (handleRequestStream ⟨incoming,[],none⟩ endpoint none debug).stream.outgoing≠[]) :
    ∃ request,(readRequest ⟨incoming,[],none⟩).1=.ok request := by
  by_contra hn
  exact h (handleRequestStream_refused fun request hr => (hn ⟨request,hr⟩).elim).2.2

namespace Link

variable {link : Link} {handler : EndpointHandler} {debug : EndpointError → String}
  {request decoded : ExecutionRequest} {response : ExecutionResponse}

/-- The handler is called exactly if the whole request got through and passes
the checks, and then with this request. -/
theorem invoked_iff : (link.serve handler debug
      (writeRequest ⟨[],[],link.takes⟩ request).2.outgoing).invoked=some decoded ↔
    decoded=request ∧ Acceptable request ∧ Fits request ∧ link.CarriesRequest request := by
  have hauth : authorize none decoded=.ok () := rfl
  rw [serve,handleRequestStream_invoked,and_iff_left hauth]
  by_cases hf : Fits request
  swap
  · obtain ⟨e,hw⟩ := writeRequest_of_not_fits hf ⟨[],[],link.takes⟩
    rw [hw,cut_nil]
    exact iff_of_false (fun h => nomatch h) fun h => hf h.2.2.1
  obtain ⟨hs,hl⟩ := hf.spelled
  rw [writeRequest_outgoing hf,List.nil_append]
  have hway := (cut_prefix_self link.arrives (cut link.takes (framed (requestBytes request)))).trans
    (cut_prefix_self link.takes _)
  let server : ByteStream := ⟨framed (requestBytes request),[],link.room⟩
  have hi : server.incoming=framed (requestBytes request)++[] := (List.append_nil _).symm
  obtain ⟨hyes,hno⟩ := readRequest_framed hs hl hi
  constructor
  · intro hr
    have hwhole := whole_of_readMessage_cut hl hway hr
    dsimp only at hwhole
    rw [hwhole] at hr
    obtain ⟨htaken,harrived⟩ := cut_cut_eq_self_iff.mp hwhole
    by_cases ha : Acceptable request
    · have hread : (readRequest server).1=.ok request := by rw [hyes ha]
      exact ⟨Outcome.ok.inj (hr.symm.trans hread),ha,hf,htaken,harrived⟩
    · obtain ⟨e,hread⟩ := hno ha
      have herr : (readRequest server).1=.err e := by rw [hread]
      cases hr.symm.trans herr
  · rintro ⟨rfl,ha,_,htaken,harrived⟩
    rw [cut_cut_eq_self_iff.mpr ⟨htaken,harrived⟩]
    exact congrArg Prod.fst (hyes ha)

/-- Over a connection that may break, a server delivers what it would over one
that holds, if both messages get through. -/
theorem delivers_iff : (link.peer handler debug).Delivers request response ↔
    (handler.peer debug).Delivers request response ∧
      link.CarriesRequest request ∧ link.CarriesResponse response := by
  constructor
  · intro h
    obtain ⟨answer,hone,hserved⟩ := exists_answer
      (cut link.arrives (framed (requestBytes request))) handler.handleRequest debug
    have hsent : framed (responseBytes response) <+: cut link.returns (cut link.room answer) := by
      rw [← (hserved link.room).2]
      exact h.sent
    obtain ⟨hfirst,hroom,hreturns⟩ := (hone.delivers_iff h.short link.room link.returns).mp hsent
    rw [show answer=_ from (hserved none).2.symm] at hfirst
    obtain ⟨found,hfound⟩ := exists_request_of_answered handler.handleRequest debug fun hnil =>
      framed_ne_nil (responseBytes response) (List.prefix_nil.mp (hnil ▸ hfirst))
    have hwhole := whole_of_readMessage_cut h.fits.spelled.2 (cut_prefix_self _ _) hfound
    dsimp only at hwhole
    rw [hwhole,← EndpointHandler.peer_answers] at hfirst
    exact ⟨⟨h.fits,nofun,h.short,hfirst,h.named⟩,⟨h.taken,cut_eq_self_iff.mp hwhole⟩,
      hroom,hreturns⟩
  · rintro ⟨h,⟨htaken,harrived⟩,hroom,hreturns⟩
    obtain ⟨answer,hone,hserved⟩ := exists_answer (framed (requestBytes request))
      handler.handleRequest debug
    have hsent := h.sent
    rw [EndpointHandler.peer_answers,show _=answer from (hserved none).2] at hsent
    refine ⟨h.fits,htaken,h.short,?_,h.named⟩
    dsimp only [peer,serve]
    rw [cut_eq_self_iff.mpr harrived,(hserved link.room).2]
    exact (hone.delivers_iff h.short link.room link.returns).mpr ⟨hsent,hroom,hreturns⟩

end Link

/-- The servers of a network over a connection that may break. -/
def Network.over (network : Network) (debug : EndpointError → String) (link : Link) :
    Internet String where
  toSocketAddrs := fun locator => some [locator]
  connectTimeout := fun address => (network address).map fun handler => link.peer handler debug

/-- The request that the server behind the locator hands to its handler, if it
does, when the request is sent over the connection. -/
def Network.invoked (network : Network) (debug : EndpointError → String) (link : Link)
    (request : ExecutionRequest) : Option ExecutionRequest :=
  match validateTransportRequest request,network request.endpoint.locator with
  | .ok (),some handler => (link.serve handler debug
      (writeRequest ⟨[],[],link.takes⟩ request).2.outgoing).invoked
  | _,_ => none

section Network

variable {network : Network} {debug : EndpointError → String} {link : Link}
  {request : ExecutionRequest}

/-- A handler is called with exactly the request of the caller, if at all, and
it is called exactly if the request passes the checks and gets through. -/
theorem Network.invoked_iff {decoded : ExecutionRequest} :
    network.invoked debug link request=some decoded ↔ decoded=request ∧ Acceptable request ∧
      Fits request ∧ network request.endpoint.locator≠none ∧ link.CarriesRequest request := by
  rw [invoked]
  cases hn : network request.endpoint.locator with
  | none =>
    have hnone : ¬(decoded=request ∧ Acceptable request ∧ Fits request ∧
        (none : Option EndpointHandler)≠none ∧ link.CarriesRequest request) :=
      fun h => h.2.2.2.1 rfl
    cases validateTransportRequest request <;> exact iff_of_false (fun h => nomatch h) hnone
  | some handler =>
    cases hv : validateTransportRequest request with
    | error e =>
      refine iff_of_false (fun h => nomatch h) fun h => ?_
      rw [h.2.1.1] at hv
      cases hv
    | ok u =>
      have hsome : some handler≠none := nofun
      dsimp only
      rw [Link.invoked_iff,and_iff_right hsome]

/-- A call over a connection that may break returns what it would over one that
holds, if both messages get through. -/
theorem dispatchTo_over_eq_ok_iff {response : ExecutionResponse} :
    TcpTransport.dispatchTo (network.over debug link) request=.ok response ↔
      TcpTransport.dispatch network debug request=.ok response ∧
        link.CarriesRequest request ∧ link.CarriesResponse response := by
  rw [(dispatchTo_exact _ _).2,tcpDispatch_eq_ok_iff]
  constructor
  · rintro ⟨hv,peer,hreach,hd⟩
    obtain ⟨handler,hn,rfl⟩ := reaches_single_iff.mp hreach
    obtain ⟨hheld,hcarries⟩ := Link.delivers_iff.mp hd
    exact ⟨⟨hv,handler,hn,hheld⟩,hcarries⟩
  · rintro ⟨⟨hv,handler,hn,hheld⟩,hcarries⟩
    exact ⟨hv,_,reaches_single_iff.mpr ⟨handler,hn,rfl⟩,Link.delivers_iff.mpr ⟨hheld,hcarries⟩⟩

/-- A server that has answered has decoded the request, so it passed the checks. -/
theorem acceptable_of_tcpDispatch {response : ExecutionResponse}
    (h : TcpTransport.dispatch network debug request=.ok response) :
    Acceptable request ∧ Fits request ∧ network request.endpoint.locator≠none := by
  obtain ⟨_,handler,hn,hd⟩ := tcpDispatch_eq_ok_iff.mp h
  have hsent := hd.sent
  rw [EndpointHandler.peer_answers] at hsent
  obtain ⟨found,hfound⟩ := exists_request_of_answered handler.handleRequest debug fun hnil =>
    framed_ne_nil (responseBytes response) (List.prefix_nil.mp (hnil ▸ hsent))
  obtain ⟨hs,hl⟩ := hd.fits.spelled
  refine ⟨?_,hd.fits,by rw [hn]; nofun⟩
  by_contra hna
  let server : ByteStream := ⟨framed (requestBytes request),[],none⟩
  have hi : server.incoming=framed (requestBytes request)++[] := (List.append_nil _).symm
  obtain ⟨e,he⟩ := (readRequest_framed hs hl hi).2 hna
  have herr : (readRequest server).1=.err e := by rw [he]
  cases hfound.symm.trans herr

end Network

/-- A plan whose threads send their requests over connections that break as
given. It is dispatched exactly if it is over connections that hold and both
messages of every thread get through; in every other case the backend has
rejected it. Whatever the result, each handler is called with the request of
its thread, if that got through, and with nothing else; behind a success all
were called. -/
theorem dispatch_over_links {network : Network} {debug : EndpointError → String}
    {source : Option Identity} {listed : List ExecutionEndpoint} {plan : ExecutionPlan F64}
    {workload : WorkItem} {requests sent : List ExecutionRequest} (links : ℕ → Link)
    (hp : prepare ⟨source,TcpTransport.dispatch network debug,listed⟩ plan workload=.ok requests)
    {calls : ℕ → Outcome TransportError ExecutionResponse}
    (hcalls : ∀ i request,requests[i]?=some request →
      calls i=TcpTransport.dispatchTo (network.over debug (links i)) request)
    {result : Outcome ExecutionError DispatchReceipt}
    (hd : Dispatches ⟨source,TcpTransport.dispatch network debug,listed⟩ plan workload calls sent
      result) :
    (result=.err .backendRejected ∨ result=.ok ⟨workload.id,plan.nodeId,requests.length⟩) ∧
    (∀ receipt,result=.ok receipt ↔
      dispatch ⟨source,TcpTransport.dispatch network debug,listed⟩ plan workload=.ok receipt ∧
      ∀ i request,requests[i]?=some request → ∃ response,
        TcpTransport.dispatch network debug request=.ok response ∧
        (links i).CarriesRequest request ∧ (links i).CarriesResponse response) ∧
    (∀ i request,requests[i]?=some request → ∀ decoded,
      network.invoked debug (links i) request=some decoded ↔
        decoded=request ∧ Acceptable request ∧ Fits request ∧
          network request.endpoint.locator≠none ∧ (links i).CarriesRequest request) ∧
    ∀ receipt,result=.ok receipt → ∀ i request,requests[i]?=some request →
      network.invoked debug (links i) request=some request := by
  have hresult : result=concluded plan workload requests calls := by
    rw [hd.eq_settled,settled,hp]
    rfl
  let answers (i : ℕ) : Outcome TransportError ExecutionResponse :=
    (requests[i]?).elim .panic (TcpTransport.dispatch network debug)
  have hanswers : ∀ i request,requests[i]?=some request →
      answers i=TcpTransport.dispatch network debug request := by
    intro i request hr
    simp only [answers,hr,Option.elim_some]
  have hheld : dispatch ⟨source,TcpTransport.dispatch network debug,listed⟩ plan workload=
      concluded plan workload requests answers := dispatch_eq_conclude hp hanswers
  have haccepted : ∀ i request,requests[i]?=some request → (Accepted request (calls i) ↔
      Accepted request (answers i) ∧ ∃ response,
        TcpTransport.dispatch network debug request=.ok response ∧
        (links i).CarriesRequest request ∧ (links i).CarriesResponse response) := by
    intro i request hr
    rw [hcalls i request hr,hanswers i request hr]
    constructor
    · rintro ⟨response,hok,htaken⟩
      obtain ⟨hok,hcarries⟩ := dispatchTo_over_eq_ok_iff.mp hok
      exact ⟨⟨response,hok,htaken⟩,response,hok,hcarries⟩
    · rintro ⟨⟨response,hok,htaken⟩,found,hfound,hcarries⟩
      cases hok.symm.trans hfound
      exact ⟨response,dispatchTo_over_eq_ok_iff.mpr ⟨hok,hcarries⟩,htaken⟩
  have hok : ∀ receipt,result=.ok receipt ↔
      dispatch ⟨source,TcpTransport.dispatch network debug,listed⟩ plan workload=.ok receipt ∧
      ∀ i request,requests[i]?=some request → ∃ response,
        TcpTransport.dispatch network debug request=.ok response ∧
        (links i).CarriesRequest request ∧ (links i).CarriesResponse response := by
    intro receipt
    rw [hresult,hheld,concluded_eq_ok_iff,concluded_eq_ok_iff,and_assoc]
    refine and_congr_right fun _ => ?_
    constructor
    · exact fun h => ⟨fun i request hr => ((haccepted i request hr).mp (h i request hr)).1,
        fun i request hr => ((haccepted i request hr).mp (h i request hr)).2⟩
    · exact fun h i request hr => (haccepted i request hr).mpr ⟨h.1 i request hr,h.2 i request hr⟩
  refine ⟨?_,hok,fun i request _ decoded => Network.invoked_iff,fun receipt h i request hr => ?_⟩
  · rw [hresult]
    refine concluded_of_returning fun i request hr => ?_
    rw [hcalls i request hr]
    exact (dispatchTo_exact _ _).1
  · obtain ⟨response,hcall,hcarries,_⟩ := ((hok receipt).mp h).2 i request hr
    obtain ⟨ha,hf,hn⟩ := acceptable_of_tcpDispatch hcall
    exact Network.invoked_iff.mpr ⟨rfl,ha,hf,hn,hcarries⟩

end Serving

section Sample

/-- The servers of the two participants. -/
def twoServers : Network := fun locator =>
  if locator=sampleRequest.endpoint.locator then some servedEndpoint.handler
  else if locator="b:1" then
    some (ParticipantExecutionEndpoint.handler ⟨secondUnit.participantId,noopParticipantExecutor,rfl⟩)
  else none

/-- Connections of which the first one holds and the others break in the answer. -/
def losingLinks : ℕ → Link
  | 0 => ⟨none,none,none,none⟩
  | _ => ⟨none,none,none,some 3⟩

/-- Both requests pass the checks, fit a frame and have a server. -/
theorem twoUnitRequests_sendable : letI := hyphenatedUuid
    ∀ request ∈ twoUnitRequests,Acceptable request ∧ Fits request ∧
      twoServers request.endpoint.locator≠none := by
  let := hyphenatedUuid
  intro request hm
  rcases List.mem_cons.mp hm with rfl|hm
  · exact ⟨⟨by decide +kernel,by decide +kernel,by decide +kernel⟩,
      ⟨_,rfl,by decide +kernel⟩,by decide +kernel⟩
  · obtain rfl := List.mem_singleton.mp hm
    exact ⟨⟨by decide +kernel,by decide +kernel,by decide +kernel⟩,
      ⟨_,rfl,by decide +kernel⟩,by decide +kernel⟩

/-- With the answer to the second unit lost, the plan is rejected although both
handlers were called. -/
theorem dispatch_over_links_losingLinks : letI := hyphenatedUuid
    ∃ sent result,(twoUnitDispatcher (TcpTransport.dispatch twoServers fun _ => "")).Dispatches
        twoUnitPlan sampleRequest.workload
        (fun i => (twoUnitRequests[i]?).elim .panic
          (TcpTransport.dispatchTo (twoServers.over (fun _ => "") (losingLinks i)))) sent result ∧
      result=.err .backendRejected ∧
      ∀ i request,twoUnitRequests[i]?=some request →
        twoServers.invoked (fun _ => "") (losingLinks i) request=some request := by
  let := hyphenatedUuid
  let calls (i : ℕ) : Outcome TransportError ExecutionResponse := (twoUnitRequests[i]?).elim .panic
    (TcpTransport.dispatchTo (twoServers.over (fun _ => "") (losingLinks i)))
  obtain ⟨sent,result,hd⟩ := exists_dispatches
    (twoUnitDispatcher (TcpTransport.dispatch twoServers fun _ => "")) twoUnitPlan
    sampleRequest.workload calls
  have hp : (twoUnitDispatcher (TcpTransport.dispatch twoServers fun _ => "")).prepare twoUnitPlan
      sampleRequest.workload=.ok twoUnitRequests :=
    (prepare_transport _ _).trans prepare_twoUnitPlan
  have hcalls : ∀ i request,twoUnitRequests[i]?=some request → calls i=
      TcpTransport.dispatchTo (twoServers.over (fun _ => "") (losingLinks i)) request := by
    intro i request hr
    simp only [calls,hr,Option.elim_some]
  obtain ⟨hcases,hok,hinvoked,_⟩ := dispatch_over_links losingLinks hp hcalls hd
  refine ⟨sent,result,hd,?_,?_⟩
  · rcases hcases with herr|hreceipt
    · exact herr
    · obtain ⟨_,hall⟩ := (hok _).mp hreceipt
      obtain ⟨response,_,_,hcarries⟩ := hall 1 _ rfl
      have hlen := hcarries.returned 3 rfl
      rw [framed,List.length_append,toBeBytes_length] at hlen
      omega
  · intro i request hr
    obtain ⟨ha,hf,hn⟩ := twoUnitRequests_sendable request (List.mem_of_getElem? hr)
    have hcarries : (losingLinks i).CarriesRequest request := by
      cases i with
      | zero => exact ⟨by simp [losingLinks],by simp [losingLinks]⟩
      | succ i => exact ⟨by simp [losingLinks],by simp [losingLinks]⟩
    exact (hinvoked i request hr request).mpr ⟨rfl,ha,hf,hn,hcarries⟩

end Sample

end OpenHost
