import OpenHost.DispatchRefinement

/-!
# Peers that need not follow the protocol

Behind an address there may be any program. It takes as many bytes as it
likes and sends whatever it likes, depending on what it has taken. A client
resolves the locator, connects to the first address that accepts, sends one
frame and reads one. It believes that a unit was taken on only if the bytes in
front of the peer's answer are the one spelling of a response to this request.
-/

namespace OpenHost

/-- The program at the other end of a connection. -/
structure Peer where
  /-- Everything it sends, once it has received these bytes. -/
  answers : List UInt8 → List UInt8
  /-- How many bytes it takes before writing to it fails; none is unbounded. -/
  takes : Option ℕ

/-- Name resolution, and what accepts connections where. -/
structure Internet (Address : Type) where
  /-- Addresses of a locator, in the order in which they are tried. -/
  toSocketAddrs : String → Option (List Address)
  /-- Connect to an address within the time limit. -/
  connectTimeout : Address → Option Peer

variable {Address : Type}

/-- Connect to the first address of the locator that accepts. -/
def connectWithTimeout (internet : Internet Address) (locator : String) :
    Except TransportError Peer := do
  let addresses ← okOr (internet.toSocketAddrs locator) .networkFailure
  okOr (addresses.findSome? internet.connectTimeout) .networkFailure

/-- Send the request to a peer, read one response and compare its name. -/
def exchange (peer : Peer) (request : ExecutionRequest) :
    Outcome TransportError ExecutionResponse :=
  match writeRequest ⟨[],[],peer.takes⟩ request with
  | (.error e,_) => .err e
  | (.ok (),client) => do
    let response ← (readResponse {client with incoming := peer.answers client.outgoing}).1
    rejectIf (response.requestId≠request.requestId) TransportError.responseIdMismatch
    return response

/-- Dispatch a request to whatever is behind its locator. -/
def TcpTransport.dispatchTo [UuidCrate] (internet : Internet Address) (request : ExecutionRequest) :
    Outcome TransportError ExecutionResponse := do
  validateTransportRequest request
  let peer ← connectWithTimeout internet request.endpoint.locator
  exchange peer request

namespace ByteStream

/-- Bytes are written exactly if there is room for all of them. -/
theorem writeAll_of_room {stream : ByteStream} {bytes : List UInt8}
    (h : ∀ room ∈ stream.room,bytes.length ≤ room) : stream.writeAll bytes=
      (true,{stream with
        outgoing := stream.outgoing++bytes
        room := stream.room.map fun room => room-bytes.length}) := by
  rw [writeAll]
  cases hr : stream.room with
  | none => simp
  | some room =>
    have hl := h room hr
    simp [hl,List.take_of_length_le hl]

/-- A write without room for all bytes fails. -/
theorem writeAll_of_full {stream : ByteStream} {bytes : List UInt8}
    (h : ¬∀ room ∈ stream.room,bytes.length ≤ room) : ∃ after,stream.writeAll bytes=(false,after) := by
  rw [writeAll]
  cases hr : stream.room with
  | none => simp [hr] at h
  | some room =>
    have hl : ¬bytes.length ≤ room := by simpa [hr] using h
    dsimp only
    rw [decide_eq_false hl]
    exact ⟨_,rfl⟩

end ByteStream

/-- A frame is written exactly if its payload is short enough and there is
room for all of its bytes. -/
theorem writeFrame_eq_ok_iff {stream : ByteStream} {payload : List UInt8} :
    (∃ after,writeFrame stream payload=(.ok (),after)) ↔ payload.length ≤ maxFrameSize ∧
      ∀ room ∈ stream.room,(framed payload).length ≤ room := by
  have hlen : (framed payload).length=8+payload.length := by
    rw [framed,List.length_append,BigEndian.toBeBytes_length]
  have hheader : (BigEndian.toBeBytes 8 payload.length).length=8 := BigEndian.toBeBytes_length 8 _
  rw [writeFrame,hlen]
  by_cases hl : maxFrameSize<payload.length
  · rw [if_pos hl]
    simp [Nat.not_le.mpr hl]
  rw [if_neg hl]
  by_cases hfirst : ∀ room ∈ stream.room,(BigEndian.toBeBytes 8 payload.length).length ≤ room
  swap
  · obtain ⟨after,hw⟩ := ByteStream.writeAll_of_full hfirst
    rw [hw]
    refine iff_of_false (by simp) fun h => hfirst fun room hr => ?_
    have := h.2 room hr
    omega
  rw [ByteStream.writeAll_of_room hfirst]
  dsimp only
  let behind : ByteStream := {stream with
    outgoing := stream.outgoing++BigEndian.toBeBytes 8 payload.length
    room := stream.room.map fun room => room-(BigEndian.toBeBytes 8 payload.length).length}
  have hsecond : (∀ room ∈ behind.room,payload.length ≤ room) ↔
      ∀ room ∈ stream.room,8+payload.length ≤ room := by
    constructor
    · intro h room hr
      have hb := h (room-(BigEndian.toBeBytes 8 payload.length).length)
        (Option.mem_map.mpr ⟨room,hr,rfl⟩)
      have hf := hfirst room hr
      omega
    · intro h left hleft
      obtain ⟨room,hr,rfl⟩ := Option.mem_map.mp hleft
      have hb := h room hr
      omega
  rw [← hsecond]
  by_cases hall : ∀ room ∈ behind.room,payload.length ≤ room
  · have hw := ByteStream.writeAll_of_room hall
    rw [hw]
    exact iff_of_true ⟨_,rfl⟩ ⟨Nat.not_lt.mp hl,hall⟩
  · obtain ⟨after,hw⟩ := ByteStream.writeAll_of_full hall
    rw [hw]
    exact iff_of_false (by simp) fun h => hall h.2

/-- The peer takes the whole request, and its answer begins with the spelling
of that response, which names the request. -/
structure Peer.Delivers (peer : Peer) (request : ExecutionRequest) (response : ExecutionResponse) :
    Prop where
  /-- The request fits a frame. -/
  fits : Fits request
  /-- The peer takes all of it. -/
  taken : ∀ room ∈ peer.takes,(framed (requestBytes request)).length ≤ room
  /-- The response fits a frame. -/
  short : (responseBytes response).length ≤ maxFrameSize
  /-- The frame of the response is sent first. -/
  sent : framed (responseBytes response) <+: peer.answers (framed (requestBytes request))
  /-- The response is one to the request. -/
  named : response.requestId=request.requestId

/-- A request is written exactly if it fits and the peer takes all of it. -/
theorem writeRequest_eq_ok_iff {peer : Peer} {request : ExecutionRequest} :
    (∃ client,writeRequest ⟨[],[],peer.takes⟩ request=(.ok (),client)) ↔
      Fits request ∧ ∀ room ∈ peer.takes,(framed (requestBytes request)).length ≤ room := by
  rw [writeRequest]
  cases hp : requestPayload request with
  | error e =>
    refine iff_of_false (by simp) ?_
    rintro ⟨⟨payload,hok,_⟩,_⟩
    rw [hp] at hok
    cases hok
  | ok payload =>
    obtain ⟨hs,rfl⟩ := requestPayload_eq_ok.mp hp
    dsimp only
    rw [writeFrame_eq_ok_iff]
    constructor
    · rintro ⟨hl,hroom⟩
      exact ⟨⟨_,hp,hl⟩,hroom⟩
    · rintro ⟨hf,hroom⟩
      exact ⟨hf.spelled.2,hroom⟩

/-- A response is read exactly if its spelling is what comes first. -/
theorem readResponse_eq_ok_iff {stream : ByteStream} {response : ExecutionResponse} :
    (readResponse stream).1=.ok response ↔ (responseBytes response).length ≤ maxFrameSize ∧
      framed (responseBytes response) <+: stream.incoming := by
  constructor
  · intro h
    obtain ⟨payload,rest,hl,hi,hr⟩ := framed_of_readMessage h
    obtain ⟨rfl,_⟩ := (readResponse_framed hl hi).mp hr
    exact ⟨hl,rest,hi.symm⟩
  · rintro ⟨hl,rest,hi⟩
    rw [(readResponse_framed hl hi.symm).mpr ⟨rfl,rfl⟩]

/-- A client believes exactly the responses that a peer delivers. -/
theorem exchange_eq_ok_iff {peer : Peer} {request : ExecutionRequest}
    {response : ExecutionResponse} :
    exchange peer request=.ok response ↔ peer.Delivers request response := by
  have hwritten : (∃ client,writeRequest ⟨[],[],peer.takes⟩ request=(.ok (),client)) ↔
      Fits request ∧ ∀ room ∈ peer.takes,(framed (requestBytes request)).length ≤ room :=
    writeRequest_eq_ok_iff
  rw [exchange]
  rcases hw : writeRequest ⟨[],[],peer.takes⟩ request with ⟨e|u,client⟩
  · refine iff_of_false (by simp) fun h => ?_
    obtain ⟨_,hok⟩ := hwritten.mpr ⟨h.fits,h.taken⟩
    rw [hw] at hok
    cases hok
  · obtain ⟨hf,htaken⟩ := hwritten.mp ⟨client,hw⟩
    have hout : client.outgoing=framed (requestBytes request) := by
      rw [writeRequest,requestPayload_eq_ok.mpr ⟨hf.spelled.1,rfl⟩] at hw
      exact (writeFrame_eq_ok hw).2
    have hread : ∀ found : ExecutionResponse,
        (readResponse {client with incoming := peer.answers client.outgoing}).1=.ok found ↔
        (responseBytes found).length ≤ maxFrameSize ∧
          framed (responseBytes found) <+: peer.answers (framed (requestBytes request)) := by
      intro found
      rw [readResponse_eq_ok_iff,hout]
    dsimp only
    rw [Outcome.bind_eq_ok]
    constructor
    · rintro ⟨found,hr,hrest⟩
      obtain ⟨_,hnamed,hsame⟩ := Outcome.bind_eq_ok.mp hrest
      cases hsame
      obtain ⟨hl,hsent⟩ := (hread response).mp hr
      exact ⟨hf,htaken,hl,hsent,
        not_not.mp (Checks.rejectIf_eq_ok.mp (Outcome.ofExcept_eq_ok.mp hnamed))⟩
    · intro h
      refine ⟨response,(hread response).mpr ⟨h.short,h.sent⟩,?_⟩
      have hnamed : rejectIf (response.requestId≠request.requestId)
          TransportError.responseIdMismatch=.ok () :=
        Checks.rejectIf_eq_ok.mpr (not_not.mpr h.named)
      rw [hnamed]
      rfl

/-- No peer makes a client panic. -/
theorem exchange_ne_panic (peer : Peer) (request : ExecutionRequest) :
    exchange peer request≠.panic := by
  rw [exchange]
  split
  · exact nofun
  · intro h
    rcases Outcome.bind_eq_panic.mp h with hr|⟨response,_,hr⟩
    · exact readResponse_ne_panic _ hr
    · rcases Outcome.bind_eq_panic.mp hr with hr|⟨_,_,hr⟩
      · exact Outcome.ofExcept_ne_panic _ hr
      · cases hr

/-- The peer is behind the first address of the locator that accepts. -/
def Internet.Reaches (internet : Internet Address) (locator : String) (peer : Peer) : Prop :=
  ∃ before address after,internet.toSocketAddrs locator=some (before++address::after) ∧
    internet.connectTimeout address=some peer ∧
    ∀ refusing ∈ before,internet.connectTimeout refusing=none

/-- A connection is made to the first address that accepts. -/
theorem connectWithTimeout_eq_ok {internet : Internet Address} {locator : String} {peer : Peer} :
    connectWithTimeout internet locator=.ok peer ↔ internet.Reaches locator peer := by
  simp only [connectWithTimeout,Checks.bind_eq_ok,Checks.okOr_eq_ok,List.findSome?_eq_some_iff]
  constructor
  · rintro ⟨_,hs,before,address,after,rfl,hc,hn⟩
    exact ⟨before,address,after,hs,hc,hn⟩
  · rintro ⟨before,address,after,hs,hc,hn⟩
    exact ⟨_,hs,before,address,after,rfl,hc,hn⟩

section Calls

variable [UuidCrate]

/-- Whatever is behind the locator, the call returns; and it returns exactly
the responses that the first address to accept delivers. -/
theorem dispatchTo_exact (internet : Internet Address) (request : ExecutionRequest) :
    TcpTransport.dispatchTo internet request≠.panic ∧
    ∀ response,TcpTransport.dispatchTo internet request=.ok response ↔
      validateTransportRequest request=.ok () ∧ ∃ peer,
        internet.Reaches request.endpoint.locator peer ∧ peer.Delivers request response := by
  constructor
  · intro h
    rcases Outcome.bind_eq_panic.mp h with hv|⟨_,_,h⟩
    · exact Outcome.ofExcept_ne_panic _ hv
    rcases Outcome.bind_eq_panic.mp h with hc|⟨peer,_,h⟩
    · exact Outcome.ofExcept_ne_panic _ hc
    · exact exchange_ne_panic peer request h
  · intro response
    simp only [TcpTransport.dispatchTo,Outcome.monadLift_eq,Outcome.bind_eq_ok,
      Outcome.ofExcept_eq_ok,connectWithTimeout_eq_ok,exchange_eq_ok_iff]
    constructor
    · rintro ⟨_,hv,hrest⟩
      exact ⟨hv,hrest⟩
    · rintro ⟨hv,hrest⟩
      exact ⟨(),hv,hrest⟩

/-- The peer that a server with this handler is. -/
def EndpointHandler.peer (handler : EndpointHandler) (debug : EndpointError → String) : Peer where
  answers := fun bytes =>
    (handleRequestStream ⟨bytes,[],none⟩ handler.handleRequest none debug).stream.outgoing
  takes := none

/-- The network in which every locator is one address. -/
def Network.internet (network : Network) (debug : EndpointError → String) : Internet String where
  toSocketAddrs := fun locator => some [locator]
  connectTimeout := fun address => (network address).map fun handler => handler.peer debug

/-- Dispatching to servers is dispatching to peers that follow the protocol. -/
theorem dispatch_eq_dispatchTo (network : Network) (debug : EndpointError → String)
    (request : ExecutionRequest) : TcpTransport.dispatch network debug request=
      TcpTransport.dispatchTo (network.internet debug) request := by
  rw [TcpTransport.dispatch,TcpTransport.dispatchTo]
  refine bind_congr fun _ => ?_
  have hconnect : connectWithTimeout (network.internet debug) request.endpoint.locator=
      (okOr (network request.endpoint.locator) .networkFailure).map fun handler =>
        handler.peer debug := by
    cases hn : network request.endpoint.locator with
    | none => simp [connectWithTimeout,Network.internet,okOr,hn,bind,Except.bind,Except.map]
    | some handler => simp [connectWithTimeout,Network.internet,okOr,hn,bind,Except.bind,Except.map]
  rw [hconnect]
  cases okOr (network request.endpoint.locator) TransportError.networkFailure with
  | error e => rfl
  | ok handler => rfl

omit [UuidCrate] in
/-- Where every locator is one address, the peer behind it is that of the server there. -/
theorem reaches_single_iff {network : Network} {peerOf : EndpointHandler → Peer}
    {locator : String} {peer : Peer} :
    Internet.Reaches ⟨fun locator => some [locator],fun address => (network address).map peerOf⟩
        locator peer ↔
      ∃ handler,network locator=some handler ∧ peerOf handler=peer := by
  rw [← Option.map_eq_some_iff]
  constructor
  · rintro ⟨before,address,after,hs,hc,_⟩
    have haddress : address=locator := by
      have hm : address ∈ [locator] := by
        rw [Option.some.inj hs]
        exact List.mem_append_right _ List.mem_cons_self
      exact List.mem_singleton.mp hm
    rw [← haddress]
    exact hc
  · exact fun hc => ⟨[],locator,[],rfl,hc,nofun⟩

/-- A call through a network returns what the server at the locator delivers. -/
theorem tcpDispatch_eq_ok_iff {network : Network} {debug : EndpointError → String}
    {request : ExecutionRequest} {response : ExecutionResponse} :
    TcpTransport.dispatch network debug request=.ok response ↔
      validateTransportRequest request=.ok () ∧ ∃ handler,
        network request.endpoint.locator=some handler ∧
          (handler.peer debug).Delivers request response := by
  rw [dispatch_eq_dispatchTo,(dispatchTo_exact _ _).2]
  refine and_congr_right fun _ => ?_
  constructor
  · rintro ⟨peer,hreach,hd⟩
    obtain ⟨handler,hn,rfl⟩ := reaches_single_iff.mp hreach
    exact ⟨handler,hn,hd⟩
  · rintro ⟨handler,hn,hd⟩
    exact ⟨_,reaches_single_iff.mpr ⟨handler,hn,rfl⟩,hd⟩

open ExecutionDispatcher

end Calls

end OpenHost
