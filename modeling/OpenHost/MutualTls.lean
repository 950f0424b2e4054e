import OpenHost.ClientAuthorization
import OpenHost.Peers

/-!
# Mutual TLS

A client that dispatches over TLS needs an identity, the name of the server,
and a completed handshake; the server sees the certificate of the client and
serves the request only if this certificate was granted to the identity. TLS
itself is a parameter: a handshake ends in some way at either end, and then
carries the bytes of both. To a client, such servers are those servers without
TLS that would grant its certificate, and the others might as well not exist.
-/

namespace OpenHost

/-- How a handshake ends: at the client, and at the server with the leaf
certificate that the client has proved to own. -/
structure Handshake where
  /-- End at the client. -/
  client : Except TransportError Unit
  /-- End at the server. -/
  server : Except TransportError (Option (List UInt8))

/-- A server that was bound with mutual TLS. -/
structure TlsServer where
  /-- What it serves. -/
  handler : EndpointHandler
  /-- The grants that it was bound with. -/
  authorizedClients : List AuthorizedClientCertificate
  /-- The table of these grants. -/
  allowlist : ClientAllowlist
  /-- The table was built from the grants. -/
  built : buildClientAllowlist authorizedClients=.ok allowlist

/-- Handle an accepted connection, over TLS or without it; `tls` is how the
handshake ends at the server. -/
def handleConnection [UuidCrate] (stream : ByteStream) (endpoint : ExecutionHandler)
    (tls : Option (Except TransportError (Option (List UInt8))))
    (authorizedClients : Option ClientAllowlist) (debug : EndpointError → String) : Handled :=
  match tls with
  | none => handleRequestStream stream endpoint none debug
  | some (.error e) => ⟨.err e,stream,none⟩
  | some (.ok peerCertificate) =>
    handleRequestStream stream endpoint
      (authorizedClients.map fun allowed => (allowed,peerCertificate)) debug

/-- What a client with a certificate finds on the network. -/
structure TlsClient (Name : Type) where
  /-- Name that the server of a locator must prove. -/
  serverName : String → Except TransportError Name
  /-- The server that listens at a locator, if there is one. -/
  servers : String → Option TlsServer
  /-- How the handshake with the server at a locator ends. -/
  handshake : String → Name → Handshake
  /-- Text in which servers report errors. -/
  debug : EndpointError → String

/-- What one call did: what the client got, and the request with which the
handler of the server was invoked, if it was. -/
structure Dialogue where
  /-- Result of the client. -/
  result : Outcome TransportError ExecutionResponse
  /-- Request of the handler. -/
  invoked : Option ExecutionRequest

variable {Name : Type}

/-- Check the request, connect to its server and complete the handshake. -/
def TlsClient.connect [UuidCrate] (client : TlsClient Name) (request : ExecutionRequest) :
    Except TransportError (TlsServer×Except TransportError (Option (List UInt8))) := do
  validateTransportRequest request
  rejectIf (request.sourceParticipantId=none) .missingSourceIdentity
  let name ← client.serverName request.endpoint.locator
  let server ← okOr (client.servers request.endpoint.locator) .networkFailure
  (client.handshake request.endpoint.locator name).client
  .ok (server,(client.handshake request.endpoint.locator name).server)

/-- What the server does with an accepted connection over TLS. -/
def TlsServer.handle [UuidCrate] (server : TlsServer)
    (session : Except TransportError (Option (List UInt8))) (debug : EndpointError → String)
    (stream : ByteStream) : Handled :=
  handleConnection stream server.handler.handleRequest (some session) (some server.allowlist) debug

/-- The peer that the server is behind its end of the handshake. -/
def TlsServer.peer [UuidCrate] (server : TlsServer)
    (session : Except TransportError (Option (List UInt8))) (debug : EndpointError → String) :
    Peer where
  answers := fun bytes => (server.handle session debug ⟨bytes,[],none⟩).stream.outgoing
  takes := none

/-- Dispatch a request over TLS, with both ends of the connection. -/
def TlsTcpTransport.call [UuidCrate] (client : TlsClient Name) (request : ExecutionRequest) :
    Dialogue :=
  match client.connect request with
  | .error e => ⟨.err e,none⟩
  | .ok (server,session) =>
    ⟨exchange (server.peer session client.debug) request,
      (server.handle session client.debug
        ⟨(writeRequest ⟨[],[],none⟩ request).2.outgoing,[],none⟩).invoked⟩

/-- Dispatch a request over TLS. -/
def TlsTcpTransport.dispatch [UuidCrate] (client : TlsClient Name) (request : ExecutionRequest) :
    Outcome TransportError ExecutionResponse := (call client request).result

instance (clients : List AuthorizedClientCertificate) (id : String) (certificate : List UInt8) :
    Decidable (Grants clients id certificate) :=
  inferInstanceAs (Decidable (∃ client ∈ clients,client.participantId.id=id ∧
    client.certificateDer=certificate))

/-- The handshake with the server ends well at both ends, and the server has
granted the certificate of the client to the caller. -/
def TlsClient.admits (client : TlsClient Name) (caller : Identity) (locator : String)
    (server : TlsServer) : Bool :=
  match client.serverName locator with
  | .error _ => false
  | .ok name =>
    match client.handshake locator name with
    | ⟨.ok (),.ok (some certificate)⟩ =>
      decide (Grants server.authorizedClients caller.id certificate)
    | _ => false

/-- The servers that admit the caller, as servers without TLS. -/
def TlsClient.admitting (client : TlsClient Name) (caller : Identity) : Network := fun locator =>
  match client.servers locator with
  | some server => if client.admits caller locator server then some server.handler else none
  | none => none

/-- Nothing is written of a request that does not fit. -/
theorem writeRequest_of_not_fits {request : ExecutionRequest} (hf : ¬Fits request)
    (stream : ByteStream) : ∃ e,writeRequest stream request=(.error e,stream) := by
  rw [writeRequest]
  cases hp : requestPayload request with
  | error e => exact ⟨e,rfl⟩
  | ok payload =>
    have hl : maxFrameSize<payload.length := by
      by_contra hn
      exact hf ⟨payload,hp,Nat.not_lt.mp hn⟩
    refine ⟨.frameTooLarge,?_⟩
    dsimp only
    rw [writeFrame,if_pos hl]

/-- A request is written as one frame, or nothing is written. -/
theorem writeRequest_cases (request : ExecutionRequest) :
    (Fits request ∧ writeRequest ⟨[],[],none⟩ request=
      (.ok (),⟨[],framed (requestBytes request),none⟩)) ∨
    ∃ e,writeRequest ⟨[],[],none⟩ request=(.error e,⟨[],[],none⟩) := by
  by_cases hf : Fits request
  · exact .inl ⟨hf,hf.written⟩
  · exact .inr (writeRequest_of_not_fits hf _)

section Calls

variable [UuidCrate]

/-- A server decodes no other request than the one that was written. -/
theorem eq_of_readRequest_written {request decoded : ExecutionRequest}
    (h : (readRequest ⟨(writeRequest ⟨[],[],none⟩ request).2.outgoing,[],none⟩).1=.ok decoded) :
    decoded=request := by
  rcases writeRequest_cases request with ⟨hf,hw⟩|⟨e,hw⟩
  · rw [hw] at h
    let server : ByteStream := ⟨framed (requestBytes request),[],none⟩
    have hi : server.incoming=framed (requestBytes request)++[] := (List.append_nil _).symm
    obtain ⟨hyes,hno⟩ := readRequest_framed hf.spelled.1 hf.spelled.2 hi
    by_cases ha : Acceptable request
    · have hread : (readRequest server).1=.ok request := by rw [hyes ha]
      rw [hread] at h
      exact (Outcome.ok.inj h).symm
    · obtain ⟨e,hread⟩ := hno ha
      have herr : (readRequest server).1=.err e := by rw [hread]
      rw [herr] at h
      cases h
  · rw [hw] at h
    cases h

/-- Where the comparison would pass, it is as if there were none. -/
theorem handleRequestStream_of_authorized {stream : ByteStream} {endpoint : ExecutionHandler}
    {authorization : Authorization} {debug : EndpointError → String}
    (h : ∀ decoded,(readRequest stream).1=.ok decoded → authorize authorization decoded=.ok ()) :
    handleRequestStream stream endpoint authorization debug=
      handleRequestStream stream endpoint none debug := by
  rw [handleRequestStream,handleRequestStream]
  rcases hr : readRequest stream with ⟨decoded|e|_,after⟩
  · have ha := h decoded (by rw [hr])
    dsimp only
    rw [ha]
    rfl
  · rfl
  · rfl

/-- What a connection leads to. -/
theorem TlsClient.connect_eq_ok {client : TlsClient Name} {request : ExecutionRequest}
    {server : TlsServer} {session : Except TransportError (Option (List UInt8))} :
    client.connect request=.ok (server,session) ↔
      validateTransportRequest request=.ok () ∧ request.sourceParticipantId≠none ∧
      client.servers request.endpoint.locator=some server ∧
      ∃ name,client.serverName request.endpoint.locator=.ok name ∧
        client.handshake request.endpoint.locator name=⟨.ok (),session⟩ := by
  simp only [TlsClient.connect,Checks.bind_eq_ok,Unique.exists_iff,PUnit.default_eq_unit,
    Checks.rejectIf_eq_ok,Checks.okOr_eq_ok,Except.ok.injEq,Prod.mk.injEq]
  constructor
  · rintro ⟨hv,hs,name,hn,found,hf,hc,rfl,rfl⟩
    exact ⟨hv,hs,hf,name,hn,by rw [← hc]⟩
  · rintro ⟨hv,hs,hf,name,hn,hh⟩
    exact ⟨hv,hs,name,hn,server,hf,by rw [hh],rfl,by rw [hh]⟩

omit [UuidCrate] in
/-- A caller is admitted with a granted certificate. -/
theorem TlsClient.admits_eq_true {client : TlsClient Name} {caller : Identity} {locator : String}
    {server : TlsServer} : client.admits caller locator server=true ↔ ∃ name certificate,
      client.serverName locator=.ok name ∧
      client.handshake locator name=⟨.ok (),.ok (some certificate)⟩ ∧
      Grants server.authorizedClients caller.id certificate := by
  rw [TlsClient.admits]
  cases client.serverName locator with
  | error e => simp
  | ok name =>
    dsimp only
    constructor
    · intro h
      split at h
      · next certificate hh => exact ⟨name,certificate,rfl,hh,of_decide_eq_true h⟩
      · cases h
    · rintro ⟨_,certificate,hn,hh,hg⟩
      cases hn
      rw [hh]
      exact decide_eq_true hg

omit [UuidCrate] in
/-- The comparison of a server passes exactly for a certificate that was
granted to the caller. -/
theorem TlsServer.authorize_eq_ok (server : TlsServer) {request : ExecutionRequest}
    {caller : Identity} (hcaller : request.sourceParticipantId=some caller)
    (peerCertificate : Option (List UInt8)) :
    authorize (some (server.allowlist,peerCertificate)) request=.ok () ↔
      ∃ certificate,peerCertificate=some certificate ∧
        Grants server.authorizedClients caller.id certificate := by
  obtain ⟨owners,hr⟩ := buildClientAllowlist_recorded server.built
  rw [OpenHost.authorize_eq_ok hr,hcaller]
  constructor
  · rintro ⟨source,certificate,hs,hc,hg⟩
    cases hs
    exact ⟨certificate,hc,hg⟩
  · rintro ⟨certificate,hc,hg⟩
    exact ⟨caller,certificate,rfl,hc,hg⟩

/-- A server that does not admit the caller of a request writes nothing and
does not invoke its handler. -/
theorem TlsServer.handle_of_refused {server : TlsServer} {request : ExecutionRequest}
    {caller : Identity} (hcaller : request.sourceParticipantId=some caller)
    {session : Except TransportError (Option (List UInt8))}
    (h : ∀ certificate,session=.ok (some certificate) →
      ¬Grants server.authorizedClients caller.id certificate) (debug : EndpointError → String) :
    (server.handle session debug
        ⟨(writeRequest ⟨[],[],none⟩ request).2.outgoing,[],none⟩).invoked=none ∧
      (server.handle session debug
        ⟨(writeRequest ⟨[],[],none⟩ request).2.outgoing,[],none⟩).stream.outgoing=[] := by
  cases session with
  | error e => exact ⟨rfl,rfl⟩
  | ok peerCertificate =>
    let stream : ByteStream := ⟨(writeRequest ⟨[],[],none⟩ request).2.outgoing,[],none⟩
    have hrefused : ∀ decoded,(readRequest stream).1=.ok decoded →
        authorize (some (server.allowlist,peerCertificate)) decoded≠.ok () := by
      intro decoded hd ha
      rw [eq_of_readRequest_written hd] at ha
      obtain ⟨certificate,rfl,hg⟩ := (server.authorize_eq_ok hcaller peerCertificate).mp ha
      exact h certificate rfl hg
    exact (handleRequestStream_refused hrefused).2

/-- A server that admits the caller of a request serves it as without TLS. -/
theorem TlsServer.handle_of_granted {server : TlsServer} {request : ExecutionRequest}
    {caller : Identity} (hcaller : request.sourceParticipantId=some caller)
    {certificate : List UInt8} (h : Grants server.authorizedClients caller.id certificate)
    (debug : EndpointError → String) :
    server.handle (.ok (some certificate)) debug
        ⟨(writeRequest ⟨[],[],none⟩ request).2.outgoing,[],none⟩=
      handleRequestStream ⟨(writeRequest ⟨[],[],none⟩ request).2.outgoing,[],none⟩
        server.handler.handleRequest none debug := by
  rw [TlsServer.handle,handleConnection]
  refine handleRequestStream_of_authorized fun decoded hd => ?_
  rw [eq_of_readRequest_written hd]
  exact (server.authorize_eq_ok hcaller _).mpr ⟨certificate,rfl,h⟩

omit [UuidCrate] in
/-- A peer that sends nothing is not believed. -/
theorem exchange_of_silent {peer : Peer} {request : ExecutionRequest}
    (h : peer.answers (writeRequest ⟨[],[],none⟩ request).2.outgoing=[])
    (response : ExecutionResponse) : exchange peer request≠.ok response := by
  intro hok
  have hd := exchange_eq_ok_iff.mp hok
  have hsent := hd.sent
  rw [hd.fits.written] at h
  have hnil : framed (responseBytes response)=[] := List.prefix_nil.mp (h ▸ hsent)
  have hlen := congrArg List.length hnil
  rw [framed,List.length_append,BigEndian.toBeBytes_length] at hlen
  simp at hlen

omit [UuidCrate] in
/-- Peers that take everything and answer a request alike are believed alike. -/
theorem exchange_congr {peer other : Peer} {request : ExecutionRequest} (hp : peer.takes=none)
    (ho : other.takes=none) (h : peer.answers (writeRequest ⟨[],[],none⟩ request).2.outgoing=
      other.answers (writeRequest ⟨[],[],none⟩ request).2.outgoing) :
    exchange peer request=exchange other request := by
  rw [exchange,exchange,hp,ho]
  rcases hw : writeRequest ⟨[],[],none⟩ request with ⟨e|u,written⟩
  · rfl
  · rw [hw] at h
    dsimp only at h ⊢
    rw [h]

/-- A server admits the caller exactly if the connection to it ends with a
certificate that it has granted to the caller. -/
theorem TlsClient.admitting_eq_some {client : TlsClient Name} {request : ExecutionRequest}
    {caller : Identity} (hcaller : request.sourceParticipantId=some caller)
    (hv : validateTransportRequest request=.ok ()) {handler : EndpointHandler} :
    client.admitting caller request.endpoint.locator=some handler ↔ ∃ server certificate,
      client.connect request=.ok (server,.ok (some certificate)) ∧
      Grants server.authorizedClients caller.id certificate ∧ server.handler=handler := by
  rw [TlsClient.admitting]
  constructor
  · intro h
    split at h
    · next server hs =>
      split at h
      · next hadmits =>
        obtain ⟨name,certificate,hn,hh,hg⟩ := TlsClient.admits_eq_true.mp hadmits
        refine ⟨server,certificate,TlsClient.connect_eq_ok.mpr ⟨hv,?_,hs,name,hn,hh⟩,hg,
          Option.some.inj h⟩
        rw [hcaller]
        exact nofun
      · cases h
    · cases h
  · rintro ⟨server,certificate,hc,hg,rfl⟩
    obtain ⟨_,_,hs,name,hn,hh⟩ := TlsClient.connect_eq_ok.mp hc
    rw [hs]
    dsimp only
    rw [if_pos (TlsClient.admits_eq_true.mpr ⟨name,certificate,hn,hh,hg⟩)]

/-- A call over TLS returns. -/
theorem call_ne_panic (client : TlsClient Name) (request : ExecutionRequest) :
    TlsTcpTransport.dispatch client request≠.panic := by
  rw [TlsTcpTransport.dispatch,TlsTcpTransport.call]
  split
  · exact nofun
  · exact exchange_ne_panic _ _

/-- Over TLS a client believes what the servers that admit it answer without
TLS, and no other server invokes its handler. -/
theorem call_exact (client : TlsClient Name) {request : ExecutionRequest} {caller : Identity}
    (hcaller : request.sourceParticipantId=some caller) :
    (∀ response,(TlsTcpTransport.call client request).result=.ok response ↔
      TcpTransport.dispatch (client.admitting caller) client.debug request=.ok response) ∧
    ∀ invoked,(TlsTcpTransport.call client request).invoked=some invoked → invoked=request ∧
      (client.admitting caller request.endpoint.locator).isSome := by
  rw [TlsTcpTransport.call]
  cases hc : client.connect request with
  | error e =>
    dsimp only
    refine ⟨fun response => iff_of_false nofun fun h => ?_,fun _ hi => nomatch hi⟩
    obtain ⟨hv,handler,hn,_⟩ := tcpDispatch_eq_ok_iff.mp h
    obtain ⟨server,certificate,hok,_⟩ := (TlsClient.admitting_eq_some hcaller hv).mp hn
    rw [hc] at hok
    cases hok
  | ok found =>
    obtain ⟨server,session⟩ := found
    have hv := (TlsClient.connect_eq_ok.mp hc).1
    dsimp only
    by_cases hg : ∃ certificate,session=.ok (some certificate) ∧
        Grants server.authorizedClients caller.id certificate
    · obtain ⟨certificate,rfl,hg⟩ := hg
      have hn : client.admitting caller request.endpoint.locator=some server.handler :=
        (TlsClient.admitting_eq_some hcaller hv).mpr ⟨server,certificate,hc,hg,rfl⟩
      have hhandle := server.handle_of_granted hcaller hg client.debug
      have hsame : exchange (server.peer (.ok (some certificate)) client.debug) request=
          exchange (server.handler.peer client.debug) request :=
        exchange_congr rfl rfl (congrArg (fun handled => handled.stream.outgoing) hhandle)
      refine ⟨fun response => ?_,fun invoked hi => ?_⟩
      · rw [hsame,exchange_eq_ok_iff,tcpDispatch_eq_ok_iff]
        constructor
        · exact fun hd => ⟨hv,server.handler,hn,hd⟩
        · rintro ⟨_,handler,hh,hd⟩
          rw [hn] at hh
          cases hh
          exact hd
      · rw [hhandle,handleRequestStream_invoked] at hi
        exact ⟨eq_of_readRequest_written hi.1,by rw [hn]; rfl⟩
    · have hrefused := TlsServer.handle_of_refused hcaller
        (fun certificate hs hgrant => hg ⟨certificate,hs,hgrant⟩) client.debug
      refine ⟨fun response => iff_of_false (exchange_of_silent hrefused.2 response) fun h => ?_,
        fun invoked hi => ?_⟩
      · obtain ⟨_,handler,hn,_⟩ := tcpDispatch_eq_ok_iff.mp h
        obtain ⟨server',certificate,hok,hgrant,_⟩ :=
          (TlsClient.admitting_eq_some hcaller hv).mp hn
        rw [hc] at hok
        cases hok
        exact hg ⟨certificate,rfl,hgrant⟩
      · rw [hrefused.1] at hi
        cases hi

open ExecutionDispatcher

omit [UuidCrate] in
/-- Every request of a dispatcher claims its identity. -/
theorem source_of_requestFor {d : ExecutionDispatcher} {plan : ExecutionPlan F64}
    {workload : WorkItem} {unit : ExecutionUnit F64} {request : ExecutionRequest}
    (h : d.requestFor plan workload unit=.ok request) :
    request.sourceParticipantId=d.sourceParticipantId := by
  obtain ⟨_,_,_,rfl⟩ := requestFor_eq_ok h
  rfl

/-- Dispatching a plan over TLS under an identity has the result that
dispatching it without TLS has among the servers that admit the identity, and
no other server invokes its handler. Without an identity nothing is executed. -/
theorem tlsDispatch_refines (client : TlsClient Name) (endpoints : List ExecutionEndpoint)
    (plan : ExecutionPlan F64) (workload : WorkItem) :
    (∀ caller,
      dispatch ⟨some caller,TlsTcpTransport.dispatch client,endpoints⟩ plan workload=
        dispatch ⟨some caller,TcpTransport.dispatch (client.admitting caller) client.debug,
          endpoints⟩ plan workload ∧
      ∀ unit ∈ plan.units,∀ request,requestFor ⟨some caller,TlsTcpTransport.dispatch client,
          endpoints⟩ plan workload unit=.ok request →
        ∀ invoked,(TlsTcpTransport.call client request).invoked=some invoked →
          invoked=request ∧ (client.admitting caller request.endpoint.locator).isSome) ∧
    ∀ unit ∈ plan.units,∀ request,requestFor ⟨none,TlsTcpTransport.dispatch client,endpoints⟩
        plan workload unit=.ok request →
      (∃ e,TlsTcpTransport.call client request=⟨.err e,none⟩) := by
  refine ⟨fun caller => ⟨dispatch_congr ?_ (call_ne_panic client) ?_,?_⟩,?_⟩
  · intro unit _ request _ hr
    have hsame := (call_exact client (source_of_requestFor hr)).1
    constructor
    · rintro ⟨response,hok,hrest⟩
      exact ⟨response,(hsame response).mp hok,hrest⟩
    · rintro ⟨response,hok,hrest⟩
      exact ⟨response,(hsame response).mpr hok,hrest⟩
  · exact dispatch_ne_panic (tcpDispatch_ne_panic _ _) _ _
  · intro unit _ request hr
    exact (call_exact client (source_of_requestFor hr)).2
  · intro unit _ request hr
    have hsource := source_of_requestFor hr
    rw [TlsTcpTransport.call]
    split
    · next e _ => exact ⟨e,rfl⟩
    · next server session hc => exact ((TlsClient.connect_eq_ok.mp hc).2.1 hsource).elim

end Calls

end OpenHost
