import OpenHost.RequestHandling
import OpenHost.WireRoundTrip
import OpenHost.WireSafety

/-!
# Nobody acts as another client

The table of grants lists exactly the given pairs, and no certificate under
two identities. A request therefore reaches the handler only under an
identity that was granted to the certificate of its connection, and one
certificate reaches it under one identity. A request that is not granted is
refused before anything is executed or written, unless decoding it panics.
-/

namespace OpenHost

open Decoding

/-- The pair of a participant and a certificate was granted. -/
def Grants (clients : List AuthorizedClientCertificate) (id : String)
    (certificate : List UInt8) : Prop :=
  ∃ client ∈ clients,client.participantId.id=id ∧ client.certificateDer=certificate

/-- The two tables hold exactly the grants entered so far. -/
structure Recorded (entered : List AuthorizedClientCertificate) (allowlist : ClientAllowlist)
    (owners : CertificateOwners) : Prop where
  /-- A certificate is listed under an identity exactly when it was granted to it. -/
  listed : ∀ id certificate, (∃ certificates, allowlist[id]?=some certificates ∧
    certificate ∈ certificates) ↔ Grants entered id certificate
  /-- The owner of a certificate is the identity it was granted to. -/
  owned : ∀ id certificate, owners[certificate]?=some id ↔ Grants entered id certificate

/-- One more grant. -/
theorem grants_concat {entered : List AuthorizedClientCertificate}
    {client : AuthorizedClientCertificate} {id : String} {certificate : List UInt8} :
    Grants (entered++[client]) id certificate ↔ Grants entered id certificate ∨
      client.participantId.id=id ∧ client.certificateDer=certificate := by
  simp only [Grants,List.mem_append,List.mem_singleton]
  constructor
  · rintro ⟨c,hm|rfl,hc⟩
    · exact Or.inl ⟨c,hm,hc⟩
    · exact Or.inr hc
  · rintro (⟨c,hm,hc⟩|hc)
    · exact ⟨c,Or.inl hm,hc⟩
    · exact ⟨client,Or.inr rfl,hc⟩

/-- Entering a grant with a new certificate keeps the tables exact. -/
theorem Recorded.push {entered : List AuthorizedClientCertificate} {allowlist : ClientAllowlist}
    {owners : CertificateOwners} (hr : Recorded entered allowlist owners)
    {client : AuthorizedClientCertificate} (hn : owners[client.certificateDer]?=none) :
    Recorded (entered++[client]) (allowlist.push client)
      (owners.insert client.certificateDer client.participantId.id) where
  listed := by
    intro id certificate
    have hl := hr.listed id certificate
    rw [grants_concat,← hl,ClientAllowlist.push,OrderedMap.getElem?_insert_eq]
    by_cases he : client.participantId.id=id
    · subst he
      rw [if_pos rfl]
      cases allowlist[client.participantId.id]? with
      | none => simp [eq_comm]
      | some certificates => simp [eq_comm]
    · simp [he]
  owned := by
    intro id certificate
    have ho := hr.owned id certificate
    rw [grants_concat,← ho,OrderedMap.getElem?_insert_eq]
    by_cases he : client.certificateDer=certificate
    · subst he
      simp [hn]
    · simp [he]

/-- A completed loop has entered every grant. -/
theorem allowlistLoop_recorded {clients entered : List AuthorizedClientCertificate}
    {start allowlist : ClientAllowlist} {owners : CertificateOwners}
    (hr : Recorded entered start owners) (h : allowlistLoop clients start owners=.ok allowlist) :
    ∃ final, Recorded (entered++clients) allowlist final := by
  induction clients generalizing entered start owners with
  | nil =>
    rw [allowlistLoop,Except.ok.injEq] at h
    subst h
    exact ⟨owners,by rwa [List.append_nil]⟩
  | cons client rest ih =>
    rw [allowlistLoop] at h
    cases hn : owners[client.certificateDer]? with
    | some owner =>
      rw [hn] at h
      dsimp only at h
      split at h <;> cases h
    | none =>
      rw [hn] at h
      obtain ⟨final,hf⟩ := ih (hr.push hn) h
      rw [List.append_assoc] at hf
      exact ⟨final,hf⟩

/-- A table that was built lists exactly the grants, and no certificate
under two identities. -/
theorem buildClientAllowlist_recorded {clients : List AuthorizedClientCertificate}
    {allowlist : ClientAllowlist} (h : buildClientAllowlist clients=.ok allowlist) :
    ∃ owners, Recorded clients allowlist owners := by
  rw [buildClientAllowlist] at h
  split at h
  · cases h
  have he : Recorded [] ∅ ∅ := ⟨by simp [Grants],by simp [Grants]⟩
  exact allowlistLoop_recorded he h

/-- One certificate was granted to one identity. -/
theorem Recorded.unique {clients : List AuthorizedClientCertificate} {allowlist : ClientAllowlist}
    {owners : CertificateOwners} (hr : Recorded clients allowlist owners) {id id' : String}
    {certificate : List UInt8} (h : Grants clients id certificate)
    (h' : Grants clients id' certificate) : id=id' := by
  rw [← hr.owned] at h h'
  rw [h,Option.some.injEq] at h'
  exact h'

/-- The comparison passes exactly when the certificate of the connection was
granted to the identity that the request claims. -/
theorem authorize_eq_ok {clients : List AuthorizedClientCertificate} {allowlist : ClientAllowlist}
    {owners : CertificateOwners} (hr : Recorded clients allowlist owners)
    {peerCertificate : Option (List UInt8)} {request : ExecutionRequest} :
    authorize (some (allowlist,peerCertificate)) request=.ok () ↔
      ∃ source certificate, request.sourceParticipantId=some source ∧
        peerCertificate=some certificate ∧ Grants clients source.id certificate := by
  have hm (certificates : List (List UInt8)) (certificate : List UInt8) :
      ¬(!certificates.any fun c => c==certificate)=true ↔ certificate ∈ certificates := by simp
  simp only [authorize,Checks.bind_eq_ok,Checks.okOr_eq_ok,Checks.rejectIf_eq_ok,hm]
  constructor
  · rintro ⟨source,hs,certificates,ha,certificate,hp,hc⟩
    exact ⟨source,certificate,hs,hp,(hr.listed _ _).mp ⟨certificates,ha,hc⟩⟩
  · rintro ⟨source,certificate,hs,hp,hg⟩
    obtain ⟨certificates,ha,hc⟩ := (hr.listed _ _).mpr hg
    exact ⟨source,hs,certificates,ha,certificate,hp,hc⟩

/-- The request claims to come from a participant to which the certificate of
the connection was granted. -/
def Granted (clients : List AuthorizedClientCertificate) (peerCertificate : Option (List UInt8))
    (request : ExecutionRequest) : Prop :=
  ∃ source certificate, request.sourceParticipantId=some source ∧ source.kind=.participant ∧
    peerCertificate=some certificate ∧ Grants clients source.id certificate

section Exact

variable [UuidCrate]

/-- A request that was read has passed the common checks. -/
theorem validate_of_readRequest {stream : ByteStream} {request : ExecutionRequest}
    (h : (readRequest stream).1=.ok request) : validateTransportRequest request=.ok () := by
  obtain ⟨frame,reader,hb⟩ := body_of_readMessage h
  rw [requestBody,bind_apply] at hb
  obtain ⟨⟨fields,r₁⟩,_,hb⟩ := Outcome.bind_eq_ok.mp hb
  rw [bind_apply] at hb
  obtain ⟨⟨_,r₂⟩,_,hb⟩ := Outcome.bind_eq_ok.mp hb
  rw [bind_apply] at hb
  obtain ⟨⟨_,r₃⟩,hc,hb⟩ := Outcome.bind_eq_ok.mp hb
  simp only [pure_apply,Outcome.ok.injEq,Prod.mk.injEq] at hb
  obtain ⟨rfl,rfl⟩ := hb
  cases hv : validateTransportRequest fields with
  | ok u => rfl
  | error e =>
    rw [hv] at hc
    cases hc

/-- The handler is invoked exactly with a request that was decoded and that
passes the comparison. -/
theorem handleRequestStream_invoked {stream : ByteStream} {endpoint : ExecutionHandler}
    {authorization : Authorization} {debug : EndpointError → String}
    {request : ExecutionRequest} :
    (handleRequestStream stream endpoint authorization debug).invoked=some request ↔
      (readRequest stream).1=.ok request ∧ authorize authorization request=.ok () := by
  rw [handleRequestStream]
  split
  · next s₁ h₁ => simp [h₁]
  · next e s₁ h₁ => simp [h₁]
  next decoded s₁ h₁ =>
  rw [h₁]
  split
  · next e ha =>
    constructor
    · intro h
      cases h
    · rintro ⟨hd,hok⟩
      rw [Outcome.ok.injEq] at hd
      rw [← hd,ha] at hok
      cases hok
  · next ha =>
    have hi : some decoded=some request ↔
        (.ok decoded : Outcome TransportError ExecutionRequest)=.ok request ∧
          authorize authorization request=.ok () := by
      rw [Option.some.injEq,Outcome.ok.injEq]
      constructor
      · rintro rfl
        exact ⟨rfl,ha⟩
      · exact fun h => h.1
    split <;> exact hi

/-- A connection without a granted request ends without effect: it panics
where decoding does, and returns an error everywhere else. -/
theorem handleRequestStream_refused {stream : ByteStream} {endpoint : ExecutionHandler}
    {authorization : Authorization} {debug : EndpointError → String}
    (h : ∀ request, (readRequest stream).1=.ok request → authorize authorization request≠.ok ()) :
    ((∃ e, (handleRequestStream stream endpoint authorization debug).result=.err e) ↔
      (readRequest stream).1≠.panic) ∧
    (handleRequestStream stream endpoint authorization debug).invoked=none ∧
    (handleRequestStream stream endpoint authorization debug).stream.outgoing=stream.outgoing := by
  have ho : (readRequest stream).2.outgoing=stream.outgoing := readMessage_outgoing requestBody stream
  rw [handleRequestStream]
  split
  · next s₁ h₁ =>
    rw [h₁] at ho ⊢
    exact ⟨by simp,rfl,ho⟩
  · next e s₁ h₁ =>
    rw [h₁] at ho ⊢
    exact ⟨by simp,rfl,ho⟩
  next decoded s₁ h₁ =>
  have hn := h decoded (by rw [h₁])
  obtain ⟨e,he⟩ := Checks.exists_error_of_unit hn
  rw [h₁] at ho ⊢
  rw [he]
  exact ⟨by simp,rfl,ho⟩

/-- The handler runs only under an identity granted to the certificate of the
connection; without one the connection ends in an error, with no handler
invoked and no byte written. -/
structure NoImpersonation (clients : List AuthorizedClientCertificate)
    (peerCertificate : Option (List UInt8)) (stream : ByteStream) (handled : Handled) : Prop where
  /-- Only the decoded request is executed, and only if it is granted. -/
  executed : ∀ request, handled.invoked=some request →
    (readRequest stream).1=.ok request ∧ Granted clients peerCertificate request
  /-- A connection that carries no granted request has no effect. -/
  refused : (∀ request, (readRequest stream).1=.ok request →
      ¬Granted clients peerCertificate request) →
    (∃ e, handled.result=.err e) ∧ handled.invoked=none ∧
      handled.stream.outgoing=stream.outgoing

/-- For a decoded request the comparison asks exactly for a grant. -/
theorem authorize_iff_granted {clients : List AuthorizedClientCertificate}
    {allowlist : ClientAllowlist} {owners : CertificateOwners}
    (hr : Recorded clients allowlist owners) {peerCertificate : Option (List UInt8)}
    {stream : ByteStream} {request : ExecutionRequest}
    (h : (readRequest stream).1=.ok request) :
    authorize (some (allowlist,peerCertificate)) request=.ok () ↔
      Granted clients peerCertificate request := by
  have hv := validateTransportRequest_eq_ok.mp (validate_of_readRequest h)
  rw [authorize_eq_ok hr]
  constructor
  · rintro ⟨source,certificate,hs,hp,hg⟩
    exact ⟨source,certificate,hs,(hv.source source hs).1,hp,hg⟩
  · rintro ⟨source,certificate,hs,_,hp,hg⟩
    exact ⟨source,certificate,hs,hp,hg⟩

/-- With a table of grants, a connection is served without impersonation
exactly when it carries no overflowing lifetime, and whatever two connections
with the same certificate carry, their requests reach the handlers under the
same identity. -/
theorem noImpersonation_iff {clients : List AuthorizedClientCertificate}
    {allowlist : ClientAllowlist} (h : buildClientAllowlist clients=.ok allowlist)
    (peerCertificate : Option (List UInt8)) :
    (∀ (stream : ByteStream) (endpoint : ExecutionHandler) (debug : EndpointError → String),
      NoImpersonation clients peerCertificate stream
        (handleRequestStream stream endpoint (some (allowlist,peerCertificate)) debug) ↔
      ¬CarriesOverflow stream.incoming) ∧
    (∀ (stream stream' : ByteStream) (endpoint endpoint' : ExecutionHandler)
      (debug debug' : EndpointError → String) (request request' : ExecutionRequest),
      (handleRequestStream stream endpoint (some (allowlist,peerCertificate)) debug).invoked=
        some request →
      (handleRequestStream stream' endpoint' (some (allowlist,peerCertificate)) debug').invoked=
        some request' →
      request.sourceParticipantId=request'.sourceParticipantId) := by
  obtain ⟨owners,hr⟩ := buildClientAllowlist_recorded h
  have hex {stream : ByteStream} {endpoint : ExecutionHandler} {debug : EndpointError → String}
      {request : ExecutionRequest}
      (hi : (handleRequestStream stream endpoint (some (allowlist,peerCertificate)) debug).invoked=
        some request) :
      (readRequest stream).1=.ok request ∧ Granted clients peerCertificate request := by
    obtain ⟨hd,ha⟩ := handleRequestStream_invoked.mp hi
    exact ⟨hd,(authorize_iff_granted hr hd).mp ha⟩
  refine ⟨?_,?_⟩
  · intro stream endpoint debug
    rw [← readRequest_eq_panic]
    constructor
    · intro hn hp
      have hnone : ∀ request, (readRequest stream).1=.ok request →
          ¬Granted clients peerCertificate request := by
        intro request hd
        rw [hp] at hd
        cases hd
      have hauth : ∀ request, (readRequest stream).1=.ok request →
          authorize (some (allowlist,peerCertificate)) request≠.ok () :=
        fun request hd ha => hnone request hd ((authorize_iff_granted hr hd).mp ha)
      exact (handleRequestStream_refused hauth).1.mp (hn.refused hnone).1 hp
    · intro hp
      refine ⟨fun request => hex,?_⟩
      intro hnone
      have hauth : ∀ request, (readRequest stream).1=.ok request →
          authorize (some (allowlist,peerCertificate)) request≠.ok () :=
        fun request hd ha => hnone request hd ((authorize_iff_granted hr hd).mp ha)
      obtain ⟨he,hi,ho⟩ := handleRequestStream_refused hauth
      exact ⟨he.mpr hp,hi,ho⟩
  · intro stream stream' endpoint endpoint' debug debug' request request' hi hi'
    obtain ⟨_,source,certificate,hs,hk,hp,hg⟩ := hex hi
    obtain ⟨_,source',certificate',hs',hk',hp',hg'⟩ := hex hi'
    rw [hp,Option.some.injEq] at hp'
    subst hp'
    have hid : source.id=source'.id := hr.unique hg hg'
    rw [hs,hs']
    exact congrArg some (Identity.ext hid (hk.trans hk'.symm))

end Exact

section Sample

/-- One participant with one certificate. -/
def sampleClients : List AuthorizedClientCertificate :=
  [⟨⟨"11111111-1111-4111-8111-111111111111",.participant⟩,[48]⟩]

/-- A handler that acknowledges every request. -/
def acknowledge : ExecutionHandler := fun request => .ok (.completed request.requestId)

/-- A peer that has sent the sample request. -/
def requestingStream : ByteStream := ⟨framed (requestBytes sampleRequest),[],none⟩

/-- The sample grant is entered. -/
theorem buildClientAllowlist_sampleClients :
    ∃ allowlist, buildClientAllowlist sampleClients=.ok allowlist := ⟨_,rfl⟩

/-- The owner of the certificate is served without impersonation. -/
theorem noImpersonation_requestingStream : letI := hyphenatedUuid
    ∃ allowlist, buildClientAllowlist sampleClients=.ok allowlist ∧
      NoImpersonation sampleClients (some [48]) requestingStream
        (handleRequestStream requestingStream acknowledge (some (allowlist,some [48]))
          fun _ => "") := by
  let := hyphenatedUuid
  obtain ⟨allowlist,h⟩ := buildClientAllowlist_sampleClients
  have ha : Acceptable sampleRequest :=
    ⟨sampleRequest_valid,by decide +kernel,by decide +kernel⟩
  have hr := (readRequest_framed sampleRequest_short (by decide +kernel)
    (show requestingStream.incoming=_++[] from (List.append_nil _).symm)).1 ha
  have hn : ¬CarriesOverflow requestingStream.incoming := by
    rw [← readRequest_eq_panic,hr]
    simp
  exact ⟨allowlist,h,((noImpersonation_iff h (some [48])).1 _ _ _).mpr hn⟩

/-- A connection that carries an overflowing lifetime does not end in an
error, whatever certificate it presents. -/
theorem not_noImpersonation_overflowingStream : letI := hyphenatedUuid
    ∃ allowlist, buildClientAllowlist sampleClients=.ok allowlist ∧
      ¬NoImpersonation sampleClients none overflowingStream
        (handleRequestStream overflowingStream acknowledge (some (allowlist,none))
          fun _ => "") := by
  let := hyphenatedUuid
  obtain ⟨allowlist,h⟩ := buildClientAllowlist_sampleClients
  have hp := (readRequest_eq_panic overflowingStream).mpr carriesOverflow_overflowingStream
  refine ⟨allowlist,h,?_⟩
  intro hn
  have hd : ∀ request, (readRequest overflowingStream).1≠.ok request := by
    intro request hok
    rw [hp] at hok
    cases hok
  obtain ⟨he,_⟩ := hn.refused fun request hok => (hd request hok).elim
  exact (handleRequestStream_refused fun request hok => (hd request hok).elim).1.mp he hp

end Sample

end OpenHost
