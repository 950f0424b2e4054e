import OpenHost.Dispatch
import OpenHost.WireResponse
import OpenHost.WireSafety

/-!
# Dispatching through servers refines dispatching in one process

The requests of a plan pass the checks of both transports. A server that
hosts the handler of a participant takes a unit on exactly when the handler
does so in the same process, since the answers survive the wire and a refusal
is a refusal on either side. So the dispatches of a plan agree.
-/

namespace OpenHost

open ExecutionDispatcher ParticipantExecutionEndpoint

/-- Each listed address reaches a server with the handler that the process
has for that participant, or neither exists. -/
def Mirrors (network : Network) (handlers : EndpointTransport)
    (endpoints : List ExecutionEndpoint) : Prop :=
  ∀ e ∈ endpoints,e.participantId.kind=.participant →
    network e.locator=handlers.endpoints[e.participantId.id]?

/-- Every handler is that of an endpoint of a participant. -/
def HostsEndpoints (handlers : EndpointTransport) (executors : ParticipantExecutor → Prop) : Prop :=
  ∀ (k : String) (h : EndpointHandler),handlers.endpoints[k]?=some h →
    ∃ endpoint : ParticipantExecutionEndpoint,h=endpoint.handler ∧ executors endpoint.executor

/-- The request can be encoded and fits a frame. -/
def Fits (request : ExecutionRequest) : Prop :=
  ∃ payload,requestPayload request=.ok payload ∧ payload.length ≤ maxFrameSize

/-- A request that fits is spelled and its spelling fits. -/
theorem Fits.spelled {request : ExecutionRequest} (h : Fits request) :
    ShortRequest request ∧ (requestBytes request).length ≤ maxFrameSize := by
  obtain ⟨payload,hp,hl⟩ := h
  obtain ⟨hs,rfl⟩ := requestPayload_eq_ok.mp hp
  exact ⟨hs,hl⟩

/-- A request that fits is written as one frame. -/
theorem Fits.written {request : ExecutionRequest} (h : Fits request) :
    writeRequest ⟨[],[],none⟩ request=(.ok (),⟨[],framed (requestBytes request),none⟩) := by
  obtain ⟨hs,hl⟩ := h.spelled
  rw [writeRequest,requestPayload_eq_ok.mpr ⟨hs,rfl⟩]
  exact writeFrame_of_le rfl hl

/-- The answer to a request that was executed is no longer than the request. -/
theorem completed_length_le (request : ExecutionRequest) :
    (responseBytes (.completed request.requestId)).length ≤ (requestBytes request).length := by
  have hstatus : responseBytes (.completed request.requestId)=
      [protocolVersion]++(textBytes request.requestId++[3,0]) := rfl
  rw [hstatus]
  simp only [requestBytes,headBytes,ExecutionRequest.head,textBytes,prefixed,List.length_append,
    List.length_cons,List.length_nil,BigEndian.toBeBytes_length]
  omega

/-- Reading from a peer that has written nothing is an error. -/
theorem readResponse_nothing (out : List UInt8) (room : Option ℕ) :
    readResponse ⟨[],out,room⟩=(.err .networkFailure,⟨[],out,room⟩) := rfl

/-- What a client reads once a handler has ended in that way. -/
def reply (debug : EndpointError → String) (request : ExecutionRequest)
    (answer : Outcome EndpointError ExecutionResponse) : Outcome TransportError ExecutionResponse :=
  let outgoing := match answer with
    | .ok response => (writeResponse ⟨[],[],none⟩ response).2.outgoing
    | .err error => (writeResponse ⟨[],[],none⟩ (.failed request.requestId (debug error))).2.outgoing
    | .panic => []
  (readResponse ⟨outgoing,framed (requestBytes request),none⟩).1

/-- The answer to a request that was executed reaches the caller. -/
theorem reply_completed (debug : EndpointError → String) {request : ExecutionRequest}
    (hf : Fits request) :
    reply debug request (.ok (.completed request.requestId))=.ok (.completed request.requestId) := by
  have hl := (completed_length_le request).trans hf.spelled.2
  let client : ByteStream := ⟨framed (responseBytes (.completed request.requestId)),
    framed (requestBytes request),none⟩
  have hi : client.incoming=framed (responseBytes (.completed request.requestId))++[] :=
    (List.append_nil _).symm
  have hread : readResponse client=(.ok (.completed request.requestId),{client with incoming := []}) :=
    (readResponse_framed hl hi).mpr ⟨rfl,rfl⟩
  dsimp only [reply]
  rw [writeResponse_of_le rfl hl]
  exact congrArg Prod.fst hread

/-- No caller reads that a unit was taken on when the handler has refused it,
whether or not the text of the refusal fits a frame. -/
theorem takenOn_reply_err (debug : EndpointError → String) {request : ExecutionRequest}
    {error : EndpointError} {response : ExecutionResponse}
    (h : reply debug request (.err error)=.ok response) : takenOn response.status=false := by
  dsimp only [reply] at h
  let failed := ExecutionResponse.failed request.requestId (debug error)
  by_cases hl : (responseBytes failed).length ≤ maxFrameSize
  · let client : ByteStream := ⟨framed (responseBytes failed),framed (requestBytes request),none⟩
    have hi : client.incoming=framed (responseBytes failed)++[] := (List.append_nil _).symm
    have hread : readResponse client=(.ok failed,{client with incoming := []}) :=
      (readResponse_framed hl hi).mpr ⟨rfl,rfl⟩
    rw [writeResponse_of_le rfl hl] at h
    have hr : Outcome.ok failed=.ok response := (congrArg Prod.fst hread).symm.trans h
    rw [← Outcome.ok.inj hr]
    rfl
  · rw [(writeResponse_frameTooLarge _ _).2 (Nat.not_le.mp hl),readResponse_nothing] at h
    cases h

/-- An answer that completes the request, refuses it or is none at all is taken
by the caller of a server as by a caller in the same process. -/
theorem accepted_reply_iff (debug : EndpointError → String) {request : ExecutionRequest}
    (hf : Fits request) {answer : Outcome EndpointError ExecutionResponse}
    (h : answer=.ok (.completed request.requestId) ∨ (∃ error,answer=.err error) ∨
      answer=.panic) :
    Accepted request (reply debug request answer >>= fun response =>
        Outcome.ofExcept (rejectIf (response.requestId≠request.requestId)
          TransportError.responseIdMismatch) >>= fun _ => .ok response) ↔
      Accepted request (answer.mapErr fun _ => .requestRejected) := by
  rcases h with rfl|⟨error,rfl⟩|rfl
  · have hid : rejectIf ((ExecutionResponse.completed request.requestId).requestId≠
        request.requestId) TransportError.responseIdMismatch=.ok () := by
      rw [Checks.rejectIf_eq_ok]
      exact not_not.mpr rfl
    rw [reply_completed debug hf,Outcome.ok_bind,hid]
    rfl
  · constructor
    · rintro ⟨response,hr,_,ht⟩
      obtain ⟨read,hread,hr⟩ := Outcome.bind_eq_ok.mp hr
      obtain ⟨_,_,hr⟩ := Outcome.bind_eq_ok.mp hr
      cases hr
      rw [takenOn_reply_err debug hread] at ht
      cases ht
    · rintro ⟨_,hr,_⟩
      cases hr
  · constructor
    · rintro ⟨response,hr,_⟩
      cases hr
    · rintro ⟨_,hr,_⟩
      cases hr

/-- A process whose executors always return never panics. -/
theorem dispatch_ne_panic_of_total {handlers : EndpointTransport}
    (hh : HostsEndpoints handlers ParticipantExecutor.Total) (request : ExecutionRequest) :
    handlers.dispatch request≠.panic := by
  intro hp
  rcases Outcome.bind_eq_panic.mp hp with hr|⟨handler,hr,hp⟩
  · exact Outcome.ofExcept_ne_panic _ hr
  · obtain ⟨k,hl⟩ := EndpointTransport.exists_of_route (Outcome.ofExcept_eq_ok.mp hr)
    obtain ⟨endpoint,rfl,ht⟩ := hh k handler hl
    exact handle_ne_panic ht request (Outcome.mapErr_eq_panic.mp hp)

section Calls

variable [UuidCrate]

/-- A request that passes the checks of both ends reaches the handler behind
its locator, and the caller gets the reply to it. -/
theorem tcpDispatch_of_handler {network : Network} {debug : EndpointError → String}
    {request : ExecutionRequest} {handler : EndpointHandler} (ha : Acceptable request)
    (hf : Fits request) (hn : network request.endpoint.locator=some handler) :
    TcpTransport.dispatch network debug request=
      reply debug request (handler.handleRequest request) >>= fun response =>
        Outcome.ofExcept (rejectIf (response.requestId≠request.requestId)
          TransportError.responseIdMismatch) >>= fun _ => .ok response := by
  let server : ByteStream := ⟨framed (requestBytes request),[],none⟩
  have hi : server.incoming=framed (requestBytes request)++[] := (List.append_nil _).symm
  have hread : readRequest server=(.ok request,⟨[],[],none⟩) :=
    (readRequest_framed hf.spelled.1 hf.spelled.2 hi).1 ha
  have hserve : (handleRequestStream server handler.handleRequest none debug).stream.outgoing=
      match handler.handleRequest request with
      | .ok response => (writeResponse ⟨[],[],none⟩ response).2.outgoing
      | .err error =>
        (writeResponse ⟨[],[],none⟩ (.failed request.requestId (debug error))).2.outgoing
      | .panic => [] := by
    rw [handleRequestStream,hread]
    dsimp only [authorize]
    cases handler.handleRequest request <;> rfl
  rw [TcpTransport.dispatch,ha.1,hn,hf.written]
  dsimp only [Outcome.monadLift_eq,okOr,Outcome.ofExcept_ok,Outcome.ok_bind,reply]
  rw [hserve]
  rfl

/-- A call through a server returns, whatever the handler does. -/
theorem tcpDispatch_ne_panic (network : Network) (debug : EndpointError → String)
    (request : ExecutionRequest) : TcpTransport.dispatch network debug request≠.panic := by
  rw [TcpTransport.dispatch]
  cases validateTransportRequest request with
  | error e => simp
  | ok u =>
    dsimp only [Outcome.monadLift_eq,Outcome.ofExcept_ok,Outcome.ok_bind]
    cases okOr (network request.endpoint.locator) TransportError.networkFailure with
    | error e => simp
    | ok endpoint =>
      dsimp only [Outcome.ofExcept_ok,Outcome.ok_bind]
      split
      · simp
      · intro h
        rcases Outcome.bind_eq_panic.mp h with hr|⟨response,_,hr⟩
        · exact readResponse_ne_panic _ hr
        · rcases Outcome.bind_eq_panic.mp hr with hr|⟨_,_,hr⟩
          · exact Outcome.ofExcept_ne_panic _ hr
          · cases hr

/-- A request that passes the checks of both ends is routed to the handler of
its participant. -/
theorem route_of_acceptable {request : ExecutionRequest} (handlers : EndpointTransport)
    (ha : Acceptable request) : handlers.route request=
      okOr handlers.endpoints[request.unit.participantId.id]? .endpointUnavailable := by
  have hv := validateTransportRequest_eq_ok.mp ha.1
  rw [EndpointTransport.route,rejectIf,if_neg hv.requestId,rejectIf,if_neg hv.workloadId,rejectIf,
    if_neg (not_not.mpr hv.nodeKind),rejectIf,if_neg (not_or.mpr ⟨hv.name,hv.version⟩),rejectIf,
    if_neg (not_not.mpr hv.participantKind),rejectIf,if_neg (not_not.mpr hv.endpoint)]
  rfl

/-- An endpoint that is filed for the participant of the request passes it. -/
theorem validateRequest_of_acceptable {request : ExecutionRequest} {handlers : EndpointTransport}
    {endpoint : ParticipantExecutionEndpoint} (ha : Acceptable request)
    (h : handlers.endpoints[request.unit.participantId.id]?=some endpoint.handler) :
    validateRequest endpoint.participantId request=.ok () := by
  have hv := validateTransportRequest_eq_ok.mp ha.1
  have hkey : endpoint.participantId=⟨request.unit.participantId.id,.participant⟩ :=
    handlers.keyed _ _ h
  have hid : request.unit.participantId=endpoint.participantId := by
    rw [hkey,← hv.participantKind]
  exact validateRequest_eq_ok.mpr ⟨hv.requestId,hv.workloadId,hv.nodeKind,hv.name,hv.version,
    hv.participantKind,hid,hv.endpoint.trans hid⟩

/-- A unit is taken on through a server exactly when it is in the same process. -/
theorem accepted_iff {network : Network} {handlers : EndpointTransport}
    {debug : EndpointError → String} {executors : ParticipantExecutor → Prop}
    {request : ExecutionRequest} (hh : HostsEndpoints handlers executors) (ha : Acceptable request)
    (hf : Fits request)
    (hm : network request.endpoint.locator=handlers.endpoints[request.unit.participantId.id]?) :
    Accepted request (TcpTransport.dispatch network debug request) ↔
      Accepted request (handlers.dispatch request) := by
  have hroute := route_of_acceptable handlers ha
  cases hl : handlers.endpoints[request.unit.participantId.id]? with
  | none =>
    have hlocal : handlers.dispatch request=.err .endpointUnavailable := by
      rw [EndpointTransport.dispatch,hroute,hl]
      rfl
    have htcp : TcpTransport.dispatch network debug request=.err .networkFailure := by
      rw [TcpTransport.dispatch,ha.1,hm,hl]
      rfl
    rw [hlocal,htcp]
    constructor <;> (rintro ⟨_,h,_⟩; cases h)
  | some handler =>
    obtain ⟨endpoint,rfl,_⟩ := hh _ _ hl
    have hlocal : handlers.dispatch request=
        (endpoint.handle request).mapErr fun _ => .requestRejected := by
      rw [EndpointTransport.dispatch,hroute,hl]
      rfl
    rw [hlocal,tcpDispatch_of_handler ha hf (hm.trans hl)]
    exact accepted_reply_iff debug hf (handle_answers (validateRequest_of_acceptable ha hl))

/-- Every request of a plan passes the checks of both ends. -/
theorem acceptable_of_plan {node : LogicalNode F64} {planned workload : WorkItem}
    {plan : ExecutionPlan F64} {d : ExecutionDispatcher} {unit : ExecutionUnit F64}
    {request : ExecutionRequest} (hplan : ExecutionPlan.fromNode node planned=.ok plan)
    (hsource : ∀ source ∈ d.sourceParticipantId,source.kind=.participant ∧ IsCanonical source.id)
    (hid : plan.workloadId=workload.id) (hu : unit ∈ plan.units)
    (hr : d.requestFor plan workload unit=.ok request) : Acceptable request := by
  obtain ⟨hw,hn,_,hall,⟨hname,hversion⟩,rfl⟩ := ExecutionPlan.fromNode_eq_ok.mp hplan
  obtain ⟨endpoint,_,hep,rfl⟩ := requestFor_eq_ok hr
  obtain ⟨allocation,hm,rfl⟩ := List.mem_map.mp hu
  obtain ⟨hc,hv⟩ := hall allocation hm
  have hnamed : workload.id++":"++allocation.participantId≠"" := by
    intro he
    have hl := congrArg String.length he
    simp at hl
  refine ⟨validateTransportRequest_eq_ok.mpr ⟨hnamed,?_,rfl,hsource,hname,hversion,rfl,hep,hv⟩,hn,hc⟩
  rw [← hid]
  exact hw

/-- Dispatching a plan through servers has the result that dispatching it in
the same process has. The latter has no result only if an executor panics. -/
theorem tcpDispatch_refines {node : LogicalNode F64} {planned workload : WorkItem}
    {plan : ExecutionPlan F64} {source : Option Identity} {endpoints : List ExecutionEndpoint}
    {handlers : EndpointTransport} {network : Network} (debug : EndpointError → String)
    (hplan : ExecutionPlan.fromNode node planned=.ok plan)
    (hsource : ∀ caller ∈ source,caller.kind=.participant ∧ IsCanonical caller.id)
    (hhosts : HostsEndpoints handlers fun _ => True) (hmirror : Mirrors network handlers endpoints)
    (hfits : ∀ unit ∈ plan.units,∀ request,
      requestFor ⟨source,handlers.dispatch,endpoints⟩ plan workload unit=.ok request → Fits request) :
    (dispatch ⟨source,handlers.dispatch,endpoints⟩ plan workload≠.panic →
      dispatch ⟨source,TcpTransport.dispatch network debug,endpoints⟩ plan workload=
        dispatch ⟨source,handlers.dispatch,endpoints⟩ plan workload) ∧
    (HostsEndpoints handlers ParticipantExecutor.Total →
      dispatch ⟨source,handlers.dispatch,endpoints⟩ plan workload≠.panic) := by
  refine ⟨dispatch_congr ?_ (tcpDispatch_ne_panic network debug),
    fun htotal => dispatch_ne_panic (dispatch_ne_panic_of_total htotal) plan workload⟩
  intro unit hu request hid hr
  have ha := acceptable_of_plan hplan hsource hid hu hr
  have hv := validateTransportRequest_eq_ok.mp ha.1
  obtain ⟨endpoint,he,hep,rfl⟩ := requestFor_eq_ok hr
  have hkind : endpoint.participantId.kind=.participant := hep ▸ hv.participantKind
  have hserver := hmirror endpoint he hkind
  rw [hep] at hserver
  exact accepted_iff hhosts ha (hfits unit hu _ hr) hserver

end Calls

section Sample

/-- An endpoint of the participant of the sample request that accepts everything. -/
def servedEndpoint : ParticipantExecutionEndpoint :=
  ⟨sampleRequest.unit.participantId,noopParticipantExecutor,rfl⟩

/-- A process with that endpoint only. -/
def servedHandlers : EndpointTransport where
  endpoints := (∅ : Std.ExtTreeMap String EndpointHandler).insert
    servedEndpoint.participantId.id servedEndpoint.handler
  keyed := by
    intro k h hh
    rcases OrderedMap.getElem?_insert_eq_some.mp hh with ⟨rfl,rfl⟩|⟨_,hh⟩
    · rfl
    · simp at hh

/-- A server with the same handler at the address of the sample request. -/
def servedNetwork : Network := fun locator =>
  if locator=sampleRequest.endpoint.locator then some servedEndpoint.handler else none

/-- A node with the unit of the sample request as its only allocation. -/
def servedNode : LogicalNode F64 :=
  ⟨sampleRequest.nodeId.id,⟨sampleRequest.unit.resources,
    [⟨sampleRequest.unit.participantId.id,sampleRequest.unit.resources⟩]⟩,sampleRequest.runtime⟩

/-- The plan of that node. -/
def servedPlan : ExecutionPlan F64 :=
  ⟨"w",sampleRequest.nodeId,sampleRequest.runtime,[sampleRequest.unit]⟩

/-- A dispatcher for the sample endpoint. -/
def servedDispatcher (transport : Transport) : ExecutionDispatcher :=
  ⟨sampleRequest.sourceParticipantId,transport,[sampleRequest.endpoint]⟩

/-- The plan is dispatched through the server as in the process. -/
theorem tcpDispatch_refines_servedPlan : letI := hyphenatedUuid
    (servedDispatcher (TcpTransport.dispatch servedNetwork fun _ => "")).dispatch servedPlan
      sampleRequest.workload=.ok ⟨"w",sampleRequest.nodeId,1⟩ := by
  let := hyphenatedUuid
  have hplan : ExecutionPlan.fromNode servedNode sampleRequest.workload=.ok servedPlan := by
    decide +kernel
  have hlocal : (servedDispatcher servedHandlers.dispatch).dispatch servedPlan
      sampleRequest.workload=.ok ⟨"w",sampleRequest.nodeId,1⟩ := by
    decide +kernel
  have hsource : ∀ caller ∈ sampleRequest.sourceParticipantId,
      caller.kind=.participant ∧ IsCanonical caller.id :=
    (validateTransportRequest_eq_ok.mp sampleRequest_valid).source
  have hhosts : HostsEndpoints servedHandlers fun _ => True := by
    intro k h hh
    rcases OrderedMap.getElem?_insert_eq_some.mp hh with ⟨_,rfl⟩|⟨_,hh⟩
    · exact ⟨servedEndpoint,rfl,trivial⟩
    · simp at hh
  have hmirror : Mirrors servedNetwork servedHandlers [sampleRequest.endpoint] := by
    intro e he _
    obtain rfl := List.mem_singleton.mp he
    exact (OrderedMap.getElem?_insert_eq_some.mpr (.inl ⟨rfl,rfl⟩)).symm
  have hfits : ∀ unit ∈ servedPlan.units,∀ request,
      requestFor (servedDispatcher servedHandlers.dispatch) servedPlan sampleRequest.workload unit=
        .ok request → Fits request := by
    intro unit hu request hr
    obtain rfl := List.mem_singleton.mp hu
    obtain ⟨e,he,_,rfl⟩ := requestFor_eq_ok hr
    obtain rfl := List.mem_singleton.mp he
    have hs := sampleRequest_short
    refine ⟨_,requestPayload_eq_ok.mpr ⟨⟨{hs.head with requestId := ?_},hs.endpointId,hs.locator⟩,
      rfl⟩,?_⟩
    · decide +kernel
    · decide +kernel
  have hagree := (tcpDispatch_refines (fun _ => "") hplan hsource hhosts hmirror hfits).1
  have hreturn : (servedDispatcher servedHandlers.dispatch).dispatch servedPlan
      sampleRequest.workload≠.panic := by
    rw [hlocal]
    simp
  exact (hagree hreturn).trans hlocal

end Sample

end OpenHost
