import OpenHost.Endpoint

/-!
# Dispatching a plan

A dispatcher makes one request for each unit of a plan, hands all of them to
its transport at once, one thread for each, and waits for the answers in
order. Two transports are modelled: one calls the registered handler in the
same process, the other sends the request through a connection to a server.
-/

namespace OpenHost

/-- A transport is any routine from a request to a response. -/
abbrev Transport := ExecutionRequest → Outcome TransportError ExecutionResponse

/-- Handlers in the same process, each filed under the text of its participant. -/
structure EndpointTransport where
  /-- Handlers by the text of the participant's identity. -/
  endpoints : Std.ExtTreeMap String EndpointHandler
  /-- A handler is filed under the participant it serves. -/
  keyed : ∀ (k : String) (h : EndpointHandler),endpoints[k]?=some h →
    h.participantId=⟨k,.participant⟩

namespace EndpointTransport

/-- A transport without handlers. -/
def new : EndpointTransport := ⟨∅,fun k h hh => by simp at hh⟩

/-- File a handler, unless its participant has one. -/
def register (transport : EndpointTransport) (endpoint : EndpointHandler) :
    Except TransportError EndpointTransport :=
  if hk : endpoint.participantId.kind≠.participant then .error .invalidParticipantIdentity
  else if endpoint.participantId.id ∈ transport.endpoints then .error .endpointAlreadyRegistered
  else .ok ⟨transport.endpoints.insert endpoint.participantId.id endpoint,by
    intro k h hh
    rcases OrderedMap.getElem?_insert_eq_some.mp hh with ⟨hid,rfl⟩|⟨_,hh⟩
    · rw [← hid,← not_not.mp hk]
    · exact transport.keyed k h hh⟩

/-- Remove the handler of a participant, if there is one. -/
def unregister (transport : EndpointTransport) (participantId : Identity) :
    Except TransportError EndpointTransport :=
  if participantId.kind≠.participant then .error .invalidParticipantIdentity
  else .ok ⟨transport.endpoints.erase participantId.id,fun k h hh =>
    transport.keyed k h (OrderedMap.getElem?_erase_eq_some.mp hh).2⟩

/-- Check a request and find the handler of its participant. -/
def route (transport : EndpointTransport) (request : ExecutionRequest) :
    Except TransportError EndpointHandler := do
  rejectIf (request.requestId="") .emptyRequestId
  rejectIf (request.workload.id="") .emptyWorkloadId
  rejectIf (request.nodeId.kind≠.logicalNode) .invalidNodeIdentity
  rejectIf (request.runtime.name="" ∨ request.runtime.version="") .invalidRuntimeSpec
  rejectIf (request.unit.participantId.kind≠.participant) .invalidParticipantIdentity
  rejectIf (request.endpoint.participantId≠request.unit.participantId) .invalidParticipantIdentity
  okOr transport.endpoints[request.unit.participantId.id]? .endpointUnavailable

/-- A request is routed to a handler that is filed. -/
theorem exists_of_route {transport : EndpointTransport} {request : ExecutionRequest}
    {handler : EndpointHandler} (h : transport.route request=.ok handler) :
    ∃ k : String,transport.endpoints[k]?=some handler := by
  simp only [route,Checks.bind_eq_ok,Unique.exists_iff,Checks.okOr_eq_ok] at h
  obtain ⟨_,_,_,_,_,_,hl⟩ := h
  exact ⟨_,hl⟩

/-- Call the handler of the request's participant. -/
def dispatch (transport : EndpointTransport) (request : ExecutionRequest) :
    Outcome TransportError ExecutionResponse := do
  let endpoint ← transport.route request
  (endpoint.handleRequest request).mapErr fun _ => .requestRejected

end EndpointTransport

/-- What is behind an address: the handler of the server there, if one listens. -/
abbrev Network := String → Option EndpointHandler

/-- Send a request to the server behind its locator and read the answer. The
server reads what the client has written, and the client what the server has
written behind it; `debug` is the text in which the server reports an error. -/
def TcpTransport.dispatch [UuidCrate] (network : Network) (debug : EndpointError → String)
    (request : ExecutionRequest) : Outcome TransportError ExecutionResponse := do
  validateTransportRequest request
  let endpoint ← okOr (network request.endpoint.locator) TransportError.networkFailure
  match writeRequest ⟨[],[],none⟩ request with
  | (.error e,_) => .err e
  | (.ok (),client) =>
    let served := handleRequestStream ⟨client.outgoing,[],none⟩ endpoint.handleRequest none debug
    let response ← (readResponse {client with incoming := served.stream.outgoing}).1
    rejectIf (response.requestId≠request.requestId) TransportError.responseIdMismatch
    return response

/-- Acknowledgement of a dispatched plan. -/
structure DispatchReceipt where
  /-- Name of the workload. -/
  workloadId : String
  /-- Node on which it runs. -/
  nodeId : Identity
  /-- Number of units that were dispatched. -/
  dispatchedUnits : ℕ
  deriving DecidableEq

/-- A dispatcher: who asks, through which transport, and where participants are. -/
structure ExecutionDispatcher where
  /-- Identity of the caller, if it has one. -/
  sourceParticipantId : Option Identity
  /-- How requests are sent. -/
  transport : Transport
  /-- Endpoints of the participants. -/
  endpoints : List ExecutionEndpoint

namespace ExecutionDispatcher

/-- The request for one unit, if its participant has an endpoint. -/
def requestFor (d : ExecutionDispatcher) (plan : ExecutionPlan F64) (workload : WorkItem)
    (unit : ExecutionUnit F64) : Except ExecutionError ExecutionRequest := do
  let endpoint ← okOr (d.endpoints.find? fun e => e.participantId=unit.participantId)
    .backendRejected
  .ok ⟨workload.id++":"++unit.participantId.id,d.sourceParticipantId,workload,plan.nodeId,
    plan.runtime,unit,endpoint⟩

/-- The requests for units, in order. -/
def requestsFor (d : ExecutionDispatcher) (plan : ExecutionPlan F64) (workload : WorkItem) :
    List (ExecutionUnit F64) → Except ExecutionError (List ExecutionRequest)
  | [] => .ok []
  | unit::rest => do
    let request ← d.requestFor plan workload unit
    let requests ← d.requestsFor plan workload rest
    .ok (request::requests)

/-- Wait for the threads in order. The first thread that panicked ends the
waiting with an error; if a thread behind it has panicked too, nobody takes
its panic, and the scope of the threads passes it on. -/
def joinThreads : List (Outcome TransportError ExecutionResponse) →
    Outcome ExecutionError (List (Except TransportError ExecutionResponse))
  | [] => .ok []
  | .ok response::rest => do
    let others ← joinThreads rest
    return .ok response::others
  | .err e::rest => do
    let others ← joinThreads rest
    return .error e::others
  | .panic::rest => if .panic ∈ rest then .panic else .err .backendRejected

/-- Count the units that were taken on; anything else refuses the dispatch. -/
def countDispatched : List (ExecutionRequest×Except TransportError ExecutionResponse) → ℕ →
    Except ExecutionError ℕ
  | [],dispatched => .ok dispatched
  | (request,response)::rest,dispatched => do
    let response ← response.mapError fun _ => .backendRejected
    rejectIf (response.requestId≠request.requestId) .backendRejected
    match response.status with
    | .dispatched | .running | .completed => countDispatched rest (dispatched+1)
    | .pending | .failed | .cancelled => .error .backendRejected

/-- Dispatch a plan for a workload. -/
def dispatch (d : ExecutionDispatcher) (plan : ExecutionPlan F64) (workload : WorkItem) :
    Outcome ExecutionError DispatchReceipt :=
  if plan.workloadId≠workload.id then .err .workloadMismatch
  else if plan.units.isEmpty then .err .emptyPlan
  else do
    let requests ← d.requestsFor plan workload plan.units
    let responses ← joinThreads (requests.map d.transport)
    let dispatched ← countDispatched (requests.zip responses) 0
    return ⟨workload.id,plan.nodeId,dispatched⟩

/-- Statuses of a unit that was taken on. -/
def takenOn : ExecutionStatus → Bool
  | .dispatched | .running | .completed => true
  | .pending | .failed | .cancelled => false

/-- The call answered the request and took the unit on. -/
def Accepted (request : ExecutionRequest) (call : Outcome TransportError ExecutionResponse) : Prop :=
  ∃ response,call=.ok response ∧ response.requestId=request.requestId ∧
    takenOn response.status=true

/-- Requests are made exactly when every unit has one. -/
theorem requestsFor_eq_ok {d : ExecutionDispatcher} {plan : ExecutionPlan F64}
    {workload : WorkItem} {units : List (ExecutionUnit F64)} {requests : List ExecutionRequest} :
    d.requestsFor plan workload units=.ok requests ↔
      List.Forall₂ (fun unit request => d.requestFor plan workload unit=.ok request) units
        requests := by
  induction units generalizing requests with
  | nil => simp [requestsFor,eq_comm]
  | cons unit rest ih =>
    simp only [requestsFor,Checks.bind_eq_ok,ih,List.forall₂_cons_left_iff]
    constructor
    · rintro ⟨request,hr,others,ho,he⟩
      cases he
      exact ⟨request,others,hr,ho,rfl⟩
    · rintro ⟨request,others,hr,ho,rfl⟩
      exact ⟨request,hr,others,ho,rfl⟩

/-- Every request is made for a unit. -/
theorem exists_unit_of_mem {d : ExecutionDispatcher} {plan : ExecutionPlan F64}
    {workload : WorkItem} {units : List (ExecutionUnit F64)} {requests : List ExecutionRequest}
    {request : ExecutionRequest} (h : d.requestsFor plan workload units=.ok requests)
    (hm : request ∈ requests) : ∃ unit ∈ units,d.requestFor plan workload unit=.ok request := by
  rw [requestsFor_eq_ok] at h
  induction h with
  | nil => cases hm
  | cons hr _ ih =>
    rcases List.mem_cons.mp hm with rfl|hm
    · exact ⟨_,List.mem_cons_self,hr⟩
    · obtain ⟨unit,hu,hr⟩ := ih hm
      exact ⟨unit,List.mem_cons_of_mem _ hu,hr⟩

/-- A request is that of the endpoint listed for the participant of its unit. -/
theorem requestFor_eq_ok {d : ExecutionDispatcher} {plan : ExecutionPlan F64}
    {workload : WorkItem} {unit : ExecutionUnit F64} {request : ExecutionRequest}
    (h : d.requestFor plan workload unit=.ok request) : ∃ endpoint ∈ d.endpoints,
      endpoint.participantId=unit.participantId ∧ request=⟨workload.id++":"++unit.participantId.id,
        d.sourceParticipantId,workload,plan.nodeId,plan.runtime,unit,endpoint⟩ := by
  obtain ⟨endpoint,hf,hr⟩ := Checks.bind_eq_ok.mp h
  rw [Checks.okOr_eq_ok] at hf
  have hid := List.find?_some hf
  rw [decide_eq_true_eq] at hid
  cases hr
  exact ⟨endpoint,List.mem_of_find?_eq_some hf,hid,rfl⟩

/-- Which requests are made does not depend on how they are sent. -/
theorem requestsFor_transport (source : Option Identity) (endpoints : List ExecutionEndpoint)
    (t t' : Transport) (plan : ExecutionPlan F64) (workload : WorkItem)
    (units : List (ExecutionUnit F64)) :
    requestsFor ⟨source,t,endpoints⟩ plan workload units=
      requestsFor ⟨source,t',endpoints⟩ plan workload units := by
  induction units with
  | nil => rfl
  | cons unit rest ih =>
    rw [requestsFor,requestsFor,ih]
    rfl

/-- One response counts exactly when it was accepted. -/
theorem countDispatched_cons (request : ExecutionRequest)
    (response : Except TransportError ExecutionResponse)
    (rest : List (ExecutionRequest×Except TransportError ExecutionResponse)) (n : ℕ) :
    (Accepted request (.ofExcept response) →
      countDispatched ((request,response)::rest) n=countDispatched rest (n+1)) ∧
    (¬Accepted request (.ofExcept response) →
      countDispatched ((request,response)::rest) n=.error .backendRejected) := by
  rw [countDispatched]
  cases response with
  | error e =>
    refine ⟨?_,fun _ => rfl⟩
    rintro ⟨response,h,_⟩
    cases h
  | ok response =>
    rcases response with ⟨id,status,error⟩
    by_cases hid : id=request.requestId
    · subst hid
      have hok : Accepted request (.ofExcept (.ok ⟨request.requestId,status,error⟩)) ↔
          takenOn status=true := by
        constructor
        · rintro ⟨_,h,_,hs⟩
          cases h
          exact hs
        · intro hs
          exact ⟨_,rfl,rfl,hs⟩
      rw [hok]
      dsimp only [Except.mapError,bind,Except.bind]
      rw [rejectIf,if_neg (not_not.mpr rfl)]
      cases status <;> simp [takenOn]
    · refine ⟨?_,fun _ => ?_⟩
      · rintro ⟨_,h,hr,_⟩
        cases h
        exact (hid hr).elim
      · dsimp only [Except.mapError,bind,Except.bind]
        rw [rejectIf,if_pos hid]

/-- Threads that all return are joined to their results. -/
theorem joinThreads_of_returned {calls : List (Outcome TransportError ExecutionResponse)}
    (h : .panic∉calls) : ∃ results,joinThreads calls=.ok results ∧
      calls=results.map Outcome.ofExcept := by
  induction calls with
  | nil => exact ⟨[],rfl,rfl⟩
  | cons call rest ih =>
    rw [List.mem_cons,not_or] at h
    obtain ⟨results,hj,hm⟩ := ih h.2
    cases call with
    | panic => exact (h.1 rfl).elim
    | ok response =>
      exact ⟨.ok response::results,by rw [joinThreads,hj]; rfl,by rw [List.map_cons,hm]; rfl⟩
    | err e =>
      exact ⟨.error e::results,by rw [joinThreads,hj]; rfl,by rw [List.map_cons,hm]; rfl⟩

/-- A thread that panicked ends the joining with an error, or the scope panics. -/
theorem joinThreads_of_panic {calls : List (Outcome TransportError ExecutionResponse)}
    (h : .panic ∈ calls) :
    joinThreads calls=.err .backendRejected ∨ joinThreads calls=.panic := by
  induction calls with
  | nil => cases h
  | cons call rest ih =>
    cases call with
    | panic =>
      rw [joinThreads]
      split
      · exact .inr rfl
      · exact .inl rfl
    | ok response =>
      rw [joinThreads]
      rcases ih ((List.mem_cons.mp h).resolve_left (by simp)) with hj|hj
      · exact .inl (by rw [hj]; rfl)
      · exact .inr (by rw [hj]; rfl)
    | err e =>
      rw [joinThreads]
      rcases ih ((List.mem_cons.mp h).resolve_left (by simp)) with hj|hj
      · exact .inl (by rw [hj]; rfl)
      · exact .inr (by rw [hj]; rfl)

/-- Results count up to their number exactly when each of them was accepted
by its request. -/
theorem countDispatched_eq {requests : List ExecutionRequest}
    {results : List (Except TransportError ExecutionResponse)}
    (hlen : requests.length=results.length) (n : ℕ) :
    (List.Forall₂ Accepted requests (results.map Outcome.ofExcept) →
      countDispatched (requests.zip results) n=.ok (n+requests.length)) ∧
    (¬List.Forall₂ Accepted requests (results.map Outcome.ofExcept) →
      countDispatched (requests.zip results) n=.error .backendRejected) := by
  induction requests generalizing results n with
  | nil =>
    cases results with
    | nil => exact ⟨fun _ => rfl,fun hn => (hn .nil).elim⟩
    | cons result results => cases hlen
  | cons request rest ih =>
    cases results with
    | nil => cases hlen
    | cons result results =>
      obtain ⟨hall,hnot⟩ := ih (Nat.succ.inj hlen) (n+1)
      obtain ⟨hyes,hno⟩ := countDispatched_cons request result (rest.zip results) n
      rw [List.zip_cons_cons,List.map_cons,List.forall₂_cons,List.length_cons]
      constructor
      · rintro ⟨hr,hrest⟩
        rw [hyes hr,hall hrest,Nat.add_assoc,Nat.add_comm 1]
      · intro hn
        by_cases hr : Accepted request (.ofExcept result)
        · rw [hyes hr,hnot fun hrest => hn ⟨hr,hrest⟩]
        · exact hno hr

/-- A dispatch with a request for every unit succeeds exactly when every call
was accepted; otherwise it is refused, or one of its threads has panicked and
the dispatch panics too. -/
theorem dispatch_of_requests {d : ExecutionDispatcher} {plan : ExecutionPlan F64}
    {workload : WorkItem} {requests : List ExecutionRequest} (hid : plan.workloadId=workload.id)
    (hne : plan.units≠[]) (hr : d.requestsFor plan workload plan.units=.ok requests) :
    ((∀ request ∈ requests,Accepted request (d.transport request)) →
      d.dispatch plan workload=.ok ⟨workload.id,plan.nodeId,plan.units.length⟩) ∧
    (¬(∀ request ∈ requests,Accepted request (d.transport request)) →
      d.dispatch plan workload=.err .backendRejected ∨
        d.dispatch plan workload=.panic ∧ .panic ∈ requests.map d.transport) := by
  have hlen : requests.length=plan.units.length := (requestsFor_eq_ok.mp hr).length_eq.symm
  have hd : d.dispatch plan workload=joinThreads (requests.map d.transport) >>= fun responses =>
      Outcome.ofExcept (countDispatched (requests.zip responses) 0) >>= fun dispatched =>
        .ok ⟨workload.id,plan.nodeId,dispatched⟩ := by
    rw [dispatch,if_neg (not_not.mpr hid),if_neg (by simpa using hne),hr]
    rfl
  rw [hd]
  by_cases hp : .panic ∈ requests.map d.transport
  · have hnot : ¬∀ request ∈ requests,Accepted request (d.transport request) := by
      intro hall
      obtain ⟨request,hm,hcall⟩ := List.mem_map.mp hp
      obtain ⟨response,hok,_⟩ := hall request hm
      rw [hcall] at hok
      cases hok
    refine ⟨fun hall => (hnot hall).elim,fun _ => ?_⟩
    rcases joinThreads_of_panic hp with hj|hj
    · exact .inl (by rw [hj]; rfl)
    · exact .inr ⟨by rw [hj]; rfl,hp⟩
  · obtain ⟨results,hj,hm⟩ := joinThreads_of_returned hp
    have hresults : requests.length=results.length := by
      have hl := congrArg List.length hm
      rwa [List.length_map,List.length_map] at hl
    obtain ⟨hall,hnot⟩ := countDispatched_eq hresults 0
    rw [← hm,List.forall₂_map_right_iff,List.forall₂_same] at hall hnot
    rw [hj,Outcome.ok_bind]
    constructor
    · intro h
      rw [hall h,Nat.zero_add,hlen]
      rfl
    · intro h
      rw [hnot h]
      exact .inl rfl

/-- A dispatch returns if its transport always does. -/
theorem dispatch_ne_panic {d : ExecutionDispatcher} (ht : ∀ request,d.transport request≠.panic)
    (plan : ExecutionPlan F64) (workload : WorkItem) : d.dispatch plan workload≠.panic := by
  intro hp
  rw [dispatch] at hp
  split at hp
  · cases hp
  split at hp
  · cases hp
  rcases Outcome.bind_eq_panic.mp hp with hr|⟨requests,_,hp⟩
  · exact Outcome.ofExcept_ne_panic _ hr
  have hreturned : .panic∉requests.map d.transport := by
    intro hm
    obtain ⟨request,_,hr⟩ := List.mem_map.mp hm
    exact ht request hr
  obtain ⟨results,hj,_⟩ := joinThreads_of_returned hreturned
  rw [hj,Outcome.ok_bind] at hp
  rcases Outcome.bind_eq_panic.mp hp with hr|⟨_,_,hp⟩
  · exact Outcome.ofExcept_ne_panic _ hr
  · cases hp

/-- Two dispatches agree if their transports get the same requests accepted,
the first returns and no call of the second panics. -/
theorem dispatch_congr {source : Option Identity} {endpoints : List ExecutionEndpoint}
    {t t' : Transport} {plan : ExecutionPlan F64} {workload : WorkItem}
    (hcall : ∀ unit ∈ plan.units,∀ request,plan.workloadId=workload.id →
      requestFor ⟨source,t,endpoints⟩ plan workload unit=.ok request →
      (Accepted request (t' request) ↔ Accepted request (t request)))
    (ht : ∀ request,t' request≠.panic)
    (hreturn : dispatch ⟨source,t,endpoints⟩ plan workload≠.panic) :
    dispatch ⟨source,t',endpoints⟩ plan workload=dispatch ⟨source,t,endpoints⟩ plan workload := by
  have hmade := requestsFor_transport source endpoints t' t plan workload plan.units
  by_cases hid : plan.workloadId=workload.id
  swap
  · rw [dispatch,dispatch,if_pos hid,if_pos hid]
  by_cases hne : plan.units=[]
  · rw [dispatch,dispatch,hne,if_neg (not_not.mpr hid),if_neg (not_not.mpr hid)]
    rfl
  cases hmake : requestsFor ⟨source,t,endpoints⟩ plan workload plan.units with
  | error e =>
    rw [dispatch,dispatch,hmade,hmake]
    rfl
  | ok requests =>
    have hsame : (∀ request ∈ requests,Accepted request (t' request)) ↔
        ∀ request ∈ requests,Accepted request (t request) := by
      refine forall₂_congr fun request hm => ?_
      obtain ⟨unit,hu,hr⟩ := exists_unit_of_mem hmake hm
      exact hcall unit hu request hid hr
    obtain ⟨hyes,hno⟩ := dispatch_of_requests hid hne hmake
    obtain ⟨hyes',hno'⟩ := dispatch_of_requests hid hne (hmade.trans hmake)
    by_cases hall : ∀ request ∈ requests,Accepted request (t request)
    · rw [hyes hall,hyes' (hsame.mpr hall)]
    · have herr := (hno hall).resolve_right fun h => hreturn h.1
      rcases hno' (fun h => hall (hsame.mp h)) with hr|⟨_,hp⟩
      · rw [herr,hr]
      · obtain ⟨request,_,hp⟩ := List.mem_map.mp hp
        exact (ht request hp).elim

end ExecutionDispatcher

end OpenHost
