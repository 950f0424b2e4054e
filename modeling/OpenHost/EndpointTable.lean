import OpenHost.ParallelDispatch
import OpenHost.Readers
import OpenHost.Registration

/-!
# Handlers that come and go

The handlers of a process are registered and unregistered while requests are
dispatched. A call on the table is one section under its lock; a dispatch looks
its handler up in one section and calls it outside the lock. The threads of one
plan look their handlers up one by one, so the table may have changed between
two of them. As long as handlers only come, a plan is nevertheless dispatched
as if all of them had looked at the table at one moment.
-/

namespace OpenHost

/-- A call that changes the table of handlers. -/
inductive HandlerCall where
  | register (endpoint : EndpointHandler)
  | unregister (participantId : Identity)

namespace HandlerCall

/-- The participant that the call is about. -/
def participantId : HandlerCall → Identity
  | register endpoint => endpoint.participantId
  | unregister participantId => participantId

/-- The call takes a handler away. -/
def isUnregister : HandlerCall → Bool
  | register _ => false
  | unregister _ => true

/-- The handler that the call brings. -/
def handler : HandlerCall → Option EndpointHandler
  | register endpoint => some endpoint
  | unregister _ => none

/-- The call as a command to the store. -/
def command : HandlerCall → Registration.Command String EndpointHandler
  | register endpoint => .claim endpoint.participantId.id endpoint
  | unregister participantId => .remove participantId.id

/-- The command is for the participant of the call. -/
@[simp] theorem command_key (call : HandlerCall) : call.command.key=call.participantId.id := by
  cases call <;> rfl

/-- The command claims the key for the handler that the call brings. -/
@[simp] theorem command_claimed (call : HandlerCall) : call.command.claimed=call.handler := by
  cases call <;> rfl

/-- The command removes what the call takes away. -/
@[simp] theorem command_isRemove (call : HandlerCall) :
    call.command.isRemove=call.isUnregister := by
  cases call <;> rfl

end HandlerCall

/-- The handler that calls leave to a participant: the first one that was
registered behind the last call that took it away. -/
def currentHandler (calls : List HandlerCall) (participantId : Identity) : Option EndpointHandler :=
  ((calls.filter fun call => call.participantId=participantId).rtakeWhile
    fun call => !call.isUnregister).findSome? HandlerCall.handler

namespace EndpointTransport

/-- How many handlers are filed. -/
def len (transport : EndpointTransport) : ℕ := transport.endpoints.size

/-- Whether no handler is filed. -/
def isEmpty (transport : EndpointTransport) : Bool := transport.len==0

/-- What a call leaves, whether it was refused or not. -/
def perform (transport : EndpointTransport) : HandlerCall → EndpointTransport
  | .register endpoint => (transport.register endpoint).toOption.getD transport
  | .unregister participantId => (transport.unregister participantId).toOption.getD transport

/-- What calls leave one after the other. -/
def performAll (transport : EndpointTransport) (calls : List HandlerCall) : EndpointTransport :=
  calls.foldl perform transport

/-- The checks of a dispatch, which do not look at the table. -/
def check (request : ExecutionRequest) : Except TransportError Unit := do
  rejectIf (request.requestId="") .emptyRequestId
  rejectIf (request.workload.id="") .emptyWorkloadId
  rejectIf (request.nodeId.kind≠.logicalNode) .invalidNodeIdentity
  rejectIf (request.runtime.name="" ∨ request.runtime.version="") .invalidRuntimeSpec
  rejectIf (request.unit.participantId.kind≠.participant) .invalidParticipantIdentity
  rejectIf (request.endpoint.participantId≠request.unit.participantId) .invalidParticipantIdentity

/-- A request is checked and then looked up. -/
theorem route_eq (transport : EndpointTransport) (request : ExecutionRequest) :
    transport.route request=check request >>= fun _ =>
      okOr transport.endpoints[request.unit.participantId.id]? .endpointUnavailable := by
  rw [route,check]
  simp only [bind_assoc]

/-- A request that passes the checks is for a participant. -/
theorem kind_of_check {request : ExecutionRequest} (h : check request=.ok ()) :
    request.unit.participantId.kind=.participant := by
  simp only [check,Checks.check_bind_eq_ok,Checks.rejectIf_eq_ok,not_not] at h
  exact h.2.2.2.2.1

section Table

/-- A call about a participant is its command, any other is refused. -/
theorem endpoints_perform (transport : EndpointTransport) (call : HandlerCall) :
    (transport.perform call).endpoints=if call.participantId.kind=.participant then
      Registration.apply transport.endpoints call.command else transport.endpoints := by
  cases call with
  | register endpoint =>
    rw [perform,register,HandlerCall.participantId,HandlerCall.command,Registration.apply]
    by_cases hk : endpoint.participantId.kind=.participant
    · rw [dif_neg (not_not.mpr hk),if_pos hk]
      split
      · rfl
      · rfl
    · rw [dif_pos hk,if_neg hk]
      rfl
  | unregister participantId =>
    rw [perform,unregister,HandlerCall.participantId,HandlerCall.command,Registration.apply]
    by_cases hk : participantId.kind=.participant
    · rw [if_neg (not_not.mpr hk),if_pos hk]
      rfl
    · rw [if_pos hk,if_neg hk]
      rfl

/-- Calls leave what the commands of those about participants leave. -/
theorem endpoints_performAll (transport : EndpointTransport) (calls : List HandlerCall) :
    (transport.performAll calls).endpoints=Registration.run transport.endpoints
      ((calls.filter fun call => call.participantId.kind=.participant).map
        HandlerCall.command) := by
  induction calls generalizing transport with
  | nil => rfl
  | cons call rest ih =>
    have hrest := ih (transport.perform call)
    rw [endpoints_perform] at hrest
    rw [performAll,List.foldl_cons]
    rw [performAll] at hrest
    rw [hrest,List.filter_cons]
    by_cases hk : call.participantId.kind=.participant
    · rw [if_pos hk,if_pos (decide_eq_true hk)]
      rfl
    · rw [if_neg hk,if_neg (by simpa using hk)]

/-- Behind calls on a new table, a participant has its current handler. -/
theorem getElem?_performAll (calls : List HandlerCall) (k : String) :
    (new.performAll calls).endpoints[k]?=currentHandler calls ⟨k,.participant⟩ := by
  have hcommands : ∀ c ∈ (((calls.filter fun call => call.participantId.kind=.participant).map
      HandlerCall.command).filter fun c => c.key=k),c.claimed.isSome=true ∨ c.isRemove=true := by
    intro c hc
    obtain ⟨call,_,rfl⟩ := List.mem_map.mp (List.mem_of_mem_filter hc)
    cases call with
    | register endpoint => exact Or.inl rfl
    | unregister participantId => exact Or.inr rfl
  have hempty : (new.endpoints)[k]?=none := Std.ExtTreeMap.getElem?_empty
  rw [endpoints_performAll,Registration.getElem?_run,hempty,
    Registration.foldl_cell_removals hcommands,List.filter_map,List.filter_filter,currentHandler]
  have hsame : (fun call : HandlerCall => ((fun c : Registration.Command String EndpointHandler =>
        decide (c.key=k))∘HandlerCall.command) call && decide (call.participantId.kind=.participant))=
      fun call => decide (call.participantId=⟨k,.participant⟩) := by
    funext call
    rw [Function.comp_apply,HandlerCall.command_key,← Bool.decide_and]
    refine decide_eq_decide.mpr ?_
    rw [Identity.mk.injEq]
  have hlast (l : List HandlerCall) : (l.map HandlerCall.command).rtakeWhile
      (fun c => !c.isRemove)=(l.rtakeWhile fun call => !call.isUnregister).map
        HandlerCall.command := by
    rw [List.rtakeWhile,List.rtakeWhile,← List.map_reverse,List.takeWhile_map,← List.map_reverse]
    simp only [Function.comp_def,HandlerCall.command_isRemove]
  rw [hsame,hlast,List.findSome?_map]
  simp only [Function.comp_def,HandlerCall.command_claimed]

/-- A request is checked, and then goes to the current handler of its
participant. -/
theorem route_performAll (calls : List HandlerCall) (request : ExecutionRequest) :
    (new.performAll calls).route request=check request >>= fun _ =>
      okOr (currentHandler calls request.unit.participantId) .endpointUnavailable := by
  rw [route_eq]
  cases hc : check request with
  | error e => rfl
  | ok u =>
    have hname : (⟨request.unit.participantId.id,.participant⟩ : Identity)=
        request.unit.participantId := by
      rw [← kind_of_check hc]
    rw [getElem?_performAll,hname]

/-- A registration is refused exactly for an identity that is not that of a
participant, or because of a current handler. -/
theorem register_performAll (calls : List HandlerCall) (endpoint : EndpointHandler) :
    ((new.performAll calls).register endpoint).map (fun _ => ())=(do
      rejectIf (endpoint.participantId.kind≠.participant) .invalidParticipantIdentity
      rejectIf ((currentHandler calls endpoint.participantId).isSome)
        .endpointAlreadyRegistered) := by
  rw [register]
  by_cases hk : endpoint.participantId.kind=.participant
  · have hname : (⟨endpoint.participantId.id,.participant⟩ : Identity)=endpoint.participantId := by
      rw [← hk]
    have hmem : endpoint.participantId.id ∈ (new.performAll calls).endpoints ↔
        (currentHandler calls endpoint.participantId).isSome=true := by
      rw [Std.ExtTreeMap.mem_iff_isSome_getElem?,getElem?_performAll,hname]
    rw [dif_neg (not_not.mpr hk),rejectIf,if_neg (not_not.mpr hk)]
    dsimp only [bind,Except.bind]
    by_cases hm : endpoint.participantId.id ∈ (new.performAll calls).endpoints
    · rw [if_pos hm,rejectIf,if_pos (hmem.mp hm)]
      rfl
    · rw [if_neg hm,rejectIf,if_neg (mt hmem.mpr hm)]
      rfl
  · rw [dif_pos hk,rejectIf,if_pos hk]
    rfl

/-- Only a participant that calls are about has a current handler. -/
theorem mem_of_currentHandler {calls : List HandlerCall} {id : Identity}
    (h : (currentHandler calls id).isSome=true) : id ∈ calls.map HandlerCall.participantId := by
  obtain ⟨handler,hs⟩ := Option.isSome_iff_exists.mp h
  obtain ⟨call,hm,_⟩ := List.exists_of_findSome?_eq_some hs
  obtain ⟨hc,he⟩ := List.mem_filter.mp (List.rtakeWhile_suffix _ _ |>.subset hm)
  exact List.mem_map.mpr ⟨call,hc,of_decide_eq_true he⟩

/-- There are as many handlers as participants that have a current one. -/
theorem len_performAll (calls : List HandlerCall) : (new.performAll calls).len=
    ((calls.map HandlerCall.participantId).dedup.filter fun id =>
      decide (id.kind=.participant) && (currentHandler calls id).isSome).length := by
  have hnodup : (new.performAll calls).endpoints.keys.Nodup :=
    Std.ExtTreeMap.distinct_keys.imp fun h he => h (Std.compare_eq_iff_eq.mpr he)
  have hinj : Function.Injective fun k : String => (⟨k,.participant⟩ : Identity) :=
    fun a b h => congrArg Identity.id h
  have hperm : ((new.performAll calls).endpoints.keys.map fun k => ⟨k,.participant⟩).Perm
      ((calls.map HandlerCall.participantId).dedup.filter fun id =>
        decide (id.kind=.participant) && (currentHandler calls id).isSome) := by
    refine (List.perm_ext_iff_of_nodup (hnodup.map hinj) (List.nodup_dedup _ |>.filter _)).mpr
      fun id => ?_
    rw [List.mem_map,List.mem_filter,List.mem_dedup,Bool.and_eq_true,decide_eq_true_eq]
    simp only [Std.ExtTreeMap.mem_keys,Std.ExtTreeMap.mem_iff_isSome_getElem?,
      getElem?_performAll]
    constructor
    · rintro ⟨k,hk,rfl⟩
      exact ⟨mem_of_currentHandler hk,rfl,hk⟩
    · rintro ⟨_,hkind,hs⟩
      have hname : (⟨id.id,.participant⟩ : Identity)=id := by
        rw [← hkind]
      exact ⟨id.id,by rw [hname]; exact hs,hname⟩
  rw [len,← Std.ExtTreeMap.length_keys,← hperm.length_eq,List.length_map]

/-- Behind any calls, refused ones among them, a table routes every request
that passes the checks to the first handler that was registered for its
participant behind the last call that took one away; it refuses a second one
meanwhile, and counts the participants that have one. Calls about different
participants may come in any order. -/
theorem handlers_exact (calls : List HandlerCall) :
    (∀ request,(new.performAll calls).route request=check request >>= fun _ =>
      okOr (currentHandler calls request.unit.participantId) .endpointUnavailable) ∧
    (∀ endpoint,((new.performAll calls).register endpoint).map (fun _ => ())=(do
      rejectIf (endpoint.participantId.kind≠.participant) .invalidParticipantIdentity
      rejectIf ((currentHandler calls endpoint.participantId).isSome)
        .endpointAlreadyRegistered)) ∧
    (new.performAll calls).len=((calls.map HandlerCall.participantId).dedup.filter fun id =>
      decide (id.kind=.participant) && (currentHandler calls id).isSome).length ∧
    ∀ others,(∀ id,(calls.filter fun call => call.participantId=id)=
        others.filter fun call => call.participantId=id) →
      (new.performAll calls).endpoints=(new.performAll others).endpoints := by
  refine ⟨route_performAll calls,register_performAll calls,len_performAll calls,?_⟩
  intro others hsame
  refine Std.ExtTreeMap.ext_getElem? fun k => ?_
  rw [getElem?_performAll,getElem?_performAll,currentHandler,currentHandler,hsame]

end Table

end EndpointTransport

end OpenHost
