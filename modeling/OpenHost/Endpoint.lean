import OpenHost.RequestHandling

/-!
# Participant endpoints

An endpoint belongs to one participant. It checks that a request is addressed
to that participant, runs the executor and answers that the work is done. The
executor is arbitrary code, which may also panic.
-/

namespace OpenHost

/-- An executor is any routine from a participant, a node, a runtime,
resources and a workload to nothing. -/
abbrev ParticipantExecutor := Identity → Identity → RuntimeSpec → ResourceFragment F64 →
  WorkItem → Outcome EndpointExecutionError Unit

/-- The executor that accepts everything. -/
def noopParticipantExecutor : ParticipantExecutor := fun _ _ _ _ _ => .ok ()

/-- An executor that always returns. -/
def ParticipantExecutor.Total (executor : ParticipantExecutor) : Prop :=
  ∀ participantId nodeId runtime resources workload,
    executor participantId nodeId runtime resources workload≠.panic

/-- A handler together with the participant it serves. -/
structure EndpointHandler where
  /-- Participant that the handler serves. -/
  participantId : Identity
  /-- The routine that handles a request. -/
  handleRequest : ExecutionHandler

/-- The endpoint of one participant. -/
structure ParticipantExecutionEndpoint where
  /-- Participant of the endpoint. -/
  participantId : Identity
  /-- What runs the workloads. -/
  executor : ParticipantExecutor
  /-- The identity names a participant. -/
  kindValid : participantId.kind=.participant

namespace ParticipantExecutionEndpoint

/-- Make an endpoint for a participant. -/
def new (participantId : Identity) (executor : ParticipantExecutor) :
    Except EndpointError ParticipantExecutionEndpoint :=
  if h : participantId.kind=.participant then .ok ⟨participantId,executor,h⟩
  else .error .invalidParticipantIdentity

/-- The checks of an endpoint, in the order of the program. -/
def validateRequest (participantId : Identity) (request : ExecutionRequest) :
    Except EndpointError Unit := do
  rejectIf (request.requestId="") .emptyRequestId
  rejectIf (request.workload.id="") .emptyWorkloadId
  rejectIf (request.nodeId.kind≠.logicalNode) .invalidNodeIdentity
  rejectIf (request.runtime.name="") .invalidRuntimeSpec
  rejectIf (request.runtime.version="") .invalidRuntimeSpec
  rejectIf (request.unit.participantId.kind≠.participant) .invalidParticipantIdentity
  rejectIf (request.unit.participantId≠participantId ∨ request.endpoint.participantId≠participantId ∨
    request.endpoint.participantId≠request.unit.participantId) .participantMismatch

/-- Check a request, execute its workload and answer. -/
def handle (endpoint : ParticipantExecutionEndpoint) (request : ExecutionRequest) :
    Outcome EndpointError ExecutionResponse := do
  validateRequest endpoint.participantId request
  (endpoint.executor endpoint.participantId request.nodeId request.runtime request.unit.resources
    request.workload).mapErr (.executionFailed request.requestId)
  return ⟨request.requestId,.completed,none⟩

/-- The endpoint as a handler of requests. -/
def handler (endpoint : ParticipantExecutionEndpoint) : EndpointHandler :=
  ⟨endpoint.participantId,endpoint.handle⟩

/-- A request that is addressed to the participant passes the checks. -/
theorem validateRequest_eq_ok {participantId : Identity} {request : ExecutionRequest} :
    validateRequest participantId request=.ok () ↔ request.requestId≠"" ∧
      request.workload.id≠"" ∧ request.nodeId.kind=.logicalNode ∧ request.runtime.name≠"" ∧
      request.runtime.version≠"" ∧ request.unit.participantId.kind=.participant ∧
      request.unit.participantId=participantId ∧ request.endpoint.participantId=participantId := by
  simp only [validateRequest,Checks.bind_eq_ok,Unique.exists_iff,PUnit.default_eq_unit,
    Checks.rejectIf_eq_ok,not_or,not_not]
  constructor
  · rintro ⟨h1,h2,h3,h4,h5,h6,h7,h8,_⟩
    exact ⟨h1,h2,h3,h4,h5,h6,h7,h8⟩
  · rintro ⟨h1,h2,h3,h4,h5,h6,h7,h8⟩
    exact ⟨h1,h2,h3,h4,h5,h6,h7,h8,h8.trans h7.symm⟩

/-- The answer to a request that passes the checks is decided by the executor. -/
theorem handle_of_valid {endpoint : ParticipantExecutionEndpoint} {request : ExecutionRequest}
    (h : validateRequest endpoint.participantId request=.ok ()) :
    endpoint.handle request=match endpoint.executor endpoint.participantId request.nodeId
        request.runtime request.unit.resources request.workload with
      | .ok _ => .ok (.completed request.requestId)
      | .err error => .err (.executionFailed request.requestId error)
      | .panic => .panic := by
  rw [handle,h]
  dsimp only [Outcome.monadLift_eq,Outcome.ofExcept_ok]
  cases endpoint.executor endpoint.participantId request.nodeId request.runtime
    request.unit.resources request.workload <;> rfl

/-- A request that passes the checks is completed or refused, or the executor panics. -/
theorem handle_answers {endpoint : ParticipantExecutionEndpoint} {request : ExecutionRequest}
    (h : validateRequest endpoint.participantId request=.ok ()) :
    endpoint.handle request=.ok (.completed request.requestId) ∨
      (∃ error,endpoint.handle request=.err error) ∨ endpoint.handle request=.panic := by
  rw [handle_of_valid h]
  cases endpoint.executor endpoint.participantId request.nodeId request.runtime
      request.unit.resources request.workload with
  | ok u => exact .inl rfl
  | err error => exact .inr (.inl ⟨_,rfl⟩)
  | panic => exact .inr (.inr rfl)

/-- An endpoint panics only with its executor. -/
theorem handle_ne_panic {endpoint : ParticipantExecutionEndpoint} (h : endpoint.executor.Total)
    (request : ExecutionRequest) : endpoint.handle request≠.panic := by
  intro hp
  rcases Outcome.bind_eq_panic.mp hp with hv|⟨_,_,hp⟩
  · exact Outcome.ofExcept_ne_panic _ hv
  rcases Outcome.bind_eq_panic.mp hp with he|⟨_,_,hp⟩
  · exact h _ _ _ _ _ (Outcome.mapErr_eq_panic.mp he)
  · cases hp

end ParticipantExecutionEndpoint

end OpenHost
