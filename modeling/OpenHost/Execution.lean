import OpenHost.Lease

/-!
# Execution plans

A plan turns the allocations of a logical node into one execution unit per
participant. It is handed to a backend together with the workload; the
backend is arbitrary code, which may also panic.
-/

namespace OpenHost

/-- Work to be done: a name and opaque bytes. -/
structure WorkItem where
  /-- Name of the workload. -/
  id : String
  /-- Bytes handed to the runtime. -/
  payload : List UInt8
  deriving DecidableEq

/-- One participant's part of a plan. -/
structure ExecutionUnit (F : Type) where
  /-- Participant that runs the unit. -/
  participantId : Identity
  /-- Resources of the unit. -/
  resources : ResourceFragment F
  deriving DecidableEq

/-- A workload distributed over the participants of a node. -/
structure ExecutionPlan (F : Type) where
  /-- Name of the planned workload. -/
  workloadId : String
  /-- Node that the plan belongs to. -/
  nodeId : Identity
  /-- Runtime of the node. -/
  runtime : RuntimeSpec
  /-- One unit per allocation. -/
  units : List (ExecutionUnit F)
  deriving DecidableEq

/-- Acknowledgement of a backend. -/
structure ExecutionReceipt where
  /-- Name of the executed workload. -/
  workloadId : String
  /-- Node on which it ran. -/
  nodeId : Identity
  /-- Number of units that were dispatched. -/
  dispatchedUnits : ℕ
  deriving DecidableEq

/-- Errors of planning and of backends. -/
inductive ExecutionError where
  | emptyWorkloadId
  | invalidNodeIdentity
  | invalidParticipantIdentity
  | emptyPlan
  | invalidResources
  | invalidRuntimeSpec
  | workloadMismatch
  | backendRejected
  deriving DecidableEq

/-- A backend is any routine from a plan and a workload to a receipt. -/
abbrev ExecutionBackend (F : Type) :=
  ExecutionPlan F → WorkItem → Outcome ExecutionError ExecutionReceipt

/-- The backend that acknowledges every plan for its workload. -/
def noopBackend {F : Type} : ExecutionBackend F := fun plan workload =>
  if plan.workloadId≠workload.id then .err .workloadMismatch
  else if plan.units.isEmpty then .err .emptyPlan
  else .ok ⟨workload.id,plan.nodeId,plan.units.length⟩

namespace ExecutionPlan

variable {F : Type} [Cores F] [UuidCrate]

/-- The unit for one allocation. -/
def unitOf (allocation : Allocation F) : Except ExecutionError (ExecutionUnit F) := do
  let participantId ← (Identity.parse allocation.participantId .participant).mapError
    fun _ => .invalidParticipantIdentity
  allocation.resources.validateRequirement.mapError fun _ => .invalidResources
  .ok ⟨participantId,allocation.resources⟩

/-- The units for the allocations, in order. -/
def unitsOf : List (Allocation F) → Except ExecutionError (List (ExecutionUnit F))
  | [] => .ok []
  | allocation::rest => do
    let first ← unitOf allocation
    let others ← unitsOf rest
    .ok (first::others)

/-- Plan a workload on a logical node. -/
def fromNode (node : LogicalNode F) (workload : WorkItem) :
    Except ExecutionError (ExecutionPlan F) := do
  rejectIf (workload.id="") .emptyWorkloadId
  let nodeId ← (Identity.parse node.id .logicalNode).mapError fun _ => .invalidNodeIdentity
  rejectIf (node.resources.allocations.isEmpty=true) .emptyPlan
  let units ← unitsOf node.resources.allocations
  rejectIf (node.runtime.name="" ∨ node.runtime.version="") .invalidRuntimeSpec
  .ok ⟨workload.id,nodeId,node.runtime,units⟩

/-- The units that a plan of these allocations consists of. -/
def unitsFor (allocations : List (Allocation F)) : List (ExecutionUnit F) :=
  allocations.map fun a => ⟨⟨a.participantId,.participant⟩,a.resources⟩

/-- A unit exists exactly for a canonical participant and a valid part. -/
theorem unitOf_eq_ok {a : Allocation F} {u : ExecutionUnit F} : unitOf a=.ok u ↔
    (IsCanonical a.participantId ∧ a.resources.validateRequirement=.ok ()) ∧
      u=⟨⟨a.participantId,.participant⟩,a.resources⟩ := by
  simp only [unitOf,Checks.bind_eq_ok,Checks.mapError_eq_ok,Identity.parse_eq_ok,
    Unique.exists_iff,PUnit.default_eq_unit]
  constructor
  · rintro ⟨i,⟨hc,rfl⟩,hr,hu⟩
    cases hu
    exact ⟨⟨hc,hr⟩,rfl⟩
  · rintro ⟨⟨hc,hr⟩,rfl⟩
    exact ⟨_,⟨hc,rfl⟩,hr,rfl⟩

/-- The units of a plan are the allocations, one by one. -/
theorem unitsOf_eq_ok {allocations : List (Allocation F)} {units : List (ExecutionUnit F)} :
    unitsOf allocations=.ok units ↔
      (∀ a ∈ allocations,IsCanonical a.participantId ∧ a.resources.validateRequirement=.ok ()) ∧
        units=unitsFor allocations := by
  induction allocations generalizing units with
  | nil => simp [unitsOf,unitsFor,eq_comm]
  | cons a rest ih =>
    simp only [unitsOf,Checks.bind_eq_ok,unitOf_eq_ok,ih,List.forall_mem_cons,unitsFor,
      List.map_cons]
    constructor
    · rintro ⟨u,⟨ha,rfl⟩,us,⟨hr,rfl⟩,hu⟩
      cases hu
      exact ⟨⟨ha,hr⟩,rfl⟩
    · rintro ⟨⟨ha,hr⟩,rfl⟩
      exact ⟨_,⟨ha,rfl⟩,_,⟨hr,rfl⟩,rfl⟩

/-- Planning succeeds exactly on a canonical, non-empty, valid node with a
runtime; the plan lists the allocations of the node. -/
theorem fromNode_eq_ok {node : LogicalNode F} {workload : WorkItem} {plan : ExecutionPlan F} :
    fromNode node workload=.ok plan ↔
      workload.id≠"" ∧ IsCanonical node.id ∧ node.resources.allocations≠[] ∧
      (∀ a ∈ node.resources.allocations,
        IsCanonical a.participantId ∧ a.resources.validateRequirement=.ok ()) ∧
      (node.runtime.name≠"" ∧ node.runtime.version≠"") ∧
      plan=⟨workload.id,⟨node.id,.logicalNode⟩,node.runtime,
        unitsFor node.resources.allocations⟩ := by
  simp only [fromNode,Checks.bind_eq_ok,Checks.mapError_eq_ok,Identity.parse_eq_ok,
    Unique.exists_iff,PUnit.default_eq_unit,Checks.rejectIf_eq_ok,unitsOf_eq_ok,not_or,
    List.isEmpty_iff]
  constructor
  · rintro ⟨hw,i,⟨hc,rfl⟩,hne,us,⟨hu,rfl⟩,hr,hp⟩
    cases hp
    exact ⟨hw,hc,hne,hu,hr,rfl⟩
  · rintro ⟨hw,hc,hne,hu,hr,rfl⟩
    exact ⟨hw,_,⟨hc,rfl⟩,hne,_,⟨hu,rfl⟩,hr,rfl⟩

end ExecutionPlan

end OpenHost
