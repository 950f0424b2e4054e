import OpenHost.Discovery
import OpenHost.Scheduler
import OpenHost.VirtualMachine

/-!
# The control plane

The plane keeps three maps: leases, virtual machines and logical nodes. An
operation returns its result together with the plane behind it, also when
the result is an error. The scheduler is an argument, because the program
calls it through an interface and it may answer differently every time;
texts drawn from the UUID generator are arguments for the same reason.
-/

namespace OpenHost

/-- Errors of the control plane. -/
inductive ControlError where
  | invalidTime
  | invalidLeaseDuration
  | leaseNotFound
  | virtualMachineNotFound
  | scheduler (error : SchedulerError)
  | node (error : NodeError)
  | execution (error : ExecutionError)
  | virtualMachine (error : VirtualMachineError)
  deriving DecidableEq

/-- State of the control plane. -/
structure Plane (F : Type) [Cores F] where
  /-- Local participants. -/
  registry : Registry F
  /-- Discovered participants. -/
  discovery : MemoryRegistry F
  /-- Leases by the text of their identity. -/
  leases : Std.ExtTreeMap String (Lease F)
  /-- Virtual machines by the text of their identity. -/
  virtualMachines : Std.ExtTreeMap String (VirtualMachine F)
  /-- Logical nodes by the text of their identity. -/
  logicalNodes : Std.ExtTreeMap String (LogicalNode F)

/-- What an execution through the plane did. -/
structure Plane.Executed (F : Type) [Cores F] where
  /-- How the call ended. -/
  result : Outcome ControlError ExecutionReceipt
  /-- The plane behind the call. -/
  plane : Plane F
  /-- The plan that the backend received, if it was called. -/
  sent : Option (ExecutionPlan F)

namespace Plane

variable {F : Type} [Cores F]

/-- A plane that holds nothing yet. -/
def new (registry : Registry F) (discovery : MemoryRegistry F) : Plane F :=
  ⟨registry,discovery,∅,∅,∅⟩

section Operations

variable [UuidCrate]

/-- Register a local participant. -/
def registerParticipant (plane : Plane F) (participant : Participant F) :
    Except RegistryError Unit×Plane F :=
  match plane.registry.register participant with
  | .ok registry => (.ok (),{plane with registry := registry})
  | .error e => (.error e,plane)

/-- Hand an advertisement to discovery. -/
def announceParticipant (plane : Plane F) (ad : Advertisement F) (observedAt : SystemTime) :
    Except DiscoveryError Unit×Plane F :=
  match plane.discovery.upsert ad observedAt with
  | .ok discovery => (.ok (),{plane with discovery := discovery})
  | .error e => (.error e,plane)

/-- Make discovery forget a participant. -/
def removeDiscoveredParticipant (plane : Plane F) (id : Identity) :
    Except DiscoveryError Unit×Plane F :=
  match plane.discovery.remove id with
  | .ok discovery => (.ok (),{plane with discovery := discovery})
  | .error e => (.error e,plane)

/-- Bind an unleased machine to a node and store both. -/
def createVirtualMachine (plane : Plane F) (node : LogicalNode F) (createdAt : SystemTime)
    (uuid : String) : Except ControlError (VirtualMachine F)×Plane F :=
  match VirtualMachine.fromNode node createdAt uuid with
  | .error e => (.error (.virtualMachine e),plane)
  | .ok vm => (.ok vm,{plane with
      logicalNodes := plane.logicalNodes.insert node.id node
      virtualMachines := plane.virtualMachines.insert vm.id.id vm})

/-- Resources of a lease: those of the allocation, for at most the duration. -/
def leasedResources (resources : ResourceFragment F) (duration : Duration) : ResourceFragment F :=
  if resources.lifetime.all (fun l => decide (duration<l)) then
    {resources with lifetime := some duration}
  else resources

/-- The lease for one allocation; `uuid` is the text generated for it. -/
def grantLease (nodeId : Identity) (now expiresAt : SystemTime) (duration : Duration)
    (allocation : Allocation F) (uuid : String) : Except ControlError (Lease F) := do
  let participantId ← (Identity.parse allocation.participantId .participant).mapError
    fun _ => .scheduler .insufficientResources
  (Lease.new (Identity.new uuid .lease) nodeId participantId
    (leasedResources allocation.resources duration) now expiresAt).mapError
    fun _ => .scheduler .insufficientResources

/-- The leases for the allocations, in order. -/
def grantLeases (nodeId : Identity) (now expiresAt : SystemTime) (duration : Duration) :
    List (Allocation F) → (ℕ → String) → Except ControlError (List (Lease F))
  | [],_ => .ok []
  | allocation::rest,uuids => do
    let lease ← grantLease nodeId now expiresAt duration allocation (uuids 0)
    let leases ← grantLeases nodeId now expiresAt duration rest fun n => uuids (n+1)
    .ok (lease::leases)

/-- Check the time and plan a node, with the identity its leases will name. -/
def planNode (scheduler : Scheduler F) (requirement : ResourceFragment F) (now : SystemTime)
    (duration : Duration) : Except ControlError (LogicalNode F×Identity) := do
  rejectIf (now=.unixEpoch) .invalidTime
  rejectIf (duration.isZero=true) .invalidLeaseDuration
  let node ← (scheduler requirement).mapError .scheduler
  let nodeId ← (Identity.parse node.id .logicalNode).mapError
    fun _ => .scheduler .insufficientResources
  .ok (node,nodeId)

/-- Plan a node and make its leases, without storing anything. -/
def planLeases (scheduler : Scheduler F) (requirement : ResourceFragment F) (now : SystemTime)
    (duration : Duration) (uuids : ℕ → String) :
    Outcome ControlError (LogicalNode F×List (Lease F)) := do
  let (node,nodeId) ← planNode scheduler requirement now duration
  let expiresAt ← now.add duration
  let leases ← grantLeases nodeId now expiresAt duration node.resources.allocations uuids
  return (node,leases)

end Operations

/-- Store leases under their identities. -/
def storeLeases (stored : Std.ExtTreeMap String (Lease F)) (leases : List (Lease F)) :
    Std.ExtTreeMap String (Lease F) :=
  leases.foldl (fun m lease => m.insert lease.id.id lease) stored

/-- Remove leases, whether or not they are stored. -/
def removeLeases (stored : Std.ExtTreeMap String (Lease F)) (leases : List (Lease F)) :
    Std.ExtTreeMap String (Lease F) :=
  leases.foldl (fun m lease => m.erase lease.id.id) stored

section Creation

variable [UuidCrate]

/-- Plan a node, make one lease per allocation and store the leases. -/
def createLeasedLogicalNode (plane : Plane F) (scheduler : Scheduler F)
    (requirement : ResourceFragment F) (now : SystemTime) (duration : Duration)
    (uuids : ℕ → String) : Outcome ControlError (LogicalNode F×List (Lease F))×Plane F :=
  match planLeases scheduler requirement now duration uuids with
  | .ok (node,leases) =>
    (.ok (node,leases),{plane with leases := storeLeases plane.leases leases})
  | .err e => (.err e,plane)
  | .panic => (.panic,plane)

/-- The same with a runtime bound to the node, once the leases are stored. -/
def createLeasedLogicalNodeWithRuntime (plane : Plane F) (scheduler : Scheduler F)
    (requirement : ResourceFragment F) (runtime : RuntimeSpec) (now : SystemTime)
    (duration : Duration) (uuids : ℕ → String) :
    Outcome ControlError (LogicalNode F×List (Lease F))×Plane F :=
  match plane.createLeasedLogicalNode scheduler requirement now duration uuids with
  | (.ok (node,leases),plane) =>
    match node.withRuntime runtime with
    | .ok node => (.ok (node,leases),plane)
    | .error e => (.err (.node e),plane)
  | (.err e,plane) => (.err e,plane)
  | (.panic,plane) => (.panic,plane)

/-- Plan, lease and bind a machine; roll the leases back if the machine
cannot be made. The machine's text is generated behind those of the leases. -/
def createLeasedVirtualMachine (plane : Plane F) (scheduler : Scheduler F)
    (requirement : ResourceFragment F) (runtime : RuntimeSpec) (createdAt : SystemTime)
    (duration : Duration) (uuids : ℕ → String) :
    Outcome ControlError (VirtualMachine F×List (Lease F))×Plane F :=
  match plane.createLeasedLogicalNodeWithRuntime scheduler requirement runtime createdAt duration
      uuids with
  | (.ok (node,leases),plane) =>
    match VirtualMachine.fromLeasedNode node leases createdAt (uuids leases.length) with
    | .ok vm => (.ok (vm,leases),{plane with
        logicalNodes := plane.logicalNodes.insert node.id node
        virtualMachines := plane.virtualMachines.insert vm.id.id vm})
    | .error e =>
      (.err (.virtualMachine e),{plane with leases := removeLeases plane.leases leases})
  | (.err e,plane) => (.err e,plane)
  | (.panic,plane) => (.panic,plane)

/-- Look a machine up. -/
def getVirtualMachine (plane : Plane F) (id : Identity) :
    Except ControlError (VirtualMachine F) :=
  if id.kind≠.virtualMachine ∨ id.validate.isOk=false then .error .virtualMachineNotFound
  else match plane.virtualMachines[id.id]? with
    | some vm => .ok vm
    | none => .error .virtualMachineNotFound

end Creation

/-- Change a stored machine in place. -/
def updateVirtualMachine (plane : Plane F) (id : Identity)
    (change : VirtualMachine F → Except VirtualMachineError (VirtualMachine F)) :
    Except ControlError (VirtualMachine F)×Plane F :=
  match plane.virtualMachines[id.id]? with
  | none => (.error .virtualMachineNotFound,plane)
  | some vm =>
    match change vm with
    | .error e => (.error (.virtualMachine e),plane)
    | .ok vm =>
      (.ok vm,{plane with virtualMachines := plane.virtualMachines.insert id.id vm})

/-- Start a stored machine. -/
def startVirtualMachine (plane : Plane F) (id : Identity) :
    Except ControlError (VirtualMachine F)×Plane F :=
  plane.updateVirtualMachine id VirtualMachine.start

/-- Stop a stored machine. -/
def stopVirtualMachine (plane : Plane F) (id : Identity) :
    Except ControlError (VirtualMachine F)×Plane F :=
  plane.updateVirtualMachine id VirtualMachine.stop

section Teardown

variable [UuidCrate]

/-- Release one stored lease. -/
def releaseLease (plane : Plane F) (id : Identity) : Except ControlError (Lease F)×Plane F :=
  if id.kind≠.lease ∨ id.validate.isOk=false then (.error .leaseNotFound,plane)
  else match plane.leases[id.id]? with
    | none => (.error .leaseNotFound,plane)
    | some lease => (.ok lease,{plane with leases := plane.leases.erase id.id})

/-- Release leases one after the other, and stop at the first that is missing. -/
def releaseLeases (plane : Plane F) : List (Lease F) → Except ControlError Unit×Plane F
  | [] => (.ok (),plane)
  | lease::rest =>
    match plane.releaseLease lease.id with
    | (.ok _,plane) => plane.releaseLeases rest
    | (.error e,plane) => (.error e,plane)

/-- Look a lease up. -/
def getLease (plane : Plane F) (id : Identity) : Except ControlError (Lease F) :=
  if id.kind≠.lease ∨ id.validate.isOk=false then .error .leaseNotFound
  else match plane.leases[id.id]? with
    | some lease => .ok lease
    | none => .error .leaseNotFound

/-- Remove a machine, release its leases, and remove the record of its node. -/
def destroyVirtualMachine (plane : Plane F) (id : Identity) :
    Except ControlError (VirtualMachine F)×Plane F :=
  match plane.virtualMachines[id.id]? with
  | none => (.error .virtualMachineNotFound,plane)
  | some vm =>
    let plane := {plane with virtualMachines := plane.virtualMachines.erase id.id}
    let released : Except ControlError Unit×Plane F :=
      if vm.leases.isEmpty then (.ok (),plane) else plane.releaseLeases vm.leases
    match released with
    | (.error e,plane) => (.error e,plane)
    | (.ok _,plane) =>
      (.ok vm,{plane with logicalNodes := plane.logicalNodes.erase vm.nodeId.id})

/-- Execute a workload on a copy of a stored machine, and write the copy
back. A backend that panics unwinds the call before the write. -/
def executeVirtualMachine (plane : Plane F) (id : Identity) (workload : WorkItem)
    (backend : ExecutionBackend F) (now : SystemTime) : Executed F :=
  match plane.virtualMachines[id.id]? with
  | none => ⟨.err .virtualMachineNotFound,plane,none⟩
  | some vm =>
    match plane.logicalNodes[vm.nodeId.id]? with
    | none => ⟨.err .virtualMachineNotFound,plane,none⟩
    | some node =>
      let run := vm.executeAt node workload backend now
      match run.result with
      | .panic => ⟨.panic,plane,run.sent⟩
      | result => ⟨result.mapErr .virtualMachine,
          {plane with virtualMachines := plane.virtualMachines.insert run.vm.id.id run.vm},
          run.sent⟩

end Teardown

end Plane

end OpenHost
