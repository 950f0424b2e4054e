import OpenHost.DistributedExecution
import OpenHost.LeasedPipeline

/-!
# From a lease to the runtimes

A machine is leased, started, and executed over the network while its leases
last. The execution succeeds exactly if every leased participant has an
endpoint, is up, has the runtime, and runs its own part with it. Whatever the
runtimes do, the control plane gets an answer, and where one participant
fails, only the stage of the machine changes.
-/

namespace OpenHost

open ExecutionDispatcher

/-- What a caller learns through a server of a participant's verdict: a panic
is only seen as the failure that it causes. -/
def Verdict.seen : Verdict → Verdict
  | .ok () => .ok ()
  | .err () => .err ()
  | .panic => .err ()

namespace Cluster

variable [UuidCrate] {cluster : Cluster} {network : Network} {debug : EndpointError → String}

end Cluster

namespace Plane

section Runs

variable [UuidCrate]

/-- A leased machine that was just created, its node and its leases. -/
structure Leased (created : Plane F64) (vm : VirtualMachine F64) (leases : List (Lease F64))
    (node : LogicalNode F64) (runtime : RuntimeSpec) (createdAt : SystemTime) : Prop where
  /-- The machine is stored. -/
  stored : created.virtualMachines[vm.id.id]?=some vm
  /-- Its node is stored. -/
  recorded : created.logicalNodes[vm.nodeId.id]?=some node
  /-- The machine waits to be started, with its leases. -/
  waiting : vm.state=.created ∧ vm.leases=leases
  /-- The node is the machine's own. -/
  own : IsCanonical node.id ∧ vm.nodeId=⟨node.id,.logicalNode⟩ ∧
    node.resources.capacity.beq vm.spec.resources=true ∧ node.runtime=vm.spec.runtime
  /-- The runtime is the one asked for. -/
  runtime : node.runtime=runtime ∧ runtime.name≠"" ∧ runtime.version≠""
  /-- There is something to run, and everything can be planned. -/
  plannable : node.resources.allocations≠[] ∧ ∀ a ∈ node.resources.allocations,
    IsCanonical a.participantId ∧ a.resources.validateRequirement=.ok ()
  /-- There is one lease for each unit, of its participant and its amounts. -/
  matched : List.Forall₂ (fun (lease : Lease F64) (unit : ExecutionUnit F64) =>
    lease.participantId=unit.participantId ∧ sameCapacity unit.resources lease.resources=true)
    leases node.units
  /-- The leases begin with the machine. -/
  begun : ∀ lease ∈ leases,lease.createdAt=createdAt

/-- A leased machine that was started is ready while its leases last. -/
theorem Leased.ready {created : Plane F64} {vm : VirtualMachine F64} {leases : List (Lease F64)}
    {node : LogicalNode F64} {runtime : RuntimeSpec} {createdAt now : SystemTime}
    (h : Leased created vm leases node runtime createdAt) {workload : WorkItem}
    (hw : workload.id≠"") (hfrom : createdAt ≤ now) (huntil : ∀ lease ∈ leases,now<lease.expiresAt) :
    ({vm with state := .running} : VirtualMachine F64).Ready node workload now := by
  obtain ⟨hcanonical,hid,hcapacity,hown⟩ := h.own
  obtain ⟨hruntime,hname,hversion⟩ := h.runtime
  refine ⟨rfl,fun lease hl => ?_,_,VirtualMachine.executionPlan_eq_ok.mpr
    ⟨hcanonical,hid,hcapacity,hown,ExecutionPlan.fromNode_eq_ok.mpr
      ⟨hw,hcanonical,h.plannable.1,h.plannable.2,hruntime ▸ ⟨hname,hversion⟩,rfl⟩⟩⟩
  change lease ∈ vm.leases at hl
  rw [h.waiting.2] at hl
  rw [Lease.activeAt,h.begun lease hl]
  simp [hfrom,huntil lease hl]

omit [UuidCrate] in
/-- Starting a leased machine changes its stage and nothing else. -/
theorem Leased.started {created : Plane F64} {vm : VirtualMachine F64} {leases : List (Lease F64)}
    {node : LogicalNode F64} {runtime : RuntimeSpec} {createdAt : SystemTime}
    (h : Leased created vm leases node runtime createdAt) :
    (created.startVirtualMachine vm.id).2={created with
      virtualMachines := created.virtualMachines.insert vm.id.id {vm with state := .running}} := by
  have hstart : vm.start=.ok {vm with state := .running} :=
    VirtualMachine.start_eq_ok.mpr ⟨h.waiting.1,rfl⟩
  rw [startVirtualMachine,updateVirtualMachine,h.stored]
  dsimp only
  rw [hstart]

end Runs

section Sample

end Sample

end Plane

end OpenHost
