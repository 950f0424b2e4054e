import OpenHost.Execution

/-!
# Virtual machines

A virtual machine is bound to a logical node, and to the leases that back
it when there are any. Execution goes through the gates of the program:
the machine runs, every lease is active, the node still matches, the plan
can be made. Only then is the backend called, and the plan it receives is
part of the result.
-/

namespace OpenHost

/-- Stages of a virtual machine. -/
inductive VirtualMachineState where
  | created
  | running
  | stopped
  | failed
  deriving DecidableEq

/-- Resources and runtime of a virtual machine. -/
structure VirtualMachineSpec (F : Type) where
  /-- Aggregate resources. -/
  resources : ResourceFragment F
  /-- Runtime of the machine. -/
  runtime : RuntimeSpec
  deriving DecidableEq

/-- Errors of the virtual machine operations. -/
inductive VirtualMachineError where
  | invalidVirtualMachineIdentity
  | invalidLogicalNodeIdentity
  | invalidResources
  | invalidRuntime (error : NodeError)
  | emptyResources
  | nodeMismatch
  | resourceMismatch
  | runtimeMismatch
  | invalidLease
  | leaseNodeMismatch
  | leaseParticipantMismatch
  | leaseResourceMismatch
  | leaseExpired
  | execution (error : ExecutionError)
  | notRunning
  deriving DecidableEq

/-- A virtual machine. -/
structure VirtualMachine (F : Type) where
  /-- Identity of the machine. -/
  id : Identity
  /-- Node that the machine is bound to. -/
  nodeId : Identity
  /-- Resources and runtime. -/
  spec : VirtualMachineSpec F
  /-- Leases that back the machine; none for an unleased machine. -/
  leases : List (Lease F)
  /-- Current stage. -/
  state : VirtualMachineState
  /-- When the machine was made. -/
  createdAt : SystemTime
  deriving DecidableEq

/-- The checks of a specification. -/
def VirtualMachineSpec.validate {F : Type} [Cores F] (spec : VirtualMachineSpec F) :
    Except VirtualMachineError Unit := do
  spec.resources.validate.mapError fun _ => .invalidResources
  spec.runtime.validate.mapError .invalidRuntime

/-- Equal amounts in the five dimensions, whatever the lifetimes. -/
def sameCapacity {F : Type} [Cores F] (left right : ResourceFragment F) : Bool :=
  Cores.beq left.cpu right.cpu && left.memory==right.memory && left.storage==right.storage &&
    left.network==right.network && left.gpu==right.gpu

/-- What one execution did. -/
structure Execution (F : Type) where
  /-- How the call ended. -/
  result : Outcome VirtualMachineError ExecutionReceipt
  /-- The machine behind the call. -/
  vm : VirtualMachine F
  /-- The plan that the backend received, if it was called. -/
  sent : Option (ExecutionPlan F)

namespace VirtualMachine

variable {F : Type}

section Construction

variable [Cores F] [UuidCrate]

/-- The checks of one lease against the node. -/
def checkLease (node : LogicalNode F) (nodeId : Identity) (createdAt : SystemTime)
    (lease : Lease F) : Except VirtualMachineError Unit := do
  lease.validate.mapError fun _ => .invalidLease
  rejectIf (lease.logicalNodeId≠nodeId) .leaseNodeMismatch
  rejectIf (lease.activeAt createdAt=false) .leaseExpired
  match node.resources.allocations.find? (fun a => a.participantId=lease.participantId.id) with
  | none => .error .leaseParticipantMismatch
  | some allocation =>
    rejectIf (sameCapacity allocation.resources lease.resources=false) .leaseResourceMismatch

/-- The checks of the leases as a whole; no lease at all passes. -/
def checkLeases (node : LogicalNode F) (nodeId : Identity) (createdAt : SystemTime)
    (leases : List (Lease F)) : Except VirtualMachineError Unit :=
  if leases.isEmpty then .ok () else do
    rejectIf (leases.length≠node.resources.allocations.length) .invalidLease
    leases.forM (checkLease node nodeId createdAt)
    rejectIf ((leases.map fun l => l.participantId.id).dedup.length≠leases.length) .invalidLease

/-- Bind a machine to a node; `uuid` is the text generated for the machine. -/
def fromNodeWithLeases (node : LogicalNode F) (leases : List (Lease F)) (createdAt : SystemTime)
    (uuid : String) : Except VirtualMachineError (VirtualMachine F) := do
  rejectIf (createdAt=.unixEpoch) .invalidResources
  let nodeId ← (Identity.parse node.id .logicalNode).mapError fun _ => .invalidLogicalNodeIdentity
  rejectIf (node.resources.capacity.isEmpty=true) .emptyResources
  let spec : VirtualMachineSpec F := ⟨node.resources.capacity,node.runtime⟩
  spec.validate
  checkLeases node nodeId createdAt leases
  .ok ⟨Identity.new uuid .virtualMachine,nodeId,spec,leases,.created,createdAt⟩

/-- A machine without leases. -/
def fromNode (node : LogicalNode F) (createdAt : SystemTime) (uuid : String) :
    Except VirtualMachineError (VirtualMachine F) :=
  fromNodeWithLeases node [] createdAt uuid

/-- A machine with at least one lease. -/
def fromLeasedNode (node : LogicalNode F) (leases : List (Lease F)) (createdAt : SystemTime)
    (uuid : String) : Except VirtualMachineError (VirtualMachine F) := do
  rejectIf (leases.isEmpty=true) .invalidLease
  fromNodeWithLeases node leases createdAt uuid

/-- The plan for a workload, if the node is the machine's own. -/
def executionPlan (vm : VirtualMachine F) (node : LogicalNode F) (workload : WorkItem) :
    Except VirtualMachineError (ExecutionPlan F) := do
  let nodeId ← (Identity.parse node.id .logicalNode).mapError fun _ => .invalidLogicalNodeIdentity
  rejectIf (nodeId≠vm.nodeId) .nodeMismatch
  rejectIf (node.resources.capacity.beq vm.spec.resources=false) .resourceMismatch
  rejectIf (node.runtime≠vm.spec.runtime) .runtimeMismatch
  (ExecutionPlan.fromNode node workload).mapError .execution

/-- Call the backend and fail the machine if the backend returns an error.
A backend that panics leaves the machine as it was. -/
def runBackend (vm : VirtualMachine F) (backend : ExecutionBackend F) (plan : ExecutionPlan F)
    (workload : WorkItem) : Execution F :=
  match backend plan workload with
  | .ok receipt => ⟨.ok receipt,vm,some plan⟩
  | .err error => ⟨.err (.execution error),{vm with state := .failed},some plan⟩
  | .panic => ⟨.panic,vm,some plan⟩

/-- Execute a workload at an instant, through all the gates. -/
def executeAt (vm : VirtualMachine F) (node : LogicalNode F) (workload : WorkItem)
    (backend : ExecutionBackend F) (now : SystemTime) : Execution F :=
  if vm.state≠.running then ⟨.err .notRunning,vm,none⟩
  else if vm.leases.any (fun lease => !lease.activeAt now) then ⟨.err .leaseExpired,vm,none⟩
  else match vm.executionPlan node workload with
    | .error e => ⟨.err e,vm,none⟩
    | .ok plan => vm.runBackend backend plan workload

end Construction

/-- Start a machine that was created. -/
def start (vm : VirtualMachine F) : Except VirtualMachineError (VirtualMachine F) :=
  if vm.state≠.created then .error .invalidVirtualMachineIdentity
  else .ok {vm with state := .running}

/-- Stop a machine that runs. -/
def stop (vm : VirtualMachine F) : Except VirtualMachineError (VirtualMachine F) :=
  if vm.state≠.running then .error .invalidVirtualMachineIdentity
  else .ok {vm with state := .stopped}

/-- Fail a machine in any stage. -/
def fail (vm : VirtualMachine F) : VirtualMachine F := {vm with state := .failed}

/-- Only a created machine starts, and only its stage changes. -/
theorem start_eq_ok {vm started : VirtualMachine F} :
    vm.start=.ok started ↔ vm.state=.created ∧ started={vm with state := .running} := by
  rw [start]
  by_cases h : vm.state=.created
  · simp [h,eq_comm]
  · simp [h]

/-- Only a running machine stops, and only its stage changes. -/
theorem stop_eq_ok {vm stopped : VirtualMachine F} :
    vm.stop=.ok stopped ↔ vm.state=.running ∧ stopped={vm with state := .stopped} := by
  rw [stop]
  by_cases h : vm.state=.running
  · simp [h,eq_comm]
  · simp [h]

section Laws

variable [Cores F]

/-- A specification passes exactly when resources and runtime do. -/
theorem spec_validate_eq_ok {spec : VirtualMachineSpec F} :
    spec.validate=.ok () ↔ spec.resources.validate=.ok () ∧ spec.runtime.validate=.ok () := by
  simp only [VirtualMachineSpec.validate,Checks.check_bind_eq_ok,Checks.mapError_eq_ok]

variable [UuidCrate]

/-- A lease passes exactly when it is valid, names the node, covers the
instant, and has the amounts of its participant's first allocation. -/
theorem checkLease_eq_ok {node : LogicalNode F} {nodeId : Identity} {createdAt : SystemTime}
    {lease : Lease F} : checkLease node nodeId createdAt lease=.ok () ↔
      lease.Valid ∧ lease.logicalNodeId=nodeId ∧ lease.activeAt createdAt=true ∧
        ∃ a,node.resources.allocations.find? (fun a => a.participantId=lease.participantId.id)=
          some a ∧ sameCapacity a.resources lease.resources=true := by
  simp only [checkLease,Checks.check_bind_eq_ok,Checks.mapError_eq_ok,Checks.rejectIf_eq_ok,
    Lease.validate_eq_ok,ne_eq,not_not,Bool.not_eq_false]
  cases node.resources.allocations.find? (fun a => a.participantId=lease.participantId.id) with
  | none => simp
  | some a => simp

/-- Leases pass when there is one per allocation, each passes by itself, and
no two of them are for the same participant. -/
theorem checkLeases_eq_ok {node : LogicalNode F} {nodeId : Identity} {createdAt : SystemTime}
    {leases : List (Lease F)} (hne : leases≠[]) :
    checkLeases node nodeId createdAt leases=.ok () ↔
      leases.length=node.resources.allocations.length ∧
      (∀ l ∈ leases,checkLease node nodeId createdAt l=.ok ()) ∧
      (leases.map fun l => l.participantId.id).Nodup := by
  have hdedup : (leases.map fun l => l.participantId.id).dedup.length=leases.length ↔
      (leases.map fun l => l.participantId.id).Nodup := by
    constructor
    · intro h
      rw [← List.dedup_eq_self]
      exact (List.dedup_sublist _).eq_of_length (by rw [h,List.length_map])
    · intro h
      rw [h.dedup,List.length_map]
  rw [checkLeases,if_neg (by simpa using hne)]
  simp only [Checks.check_bind_eq_ok,Checks.rejectIf_eq_ok,Checks.forM_eq_ok,ne_eq,not_not,hdedup]

/-- When a machine can be bound to a node, and what the machine is then. -/
theorem fromNodeWithLeases_eq_ok {node : LogicalNode F} {leases : List (Lease F)}
    {createdAt : SystemTime} {uuid : String} {vm : VirtualMachine F} :
    fromNodeWithLeases node leases createdAt uuid=.ok vm ↔
      (createdAt≠.unixEpoch ∧ IsCanonical node.id ∧ node.resources.capacity.isEmpty=false ∧
        node.resources.capacity.validate=.ok () ∧ node.runtime.validate=.ok () ∧
        checkLeases node ⟨node.id,.logicalNode⟩ createdAt leases=.ok ()) ∧
      vm=⟨⟨uuid,.virtualMachine⟩,⟨node.id,.logicalNode⟩,⟨node.resources.capacity,node.runtime⟩,
        leases,.created,createdAt⟩ := by
  simp only [fromNodeWithLeases,Checks.bind_eq_ok,Unique.exists_iff,PUnit.default_eq_unit,
    Checks.rejectIf_eq_ok,Checks.mapError_eq_ok,Identity.parse_eq_ok,spec_validate_eq_ok,
    Bool.not_eq_true,Identity.new]
  constructor
  · rintro ⟨ht,i,⟨hc,rfl⟩,he,⟨hv,hr⟩,hl,hvm⟩
    cases hvm
    exact ⟨⟨ht,hc,he,hv,hr,hl⟩,rfl⟩
  · rintro ⟨⟨ht,hc,he,hv,hr,hl⟩,rfl⟩
    exact ⟨ht,_,⟨hc,rfl⟩,he,⟨hv,hr⟩,hl,rfl⟩

/-- A leased machine is only made from a node that passes the checks. -/
theorem fromLeasedNode_eq_ok {node : LogicalNode F} {leases : List (Lease F)}
    {createdAt : SystemTime} {uuid : String} {vm : VirtualMachine F} :
    fromLeasedNode node leases createdAt uuid=.ok vm ↔
      leases≠[] ∧ fromNodeWithLeases node leases createdAt uuid=.ok vm := by
  rw [fromLeasedNode,Checks.check_bind_eq_ok,Checks.rejectIf_eq_ok,
    List.isEmpty_iff]

/-- A plan exists exactly when the node is the machine's own and plans. -/
theorem executionPlan_eq_ok {vm : VirtualMachine F} {node : LogicalNode F} {workload : WorkItem}
    {plan : ExecutionPlan F} : vm.executionPlan node workload=.ok plan ↔
      IsCanonical node.id ∧ vm.nodeId=⟨node.id,.logicalNode⟩ ∧
      node.resources.capacity.beq vm.spec.resources=true ∧ node.runtime=vm.spec.runtime ∧
      ExecutionPlan.fromNode node workload=.ok plan := by
  simp only [executionPlan,Checks.bind_eq_ok,Unique.exists_iff,PUnit.default_eq_unit,
    Checks.rejectIf_eq_ok,Checks.mapError_eq_ok,Identity.parse_eq_ok,ne_eq,not_not,
    Bool.not_eq_false]
  constructor
  · rintro ⟨i,⟨hc,rfl⟩,hn,hr,ht,hp⟩
    exact ⟨hc,hn.symm,hr,ht,hp⟩
  · rintro ⟨hc,hn,hr,ht,hp⟩
    exact ⟨_,⟨hc,rfl⟩,hn.symm,hr,ht,hp⟩

/-- A machine that does not run refuses and stays as it is. -/
theorem executeAt_of_not_running {vm : VirtualMachine F} (h : vm.state≠.running)
    (node : LogicalNode F) (workload : WorkItem) (backend : ExecutionBackend F)
    (now : SystemTime) :
    vm.executeAt node workload backend now=⟨.err .notRunning,vm,none⟩ := by
  rw [executeAt,if_pos h]

/-- An execution leaves the machine alone, or fails a running machine. -/
theorem executeAt_vm (vm : VirtualMachine F) (node : LogicalNode F) (workload : WorkItem)
    (backend : ExecutionBackend F) (now : SystemTime) :
    (vm.executeAt node workload backend now).vm=vm ∨ vm.state=.running ∧
      (vm.executeAt node workload backend now).vm={vm with state := .failed} := by
  rw [executeAt]
  by_cases hs : vm.state=.running
  · rw [if_neg (by simpa using hs)]
    split
    · exact Or.inl rfl
    · cases vm.executionPlan node workload with
      | error e => exact Or.inl rfl
      | ok plan =>
        dsimp only
        rw [runBackend]
        cases backend plan workload with
        | ok receipt => exact Or.inl rfl
        | err error => exact Or.inr ⟨hs,rfl⟩
        | panic => exact Or.inl rfl
  · rw [if_pos hs]
    exact Or.inl rfl

/-- An execution changes nothing but the stage. -/
theorem executeAt_frame (vm : VirtualMachine F) (node : LogicalNode F) (workload : WorkItem)
    (backend : ExecutionBackend F) (now : SystemTime) :
    ∃ state,(vm.executeAt node workload backend now).vm={vm with state := state} := by
  rcases executeAt_vm vm node workload backend now with h|⟨_,h⟩
  · exact ⟨vm.state,h⟩
  · exact ⟨.failed,h⟩

/-- A running machine with active leases and its own node hands the plan to
the backend. -/
theorem executeAt_sent {vm : VirtualMachine F} {node : LogicalNode F} {workload : WorkItem}
    {now : SystemTime} {plan : ExecutionPlan F} (hs : vm.state=.running)
    (hl : ∀ l ∈ vm.leases,l.activeAt now=true) (hp : vm.executionPlan node workload=.ok plan)
    (backend : ExecutionBackend F) :
    vm.executeAt node workload backend now=vm.runBackend backend plan workload ∧
      (vm.executeAt node workload backend now).sent=some plan := by
  have hany : vm.leases.any (fun lease => !lease.activeAt now)=false := by
    rw [List.any_eq_false]
    intro l hm
    simp [hl l hm]
  have he : vm.executeAt node workload backend now=vm.runBackend backend plan workload := by
    rw [executeAt,if_neg (by simpa using hs),hany,hp]
    rfl
  refine ⟨he,?_⟩
  rw [he,runBackend]
  cases backend plan workload <;> rfl

/-- The backend receives a plan exactly through all the gates. -/
theorem executeAt_sent_iff {vm : VirtualMachine F} {node : LogicalNode F} {workload : WorkItem}
    {backend : ExecutionBackend F} {now : SystemTime} {plan : ExecutionPlan F} :
    (vm.executeAt node workload backend now).sent=some plan ↔ vm.state=.running ∧
      (∀ l ∈ vm.leases,l.activeAt now=true) ∧ vm.executionPlan node workload=.ok plan := by
  constructor
  · intro h
    rw [executeAt] at h
    split at h
    · cases h
    · next hs =>
      split at h
      · cases h
      · next hl =>
        have hactive : ∀ l ∈ vm.leases,l.activeAt now=true := by simpa using hl
        cases hp : vm.executionPlan node workload with
        | error e =>
          rw [hp] at h
          cases h
        | ok plan' =>
          rw [hp] at h
          dsimp only at h
          have hsent : (vm.runBackend backend plan' workload).sent=some plan' := by
            rw [runBackend]
            cases backend plan' workload <;> rfl
          rw [hsent,Option.some.injEq] at h
          exact ⟨not_not.mp hs,hactive,by rw [h]⟩
  · rintro ⟨hs,hl,hp⟩
    exact (executeAt_sent hs hl hp backend).2

end Laws

end VirtualMachine

end OpenHost
