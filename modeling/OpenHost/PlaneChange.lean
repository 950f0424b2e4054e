import OpenHost.CreationAtomicity

/-!
# What an operation can do to the plane

`Change` says once what an operation of the control plane can do to the
three maps, and `WellKept` what all of them keep true: everything is stored
under its own name, and no lease belongs to two machines.
-/

namespace OpenHost

/-- The operations that may change a plane, with their arguments. -/
inductive Operation (F : Type) [Cores F] where
  | registerParticipant (participant : Participant F)
  | announceParticipant (ad : Advertisement F) (observedAt : SystemTime)
  | removeDiscoveredParticipant (id : Identity)
  | createVirtualMachine (node : LogicalNode F) (createdAt : SystemTime)
  | createLeasedLogicalNode (scheduler : Scheduler F) (requirement : ResourceFragment F)
    (now : SystemTime) (duration : Duration)
  | createLeasedLogicalNodeWithRuntime (scheduler : Scheduler F)
    (requirement : ResourceFragment F) (runtime : RuntimeSpec) (now : SystemTime)
    (duration : Duration)
  | createLeasedVirtualMachine (scheduler : Scheduler F) (requirement : ResourceFragment F)
    (runtime : RuntimeSpec) (createdAt : SystemTime) (duration : Duration)
  | startVirtualMachine (id : Identity)
  | stopVirtualMachine (id : Identity)
  | executeVirtualMachine (id : Identity) (workload : WorkItem) (backend : ExecutionBackend F)
    (now : SystemTime)
  | destroyVirtualMachine (id : Identity)
  | releaseLease (id : Identity)
  | releaseLeases (leases : List (Lease F))

namespace Operation

variable {F : Type} [Cores F]

/-- Number of allocations that the scheduler answers with. -/
def planned (scheduler : Scheduler F) (requirement : ResourceFragment F) : ℕ :=
  match scheduler requirement with
  | .ok node => node.resources.allocations.length
  | .error _ => 0

/-- Upper bound for the texts that an operation draws from the generator. -/
def draws : Operation F → ℕ
  | createVirtualMachine _ _ => 1
  | createLeasedLogicalNode scheduler requirement _ _ => planned scheduler requirement
  | createLeasedLogicalNodeWithRuntime scheduler requirement _ _ _ =>
    planned scheduler requirement
  | createLeasedVirtualMachine scheduler requirement _ _ _ => planned scheduler requirement+1
  | _ => 0

/-- The node that a creation of a machine would record. -/
def Records : Operation F → LogicalNode F → Prop
  | createVirtualMachine node _,recorded => recorded=node
  | createLeasedVirtualMachine scheduler requirement runtime _ _,recorded =>
    ∃ node,scheduler requirement=.ok node ∧ recorded={node with runtime := runtime}
  | _,_ => False

/-- The names of the leases that a direct release would remove. -/
def Releases : Operation F → String → Prop
  | releaseLease id,k => id.kind=.lease ∧ id.id=k
  | releaseLeases leases,k => ∃ l ∈ leases,l.id.kind=.lease ∧ l.id.id=k
  | _,_ => False

end Operation

namespace Plane

variable {F : Type} [Cores F]

/-- Names that mean something to the plane already. -/
def Known (plane : Plane F) (k : String) : Prop :=
  k ∈ plane.leases ∨ k ∈ plane.virtualMachines ∨ k ∈ plane.logicalNodes ∨
    (∃ (id : String) (lease : Lease F),plane.leases[id]?=some lease ∧ lease.logicalNodeId.id=k) ∨
    ∃ (id : String) (vm : VirtualMachine F),plane.virtualMachines[id]?=some vm ∧
      ∃ lease ∈ vm.leases,lease.id.id=k

/-- What the program keeps true of its maps. -/
structure WellKept (plane : Plane F) : Prop where
  /-- A machine is stored under its own name and names a node. -/
  machine : ∀ (k : String) (vm : VirtualMachine F),plane.virtualMachines[k]?=some vm →
    vm.id.id=k ∧ vm.nodeId.kind=.logicalNode
  /-- A node is stored under its own name. -/
  node : ∀ (k : String) (n : LogicalNode F),plane.logicalNodes[k]?=some n → n.id=k
  /-- The leases of a machine are valid. -/
  valid : ∀ (k : String) (vm : VirtualMachine F),plane.virtualMachines[k]?=some vm →
    ∀ l ∈ vm.leases,l.Valid
  /-- The leases of a machine have distinct names. -/
  distinct : ∀ (k : String) (vm : VirtualMachine F),plane.virtualMachines[k]?=some vm →
    (vm.leases.map fun l => l.id.id).Nodup
  /-- No lease belongs to two machines. -/
  apart : ∀ (k k' : String) (vm vm' : VirtualMachine F),plane.virtualMachines[k]?=some vm →
    plane.virtualMachines[k']?=some vm' → k≠k' → ∀ l ∈ vm.leases,∀ l' ∈ vm'.leases,l.id.id≠l'.id.id

/-- Leases that have just been granted: valid, with new distinct names. -/
structure Granted (plane : Plane F) (leases : List (Lease F)) : Prop where
  /-- The leases have passed their checks. -/
  valid : ∀ l ∈ leases,l.Valid
  /-- The names are distinct. -/
  distinct : (leases.map fun l => l.id.id).Nodup
  /-- The names are new. -/
  fresh : ∀ l ∈ leases,¬plane.Known l.id.id

/-- Take names out of the lease store. -/
def eraseNames (stored : Std.ExtTreeMap String (Lease F)) (names : List String) :
    Std.ExtTreeMap String (Lease F) := names.foldl (fun m k => m.erase k) stored

/-- What an operation can do to the plane. -/
inductive Change (plane : Plane F) (op : Operation F) : Plane F → Prop where
  /-- The three maps stay as they are. -/
  | unchanged {after : Plane F} (same : SameMaps plane after) : Change plane op after
  /-- Leases are stored, whether or not the call succeeds. -/
  | granted {leases : List (Lease F)} (granted : Granted plane leases) :
    Change plane op {plane with leases := storeLeases plane.leases leases}
  /-- A machine is stored with its node and its leases. -/
  | created {node : LogicalNode F} {leases : List (Lease F)} {uuid : String}
    {createdAt : SystemTime} (records : op.Records node) (granted : Granted plane leases)
    (fresh : ¬plane.Known uuid) (valid : node.resources.capacity.validate=.ok ()) :
    Change plane op {plane with
      leases := storeLeases plane.leases leases
      logicalNodes := plane.logicalNodes.insert node.id node
      virtualMachines := plane.virtualMachines.insert uuid
        ⟨⟨uuid,.virtualMachine⟩,⟨node.id,.logicalNode⟩,⟨node.resources.capacity,node.runtime⟩,
          leases,.created,createdAt⟩}
  /-- A stored machine changes its stage. -/
  | staged {k : String} {vm : VirtualMachine F} (stored : plane.virtualMachines[k]?=some vm)
    (state : VirtualMachineState) :
    Change plane op {plane with
      virtualMachines := plane.virtualMachines.insert k {vm with state := state}}
  /-- Leases are released directly. -/
  | released {names : List String} (releases : ∀ k ∈ names,op.Releases k) :
    Change plane op {plane with leases := eraseNames plane.leases names}
  /-- A machine is removed, and its leases and its node with it. -/
  | destroyed {id : Identity} {vm : VirtualMachine F} (isDestroy : op=.destroyVirtualMachine id)
    (stored : plane.virtualMachines[id.id]?=some vm)
    (leased : ∀ l ∈ vm.leases,l.id.id ∈ plane.leases) :
    Change plane op {plane with
      virtualMachines := plane.virtualMachines.erase id.id
      leases := eraseNames plane.leases (vm.leases.map fun l => l.id.id)
      logicalNodes := plane.logicalNodes.erase vm.nodeId.id}
  /-- A machine is removed, and the release of its leases stops early. -/
  | halted {id : Identity} {vm : VirtualMachine F} {names : List String}
    (isDestroy : op=.destroyVirtualMachine id)
    (stored : plane.virtualMachines[id.id]?=some vm)
    (owned : names ⊆ vm.leases.map fun l => l.id.id)
    (missing : ∃ l ∈ vm.leases,l.id.id∉plane.leases) :
    Change plane op {plane with
      virtualMachines := plane.virtualMachines.erase id.id
      leases := eraseNames plane.leases names}

/-- A machine that an operation has just made. -/
structure Born (plane : Plane F) (op : Operation F) (after : Plane F) (k : String)
    (vm : VirtualMachine F) : Prop where
  /-- The machine is stored under its own name. -/
  named : vm.id.id=k
  /-- Its node has just been recorded, and it has the resources and runtime of the node. -/
  recorded : ∃ node,op.Records node ∧ vm.nodeId=⟨node.id,.logicalNode⟩ ∧
    vm.spec=⟨node.resources.capacity,node.runtime⟩ ∧ node.resources.capacity.validate=.ok () ∧
    after.logicalNodes[node.id]?=some node
  /-- Its leases have just been granted. -/
  granted : Granted plane vm.leases
  /-- Its leases have just been stored. -/
  stored : ∀ l ∈ vm.leases,l.id.id ∈ after.leases
  /-- No other machine has changed. -/
  only : ∀ (j : String) (other : VirtualMachine F),j≠k →
    after.virtualMachines[j]?=some other → plane.virtualMachines[j]?=some other

omit [Cores F] in
/-- Lookup after names have been taken out. -/
theorem eraseNames_getElem? (stored : Std.ExtTreeMap String (Lease F)) (names : List String)
    (k : String) : (eraseNames stored names)[k]?=if k ∈ names then none else stored[k]? := by
  rw [eraseNames,OrderedMap.getElem?_foldl_erase (fun k : String => k),List.map_id']

/-- A machine found behind an operation was there before, up to its stage,
or has just been made. -/
theorem Change.machine_after {plane after : Plane F} {op : Operation F}
    (hc : Change plane op after) {k : String} {found : VirtualMachine F}
    (h : after.virtualMachines[k]?=some found) :
    (∃ vm state,plane.virtualMachines[k]?=some vm ∧ found={vm with state := state}) ∨
      Born plane op after k found := by
  have hsame : plane.virtualMachines[k]?=some found →
      ∃ vm state,plane.virtualMachines[k]?=some vm ∧ found={vm with state := state} :=
    fun hs => ⟨found,found.state,hs,rfl⟩
  cases hc with
  | unchanged same =>
    rw [same.virtualMachines] at h
    exact Or.inl (hsame h)
  | granted hg => exact Or.inl (hsame h)
  | released hr => exact Or.inl (hsame h)
  | staged hs state =>
    rcases OrderedMap.getElem?_insert_eq_some.mp h with ⟨rfl,rfl⟩|⟨_,hold⟩
    · exact Or.inl ⟨_,state,hs,rfl⟩
    · exact Or.inl (hsame hold)
  | destroyed hop hs hl => exact Or.inl (hsame (OrderedMap.getElem?_erase_eq_some.mp h).2)
  | halted hop hs hsub hm => exact Or.inl (hsame (OrderedMap.getElem?_erase_eq_some.mp h).2)
  | @created node leases uuid createdAt hrec hg hfresh hv =>
    rcases OrderedMap.getElem?_insert_eq_some.mp h with ⟨rfl,rfl⟩|⟨_,hold⟩
    · refine Or.inr ⟨rfl,⟨node,hrec,rfl,rfl,hv,?_⟩,hg,?_,?_⟩
      · exact OrderedMap.getElem?_insert_eq_some.mpr (Or.inl ⟨rfl,rfl⟩)
      · intro l hl
        exact Std.ExtTreeMap.mem_iff_isSome_getElem?.mpr
          (Option.isSome_iff_exists.mpr ⟨l,storeLeases_of_mem hg.distinct hl⟩)
      · intro j vm hj hs
        rcases OrderedMap.getElem?_insert_eq_some.mp hs with ⟨he,_⟩|⟨_,hold⟩
        · exact (hj he.symm).elim
        · exact hold
    · exact Or.inl (hsame hold)

/-- A node found behind an operation was there before or has just been recorded. -/
theorem Change.node_after {plane after : Plane F} {op : Operation F} (hc : Change plane op after)
    {k : String} {found : LogicalNode F} (h : after.logicalNodes[k]?=some found) :
    plane.logicalNodes[k]?=some found ∨ op.Records found ∧ found.id=k := by
  cases hc with
  | unchanged same =>
    rw [same.logicalNodes] at h
    exact Or.inl h
  | granted hg => exact Or.inl h
  | released hr => exact Or.inl h
  | staged hs state => exact Or.inl h
  | destroyed hop hs hl => exact Or.inl (OrderedMap.getElem?_erase_eq_some.mp h).2
  | halted hop hs hsub hm => exact Or.inl h
  | created hrec hg hfresh hv =>
    rcases OrderedMap.getElem?_insert_eq_some.mp h with ⟨hk,rfl⟩|⟨_,hold⟩
    · exact Or.inr ⟨hrec,hk⟩
    · exact Or.inl hold

/-- The lease names of a machine made now differ from those of any machine
stored before. -/
theorem Born.apart {plane after : Plane F} {op : Operation F} {k j : String}
    {born vm : VirtualMachine F} (hb : Born plane op after k born)
    (hs : plane.virtualMachines[j]?=some vm) :
    ∀ l ∈ born.leases,∀ l' ∈ vm.leases,l.id.id≠l'.id.id := by
  intro l hl l' hl' he
  exact hb.granted.fresh l hl (Or.inr (Or.inr (Or.inr (Or.inr ⟨j,vm,hs,l',hl',he.symm⟩))))

/-- An operation keeps the maps in order. -/
theorem WellKept.keep {plane after : Plane F} {op : Operation F} (hk : WellKept plane)
    (hc : Change plane op after) : WellKept after := by
  refine ⟨?_,?_,?_,?_,?_⟩
  · intro k found h
    rcases hc.machine_after h with ⟨vm,state,hs,rfl⟩|hb
    · exact hk.machine k vm hs
    · obtain ⟨node,_,hn,_⟩ := hb.recorded
      exact ⟨hb.named,by rw [hn]⟩
  · intro k found h
    rcases hc.node_after h with hs|⟨_,hn⟩
    · exact hk.node k found hs
    · exact hn
  · intro k found h
    rcases hc.machine_after h with ⟨vm,state,hs,rfl⟩|hb
    · exact hk.valid k vm hs
    · exact hb.granted.valid
  · intro k found h
    rcases hc.machine_after h with ⟨vm,state,hs,rfl⟩|hb
    · exact hk.distinct k vm hs
    · exact hb.granted.distinct
  · intro k j found other h ho hne
    rcases hc.machine_after h with ⟨vm,state,hs,rfl⟩|hb
    · rcases hc.machine_after ho with ⟨vm',state',hs',rfl⟩|hb'
      · exact hk.apart k j vm vm' hs hs' hne
      · intro l hl l' hl' he
        exact hb'.apart hs l' hl' l hl he.symm
    · have hold := hb.only j other (Ne.symm hne) ho
      exact hb.apart hold

/-- A new plane is in order. -/
theorem new_wellKept (registry : Registry F) (discovery : MemoryRegistry F) :
    WellKept (Plane.new registry discovery) :=
  ⟨by simp [Plane.new],by simp [Plane.new],by simp [Plane.new],by simp [Plane.new],
    by simp [Plane.new]⟩

end Plane

end OpenHost
