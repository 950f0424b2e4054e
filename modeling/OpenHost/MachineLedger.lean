import OpenHost.Clients
import OpenHost.Ledger
import OpenHost.ReferentialIntegrity

/-!
# The books of concurrent clients

Every stored lease and every recorded node has one owner: a stored machine,
or a client between two sections of a creation or a teardown. Names that have
been drawn are taken from then on. A section moves leases, nodes and names
between the maps, the machines and its client, and the books balance behind
it, as long as no teardown removes a machine of which an execution holds a
copy.
-/

namespace OpenHost

open Ledger

variable {F : Type}

/-- Leases, each under its name. -/
def filed (leases : List (Lease F)) : Multiset (String×Lease F) :=
  (leases.map fun l => (l.id.id,l) : List (String×Lease F))

/-- One lease is filed on top of the others. -/
theorem filed_cons (l : Lease F) (rest : List (Lease F)) :
    filed (l::rest)=(l.id.id,l)::ₘfiled rest := rfl

/-- What is filed are the leases, each under its name. -/
theorem mem_filed {leases : List (Lease F)} {k : String} {l : Lease F} :
    (k,l) ∈ filed leases ↔ l ∈ leases ∧ l.id.id=k := by
  rw [filed,Multiset.mem_coe,List.mem_map]
  constructor
  · rintro ⟨found,hm,he⟩
    cases he
    exact ⟨hm,rfl⟩
  · rintro ⟨hm,rfl⟩
    exact ⟨l,hm,rfl⟩

/-- The leases that a stored machine owns. -/
def ownLeases (entry : String×VirtualMachine F) : Multiset (String×Lease F) :=
  filed entry.2.leases

/-- The node that a stored machine owns, by name, resources and runtime. -/
def ownNode (entry : String×VirtualMachine F) : Multiset (String×VirtualMachineSpec F) :=
  {(entry.2.nodeId.id,entry.2.spec)}

/-- Name, resources and runtime of a recorded node. -/
def profile (entry : String×LogicalNode F) : String×VirtualMachineSpec F :=
  (entry.1,⟨entry.2.resources.capacity,entry.2.runtime⟩)

/-- The machine names a node and has valid resources. -/
def VirtualMachine.Housed [Cores F] (vm : VirtualMachine F) : Prop :=
  vm.nodeId.kind=.logicalNode ∧ vm.spec.resources.validate=.ok ()

/-- The machine is stored, in whatever stage. -/
def Plane.Stores [Cores F] (plane : Plane F) (vm : VirtualMachine F) : Prop :=
  ∃ current,plane.virtualMachines[vm.id.id]?=some current ∧
    ∃ state,vm={current with state := state}

namespace Client

/-- The stored leases that the client owns. -/
def leases : Client F → Multiset (String×Lease F)
  | rollingBack leases _ => filed leases
  | bound _ vm => filed vm.leases
  | recorded vm => filed vm.leases
  | uses (.releasing _ _ rest) => filed rest
  | _ => 0

/-- The recorded node that the client owns. -/
def nodes : Client F → Multiset (String×VirtualMachineSpec F)
  | recorded vm => {(vm.nodeId.id,vm.spec)}
  | uses (.releasing _ vm _) => {(vm.nodeId.id,vm.spec)}
  | _ => 0

/-- Names of leases that are not stored yet. -/
def leaseNames : Client F → Multiset String
  | planned _ leases _ _ _ => (leases.map fun l => l.id.id : List String)
  | _ => 0

/-- The name of a node that is not recorded yet. -/
def nodeNames : Client F → Multiset String
  | planned node _ _ _ _ => {node.id}
  | bound node _ => {node.id}
  | _ => 0

/-- The name of a machine that is not stored yet. -/
def machineNames : Client F → Multiset String
  | planned _ _ _ _ uuid => {uuid}
  | bound _ vm => {vm.id.id}
  | recorded vm => {vm.id.id}
  | _ => 0

/-- The copy of a machine that an execution holds. -/
def copy : Client F → Option (VirtualMachine F)
  | uses (.cloned _ _ _ vm) => some vm
  | uses (.ready _ _ _ vm _) => some vm
  | uses (.ran _ run) => some run.vm
  | _ => none

/-- The next section removes the machine of that name. -/
def Removes (client : Client F) (k : String) : Prop := ∃ id,client=.uses (.destroy id) ∧ id.id=k

/-- The client has ended. -/
def ended : Client F → Bool
  | uses (.finished _ _) => true
  | created _ => true
  | _ => false

variable [Cores F]

/-- What a client has established about its local variables. -/
def Sound : Client F → Prop
  | planned _ leases runtime _ _ => runtime.validate=.ok () ∧ ∀ l ∈ leases,l.Valid
  | bound node vm => vm.nodeId=⟨node.id,.logicalNode⟩ ∧
    vm.spec=⟨node.resources.capacity,node.runtime⟩ ∧ vm.Housed
  | recorded vm => vm.Housed
  | _ => True

end Client

namespace Service

variable [Cores F]

/-- The books are in order. -/
structure Balanced (s : Service F) : Prop where
  /-- Every stored lease has one owner. -/
  leases : entries s.plane.leases=
    tally ownLeases s.plane.virtualMachines+(s.clients.map Client.leases).sum
  /-- Every recorded node has one owner, with the resources and runtime of the node. -/
  nodes : (entries s.plane.logicalNodes).map profile=
    tally ownNode s.plane.virtualMachines+(s.clients.map Client.nodes).sum
  /-- No lease name is drawn twice. -/
  leaseNames : (keys s.plane.leases+(s.clients.map Client.leaseNames).sum).Nodup
  /-- No node name is drawn twice. -/
  nodeNames : (keys s.plane.logicalNodes+(s.clients.map Client.nodeNames).sum).Nodup
  /-- No machine name is drawn twice. -/
  machineNames : (keys s.plane.virtualMachines+(s.clients.map Client.machineNames).sum).Nodup
  /-- Machines are stored under their names. -/
  machine : ∀ (k : String) (vm : VirtualMachine F),s.plane.virtualMachines[k]?=some vm →
    vm.id.id=k ∧ vm.Housed
  /-- Nodes are recorded under their names. -/
  node : ∀ (k : String) (n : LogicalNode F),s.plane.logicalNodes[k]?=some n → n.id=k
  /-- Stored leases are valid. -/
  valid : ∀ (k : String) (l : Lease F),s.plane.leases[k]?=some l → l.Valid
  /-- Clients are sound. -/
  sound : ∀ client ∈ s.clients,client.Sound
  /-- Copies are copies of stored machines. -/
  copies : ∀ client ∈ s.clients,∀ vm,client.copy=some vm → s.plane.Stores vm

/-- What one section does to the books. -/
structure Posting (plane : Plane F) (client : Client F) (after : Plane F) (next : Client F) :
    Prop where
  /-- Leases move between the map, the machines and the client. -/
  leases : entries after.leases+tally ownLeases plane.virtualMachines+client.leases=
    entries plane.leases+tally ownLeases after.virtualMachines+next.leases
  /-- So do nodes. -/
  nodes : (entries after.logicalNodes).map profile+tally ownNode plane.virtualMachines+
      client.nodes=
    (entries plane.logicalNodes).map profile+tally ownNode after.virtualMachines+next.nodes
  /-- No lease name comes up. -/
  leaseNames : keys after.leases+next.leaseNames ≤ keys plane.leases+client.leaseNames
  /-- No node name comes up. -/
  nodeNames : keys after.logicalNodes+next.nodeNames ≤ keys plane.logicalNodes+client.nodeNames
  /-- No machine name comes up. -/
  machineNames : keys after.virtualMachines+next.machineNames ≤
    keys plane.virtualMachines+client.machineNames
  /-- Machines are stored under their names. -/
  machine : ∀ (k : String) (vm : VirtualMachine F),after.virtualMachines[k]?=some vm →
    vm.id.id=k ∧ vm.Housed
  /-- Nodes are recorded under their names. -/
  node : ∀ (k : String) (n : LogicalNode F),after.logicalNodes[k]?=some n → n.id=k
  /-- Stored leases are valid. -/
  valid : ∀ (k : String) (l : Lease F),after.leases[k]?=some l → l.Valid
  /-- The client stays sound. -/
  sound : next.Sound
  /-- A copy that the client holds is one of a stored machine. -/
  copies : ∀ vm,next.copy=some vm → after.Stores vm
  /-- A machine stays stored unless the section removes it. -/
  others : ∀ vm,plane.Stores vm → ¬client.Removes vm.id.id → after.Stores vm

/-- The client owns nothing, announces nothing and holds no copy. -/
structure Idle (client : Client F) : Prop where
  /-- No leases. -/
  leases : client.leases=0
  /-- No node. -/
  nodes : client.nodes=0
  /-- No lease names. -/
  leaseNames : client.leaseNames=0
  /-- No node name. -/
  nodeNames : client.nodeNames=0
  /-- No machine name. -/
  machineNames : client.machineNames=0
  /-- Nothing to be shown. -/
  sound : client.Sound
  /-- No copy. -/
  copy : client.copy=none

/-- A call that has ended is idle. -/
theorem idle_finished (id : Identity) (answer : Answer F) :
    Idle (Client.uses (.finished id answer)) := ⟨rfl,rfl,rfl,rfl,rfl,trivial,rfl⟩

/-- A creation that has ended is idle. -/
theorem idle_created (result : Outcome ControlError (VirtualMachine F)) :
    Idle (Client.created result) := ⟨rfl,rfl,rfl,rfl,rfl,trivial,rfl⟩

section Sections

variable {s : Service F} {client next : Client F}

/-- A section that changes nothing but local variables. -/
theorem Balanced.posting_same (h : Balanced s) (hl : next.leases=client.leases)
    (hn : next.nodes=client.nodes) (hln : next.leaseNames ≤ client.leaseNames)
    (hnn : next.nodeNames ≤ client.nodeNames) (hmn : next.machineNames ≤ client.machineNames)
    (hsound : next.Sound) (hcopy : ∀ vm,next.copy=some vm → s.plane.Stores vm) :
    Posting s.plane client s.plane next where
  leases := by rw [hl]
  nodes := by rw [hn]
  leaseNames := by gcongr
  nodeNames := by gcongr
  machineNames := by gcongr
  machine := h.machine
  node := h.node
  valid := h.valid
  sound := hsound
  copies := hcopy
  others := fun vm hs _ => hs

/-- A section that leaves the plane alone and ends or begins an idle client. -/
theorem Balanced.posting_idle (h : Balanced s) (hc : client.leases=0 ∧ client.nodes=0)
    (hi : Idle next) : Posting s.plane client s.plane next := by
  refine h.posting_same (hi.leases.trans hc.1.symm) (hi.nodes.trans hc.2.symm) ?_ ?_ ?_ hi.sound ?_
  · rw [hi.leaseNames]
    exact Multiset.zero_le _
  · rw [hi.nodeNames]
    exact Multiset.zero_le _
  · rw [hi.machineNames]
    exact Multiset.zero_le _
  · intro vm hv
    rw [hi.copy] at hv
    cases hv

/-- A stored machine in another stage is the same machine for the books. -/
theorem Balanced.posting_staged (h : Balanced s) {k : String} {vm : VirtualMachine F}
    (hs : s.plane.virtualMachines[k]?=some vm) (state : VirtualMachineState)
    (hc : client.leases=0 ∧ client.nodes=0) (hi : Idle next) :
    Posting s.plane client {s.plane with
      virtualMachines := s.plane.virtualMachines.insert k {vm with state := state}} next where
  leases := by
    dsimp only
    rw [tally_replace ownLeases (w:={vm with state := state}) hs rfl,hc.1,hi.leases]
  nodes := by
    dsimp only
    rw [tally_replace ownNode (w:={vm with state := state}) hs rfl,hc.2,hi.nodes]
  leaseNames := by
    rw [hi.leaseNames,add_zero]
    exact Multiset.le_add_right _ _
  nodeNames := by
    rw [hi.nodeNames,add_zero]
    exact Multiset.le_add_right _ _
  machineNames := by
    dsimp only
    rw [keys_replace hs,hi.machineNames,add_zero]
    exact Multiset.le_add_right _ _
  machine := by
    intro j found hj
    rcases OrderedMap.getElem?_insert_eq_some.mp hj with ⟨rfl,rfl⟩|⟨_,hold⟩
    · exact h.machine _ vm hs
    · exact h.machine j found hold
  node := h.node
  valid := h.valid
  sound := hi.sound
  copies := by
    intro found hf
    rw [hi.copy] at hf
    cases hf
  others := by
    rintro found ⟨current,hcur,stage,rfl⟩ _
    by_cases hk : k=current.id.id
    · have hsame : current=vm := by
        rw [← hk,hs,Option.some.injEq] at hcur
        exact hcur.symm
      subst hsame
      exact ⟨{current with state := state},
        OrderedMap.getElem?_insert_eq_some.mpr (.inl ⟨hk,rfl⟩),stage,rfl⟩
    · exact ⟨current,OrderedMap.getElem?_insert_eq_some.mpr (.inr ⟨hk,hcur⟩),stage,rfl⟩

/-- A change of a stored machine is one of its stage, or none. -/
theorem Balanced.posting_update (h : Balanced s) {id : Identity}
    {change : VirtualMachine F → Except VirtualMachineError (VirtualMachine F)}
    (hchange : ∀ vm changed,change vm=.ok changed → ∃ state,changed={vm with state := state})
    (hc : client.leases=0 ∧ client.nodes=0) (hi : Idle next) :
    Posting s.plane client (s.plane.updateVirtualMachine id change).2 next := by
  rw [Plane.updateVirtualMachine]
  cases hs : s.plane.virtualMachines[id.id]? with
  | none => exact h.posting_idle hc hi
  | some vm =>
    dsimp only
    cases hv : change vm with
    | error e => exact h.posting_idle hc hi
    | ok changed =>
      obtain ⟨state,rfl⟩ := hchange vm changed hv
      exact h.posting_staged hs state hc hi

/-- What a client owns is stored. -/
theorem Balanced.lease_of_client (h : Balanced s) (hm : client ∈ s.clients) {k : String}
    {l : Lease F} (hl : (k,l) ∈ client.leases) : s.plane.leases[k]?=some l := by
  rw [← mem_entries,h.leases]
  exact Multiset.mem_add.mpr (.inr (Multiset.mem_of_le (part_le_sum Client.leases hm) hl))

/-- A node that a client owns is recorded. -/
theorem Balanced.node_of_client (h : Balanced s) (hm : client ∈ s.clients) {k : String}
    {spec : VirtualMachineSpec F} (hn : (k,spec) ∈ client.nodes) :
    ∃ node,s.plane.logicalNodes[k]?=some node ∧ profile (k,node)=(k,spec) := by
  have hp : (k,spec) ∈ (entries s.plane.logicalNodes).map profile := by
    rw [h.nodes]
    exact Multiset.mem_add.mpr (.inr (Multiset.mem_of_le (part_le_sum Client.nodes hm) hn))
  obtain ⟨⟨j,node⟩,he,hj⟩ := Multiset.mem_map.mp hp
  obtain rfl : j=k := congrArg Prod.fst hj
  exact ⟨node,mem_entries.mp he,hj⟩

/-- A teardown takes over what its machine owns. -/
theorem Balanced.posting_destroy (h : Balanced s) {id : Identity} {vm : VirtualMachine F}
    (hs : s.plane.virtualMachines[id.id]?=some vm) :
    Posting s.plane (.uses (.destroy id))
      {s.plane with virtualMachines := s.plane.virtualMachines.erase id.id}
      (.uses (.releasing id vm vm.leases)) where
  leases := by
    dsimp only [Client.leases]
    rw [tally_erase ownLeases hs,ownLeases]
    abel
  nodes := by
    dsimp only [Client.nodes]
    rw [tally_erase ownNode hs,ownNode]
    abel
  leaseNames := le_rfl
  nodeNames := le_rfl
  machineNames := add_le_add (keys_erase_le _ _) le_rfl
  machine := fun k found hf => h.machine k found (OrderedMap.getElem?_erase_eq_some.mp hf).2
  node := h.node
  valid := h.valid
  sound := trivial
  copies := by
    intro found hf
    cases hf
  others := by
    rintro found ⟨current,hcur,stage,rfl⟩ hn
    have hne : id.id≠current.id.id := fun he => hn ⟨id,rfl,he⟩
    exact ⟨current,OrderedMap.getElem?_erase_eq_some.mpr ⟨hne,hcur⟩,stage,rfl⟩

/-- A teardown finds the lease that it has to release next. -/
theorem Balanced.releaseLease_eq (h : Balanced s) {id : Identity} {vm : VirtualMachine F}
    {lease : Lease F} {rest : List (Lease F)} [UuidCrate]
    (hm : Client.uses (.releasing id vm (lease::rest)) ∈ s.clients) :
    s.plane.leases[lease.id.id]?=some lease ∧ s.plane.releaseLease lease.id=
      (.ok lease,{s.plane with leases := s.plane.leases.erase lease.id.id}) := by
  have hs : s.plane.leases[lease.id.id]?=some lease :=
    h.lease_of_client hm (mem_filed.mpr ⟨List.mem_cons_self,rfl⟩)
  exact ⟨hs,Plane.releaseLease_eq_ok.mpr ⟨(h.valid _ _ hs).id,hs,rfl⟩⟩

/-- A teardown releases a lease. -/
theorem Balanced.posting_release (h : Balanced s) {id : Identity} {vm : VirtualMachine F}
    {lease : Lease F} {rest : List (Lease F)}
    (hs : s.plane.leases[lease.id.id]?=some lease) :
    Posting s.plane (.uses (.releasing id vm (lease::rest)))
      {s.plane with leases := s.plane.leases.erase lease.id.id}
      (.uses (.releasing id vm rest)) where
  leases := by
    dsimp only [Client.leases]
    rw [entries_erase hs,filed_cons,← Multiset.singleton_add,← Multiset.singleton_add]
    abel
  nodes := rfl
  leaseNames := add_le_add (keys_erase_le _ _) le_rfl
  nodeNames := le_rfl
  machineNames := le_rfl
  machine := h.machine
  node := h.node
  valid := fun k l hl => h.valid k l (OrderedMap.getElem?_erase_eq_some.mp hl).2
  sound := trivial
  copies := by
    intro found hf
    cases hf
  others := fun vm hv _ => hv

/-- A teardown removes its node at last. -/
theorem Balanced.posting_clear (h : Balanced s) {id : Identity} {vm : VirtualMachine F}
    (hm : Client.uses (.releasing id vm []) ∈ s.clients) (answer : Answer F) :
    Posting s.plane (.uses (.releasing id vm []))
      {s.plane with logicalNodes := s.plane.logicalNodes.erase vm.nodeId.id}
      (.uses (.finished id answer)) where
  leases := rfl
  nodes := by
    obtain ⟨node,hnode,hp⟩ := h.node_of_client hm (Multiset.mem_singleton_self _)
    dsimp only [Client.nodes]
    rw [entries_erase hnode,Multiset.map_cons,hp,← Multiset.singleton_add]
    abel
  leaseNames := le_rfl
  nodeNames := add_le_add (keys_erase_le _ _) le_rfl
  machineNames := le_rfl
  machine := h.machine
  node := fun k n hn => h.node k n (OrderedMap.getElem?_erase_eq_some.mp hn).2
  valid := h.valid
  sound := trivial
  copies := by
    intro found hf
    cases hf
  others := fun vm hv _ => hv

/-- The drawn names of leases are new and distinct. -/
theorem Balanced.drawn (h : Balanced s) {node : LogicalNode F} {leases : List (Lease F)}
    {runtime : RuntimeSpec} {createdAt : SystemTime} {uuid : String}
    (hm : Client.planned node leases runtime createdAt uuid ∈ s.clients) :
    (leases.map fun l => l.id.id).Nodup ∧ ∀ l ∈ leases,s.plane.leases[l.id.id]?=none := by
  have hle : (leases.map fun l => l.id.id : Multiset String) ≤
      (s.clients.map Client.leaseNames).sum := part_le_sum Client.leaseNames hm
  obtain ⟨_,hsum,hdisjoint⟩ := Multiset.nodup_add.mp h.leaseNames
  refine ⟨Multiset.coe_nodup.mp (Multiset.nodup_of_le hle hsum),fun l hl => ?_⟩
  refine getElem?_of_not_mem_keys fun hk => ?_
  have hname : l.id.id ∈ (leases.map fun l => l.id.id : Multiset String) :=
    Multiset.mem_coe.mpr (List.mem_map_of_mem hl)
  exact Multiset.disjoint_left.mp hdisjoint hk (Multiset.mem_of_le hle hname)

/-- The leases of a planned node are stored under their names. -/
theorem Balanced.entries_storeLeases (h : Balanced s) {node : LogicalNode F}
    {leases : List (Lease F)} {runtime : RuntimeSpec} {createdAt : SystemTime} {uuid : String}
    (hm : Client.planned node leases runtime createdAt uuid ∈ s.clients) :
    entries (Plane.storeLeases s.plane.leases leases)=filed leases+entries s.plane.leases :=
  entries_foldl_insert (fun l : Lease F => l.id.id) (h.drawn hm).1 (h.drawn hm).2

/-- Storing leases hands them over to a client that keeps the names of the
node and the machine. -/
theorem Balanced.posting_store (h : Balanced s) {node : LogicalNode F} {leases : List (Lease F)}
    {runtime : RuntimeSpec} {createdAt : SystemTime} {uuid : String}
    (hm : Client.planned node leases runtime createdAt uuid ∈ s.clients)
    (hl : next.leases=filed leases) (hn : next.nodes=0) (hln : next.leaseNames=0)
    (hnn : next.nodeNames ≤ {node.id}) (hmn : next.machineNames ≤ {uuid}) (hsound : next.Sound)
    (hcopy : next.copy=none) :
    Posting s.plane (.planned node leases runtime createdAt uuid)
      {s.plane with leases := Plane.storeLeases s.plane.leases leases} next where
  leases := by
    rw [hl]
    dsimp only [Client.leases]
    rw [h.entries_storeLeases hm]
    abel
  nodes := by
    rw [hn]
    rfl
  leaseNames := by
    rw [hln,add_zero]
    dsimp only [Client.leaseNames]
    rw [keys,h.entries_storeLeases hm,Multiset.map_add,add_comm,keys,filed,Multiset.map_coe,
      List.map_map]
    exact le_rfl
  nodeNames := add_le_add le_rfl hnn
  machineNames := add_le_add le_rfl hmn
  machine := h.machine
  node := h.node
  valid := by
    intro k l hk
    rw [← mem_entries,h.entries_storeLeases hm,Multiset.mem_add,mem_filed,mem_entries] at hk
    rcases hk with ⟨hl,_⟩|hk
    · exact (h.sound _ hm).2 l hl
    · exact h.valid k l hk
  sound := hsound
  copies := by
    intro found hf
    rw [hcopy] at hf
    cases hf
  others := fun vm hv _ => hv

/-- A rollback takes its leases back. -/
theorem Balanced.posting_rollBack (h : Balanced s) {leases : List (Lease F)}
    {error : VirtualMachineError} (hm : Client.rollingBack leases error ∈ s.clients)
    (hi : Idle next) : Posting s.plane (.rollingBack leases error)
      {s.plane with leases := Plane.removeLeases s.plane.leases leases} next := by
  have hle : filed leases ≤ entries s.plane.leases := by
    rw [h.leases]
    exact (part_le_sum Client.leases hm).trans (Multiset.le_add_left _ _)
  obtain ⟨rest,hrest⟩ := Multiset.le_iff_exists_add.mp hle
  have hafter : entries (Plane.removeLeases s.plane.leases leases)=rest :=
    entries_foldl_erase (fun l : Lease F => l.id.id) hrest
  refine ⟨?_,?_,?_,?_,?_,h.machine,h.node,?_,hi.sound,?_,fun vm hv _ => hv⟩
  · rw [hi.leases]
    dsimp only [Client.leases]
    rw [hafter,hrest]
    abel
  · rw [hi.nodes]
    rfl
  · rw [hi.leaseNames]
    dsimp only [Client.leaseNames]
    rw [keys,hafter,keys,hrest]
    exact add_le_add (Multiset.map_le_map (Multiset.le_add_left _ _)) le_rfl
  · rw [hi.nodeNames]
    exact le_rfl
  · rw [hi.machineNames]
    exact le_rfl
  · intro k l hk
    rw [← mem_entries,hafter] at hk
    refine h.valid k l (mem_entries.mp ?_)
    rw [hrest]
    exact Multiset.mem_add.mpr (.inr hk)
  · intro found hf
    rw [hi.copy] at hf
    cases hf

/-- Recording a node under its new name hands it over to its client. -/
theorem Balanced.posting_record (h : Balanced s) {node : LogicalNode F} {vm : VirtualMachine F}
    (hm : Client.bound node vm ∈ s.clients) : Posting s.plane (.bound node vm)
      {s.plane with logicalNodes := s.plane.logicalNodes.insert node.id node} (.recorded vm) := by
  obtain ⟨hid,hspec,hhoused⟩ := h.sound _ hm
  obtain ⟨_,_,hdisjoint⟩ := Multiset.nodup_add.mp h.nodeNames
  have hnew : s.plane.logicalNodes[node.id]?=none := getElem?_of_not_mem_keys fun hk =>
    Multiset.disjoint_left.mp hdisjoint hk
      (Multiset.mem_of_le (part_le_sum Client.nodeNames hm) (Multiset.mem_singleton_self _))
  refine ⟨rfl,?_,le_rfl,?_,le_rfl,h.machine,?_,h.valid,hhoused,?_,fun vm hv _ => hv⟩
  · dsimp only [Client.nodes]
    rw [entries_insert_new hnew,Multiset.map_cons,hid,hspec,profile,← Multiset.singleton_add]
    abel
  · dsimp only [Client.nodeNames]
    rw [keys,entries_insert_new hnew,Multiset.map_cons,add_zero,← Multiset.singleton_add,add_comm]
    exact le_rfl
  · intro k n hk
    rcases OrderedMap.getElem?_insert_eq_some.mp hk with ⟨rfl,rfl⟩|⟨_,hold⟩
    · rfl
    · exact h.node k n hold
  · intro found hf
    cases hf

/-- Storing a machine under its new name hands everything over to it. -/
theorem Balanced.posting_publish (h : Balanced s) {vm : VirtualMachine F}
    (hm : Client.recorded vm ∈ s.clients) (hi : Idle next) : Posting s.plane (.recorded vm)
      {s.plane with virtualMachines := s.plane.virtualMachines.insert vm.id.id vm} next := by
  obtain ⟨_,_,hdisjoint⟩ := Multiset.nodup_add.mp h.machineNames
  have hnew : s.plane.virtualMachines[vm.id.id]?=none := getElem?_of_not_mem_keys fun hk =>
    Multiset.disjoint_left.mp hdisjoint hk
      (Multiset.mem_of_le (part_le_sum Client.machineNames hm) (Multiset.mem_singleton_self _))
  refine ⟨?_,?_,?_,?_,?_,?_,h.node,h.valid,hi.sound,?_,?_⟩
  · rw [hi.leases]
    dsimp only [Client.leases]
    rw [tally_insert_new ownLeases hnew,ownLeases]
    abel
  · rw [hi.nodes]
    dsimp only [Client.nodes]
    rw [tally_insert_new ownNode hnew,ownNode]
    abel
  · rw [hi.leaseNames]
    exact le_rfl
  · rw [hi.nodeNames]
    exact le_rfl
  · rw [hi.machineNames,add_zero]
    dsimp only [Client.machineNames]
    rw [keys,entries_insert_new hnew,Multiset.map_cons,← Multiset.singleton_add,add_comm]
    exact le_rfl
  · intro k found hk
    rcases OrderedMap.getElem?_insert_eq_some.mp hk with ⟨rfl,rfl⟩|⟨_,hold⟩
    · exact ⟨rfl,h.sound _ hm⟩
    · exact h.machine k found hold
  · intro found hf
    rw [hi.copy] at hf
    cases hf
  · rintro found ⟨current,hcur,stage,rfl⟩ _
    refine ⟨current,OrderedMap.getElem?_insert_eq_some.mpr (.inr ⟨?_,hcur⟩),stage,rfl⟩
    intro he
    rw [he] at hnew
    exact absurd (hnew.symm.trans hcur) (by simp)

end Sections

/-- A client that owns nothing yet and whose names are new keeps the books in
order when it begins. -/
theorem Balanced.join {s : Service F} (h : Balanced s) {client : Client F}
    (hl : client.leases=0) (hn : client.nodes=0)
    (hln : (keys s.plane.leases+((s.clients.map Client.leaseNames).sum+client.leaseNames)).Nodup)
    (hnn : (keys s.plane.logicalNodes+((s.clients.map Client.nodeNames).sum+
      client.nodeNames)).Nodup)
    (hmn : (keys s.plane.virtualMachines+((s.clients.map Client.machineNames).sum+
      client.machineNames)).Nodup)
    (hsound : client.Sound) (hcopy : client.copy=none) : Balanced (s.join client) := by
  have hmem : ∀ other ∈ s.clients++[client],other ∈ s.clients ∨ other=client := fun other hm =>
    (List.mem_append.mp hm).imp_right List.mem_singleton.mp
  refine ⟨?_,?_,?_,?_,?_,h.machine,h.node,h.valid,?_,?_⟩
  · rw [Service.join,sum_map_append,hl,add_zero]
    exact h.leases
  · rw [Service.join,sum_map_append,hn,add_zero]
    exact h.nodes
  · rw [Service.join,sum_map_append]
    exact hln
  · rw [Service.join,sum_map_append]
    exact hnn
  · rw [Service.join,sum_map_append]
    exact hmn
  · intro other hm
    rcases hmem other hm with hold|rfl
    · exact h.sound other hold
    · exact hsound
  · intro other hm vm hv
    rcases hmem other hm with hold|rfl
    · exact h.copies other hold vm hv
    · rw [hcopy] at hv
      cases hv

/-- An idle client may always begin. -/
theorem Balanced.join_idle {s : Service F} (h : Balanced s) {client : Client F}
    (hi : Idle client) : Balanced (s.join client) := by
  refine h.join hi.leases hi.nodes ?_ ?_ ?_ hi.sound hi.copy
  · rw [hi.leaseNames,add_zero]
    exact h.leaseNames
  · rw [hi.nodeNames,add_zero]
    exact h.nodeNames
  · rw [hi.machineNames,add_zero]
    exact h.machineNames

/-- A call that begins is idle. -/
theorem idle_begins {call : Call F} (h : call.begins=true) : Idle (Client.uses call) := by
  cases call with
  | start id => exact ⟨rfl,rfl,rfl,rfl,rfl,trivial,rfl⟩
  | stop id => exact ⟨rfl,rfl,rfl,rfl,rfl,trivial,rfl⟩
  | execute id workload backend => exact ⟨rfl,rfl,rfl,rfl,rfl,trivial,rfl⟩
  | destroy id => exact ⟨rfl,rfl,rfl,rfl,rfl,trivial,rfl⟩
  | cloned id workload backend vm => cases h
  | ready id workload backend vm node => cases h
  | ran id run => cases h
  | releasing id vm leases => cases h
  | finished id answer => cases h

/-- The machine has its node and all its leases in the plane. -/
def Backed (plane : Plane F) (vm : VirtualMachine F) : Prop :=
  (∃ node,plane.logicalNodes[vm.nodeId.id]?=some node ∧ vm.nodeId=⟨node.id,.logicalNode⟩ ∧
    Plane.Serves node vm) ∧ ∀ l ∈ vm.leases,l.Valid ∧ plane.leases[l.id.id]?=some l

/-- A stored machine is backed. -/
theorem Balanced.backed {s : Service F} (h : Balanced s) {k : String} {vm : VirtualMachine F}
    (hs : s.plane.virtualMachines[k]?=some vm) : Backed s.plane vm := by
  obtain ⟨_,hkind,hvalid⟩ := h.machine k vm hs
  constructor
  · have hown : (vm.nodeId.id,vm.spec) ∈ (entries s.plane.logicalNodes).map profile := by
      rw [h.nodes]
      exact Multiset.mem_add.mpr (.inl (mem_tally.mpr ⟨k,vm,hs,Multiset.mem_singleton_self _⟩))
    obtain ⟨⟨j,node⟩,he,hj⟩ := Multiset.mem_map.mp hown
    obtain ⟨rfl,hspec⟩ := Prod.mk.inj hj
    have hnode := mem_entries.mp he
    refine ⟨node,hnode,Identity.ext (h.node _ _ hnode).symm hkind,?_⟩
    rw [Plane.Serves,← hspec]
    rw [← hspec] at hvalid
    exact ⟨ResourceFragment.beq_self hvalid,rfl⟩
  · intro l hl
    have hown : (l.id.id,l) ∈ entries s.plane.leases := by
      rw [h.leases]
      exact Multiset.mem_add.mpr (.inl (mem_tally.mpr ⟨k,vm,hs,mem_filed.mpr ⟨hl,rfl⟩⟩))
    exact ⟨h.valid _ _ (mem_entries.mp hown),mem_entries.mp hown⟩

/-- The machines share neither a node nor a lease. -/
def Apart (vm other : VirtualMachine F) : Prop :=
  vm.nodeId.id≠other.nodeId.id ∧ ∀ l ∈ vm.leases,∀ l' ∈ other.leases,l.id.id≠l'.id.id

/-- Two stored machines share neither a node nor a lease. -/
theorem Balanced.apart {s : Service F} (h : Balanced s) {k j : String}
    {vm other : VirtualMachine F} (hk : s.plane.virtualMachines[k]?=some vm)
    (hj : s.plane.virtualMachines[j]?=some other) (hne : k≠j) : Apart vm other := by
  have hleases : ((tally ownLeases s.plane.virtualMachines).map Prod.fst).Nodup := by
    refine Multiset.nodup_of_le (Multiset.map_le_map ?_) (nodup_keys s.plane.leases)
    rw [h.leases]
    exact Multiset.le_add_right _ _
  have hnodes : ((tally ownNode s.plane.virtualMachines).map Prod.fst).Nodup := by
    have hkeys := nodup_keys s.plane.logicalNodes
    have hnames : keys s.plane.logicalNodes=
        ((entries s.plane.logicalNodes).map profile).map Prod.fst := by
      rw [Multiset.map_map]
      rfl
    rw [hnames,h.nodes] at hkeys
    exact Multiset.nodup_of_le (Multiset.map_le_map (Multiset.le_add_right _ _)) hkeys
  constructor
  · intro he
    exact apart_of_nodup_tally Prod.fst hnodes hk hj hne (Multiset.mem_singleton_self _)
      (Multiset.mem_singleton_self _) he
  · intro l hl l' hl' he
    exact apart_of_nodup_tally Prod.fst hleases hk hj hne (mem_filed.mpr ⟨hl,rfl⟩)
      (mem_filed.mpr ⟨hl',rfl⟩) he

end Service

end OpenHost
