import OpenHost.PlaneRuns

/-!
# Where a leased machine runs

A leased machine is made from a node with one lease per allocation. The node
is handed over again at every execution, and only its name, its capacity and
its runtime are compared then, not its allocations. So the machine runs on
its leased participants exactly when the allocations handed over are among
those that the leases were checked against.
-/

namespace OpenHost

/-- Amounts are compared symmetrically and transitively. -/
class LawfulCores (F : Type) [Cores F] : Prop where
  /-- Equal amounts are equal both ways. -/
  beq_symm (a b : F) : Cores.beq a b=true → Cores.beq b a=true
  /-- Amounts equal to the same amount are equal. -/
  beq_trans (a b c : F) : Cores.beq a b=true → Cores.beq b c=true → Cores.beq a c=true

instance : LawfulCores ℚ where
  beq_symm a b h := by
    simp only [Cores.beq,decide_eq_true_eq] at h ⊢
    exact h.symm
  beq_trans a b c hab hbc := by
    simp only [Cores.beq,decide_eq_true_eq] at hab hbc ⊢
    exact hab.trans hbc

instance : LawfulCores F64 where
  beq_symm a b h := by
    simp only [Cores.beq,Bool.and_eq_true,decide_eq_true_eq] at h ⊢
    exact ⟨⟨h.1.2,h.1.1⟩,h.2.symm⟩
  beq_trans a b c hab hbc := by
    simp only [Cores.beq,Bool.and_eq_true,decide_eq_true_eq] at hab hbc ⊢
    exact ⟨⟨hab.1.1,hbc.1.2⟩,hab.2.trans hbc.2⟩

namespace VirtualMachine

variable {F : Type} [Cores F]

section Capacity

/-- Equal amounts are equal in all five dimensions. -/
theorem sameCapacity_eq_true {a b : ResourceFragment F} : sameCapacity a b=true ↔
    Cores.beq a.cpu b.cpu=true ∧ a.memory=b.memory ∧ a.storage=b.storage ∧
      a.network=b.network ∧ a.gpu=b.gpu := by
  simp only [sameCapacity,Bool.and_eq_true,beq_iff_eq,and_assoc]

variable [LawfulCores F]

/-- Equal amounts are equal both ways. -/
theorem sameCapacity_symm {a b : ResourceFragment F} (h : sameCapacity a b=true) :
    sameCapacity b a=true := by
  rw [sameCapacity_eq_true] at h ⊢
  obtain ⟨hc,hm,hs,hn,hg⟩ := h
  exact ⟨LawfulCores.beq_symm _ _ hc,hm.symm,hs.symm,hn.symm,hg.symm⟩

/-- Amounts equal to the same amounts are equal. -/
theorem sameCapacity_trans {a b c : ResourceFragment F} (hab : sameCapacity a b=true)
    (hbc : sameCapacity b c=true) : sameCapacity a c=true := by
  rw [sameCapacity_eq_true] at hab hbc ⊢
  obtain ⟨hc,hm,hs,hn,hg⟩ := hab
  obtain ⟨hc',hm',hs',hn',hg'⟩ := hbc
  exact ⟨LawfulCores.beq_trans _ _ _ hc hc',hm.trans hm',hs.trans hs',hn.trans hn',hg.trans hg'⟩

end Capacity

omit [Cores F] in
/-- Leases of distinct participants, as many as there are allocations, are
for the participants of the allocations. -/
theorem participants_perm {allocations : List (Allocation F)} {leases : List (Lease F)}
    (hlen : leases.length=allocations.length)
    (hd : (leases.map fun l => l.participantId.id).Nodup)
    (hsub : ∀ l ∈ leases,∃ a ∈ allocations,a.participantId=l.participantId.id) :
    (leases.map fun l => l.participantId.id).Perm (allocations.map Allocation.participantId) := by
  have hs : (leases.map fun l => l.participantId.id) ⊆
      allocations.map Allocation.participantId := by
    intro k hk
    obtain ⟨l,hl,rfl⟩ := List.mem_map.mp hk
    obtain ⟨a,ha,he⟩ := hsub l hl
    exact List.mem_map.mpr ⟨a,ha,he⟩
  refine (hd.subperm hs).perm_of_length_le ?_
  rw [List.length_map,List.length_map,hlen]

section Leases

variable [UuidCrate]

/-- Leases that passed their checks against the node, each paired with the
allocation of its participant. -/
structure Backed (node : LogicalNode F) (leases : List (Lease F)) : Prop where
  /-- Every lease has an allocation of its participant with its amounts. -/
  allocated : ∀ l ∈ leases,l.participantId.kind=.participant ∧
    ∃ a ∈ node.resources.allocations,a.participantId=l.participantId.id ∧
      sameCapacity a.resources l.resources=true
  /-- Every allocation has a lease of its participant with its amounts. -/
  leased : ∀ a ∈ node.resources.allocations,∃ l ∈ leases,l.participantId.id=a.participantId ∧
    sameCapacity a.resources l.resources=true

/-- The leases of a machine are backed by the node it was made from. -/
theorem backed_of_fromLeasedNode {node : LogicalNode F} {leases : List (Lease F)}
    {createdAt : SystemTime} {uuid : String} {vm : VirtualMachine F}
    (h : fromLeasedNode node leases createdAt uuid=.ok vm) :
    vm.leases=leases ∧ Backed node leases := by
  obtain ⟨hne,hmade⟩ := fromLeasedNode_eq_ok.mp h
  obtain ⟨⟨_,_,_,_,_,hchecked⟩,rfl⟩ := fromNodeWithLeases_eq_ok.mp hmade
  obtain ⟨hlen,heach,hd⟩ := (checkLeases_eq_ok hne).mp hchecked
  have hfound : ∀ l ∈ leases,l.participantId.kind=.participant ∧
      ∃ a ∈ node.resources.allocations,a.participantId=l.participantId.id ∧
        sameCapacity a.resources l.resources=true := by
    intro l hl
    obtain ⟨hv,_,_,a,hf,hc⟩ := checkLease_eq_ok.mp (heach l hl)
    have hp := List.find?_some hf
    exact ⟨hv.participant.1,a,List.mem_of_find?_eq_some hf,by simpa using hp,hc⟩
  have hperm := participants_perm hlen hd fun l hl => by
    obtain ⟨_,a,ha,he,_⟩ := hfound l hl
    exact ⟨a,ha,he⟩
  refine ⟨rfl,hfound,?_⟩
  intro a ha
  obtain ⟨l,hl,he⟩ := List.mem_map.mp (hperm.mem_iff.mpr (List.mem_map_of_mem ha))
  obtain ⟨_,b,hb,hbe,hc⟩ := hfound l hl
  have hab : a=b := List.inj_on_of_nodup_map (hperm.nodup_iff.mp hd) ha hb (he.symm.trans hbe.symm)
  exact ⟨l,hl,he,by rw [hab,hc]⟩

/-- Every unit of the plan names a participant for which the machine holds a
lease of the same amounts that is active at the instant. -/
def RunsLeased (vm : VirtualMachine F) (now : SystemTime) (plan : ExecutionPlan F) : Prop :=
  ∀ unit ∈ plan.units,∃ lease ∈ vm.leases,lease.participantId=unit.participantId ∧
    lease.activeAt now=true ∧ sameCapacity lease.resources unit.resources=true

/-- Every allocation handed over is, up to its lifetime, an allocation of the
node that the leases were checked against. -/
def AllocatesAs (node given : LogicalNode F) : Prop :=
  ∀ a ∈ given.resources.allocations,∃ b ∈ node.resources.allocations,
    b.participantId=a.participantId ∧ sameCapacity b.resources a.resources=true

/-- A started machine runs on its leased participants exactly when the node
handed over allocates as the node that the leases were checked against. -/
theorem runsLeased_iff [LawfulCores F] {node given : LogicalNode F} {leases : List (Lease F)}
    {createdAt now : SystemTime} {uuid : String} {vm started : VirtualMachine F}
    {workload : WorkItem} {backend : ExecutionBackend F} {plan : ExecutionPlan F}
    (hvm : fromLeasedNode node leases createdAt uuid=.ok vm) (hstart : vm.start=.ok started)
    (hsent : (started.executeAt given workload backend now).sent=some plan) :
    RunsLeased vm now plan ↔ AllocatesAs node given := by
  obtain ⟨hleases,hback⟩ := backed_of_fromLeasedNode hvm
  obtain ⟨_,rfl⟩ := start_eq_ok.mp hstart
  obtain ⟨_,hactive,hplan⟩ := executeAt_sent_iff.mp hsent
  obtain ⟨_,_,_,_,hfrom⟩ := executionPlan_eq_ok.mp hplan
  obtain ⟨_,_,_,_,_,rfl⟩ := ExecutionPlan.fromNode_eq_ok.mp hfrom
  dsimp only at hactive
  rw [RunsLeased,hleases]
  rw [hleases] at hactive
  constructor
  · intro h a ha
    obtain ⟨l,hl,hid,_,hc⟩ := h _ (List.mem_map_of_mem ha)
    obtain ⟨_,b,hb,hbe,hbc⟩ := hback.allocated l hl
    refine ⟨b,hb,?_,sameCapacity_trans hbc hc⟩
    rw [hbe,hid]
  · intro h unit hu
    obtain ⟨a,ha,rfl⟩ := List.mem_map.mp hu
    obtain ⟨b,hb,hbe,hbc⟩ := h a ha
    obtain ⟨l,hl,hle,hlc⟩ := hback.leased b hb
    obtain ⟨hkind,_⟩ := hback.allocated l hl
    refine ⟨l,hl,?_,hactive l hl,sameCapacity_trans (sameCapacity_symm hlc) hbc⟩
    rw [← hbe,← hle,← hkind]

end Leases

section Sample

open Plane

/-- A node of the same name, capacity and runtime as the leased node, with its
allocation at another participant. -/
def strangerNode : LogicalNode ℚ := {wasmNode with
  resources := ⟨wasmNode.resources.capacity,
    [⟨"66666666-6666-4666-8666-666666666666",AggregatingScheduler.oneCore⟩]⟩}

/-- The machine made from the leased node, once it runs. -/
def startedMachine : VirtualMachine ℚ :=
  {wasmMachine (sampleTexts 1) [wasmLease] with state := .running}

/-- One workload on the leased node. -/
def leasedWork : WorkItem := ⟨"work",[]⟩

/-- The plan of the workload on a node with one allocation of one core. -/
def oneCorePlan (participantId : String) : ExecutionPlan ℚ :=
  ⟨"work",⟨wasmNode.id,.logicalNode⟩,⟨"wasm","1"⟩,
    [⟨⟨participantId,.participant⟩,AggregatingScheduler.oneCore⟩]⟩

/-- On its own node the machine runs on its leased participant. -/
theorem runsLeased_wasmNode : letI := hyphenatedUuid
    RunsLeased (wasmMachine (sampleTexts 1) [wasmLease]) sampleInstant
      (oneCorePlan AggregatingScheduler.twoCores.participantId) := by
  let := hyphenatedUuid
  have hvm : fromLeasedNode wasmNode [wasmLease] sampleInstant (sampleTexts 1)=
      .ok (wasmMachine (sampleTexts 1) [wasmLease]) := by
    decide +kernel
  have hstart : (wasmMachine (sampleTexts 1) [wasmLease]).start=.ok startedMachine := rfl
  have hsent : (startedMachine.executeAt wasmNode leasedWork noopBackend sampleInstant).sent=
      some (oneCorePlan AggregatingScheduler.twoCores.participantId) := by
    decide +kernel
  have hsame : AllocatesAs wasmNode wasmNode := by
    intro a ha
    refine ⟨a,ha,rfl,?_⟩
    obtain rfl := List.mem_singleton.mp ha
    decide +kernel
  exact (runsLeased_iff hvm hstart hsent).mpr hsame

/-- A node at another participant passes the gates, and the backend receives
a plan for a participant without a lease. -/
theorem not_runsLeased_strangerNode : letI := hyphenatedUuid
    fromLeasedNode wasmNode [wasmLease] sampleInstant (sampleTexts 1)=
        .ok (wasmMachine (sampleTexts 1) [wasmLease]) ∧
      (wasmMachine (sampleTexts 1) [wasmLease]).start=.ok startedMachine ∧
      (startedMachine.executeAt strangerNode leasedWork noopBackend sampleInstant).sent=
        some (oneCorePlan "66666666-6666-4666-8666-666666666666") ∧
      ¬RunsLeased (wasmMachine (sampleTexts 1) [wasmLease]) sampleInstant
        (oneCorePlan "66666666-6666-4666-8666-666666666666") := by
  let := hyphenatedUuid
  refine ⟨?_,rfl,?_,?_⟩
  · decide +kernel
  · decide +kernel
  · intro h
    obtain ⟨l,hl,hid,_⟩ := h _ List.mem_cons_self
    obtain rfl := List.mem_singleton.mp hl
    exact absurd hid (by decide)

end Sample

end VirtualMachine

end OpenHost
