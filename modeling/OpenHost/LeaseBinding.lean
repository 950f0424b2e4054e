import OpenHost.Composition
import OpenHost.LeasedExecution

/-!
# Leases and allocations of a machine, one for one

A leased machine is checked by equal numbers, by a first match for every
lease and by distinct leased participants. Together these leave no choice:
the allocations are distinct too, and leases and allocations match one for
one. So the leases of a machine add up to its resources whenever the
composite of its node is consistent.
-/

namespace OpenHost

namespace ResourceFragment

variable {F : Type}

/-- The amounts of a fragment, for an unbounded time. -/
def amounts (r : ResourceFragment F) : ResourceFragment F := {r with lifetime := none}

end ResourceFragment

/-- An allocation with its amounts only. -/
def Allocation.amounts {F : Type} (a : Allocation F) : Allocation F :=
  ⟨a.participantId,a.resources.amounts⟩

/-- The amounts of a sum are the sum of the amounts. -/
theorem CompositeResource.total_amounts {F : Type} [CoresArith F] (start : ResourceFragment F)
    (allocations : List (Allocation F)) :
    (total start allocations).amounts=total start.amounts (allocations.map Allocation.amounts) := by
  induction allocations generalizing start with
  | nil => rfl
  | cons a rest ih => exact ih (start.add a.resources)

/-- The part of a node that a lease reserves. -/
def Lease.allocation {F : Type} (lease : Lease F) : Allocation F :=
  ⟨lease.participantId.id,lease.resources⟩

/-- The leased resources added up in list order. -/
def leasedTotal {F : Type} [CoresArith F] (leases : List (Lease F)) : ResourceFragment F :=
  leases.foldl (fun total lease => total.add lease.resources) .default

/-- Leases add up as the parts that they reserve. -/
theorem leasedTotal_eq_total {F : Type} [CoresArith F] (leases : List (Lease F)) :
    leasedTotal leases=CompositeResource.total .default (leases.map Lease.allocation) := by
  rw [leasedTotal,CompositeResource.total,List.foldl_map]
  rfl

namespace VirtualMachine

section Matching

variable {F : Type} [Cores F]

/-- A lease and an allocation of the same participant with the same amounts. -/
def Matches (lease : Lease F) (allocation : Allocation F) : Prop :=
  allocation.participantId=lease.participantId.id ∧
    sameCapacity allocation.resources lease.resources=true

/-- Leases of distinct participants that all match allocations, as many as
there are allocations, match them one for one. -/
theorem matching_of_distinct {allocations : List (Allocation F)} {leases : List (Lease F)}
    (hlen : leases.length=allocations.length)
    (hd : (leases.map fun l => l.participantId.id).Nodup)
    (hmatch : ∀ l ∈ leases,∃ a ∈ allocations,Matches l a) :
    ∃ e : Fin leases.length ≃ Fin allocations.length,
      ∀ i,Matches (leases.get i) (allocations.get (e i)) := by
  have hindex : ∀ i : Fin leases.length,∃ j : Fin allocations.length,
      Matches (leases.get i) (allocations.get j) := by
    intro i
    obtain ⟨a,ha,hm⟩ := hmatch (leases.get i) (List.get_mem _ _)
    obtain ⟨j,rfl⟩ := List.get_of_mem ha
    exact ⟨j,hm⟩
  choose f hf using hindex
  have hinj : Function.Injective f := by
    intro i j hij
    have hi := (hf i).1
    have hj := (hf j).1
    rw [hij] at hi
    have hid : (leases.map fun l => l.participantId.id)[i]=
        (leases.map fun l => l.participantId.id)[j] := by
      simpa using hi.symm.trans hj
    exact Fin.ext ((List.Nodup.getElem_inj_iff hd).mp hid)
  have hcard : Fintype.card (Fin leases.length)=Fintype.card (Fin allocations.length) := by
    rw [Fintype.card_fin,Fintype.card_fin,hlen]
  have hbij := (Fintype.bijective_iff_injective_and_card f).mpr ⟨hinj,hcard⟩
  exact ⟨Equiv.ofBijective f hbij,hf⟩

variable [UuidCrate]

/-- What a leased machine says about the node and the leases it was made
from. -/
theorem matching_of_fromLeasedNode {node : LogicalNode F} {leases : List (Lease F)}
    {createdAt : SystemTime} {uuid : String} {vm : VirtualMachine F}
    (h : fromLeasedNode node leases createdAt uuid=.ok vm) :
    (node.resources.allocations.map Allocation.participantId).Nodup ∧
      (leases.map fun l => l.participantId.id).Nodup ∧
      (∃ e : Fin leases.length ≃ Fin node.resources.allocations.length,
        ∀ i,Matches (leases.get i) (node.resources.allocations.get (e i))) ∧
      ∀ l ∈ leases,l.validate=.ok () ∧ l.logicalNodeId=⟨node.id,.logicalNode⟩ ∧
        l.activeAt createdAt=true := by
  obtain ⟨_,hback⟩ := backed_of_fromLeasedNode h
  obtain ⟨hne,hmade⟩ := fromLeasedNode_eq_ok.mp h
  obtain ⟨⟨_,_,_,_,_,hchecked⟩,_⟩ := fromNodeWithLeases_eq_ok.mp hmade
  obtain ⟨hlen,heach,hd⟩ := (checkLeases_eq_ok hne).mp hchecked
  have hmatch : ∀ l ∈ leases,∃ a ∈ node.resources.allocations,Matches l a := fun l hl =>
    (hback.allocated l hl).2
  have hperm := participants_perm hlen hd fun l hl => by
    obtain ⟨a,ha,he,_⟩ := hmatch l hl
    exact ⟨a,ha,he⟩
  refine ⟨hperm.nodup_iff.mp hd,hd,matching_of_distinct hlen hd hmatch,?_⟩
  intro l hl
  obtain ⟨hv,hn,hactive,_⟩ := checkLease_eq_ok.mp (heach l hl)
  exact ⟨Lease.validate_eq_ok.mpr hv,hn,hactive⟩

end Matching

section Sum

/-- Exact amounts agree when they are compared as equal. -/
theorem amounts_of_matches {lease : Lease ℚ} {allocation : Allocation ℚ}
    (h : Matches lease allocation) : allocation.amounts=lease.allocation.amounts := by
  obtain ⟨hid,hsame⟩ := h
  obtain ⟨hcpu,hmemory,hstorage,hnetwork,hgpu⟩ := sameCapacity_eq_true.mp hsame
  have hexact : allocation.resources.cpu=lease.resources.cpu := of_decide_eq_true hcpu
  have hresources : allocation.resources.amounts=lease.resources.amounts :=
    ResourceFragment.ext hexact hmemory hstorage hnetwork hgpu rfl
  rw [Allocation.amounts,hid,hresources]
  rfl

/-- Fragments with the same amounts are compared as equal. -/
theorem sameCapacity_of_amounts {a b : ResourceFragment ℚ} (h : a.amounts=b.amounts) :
    sameCapacity a b=true := by
  simp only [ResourceFragment.amounts,ResourceFragment.mk.injEq] at h
  obtain ⟨hcpu,hmemory,hstorage,hnetwork,hgpu,_⟩ := h
  exact sameCapacity_eq_true.mpr ⟨decide_eq_true hcpu,hmemory,hstorage,hnetwork,hgpu⟩

variable [UuidCrate]

/-- The leases of a machine reserve the allocations of its node, in some
order. -/
theorem leased_perm {node : LogicalNode ℚ} {leases : List (Lease ℚ)} {createdAt : SystemTime}
    {uuid : String} {vm : VirtualMachine ℚ}
    (h : fromLeasedNode node leases createdAt uuid=.ok vm) :
    ((leases.map Lease.allocation).map Allocation.amounts).Perm
      (node.resources.allocations.map Allocation.amounts) := by
  obtain ⟨_,hback⟩ := backed_of_fromLeasedNode h
  obtain ⟨hallocations,hleases,_⟩ := matching_of_fromLeasedNode h
  have hleft : ((leases.map Lease.allocation).map Allocation.amounts).Nodup := by
    refine List.Nodup.of_map Allocation.participantId ?_
    rw [List.map_map,List.map_map]
    exact hleases
  have hright : (node.resources.allocations.map Allocation.amounts).Nodup := by
    refine List.Nodup.of_map Allocation.participantId ?_
    rw [List.map_map]
    exact hallocations
  refine (List.perm_ext_iff_of_nodup hleft hright).mpr fun x => ?_
  rw [List.map_map]
  constructor
  · intro hx
    obtain ⟨l,hl,rfl⟩ := List.mem_map.mp hx
    obtain ⟨_,a,ha,hm⟩ := hback.allocated l hl
    exact List.mem_map.mpr ⟨a,ha,amounts_of_matches hm⟩
  · intro hx
    obtain ⟨a,ha,rfl⟩ := List.mem_map.mp hx
    obtain ⟨l,hl,hid,hsame⟩ := hback.leased a ha
    exact List.mem_map.mpr ⟨l,hl,(amounts_of_matches ⟨hid.symm,hsame⟩).symm⟩

/-- A leased machine comes from distinct allocations matched one for one by
valid leases of the node that are active at its creation; and if the
composite of the node is consistent, the leases add up to the resources of
the machine. -/
theorem fromLeasedNode_binding {node : LogicalNode ℚ} {leases : List (Lease ℚ)}
    {createdAt : SystemTime} {uuid : String} {vm : VirtualMachine ℚ}
    (h : fromLeasedNode node leases createdAt uuid=.ok vm) :
    (node.resources.allocations.map Allocation.participantId).Nodup ∧
      (∃ e : Fin leases.length ≃ Fin node.resources.allocations.length,
        ∀ i,Matches (leases.get i) (node.resources.allocations.get (e i))) ∧
      (∀ l ∈ leases,l.validate=.ok () ∧ l.logicalNodeId=⟨node.id,.logicalNode⟩ ∧
        l.activeAt createdAt=true) ∧
      (node.resources.validate=.ok () →
        sameCapacity (leasedTotal leases) vm.spec.resources=true) := by
  obtain ⟨hdistinct,_,hmatching,hchecked⟩ := matching_of_fromLeasedNode h
  refine ⟨hdistinct,hmatching,hchecked,fun hvalid => ?_⟩
  obtain ⟨_,hmade⟩ := fromLeasedNode_eq_ok.mp h
  obtain ⟨_,rfl⟩ := fromNodeWithLeases_eq_ok.mp hmade
  obtain ⟨rebuilt,hcompose,hcapacity⟩ := CompositeResource.validate_eq_ok.mp hvalid
  obtain ⟨_,_,rfl⟩ := CompositeResource.compose_eq_ok.mp hcompose
  apply sameCapacity_of_amounts
  calc (leasedTotal leases).amounts
      =CompositeResource.total .default
        ((leases.map Lease.allocation).map Allocation.amounts) := by
        rw [leasedTotal_eq_total,CompositeResource.total_amounts]
        rfl
    _=CompositeResource.total .default
        (node.resources.allocations.map Allocation.amounts) :=
      CompositeResource.total_perm (leased_perm h)
    _=node.resources.capacity.amounts := by
        rw [hcapacity,CompositeResource.total_amounts]
        rfl

end Sum

section Sample

open Plane

/-- The leased machine of the sample holds exactly its resources in leases. -/
theorem fromLeasedNode_binding_wasmNode : letI := hyphenatedUuid
    sameCapacity (leasedTotal [wasmLease]) wasmNode.resources.capacity=true := by
  let := hyphenatedUuid
  have hvm : fromLeasedNode wasmNode [wasmLease] sampleInstant (sampleTexts 1)=
      .ok (wasmMachine (sampleTexts 1) [wasmLease]) := by
    decide +kernel
  have hvalid : wasmNode.resources.validate=.ok () := by
    decide +kernel
  exact (fromLeasedNode_binding hvm).2.2.2 hvalid

end Sample

end VirtualMachine

end OpenHost
