import OpenHost.PlaneRuns

/-!
# Tearing a machine down

Destroying a machine removes it, releases its leases and removes its node.
The release stops at the first lease that is missing, behind the removal of
the machine. So the teardown is all or nothing exactly when every lease of
the machine is still stored, and that holds along every run in which no
lease of a stored machine is released directly.
-/

namespace OpenHost.Plane

variable {F : Type} [Cores F]

/-- A stored machine holds the lease of this name. -/
def Holds (plane : Plane F) (k : String) : Prop :=
  ∃ (id : String) (vm : VirtualMachine F),plane.virtualMachines[id]?=some vm ∧
    ∃ l ∈ vm.leases,l.id.id=k

/-- No lease of a stored machine is released directly. -/
def KeepsLeases (plane : Plane F) (op : Operation F) : Prop :=
  ∀ k,op.Releases k → ¬plane.Holds k

/-- Every lease of every stored machine is stored. -/
def AllLeased (plane : Plane F) : Prop :=
  ∀ (k : String) (vm : VirtualMachine F),plane.virtualMachines[k]?=some vm →
    ∀ l ∈ vm.leases,l.id.id ∈ plane.leases

/-- A stored lease stays stored when granted leases are added. -/
theorem Granted.store_keeps {plane : Plane F} {leases : List (Lease F)} (hg : Granted plane leases)
    {k : String} {stored : Lease F} (hk : plane.leases[k]?=some stored) :
    (storeLeases plane.leases leases)[k]?=some stored := by
  have hknown : k ∈ plane.leases :=
    Std.ExtTreeMap.mem_iff_isSome_getElem?.mpr (Option.isSome_iff_exists.mpr ⟨stored,hk⟩)
  have hm : k∉leases.map fun l => l.id.id := by
    intro hm
    obtain ⟨l,hl,rfl⟩ := List.mem_map.mp hm
    exact hg.fresh l hl (.inl hknown)
  rw [storeLeases_of_not_mem hm,hk]

/-- An operation that does not release a lease of a machine directly leaves
what is stored under its name, while the machine stays. -/
theorem Change.keeps_lease {plane after : Plane F} {op : Operation F} (hk : WellKept plane)
    (hc : Change plane op after) {k : String} {vm found : VirtualMachine F}
    (hs : plane.virtualMachines[k]?=some vm) (hf : after.virtualMachines[k]?=some found)
    {l stored : Lease F} (hl : l ∈ vm.leases) (hr : ¬op.Releases l.id.id)
    (hm : plane.leases[l.id.id]?=some stored) : after.leases[l.id.id]?=some stored := by
  have hother : ∀ (id : String) (gone : VirtualMachine F),plane.virtualMachines[id]?=some gone →
      id≠k → l.id.id∉gone.leases.map fun l => l.id.id := by
    intro id gone hg hne hmem
    obtain ⟨l',hl',he⟩ := List.mem_map.mp hmem
    exact hk.apart id k gone vm hg hs hne l' hl' l hl he
  have herase : ∀ names : List String,l.id.id∉names →
      (eraseNames plane.leases names)[l.id.id]?=some stored := by
    intro names hn
    rw [eraseNames_getElem?,if_neg hn,hm]
  cases hc with
  | unchanged same =>
    rw [same.leases]
    exact hm
  | granted hg => exact hg.store_keeps hm
  | created hrec hg hfresh hv => exact hg.store_keeps hm
  | staged hs' state => exact hm
  | released hrel => exact herase _ fun hmem => hr (hrel _ hmem)
  | destroyed hop hgone hleased =>
    have hne := (OrderedMap.getElem?_erase_eq_some.mp hf).1
    exact herase _ (hother _ _ hgone hne)
  | halted hop hgone hsub hmiss =>
    have hne := (OrderedMap.getElem?_erase_eq_some.mp hf).1
    exact herase _ fun hmem => hother _ _ hgone hne (hsub hmem)

/-- A change that releases no lease of a machine directly keeps every machine
leased. -/
theorem AllLeased.keep {plane after : Plane F} {op : Operation F} (hk : WellKept plane)
    (ha : AllLeased plane) (hr : KeepsLeases plane op) (hc : Change plane op after) :
    AllLeased after := by
  intro k found hf
  rcases hc.machine_after hf with ⟨vm,state,hs,rfl⟩|hb
  · intro l hl
    obtain ⟨stored,hm⟩ := Option.isSome_iff_exists.mp
      (Std.ExtTreeMap.mem_iff_isSome_getElem?.mp (ha k vm hs l hl))
    have hkept : after.leases[l.id.id]?=some stored :=
      hc.keeps_lease hk hs hf hl (fun h => hr _ h ⟨k,vm,hs,l,hl,rfl⟩) hm
    exact Std.ExtTreeMap.mem_iff_isSome_getElem?.mpr (Option.isSome_iff_exists.mpr ⟨stored,hkept⟩)
  · exact hb.stored

section Exact

variable [UuidCrate]

/-- Destroying the machine stored under the name either succeeds and leaves
neither machine nor node nor leases, or fails and leaves the maps alone. -/
def AllOrNothing (plane : Plane F) (id : Identity) (vm : VirtualMachine F) : Prop :=
  ((∃ destroyed,(plane.destroyVirtualMachine id).1=.ok destroyed) ∧
    (plane.destroyVirtualMachine id).2.virtualMachines[id.id]?=none ∧
    (plane.destroyVirtualMachine id).2.logicalNodes[vm.nodeId.id]?=none ∧
    ∀ l ∈ vm.leases,(plane.destroyVirtualMachine id).2.leases[l.id.id]?=none) ∨
  ((∃ e,(plane.destroyVirtualMachine id).1=.error e) ∧
    SameMaps plane (plane.destroyVirtualMachine id).2)

/-- In a plane in order, a teardown is all or nothing exactly when every
lease of the machine is stored. -/
theorem WellKept.allOrNothing_iff {plane : Plane F} (hk : WellKept plane) {id : Identity}
    {vm : VirtualMachine F} (hs : plane.virtualMachines[id.id]?=some vm) :
    AllOrNothing plane id vm ↔ ∀ l ∈ vm.leases,l.id.id ∈ plane.leases := by
  constructor
  · intro h
    by_contra hn
    have hm : ∃ l ∈ vm.leases,l.id.id∉plane.leases := by simpa using hn
    obtain ⟨e,names,_,hd⟩ := destroyVirtualMachine_of_missing hk hs hm
    rw [AllOrNothing,hd] at h
    rcases h with ⟨⟨destroyed,hok⟩,_⟩|⟨_,hsame⟩
    · cases hok
    · have hgone := congrArg (fun m => m[id.id]?) hsame.virtualMachines
      dsimp only at hgone
      rw [hs,OrderedMap.getElem?_erase_eq,if_pos rfl] at hgone
      cases hgone
  · intro hl
    rw [AllOrNothing,destroyVirtualMachine_of_leased hk hs hl]
    refine Or.inl ⟨⟨vm,rfl⟩,?_,?_,?_⟩
    · exact (OrderedMap.getElem?_erase_eq _ _ _).trans (if_pos rfl)
    · exact (OrderedMap.getElem?_erase_eq _ _ _).trans (if_pos rfl)
    · intro l hm
      exact (eraseNames_getElem? _ _ _).trans (if_pos (List.mem_map.mpr ⟨l,hm,rfl⟩))

/-- In every reachable plane a teardown is all or nothing exactly when every
lease of the machine is still stored; along runs that never release a lease
of a stored machine directly, every teardown is all or nothing. -/
theorem teardown_allOrNothing :
    (∀ plane : Plane F,Reachable plane → ∀ id vm,plane.virtualMachines[id.id]?=some vm →
      (AllOrNothing plane id vm ↔ ∀ l ∈ vm.leases,l.id.id ∈ plane.leases)) ∧
    ∀ plane : Plane F,ReachableBy KeepsLeases plane → ∀ (id : Identity) (vm : VirtualMachine F),
      plane.virtualMachines[id.id]?=some vm → AllOrNothing plane id vm := by
  constructor
  · intro plane hr id vm hs
    exact hr.wellKept.allOrNothing_iff hs
  · intro plane hr id vm hs
    have hstart : ∀ registry discovery,AllLeased (Plane.new (F:=F) registry discovery) := by
      intro registry discovery k vm h
      simp [Plane.new] at h
    have hkeep : ∀ (p : Plane F) op after,WellKept p → AllLeased p → KeepsLeases p op →
        Change p op after → AllLeased after := fun p op after hk ha hl hc => ha.keep hk hl hc
    obtain ⟨hk,ha⟩ := hr.induct hstart hkeep
    exact (hk.allOrNothing_iff hs).mpr (ha _ _ hs)

end Exact

section Sample

/-- The name of the leased machine. -/
def wasmIdentity : Identity := ⟨sampleTexts 1,.virtualMachine⟩

/-- The plane with a leased machine is reached without direct releases. -/
theorem leasedPlane_reachable : letI := hyphenatedUuid
    ReachableBy KeepsLeases leasedPlane := by
  let := hyphenatedUuid
  have hkeeps : KeepsLeases newPlane leaseOperation := fun k hr => hr.elim
  exact ⟨_,_,Relation.ReflTransGen.single ⟨_,hkeeps,newPlane_step_leasedPlane⟩⟩

/-- The teardown of the leased machine is all or nothing. -/
theorem teardown_leasedPlane : letI := hyphenatedUuid
    AllOrNothing leasedPlane wasmIdentity (wasmMachine (sampleTexts 1) [wasmLease]) ∧
      wasmLease.id.id ∈ leasedPlane.leases := by
  let := hyphenatedUuid
  have hr := leasedPlane_reachable
  have hs : leasedPlane.virtualMachines[wasmIdentity.id]?=
      some (wasmMachine (sampleTexts 1) [wasmLease]) := by
    decide +kernel
  have hall : Reachable leasedPlane := by
    obtain ⟨registry,discovery,hrun⟩ := hr
    exact ⟨registry,discovery,hrun.weaken fun _ _ _ => trivial⟩
  have ha := teardown_allOrNothing.2 leasedPlane hr wasmIdentity _ hs
  exact ⟨ha,(teardown_allOrNothing.1 leasedPlane hall wasmIdentity _ hs).mp ha wasmLease
    List.mem_cons_self⟩

/-- The plane once the lease has been released directly. -/
def releasedPlane : Plane ℚ :=
  {leasedPlane with leases := leasedPlane.leases.erase (sampleTexts 0)}

/-- A machine whose lease was released directly goes, and its teardown fails. -/
theorem not_allOrNothing_releasedPlane : letI := hyphenatedUuid
    Reachable releasedPlane ∧
      releasedPlane.virtualMachines[wasmIdentity.id]?=
        some (wasmMachine (sampleTexts 1) [wasmLease]) ∧
      ¬AllOrNothing releasedPlane wasmIdentity (wasmMachine (sampleTexts 1) [wasmLease]) := by
  let := hyphenatedUuid
  have hrel : leasedPlane.releaseLease ⟨sampleTexts 0,.lease⟩=(.ok wasmLease,releasedPlane) := by
    rw [releaseLease_eq_ok]
    refine ⟨⟨rfl,?_⟩,?_,rfl⟩
    · decide +kernel
    · decide +kernel
  have hstep : Step leasedPlane (.releaseLease ⟨sampleTexts 0,.lease⟩) releasedPlane := by
    refine ⟨sampleTexts,.zero _ _,?_⟩
    rw [perform,hrel]
  have hreach : Reachable releasedPlane := by
    refine ⟨_,_,Relation.ReflTransGen.tail (Relation.ReflTransGen.single
      ⟨_,trivial,newPlane_step_leasedPlane⟩) ⟨_,trivial,hstep⟩⟩
  have hs : releasedPlane.virtualMachines[wasmIdentity.id]?=
      some (wasmMachine (sampleTexts 1) [wasmLease]) := by
    decide +kernel
  refine ⟨hreach,hs,?_⟩
  rw [hreach.wellKept.allOrNothing_iff hs]
  intro hall
  have hm := hall wasmLease List.mem_cons_self
  have hid : sampleTexts 0=wasmLease.id.id := rfl
  rw [Std.ExtTreeMap.mem_iff_isSome_getElem?,releasedPlane,OrderedMap.getElem?_erase_eq,
    if_pos hid] at hm
  cases hm

end Sample

end OpenHost.Plane
