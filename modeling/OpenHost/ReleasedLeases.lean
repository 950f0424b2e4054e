import OpenHost.LeasedExecution
import OpenHost.Teardown

/-!
# Released leases

A machine keeps copies of its leases, and an execution checks the copies
only. A lease that is released directly leaves its copy behind, so the
machine runs on. The copies and the store agree along every run in which no
lease of a machine that is created or runs is released directly.
-/

namespace OpenHost

/-- The machine runs, or may still be started. -/
def VirtualMachine.Runnable {F : Type} (vm : VirtualMachine F) : Prop :=
  vm.state=.created ∨ vm.state=.running

namespace Plane

variable {F : Type} [Cores F]

/-- No lease of a machine that runs or may be started is released directly. -/
def KeepsRunnable (plane : Plane F) (op : Operation F) : Prop :=
  ∀ k,op.Releases k → ∀ (id : String) (vm : VirtualMachine F),
    plane.virtualMachines[id]?=some vm → vm.Runnable → ∀ l ∈ vm.leases,l.id.id≠k

/-- The store has every lease of every machine that runs or may be started. -/
def RunnableLeased (plane : Plane F) : Prop :=
  ∀ (k : String) (vm : VirtualMachine F),plane.virtualMachines[k]?=some vm → vm.Runnable →
    ∀ l ∈ vm.leases,plane.leases[l.id.id]?=some l

/-- A machine that stays changes its stage at most. -/
theorem Change.stays {plane after : Plane F} {op : Operation F} (hc : Change plane op after)
    {k : String} {vm found : VirtualMachine F} (hs : plane.virtualMachines[k]?=some vm)
    (hf : after.virtualMachines[k]?=some found) : ∃ state,found={vm with state := state} := by
  have hsame : plane.virtualMachines[k]?=some found → ∃ state,found={vm with state := state} := by
    intro hf
    rw [hs,Option.some.injEq] at hf
    exact ⟨vm.state,hf.symm⟩
  cases hc with
  | unchanged same =>
    rw [same.virtualMachines] at hf
    exact hsame hf
  | granted hg => exact hsame hf
  | released hr => exact hsame hf
  | staged hold state =>
    rcases OrderedMap.getElem?_insert_eq_some.mp hf with ⟨rfl,rfl⟩|⟨_,hf⟩
    · rw [hs,Option.some.injEq] at hold
      exact ⟨state,by rw [hold]⟩
    · exact hsame hf
  | destroyed hop hgone hl => exact hsame (OrderedMap.getElem?_erase_eq_some.mp hf).2
  | halted hop hgone hsub hm => exact hsame (OrderedMap.getElem?_erase_eq_some.mp hf).2
  | created hrec hg hfresh hv =>
    rcases OrderedMap.getElem?_insert_eq_some.mp hf with ⟨rfl,_⟩|⟨_,hf⟩
    · have hknown := Std.ExtTreeMap.mem_iff_isSome_getElem?.mpr
        (Option.isSome_iff_exists.mpr ⟨vm,hs⟩)
      exact (hfresh (.inr (.inl hknown))).elim
    · exact hsame hf

/-- The leases of a machine that has just been made are stored as they are. -/
theorem Change.born_stored {plane after : Plane F} {op : Operation F} (hc : Change plane op after)
    {k : String} {found : VirtualMachine F} (hn : plane.virtualMachines[k]?=none)
    (hf : after.virtualMachines[k]?=some found) :
    ∀ l ∈ found.leases,after.leases[l.id.id]?=some l := by
  have hold : plane.virtualMachines[k]?≠some found := by simp [hn]
  cases hc with
  | unchanged same =>
    rw [same.virtualMachines] at hf
    exact (hold hf).elim
  | granted hg => exact (hold hf).elim
  | released hr => exact (hold hf).elim
  | staged hs state =>
    rcases OrderedMap.getElem?_insert_eq_some.mp hf with ⟨rfl,_⟩|⟨_,hf⟩
    · rw [hs] at hn
      cases hn
    · exact (hold hf).elim
  | destroyed hop hs hl => exact (hold (OrderedMap.getElem?_erase_eq_some.mp hf).2).elim
  | halted hop hs hsub hm => exact (hold (OrderedMap.getElem?_erase_eq_some.mp hf).2).elim
  | created hrec hg hfresh hv =>
    rcases OrderedMap.getElem?_insert_eq_some.mp hf with ⟨_,rfl⟩|⟨_,hf⟩
    · intro l hl
      exact storeLeases_of_mem hg.distinct hl
    · exact (hold hf).elim

/-- Where machines are not touched, or one is added under a new name, a
machine that was there is the same as before. -/
theorem same_machine {plane : Plane F} {machines : Std.ExtTreeMap String (VirtualMachine F)}
    (h : machines=plane.virtualMachines ∨ ∃ uuid vm,¬plane.Known uuid ∧
      machines=plane.virtualMachines.insert uuid vm)
    {k : String} {vm found : VirtualMachine F} (hs : plane.virtualMachines[k]?=some vm)
    (hf : machines[k]?=some found) : found=vm := by
  rcases h with rfl|⟨uuid,made,hfresh,rfl⟩
  · rw [hs,Option.some.injEq] at hf
    exact hf.symm
  · rcases OrderedMap.getElem?_insert_eq_some.mp hf with ⟨rfl,_⟩|⟨_,hf⟩
    · have hk : uuid ∈ plane.virtualMachines :=
        Std.ExtTreeMap.mem_iff_isSome_getElem?.mpr (Option.isSome_iff_exists.mpr ⟨vm,hs⟩)
      exact (hfresh (.inr (.inl hk))).elim
    · rw [hs,Option.some.injEq] at hf
      exact hf.symm

/-- A machine that changes in place is stored instead of the old one. -/
theorem updateVirtualMachine_machine {plane : Plane F} {id : Identity}
    {change : VirtualMachine F → Except VirtualMachineError (VirtualMachine F)} {k : String}
    {vm found : VirtualMachine F} (hs : plane.virtualMachines[k]?=some vm)
    (hf : (plane.updateVirtualMachine id change).2.virtualMachines[k]?=some found) :
    found=vm ∨ change vm=.ok found := by
  have hsame : plane.virtualMachines[k]?=some found → found=vm ∨ change vm=.ok found := by
    intro hf
    rw [hs,Option.some.injEq] at hf
    exact .inl hf.symm
  rw [updateVirtualMachine] at hf
  split at hf
  · exact hsame hf
  · next old hold =>
    split at hf
    · exact hsame hf
    · next changed hc =>
      rcases OrderedMap.getElem?_insert_eq_some.mp hf with ⟨rfl,rfl⟩|⟨_,hf⟩
      · rw [hs,Option.some.injEq] at hold
        exact .inr (by rw [hold,hc])
      · exact hsame hf

section Stages

variable [UuidCrate]

/-- The creation of a leased node touches no machine. -/
theorem createLeasedLogicalNode_machines (plane : Plane F) (scheduler : Scheduler F)
    (requirement : ResourceFragment F) (now : SystemTime) (duration : Duration)
    (uuids : ℕ → String) :
    (plane.createLeasedLogicalNode scheduler requirement now duration uuids).2.virtualMachines=
      plane.virtualMachines := by
  rw [createLeasedLogicalNode]
  cases planLeases scheduler requirement now duration uuids <;> rfl

/-- The creation of a leased machine touches no other machine. -/
theorem createLeasedVirtualMachine_machines {plane : Plane F} {scheduler : Scheduler F}
    {requirement : ResourceFragment F} {runtime : RuntimeSpec} {createdAt : SystemTime}
    {duration : Duration} {uuids : ℕ → String}
    (hf : FreshIds plane.Known (Operation.planned scheduler requirement+1) uuids) :
    (plane.createLeasedVirtualMachine scheduler requirement runtime createdAt duration
        uuids).2.virtualMachines=plane.virtualMachines ∨
      ∃ uuid vm,¬plane.Known uuid ∧ (plane.createLeasedVirtualMachine scheduler requirement runtime
        createdAt duration uuids).2.virtualMachines=plane.virtualMachines.insert uuid vm := by
  rcases createLeasedVirtualMachine_cases hf with ⟨node,leases,vm,hp,hv,hafter⟩|hafter|hafter
  · obtain ⟨_,hvm⟩ :=
      VirtualMachine.fromNodeWithLeases_eq_ok.mp (VirtualMachine.fromLeasedNode_eq_ok.mp hv).2
    have hid : vm.id.id=uuids leases.length := by rw [hvm]
    refine .inr ⟨vm.id.id,vm,?_,by rw [hafter]⟩
    rw [hid]
    exact hf.fresh _ (planLeases_length hp)
  · exact .inl (by rw [hafter])
  · rw [hafter]
    exact .inl (createLeasedLogicalNode_machines plane scheduler requirement createdAt duration
      uuids)

/-- A machine behind an execution is the same as before, or a running
machine that has failed. -/
theorem executeVirtualMachine_machine {plane : Plane F} (hk : WellKept plane) {id : Identity}
    {workload : WorkItem} {backend : ExecutionBackend F} {now : SystemTime} {k : String}
    {vm found : VirtualMachine F} (hs : plane.virtualMachines[k]?=some vm)
    (hf : (plane.executeVirtualMachine id workload backend now).plane.virtualMachines[k]?=
      some found) : found=vm ∨ vm.state=.running ∧ found={vm with state := .failed} := by
  have hsame : plane.virtualMachines[k]?=some found →
      found=vm ∨ vm.state=.running ∧ found={vm with state := .failed} := by
    intro hf
    rw [hs,Option.some.injEq] at hf
    exact .inl hf.symm
  rw [executeVirtualMachine] at hf
  split at hf
  · exact hsame hf
  · next old hold =>
    split at hf
    · exact hsame hf
    · next node hnode =>
      have hrun := old.executeAt_vm node workload backend now
      generalize old.executeAt node workload backend now=run at hf hrun
      have hkey : run.vm.id.id=id.id := by
        have hid := (hk.machine _ _ hold).1
        rcases hrun with h|⟨_,h⟩ <;> rw [h] <;> exact hid
      have hwritten : (plane.virtualMachines.insert run.vm.id.id run.vm)[k]?=some found →
          found=vm ∨ vm.state=.running ∧ found={vm with state := .failed} := by
        intro hf
        rw [hkey] at hf
        rcases OrderedMap.getElem?_insert_eq_some.mp hf with ⟨rfl,rfl⟩|⟨_,hf⟩
        · rw [hs,Option.some.injEq] at hold
          rw [hold]
          exact hrun
        · exact hsame hf
      dsimp only at hf
      cases hr : run.result with
      | panic =>
        rw [hr] at hf
        exact hsame hf
      | ok receipt =>
        rw [hr] at hf
        exact hwritten hf
      | err e =>
        rw [hr] at hf
        exact hwritten hf

/-- No operation makes a machine runnable that was not. -/
theorem Step.runnable {plane after : Plane F} {op : Operation F} (hk : WellKept plane)
    (h : Step plane op after) {k : String} {vm found : VirtualMachine F}
    (hs : plane.virtualMachines[k]?=some vm) (hf : after.virtualMachines[k]?=some found)
    (hr : found.Runnable) : vm.Runnable := by
  obtain ⟨uuids,hfresh,rfl⟩ := h
  have hsame : (plane.perform uuids op).virtualMachines=plane.virtualMachines ∨
      (∃ uuid vm,¬plane.Known uuid ∧
        (plane.perform uuids op).virtualMachines=plane.virtualMachines.insert uuid vm) →
      vm.Runnable := by
    intro h
    rwa [← same_machine h hs hf]
  cases op with
  | registerParticipant participant =>
    refine hsame (.inl ?_)
    rw [perform,registerParticipant]
    cases plane.registry.register participant <;> rfl
  | announceParticipant ad observedAt =>
    refine hsame (.inl ?_)
    rw [perform,announceParticipant]
    cases plane.discovery.upsert ad observedAt <;> rfl
  | removeDiscoveredParticipant id =>
    refine hsame (.inl ?_)
    rw [perform,removeDiscoveredParticipant]
    cases plane.discovery.remove id <;> rfl
  | createVirtualMachine node createdAt =>
    refine hsame ?_
    rw [perform,createVirtualMachine]
    cases hv : VirtualMachine.fromNode node createdAt (uuids 0) with
    | error e => exact .inl rfl
    | ok made =>
      obtain ⟨_,rfl⟩ := VirtualMachine.fromNodeWithLeases_eq_ok.mp hv
      exact .inr ⟨uuids 0,_,hfresh.fresh 0 (by simp [Operation.draws]),rfl⟩
  | createLeasedLogicalNode scheduler requirement now duration =>
    exact hsame (.inl (createLeasedLogicalNode_machines _ _ _ _ _ _))
  | createLeasedLogicalNodeWithRuntime scheduler requirement runtime now duration =>
    refine hsame (.inl ?_)
    rw [perform,createLeasedLogicalNodeWithRuntime_plane]
    exact createLeasedLogicalNode_machines _ _ _ _ _ _
  | createLeasedVirtualMachine scheduler requirement runtime createdAt duration =>
    exact hsame (createLeasedVirtualMachine_machines hfresh)
  | startVirtualMachine id =>
    rcases updateVirtualMachine_machine hs hf with rfl|hc
    · exact hr
    · exact .inl (VirtualMachine.start_eq_ok.mp hc).1
  | stopVirtualMachine id =>
    rcases updateVirtualMachine_machine hs hf with rfl|hc
    · exact hr
    · exact .inr (VirtualMachine.stop_eq_ok.mp hc).1
  | executeVirtualMachine id workload backend now =>
    rcases executeVirtualMachine_machine hk hs hf with rfl|⟨hrun,_⟩
    · exact hr
    · exact .inr hrun
  | destroyVirtualMachine id =>
    rw [perform,destroyVirtualMachine_machines] at hf
    have hold := (OrderedMap.getElem?_erase_eq_some.mp hf).2
    rw [hs,Option.some.injEq] at hold
    rwa [hold]
  | releaseLease id =>
    refine hsame (.inl ?_)
    rw [perform]
    rcases hrel : plane.releaseLease id with ⟨e|lease,after⟩
    · rw [releaseLease_of_error hrel]
    · obtain ⟨_,_,rfl⟩ := releaseLease_eq_ok.mp hrel
      rfl
  | releaseLeases leases =>
    refine hsame (.inl ?_)
    obtain ⟨names,_,hafter,_⟩ := plane.releaseLeases_frame leases
    rw [perform,hafter]

/-- No direct release takes a lease from a machine that runs or may be
started, so the store keeps them. -/
theorem RunnableLeased.keep {plane after : Plane F} {op : Operation F} (hk : WellKept plane)
    (ha : RunnableLeased plane) (hr : KeepsRunnable plane op) (h : Step plane op after) :
    RunnableLeased after := by
  intro k found hf hrun l hl
  have hc := h.change hk
  cases hs : plane.virtualMachines[k]? with
  | none => exact hc.born_stored hs hf l hl
  | some vm =>
    have hvm := h.runnable hk hs hf hrun
    obtain ⟨state,rfl⟩ := hc.stays hs hf
    have hn : ¬op.Releases l.id.id := fun hrel => hr _ hrel k vm hs hvm l hl rfl
    exact hc.keeps_lease hk hs hf hl hn (ha k vm hs hvm l hl)

/-- Whenever an execution reaches the backend, every lease of the machine is
stored as the machine has it. -/
def ReleasedStops (plane : Plane F) : Prop :=
  ∀ (id : Identity) (vm : VirtualMachine F) (workload : WorkItem) (backend : ExecutionBackend F)
    (now : SystemTime) (plan : ExecutionPlan F),plane.virtualMachines[id.id]?=some vm →
    (plane.executeVirtualMachine id workload backend now).sent=some plan →
    ∀ l ∈ vm.leases,plane.leases[l.id.id]?=some l

/-- A machine that reaches the backend runs. -/
theorem running_of_sent {plane : Plane F} {id : Identity} {vm : VirtualMachine F}
    {workload : WorkItem} {backend : ExecutionBackend F} {now : SystemTime}
    {plan : ExecutionPlan F} (hs : plane.virtualMachines[id.id]?=some vm)
    (h : (plane.executeVirtualMachine id workload backend now).sent=some plan) :
    vm.state=.running := by
  rw [executeVirtualMachine,hs] at h
  dsimp only at h
  split at h
  · cases h
  · next node hn =>
    have hsent : (vm.executeAt node workload backend now).sent=some plan := by
      split at h <;> exact h
    exact (VirtualMachine.executeAt_sent_iff.mp hsent).1

/-- Along runs that never release a lease of a machine that runs or may be
started directly, a machine only executes while all its leases are stored. -/
theorem released_stops (plane : Plane F) (h : ReachableBy KeepsRunnable plane) :
    ReleasedStops plane := by
  obtain ⟨registry,discovery,hrun⟩ := h
  have hkeep : ∀ (s : Plane F) op t,WellKept s ∧ RunnableLeased s → KeepsRunnable s op →
      Step s op t → WellKept t ∧ RunnableLeased t := by
    rintro s op t ⟨hk,ha⟩ hr hstep
    exact ⟨hk.keep (hstep.change hk),ha.keep hk hr hstep⟩
  have hstart : RunnableLeased (Plane.new registry discovery) := by
    intro k vm hs
    simp [Plane.new] at hs
  obtain ⟨_,ha⟩ := hrun.invariant hkeep ⟨new_wellKept registry discovery,hstart⟩
  intro id vm workload backend now plan hs hsent
  exact ha _ vm hs (.inr (running_of_sent hs hsent))

end Stages

section Sample

open VirtualMachine (startedMachine leasedWork oneCorePlan)

/-- The plane with the leased machine started. -/
def runningPlane : Plane ℚ := (leasedPlane.startVirtualMachine wasmIdentity).2

/-- The plane once the lease of the started machine was released directly. -/
def strippedPlane : Plane ℚ :=
  {runningPlane with leases := runningPlane.leases.erase (sampleTexts 0)}

/-- The start of the leased machine is a step. -/
theorem leasedPlane_step_runningPlane [UuidCrate] :
    Step leasedPlane (.startVirtualMachine wasmIdentity) runningPlane :=
  ⟨sampleTexts,.zero _ _,rfl⟩

/-- The started machine executes while its lease is stored. -/
theorem released_stops_runningPlane : letI := hyphenatedUuid
    ReachableBy KeepsRunnable runningPlane ∧
      (runningPlane.executeVirtualMachine wasmIdentity leasedWork noopBackend sampleInstant).sent=
        some (oneCorePlan AggregatingScheduler.twoCores.participantId) ∧
      runningPlane.leases[wasmLease.id.id]?=some wasmLease := by
  let := hyphenatedUuid
  have hcreate : KeepsRunnable newPlane leaseOperation := fun k hr => hr.elim
  have hstart : KeepsRunnable leasedPlane (.startVirtualMachine wasmIdentity) :=
    fun k hr => hr.elim
  have hreach : ReachableBy KeepsRunnable runningPlane :=
    ⟨_,_,(Relation.ReflTransGen.single ⟨_,hcreate,newPlane_step_leasedPlane⟩).tail
      ⟨_,hstart,leasedPlane_step_runningPlane⟩⟩
  have hsent : (runningPlane.executeVirtualMachine wasmIdentity leasedWork noopBackend
      sampleInstant).sent=some (oneCorePlan AggregatingScheduler.twoCores.participantId) := by
    decide +kernel
  have hs : runningPlane.virtualMachines[wasmIdentity.id]?=some startedMachine := by
    decide +kernel
  exact ⟨hreach,hsent,released_stops runningPlane hreach wasmIdentity startedMachine leasedWork
    noopBackend sampleInstant _ hs hsent wasmLease List.mem_cons_self⟩

/-- The machine executes on although its lease was released. -/
theorem not_releasedStops_strippedPlane : letI := hyphenatedUuid
    Reachable strippedPlane ∧
      (strippedPlane.executeVirtualMachine wasmIdentity leasedWork noopBackend sampleInstant).sent=
        some (oneCorePlan AggregatingScheduler.twoCores.participantId) ∧
      strippedPlane.leases[wasmLease.id.id]?=none ∧
      ¬ReleasedStops strippedPlane := by
  let := hyphenatedUuid
  have hrel : runningPlane.releaseLease ⟨sampleTexts 0,.lease⟩=(.ok wasmLease,strippedPlane) := by
    rw [releaseLease_eq_ok]
    refine ⟨⟨rfl,?_⟩,?_,rfl⟩
    · decide +kernel
    · decide +kernel
  have hstep : Step runningPlane (.releaseLease ⟨sampleTexts 0,.lease⟩) strippedPlane := by
    refine ⟨sampleTexts,.zero _ _,?_⟩
    rw [perform,hrel]
  have hreach : Reachable strippedPlane :=
    ⟨_,_,((Relation.ReflTransGen.single ⟨_,trivial,newPlane_step_leasedPlane⟩).tail
      ⟨_,trivial,leasedPlane_step_runningPlane⟩).tail ⟨_,trivial,hstep⟩⟩
  have hsent : (strippedPlane.executeVirtualMachine wasmIdentity leasedWork noopBackend
      sampleInstant).sent=some (oneCorePlan AggregatingScheduler.twoCores.participantId) := by
    decide +kernel
  have hs : strippedPlane.virtualMachines[wasmIdentity.id]?=some startedMachine := by
    decide +kernel
  have hgone : strippedPlane.leases[wasmLease.id.id]?=none := by
    decide +kernel
  refine ⟨hreach,hsent,hgone,?_⟩
  intro h
  have hl := h wasmIdentity startedMachine leasedWork noopBackend sampleInstant _ hs hsent
    wasmLease List.mem_cons_self
  rw [hgone] at hl
  cases hl

end Sample

end Plane

end OpenHost
