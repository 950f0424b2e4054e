import OpenHost.PlaneChange
import OpenHost.Transition

/-!
# Runs of the control plane

A run starts from a new plane and performs any operations in any order,
each to its end. Every operation makes one of the changes listed before, so
a fact that these changes keep holds of every reachable plane.
-/

namespace OpenHost.Plane

variable {F : Type} [Cores F]

/-- A change of a stored machine changes its stage. -/
theorem updateVirtualMachine_change {plane : Plane F} {op : Operation F} {id : Identity}
    {change : VirtualMachine F → Except VirtualMachineError (VirtualMachine F)}
    (hc : ∀ vm changed,change vm=.ok changed → ∃ state,changed={vm with state := state}) :
    Change plane op (plane.updateVirtualMachine id change).2 := by
  rw [updateVirtualMachine]
  cases hs : plane.virtualMachines[id.id]? with
  | none => exact .unchanged ⟨rfl,rfl,rfl⟩
  | some vm =>
    dsimp only
    cases hv : change vm with
    | error e => exact .unchanged ⟨rfl,rfl,rfl⟩
    | ok changed =>
      obtain ⟨state,rfl⟩ := hc vm changed hv
      exact .staged hs state

section Runs

variable [UuidCrate]

/-- The plane behind an operation. -/
def perform (plane : Plane F) (uuids : ℕ → String) : Operation F → Plane F
  | .registerParticipant participant => (plane.registerParticipant participant).2
  | .announceParticipant ad observedAt => (plane.announceParticipant ad observedAt).2
  | .removeDiscoveredParticipant id => (plane.removeDiscoveredParticipant id).2
  | .createVirtualMachine node createdAt =>
    (plane.createVirtualMachine node createdAt (uuids 0)).2
  | .createLeasedLogicalNode scheduler requirement now duration =>
    (plane.createLeasedLogicalNode scheduler requirement now duration uuids).2
  | .createLeasedLogicalNodeWithRuntime scheduler requirement runtime now duration =>
    (plane.createLeasedLogicalNodeWithRuntime scheduler requirement runtime now duration uuids).2
  | .createLeasedVirtualMachine scheduler requirement runtime createdAt duration =>
    (plane.createLeasedVirtualMachine scheduler requirement runtime createdAt duration uuids).2
  | .startVirtualMachine id => (plane.startVirtualMachine id).2
  | .stopVirtualMachine id => (plane.stopVirtualMachine id).2
  | .executeVirtualMachine id workload backend now =>
    (plane.executeVirtualMachine id workload backend now).plane
  | .destroyVirtualMachine id => (plane.destroyVirtualMachine id).2
  | .releaseLease id => (plane.releaseLease id).2
  | .releaseLeases leases => (plane.releaseLeases leases).2

/-- One completed operation, with fresh texts from the generator. -/
def Step (plane : Plane F) (op : Operation F) (after : Plane F) : Prop :=
  ∃ uuids,FreshIds plane.Known op.draws uuids ∧ after=plane.perform uuids op

/-- Planes that a new plane can become through allowed operations. -/
def ReachableBy (allowed : Plane F → Operation F → Prop) (plane : Plane F) : Prop :=
  ∃ registry discovery,Transition.Reaches Step allowed (Plane.new registry discovery) plane

/-- Planes that a new plane can become. -/
def Reachable (plane : Plane F) : Prop := ReachableBy (fun _ _ => True) plane

/-- Leases planned from fresh texts are granted. -/
theorem granted_of_planLeases {plane : Plane F} {scheduler : Scheduler F}
    {requirement : ResourceFragment F} {now : SystemTime} {duration : Duration}
    {uuids : ℕ → String} {node : LogicalNode F} {leases : List (Lease F)} {n : ℕ}
    (hf : FreshIds plane.Known n uuids) (hn : Operation.planned scheduler requirement ≤ n)
    (hp : planLeases scheduler requirement now duration uuids=.ok (node,leases)) :
    Granted plane leases := by
  obtain ⟨_,_,hs,_,e,_,rfl,hv⟩ := planLeases_eq_ok.mp hp
  have hlen : node.resources.allocations.length ≤ n := by
    rw [Operation.planned,hs] at hn
    exact hn
  refine ⟨hv,?_,?_⟩
  · refine leasesFor_distinct fun i hi j hj he => ?_
    exact hf.distinct i (by omega) j (by omega) he
  · intro l hl
    obtain ⟨i,a,hi,rfl⟩ := mem_leasesFor.mp hl
    have hil := (List.getElem?_eq_some_iff.mp hi).1
    exact hf.fresh i (by omega)

/-- Binding the runtime does not touch the plane. -/
theorem createLeasedLogicalNodeWithRuntime_plane (plane : Plane F) (scheduler : Scheduler F)
    (requirement : ResourceFragment F) (runtime : RuntimeSpec) (now : SystemTime)
    (duration : Duration) (uuids : ℕ → String) :
    (plane.createLeasedLogicalNodeWithRuntime scheduler requirement runtime now duration uuids).2=
      (plane.createLeasedLogicalNode scheduler requirement now duration uuids).2 := by
  rw [createLeasedLogicalNodeWithRuntime]
  rcases plane.createLeasedLogicalNode scheduler requirement now duration uuids with
    ⟨⟨node,leases⟩|e|_,after⟩
  · dsimp only
    cases node.withRuntime runtime <;> rfl
  · rfl
  · rfl

/-- The creation of a leased node stores what was planned. -/
theorem createLeasedLogicalNode_change {plane : Plane F} {op : Operation F}
    {scheduler : Scheduler F} {requirement : ResourceFragment F} {now : SystemTime}
    {duration : Duration} {uuids : ℕ → String}
    (hf : FreshIds plane.Known (Operation.planned scheduler requirement) uuids) :
    Change plane op (plane.createLeasedLogicalNode scheduler requirement now duration uuids).2 := by
  rw [createLeasedLogicalNode]
  cases hp : planLeases scheduler requirement now duration uuids with
  | ok found => exact .granted (granted_of_planLeases hf le_rfl hp)
  | err e => exact .unchanged ⟨rfl,rfl,rfl⟩
  | panic => exact .unchanged ⟨rfl,rfl,rfl⟩

/-- The creation of an unleased machine stores it with its node. -/
theorem createVirtualMachine_change {plane : Plane F} {node : LogicalNode F}
    {createdAt : SystemTime} {uuid : String} (hf : ¬plane.Known uuid) :
    Change plane (.createVirtualMachine node createdAt)
      (plane.createVirtualMachine node createdAt uuid).2 := by
  rw [createVirtualMachine,VirtualMachine.fromNode]
  cases hv : VirtualMachine.fromNodeWithLeases node [] createdAt uuid with
  | error e => exact .unchanged ⟨rfl,rfl,rfl⟩
  | ok vm =>
    obtain ⟨⟨_,_,_,hc,_,_⟩,rfl⟩ := VirtualMachine.fromNodeWithLeases_eq_ok.mp hv
    have hg : Granted plane ([] : List (Lease F)) := ⟨by simp,by simp,by simp⟩
    have hr : (Operation.createVirtualMachine node createdAt).Records node := rfl
    exact .created hr hg hf hc

/-- There are as many leases as the scheduler planned allocations. -/
theorem planLeases_length {scheduler : Scheduler F} {requirement : ResourceFragment F}
    {now : SystemTime} {duration : Duration} {uuids : ℕ → String} {node : LogicalNode F}
    {leases : List (Lease F)}
    (hp : planLeases scheduler requirement now duration uuids=.ok (node,leases)) :
    leases.length<Operation.planned scheduler requirement+1 := by
  obtain ⟨_,_,hs,_,t,_,rfl,_⟩ := planLeases_eq_ok.mp hp
  rw [leasesFor_length,Operation.planned,hs]
  exact Nat.lt_succ_self _

/-- The plane behind the creation of a leased machine has everything stored,
or is as before, or is the one behind the creation of the node. -/
theorem createLeasedVirtualMachine_cases {plane : Plane F} {scheduler : Scheduler F}
    {requirement : ResourceFragment F} {runtime : RuntimeSpec} {createdAt : SystemTime}
    {duration : Duration} {uuids : ℕ → String}
    (hf : FreshIds plane.Known (Operation.planned scheduler requirement+1) uuids) :
    (∃ node leases vm,planLeases scheduler requirement createdAt duration uuids=.ok (node,leases) ∧
      VirtualMachine.fromLeasedNode {node with runtime := runtime} leases createdAt
        (uuids leases.length)=.ok vm ∧
      (plane.createLeasedVirtualMachine scheduler requirement runtime createdAt duration uuids).2=
        {plane with
          leases := storeLeases plane.leases leases
          logicalNodes := plane.logicalNodes.insert node.id {node with runtime := runtime}
          virtualMachines := plane.virtualMachines.insert vm.id.id vm}) ∨
    (plane.createLeasedVirtualMachine scheduler requirement runtime createdAt duration uuids).2=
      plane ∨
    (plane.createLeasedVirtualMachine scheduler requirement runtime createdAt duration uuids).2=
      (plane.createLeasedLogicalNode scheduler requirement createdAt duration uuids).2 := by
  rw [← createLeasedLogicalNodeWithRuntime_plane plane scheduler requirement runtime,
    createLeasedVirtualMachine]
  rcases hn : plane.createLeasedLogicalNodeWithRuntime scheduler requirement runtime createdAt
    duration uuids with ⟨⟨bound,leases⟩|e|_,stored⟩
  · obtain ⟨_,node,hp,rfl,rfl⟩ := createLeasedLogicalNodeWithRuntime_eq_ok.mp hn
    have hg := granted_of_planLeases hf (Nat.le_succ _) hp
    dsimp only
    cases hv : VirtualMachine.fromLeasedNode {node with runtime := runtime} leases createdAt
        (uuids leases.length) with
    | ok vm => exact Or.inl ⟨node,leases,vm,hp,hv,rfl⟩
    | error e =>
      have hback : removeLeases (storeLeases plane.leases leases) leases=plane.leases :=
        removeLeases_storeLeases fun l hl =>
          Std.ExtTreeMap.getElem?_eq_none fun hm => hg.fresh l hl (Or.inl hm)
      refine Or.inr (Or.inl ?_)
      dsimp only
      rw [hback]
  · exact Or.inr (Or.inr rfl)
  · exact Or.inr (Or.inr rfl)

/-- The creation of a leased machine stores everything, or only the leases,
or nothing. -/
theorem createLeasedVirtualMachine_change {plane : Plane F} {scheduler : Scheduler F}
    {requirement : ResourceFragment F} {runtime : RuntimeSpec} {createdAt : SystemTime}
    {duration : Duration} {uuids : ℕ → String}
    (hf : FreshIds plane.Known (Operation.planned scheduler requirement+1) uuids) :
    Change plane (.createLeasedVirtualMachine scheduler requirement runtime createdAt duration)
      (plane.createLeasedVirtualMachine scheduler requirement runtime createdAt duration
        uuids).2 := by
  rcases createLeasedVirtualMachine_cases hf with ⟨node,leases,vm,hp,hv,hafter⟩|hafter|hafter
  · obtain ⟨⟨_,_,_,hc,_,_⟩,rfl⟩ :=
      VirtualMachine.fromNodeWithLeases_eq_ok.mp (VirtualMachine.fromLeasedNode_eq_ok.mp hv).2
    have hg := granted_of_planLeases hf (Nat.le_succ _) hp
    have hs := (planLeases_eq_ok.mp hp).2.2.1
    rw [hafter]
    exact .created ⟨node,hs,rfl⟩ hg (hf.fresh _ (planLeases_length hp)) hc
  · rw [hafter]
    exact .unchanged ⟨rfl,rfl,rfl⟩
  · rw [hafter]
    exact createLeasedLogicalNode_change (hf.weaken (Nat.le_succ _))

/-- A lease is released exactly under a lease identity that is stored. -/
theorem releaseLease_eq_ok {plane after : Plane F} {id : Identity} {lease : Lease F} :
    plane.releaseLease id=(.ok lease,after) ↔ (id.kind=.lease ∧ IsCanonical id.id) ∧
      plane.leases[id.id]?=some lease ∧ after={plane with leases := plane.leases.erase id.id} := by
  rw [releaseLease,← Lease.identity_check]
  by_cases hid : id.kind≠.lease ∨ id.validate.isOk=false
  · rw [if_pos hid]
    simp [hid]
  · rw [if_neg hid]
    cases plane.leases[id.id]? with
    | none => simp
    | some l =>
      simp only [Prod.mk.injEq,Except.ok.injEq,Option.some.injEq,hid,not_false_eq_true,true_and]
      exact and_congr_right fun _ => eq_comm

/-- A failed release changes nothing. -/
theorem releaseLease_of_error {plane after : Plane F} {id : Identity} {e : ControlError}
    (h : plane.releaseLease id=(.error e,after)) : after=plane := by
  rw [releaseLease] at h
  split at h
  · exact (congrArg Prod.snd h).symm
  · split at h
    · exact (congrArg Prod.snd h).symm
    · cases h

/-- A sequence of releases takes out names of the given leases, all of them
lease identities, and every name if it succeeds. -/
theorem releaseLeases_frame (plane : Plane F) (leases : List (Lease F)) :
    ∃ names,(∀ k ∈ names,∃ l ∈ leases,l.id.kind=.lease ∧ l.id.id=k) ∧
      (plane.releaseLeases leases).2={plane with leases := eraseNames plane.leases names} ∧
      ((plane.releaseLeases leases).1=.ok () → names=leases.map fun l => l.id.id) := by
  induction leases generalizing plane with
  | nil => exact ⟨[],by simp,rfl,fun _ => rfl⟩
  | cons lease rest ih =>
    rw [releaseLeases]
    rcases hl : plane.releaseLease lease.id with ⟨e|found,after⟩
    · have ha := releaseLease_of_error hl
      exact ⟨[],by simp,ha,by simp⟩
    · obtain ⟨⟨hk,_⟩,_,rfl⟩ := releaseLease_eq_ok.mp hl
      obtain ⟨names,hnames,hafter,hall⟩ :=
        ih {plane with leases := plane.leases.erase lease.id.id}
      refine ⟨lease.id.id::names,?_,hafter,fun hok => by rw [hall hok,List.map_cons]⟩
      intro k hm
      rcases List.mem_cons.mp hm with rfl|hm
      · exact ⟨lease,List.mem_cons_self,hk,rfl⟩
      · obtain ⟨l,hmem,hl'⟩ := hnames k hm
        exact ⟨l,List.mem_cons_of_mem _ hmem,hl'⟩

/-- Valid leases with distinct names are all released exactly when all of
them are stored. -/
theorem releaseLeases_isOk {plane : Plane F} {leases : List (Lease F)}
    (hv : ∀ l ∈ leases,l.Valid) (hd : (leases.map fun l => l.id.id).Nodup) :
    (plane.releaseLeases leases).1=.ok () ↔ ∀ l ∈ leases,l.id.id ∈ plane.leases := by
  induction leases generalizing plane with
  | nil => simp [releaseLeases]
  | cons lease rest ih =>
    have hvl := hv lease List.mem_cons_self
    have hvr : ∀ l ∈ rest,l.Valid := fun l hl => hv l (List.mem_cons_of_mem _ hl)
    rw [List.map_cons,List.nodup_cons] at hd
    rw [releaseLeases,List.forall_mem_cons]
    by_cases hm : lease.id.id ∈ plane.leases
    · obtain ⟨found,hs⟩ :=
        Option.isSome_iff_exists.mp (Std.ExtTreeMap.mem_iff_isSome_getElem?.mp hm)
      have hrel : plane.releaseLease lease.id=
          (.ok found,{plane with leases := plane.leases.erase lease.id.id}) :=
        releaseLease_eq_ok.mpr ⟨hvl.id,hs,rfl⟩
      rw [hrel]
      dsimp only
      rw [ih hvr hd.2]
      have hother : ∀ l ∈ rest,l.id.id≠lease.id.id := by
        intro l hl he
        exact hd.1 (List.mem_map.mpr ⟨l,hl,he⟩)
      constructor
      · intro hall
        refine ⟨hm,fun l hl => ?_⟩
        exact Std.ExtTreeMap.mem_of_mem_erase (hall l hl)
      · rintro ⟨_,hall⟩ l hl
        rw [Std.ExtTreeMap.mem_erase]
        refine ⟨?_,hall l hl⟩
        rw [ne_eq,Std.compare_eq_iff_eq]
        exact (hother l hl).symm
    · have hne : ∀ found after,plane.releaseLease lease.id≠(.ok found,after) := by
        intro found after hrel
        have hs := (releaseLease_eq_ok.mp hrel).2.1
        rw [Std.ExtTreeMap.getElem?_eq_none hm] at hs
        cases hs
      rcases hl : plane.releaseLease lease.id with ⟨e|found,after⟩
      · simp [hm]
      · exact (hne found after hl).elim

/-- Releasing the leases of a machine, whether or not it has any. -/
theorem destroyVirtualMachine_eq {plane : Plane F} {id : Identity} {vm : VirtualMachine F}
    (hs : plane.virtualMachines[id.id]?=some vm) :
    plane.destroyVirtualMachine id=
      match Plane.releaseLeases {plane with virtualMachines := plane.virtualMachines.erase id.id}
        vm.leases with
      | (.error e,after) => (.error e,after)
      | (.ok _,after) =>
        (.ok vm,{after with logicalNodes := after.logicalNodes.erase vm.nodeId.id}) := by
  rw [destroyVirtualMachine,hs]
  dsimp only
  cases hl : vm.leases with
  | nil => rfl
  | cons l rest => rfl

/-- The teardown of a machine removes everything if its leases are all
released, and otherwise the machine and some of the leases. -/
theorem destroyVirtualMachine_cases {plane : Plane F} {id : Identity} {vm : VirtualMachine F}
    (hs : plane.virtualMachines[id.id]?=some vm) :
    ((Plane.releaseLeases {plane with virtualMachines := plane.virtualMachines.erase id.id}
        vm.leases).1=.ok () ∧
      plane.destroyVirtualMachine id=(.ok vm,{plane with
        virtualMachines := plane.virtualMachines.erase id.id
        leases := eraseNames plane.leases (vm.leases.map fun l => l.id.id)
        logicalNodes := plane.logicalNodes.erase vm.nodeId.id})) ∨
    ∃ e names,(Plane.releaseLeases {plane with
        virtualMachines := plane.virtualMachines.erase id.id} vm.leases).1=.error e ∧
      names ⊆ (vm.leases.map fun l => l.id.id) ∧
      plane.destroyVirtualMachine id=(.error e,{plane with
        virtualMachines := plane.virtualMachines.erase id.id
        leases := eraseNames plane.leases names}) := by
  obtain ⟨names,hnames,hafter,hall⟩ := releaseLeases_frame
    {plane with virtualMachines := plane.virtualMachines.erase id.id} vm.leases
  rw [destroyVirtualMachine_eq hs]
  rcases hr : Plane.releaseLeases {plane with
    virtualMachines := plane.virtualMachines.erase id.id} vm.leases with ⟨e|u,after⟩
  · rw [hr] at hafter
    dsimp only at hafter
    refine Or.inr ⟨e,names,rfl,?_,by rw [hafter]⟩
    intro k hm
    obtain ⟨l,hmem,_,he⟩ := hnames k hm
    exact List.mem_map.mpr ⟨l,hmem,he⟩
  · rw [hr] at hafter hall
    dsimp only at hafter hall
    refine Or.inl ⟨rfl,?_⟩
    dsimp only
    rw [hafter,hall rfl]

/-- Whether or not it succeeds, a teardown removes the machine and no other. -/
theorem destroyVirtualMachine_machines (plane : Plane F) (id : Identity) :
    (plane.destroyVirtualMachine id).2.virtualMachines=plane.virtualMachines.erase id.id := by
  cases hs : plane.virtualMachines[id.id]? with
  | none => rw [destroyVirtualMachine,hs,OrderedMap.erase_of_getElem?_eq_none hs]
  | some vm =>
    rcases destroyVirtualMachine_cases hs with ⟨_,hd⟩|⟨e,names,_,_,hd⟩
    · rw [hd]
    · rw [hd]

/-- A machine whose leases are all stored is removed with everything. -/
theorem destroyVirtualMachine_of_leased {plane : Plane F} {id : Identity} {vm : VirtualMachine F}
    (hk : WellKept plane) (hs : plane.virtualMachines[id.id]?=some vm)
    (hl : ∀ l ∈ vm.leases,l.id.id ∈ plane.leases) :
    plane.destroyVirtualMachine id=(.ok vm,{plane with
      virtualMachines := plane.virtualMachines.erase id.id
      leases := eraseNames plane.leases (vm.leases.map fun l => l.id.id)
      logicalNodes := plane.logicalNodes.erase vm.nodeId.id}) := by
  have hok : (Plane.releaseLeases {plane with
      virtualMachines := plane.virtualMachines.erase id.id} vm.leases).1=.ok () :=
    (releaseLeases_isOk (hk.valid _ _ hs) (hk.distinct _ _ hs)).mpr hl
  rcases destroyVirtualMachine_cases hs with ⟨_,hd⟩|⟨e,names,he,_,_⟩
  · exact hd
  · rw [hok] at he
    cases he

/-- A machine with a missing lease is removed, and the call fails. -/
theorem destroyVirtualMachine_of_missing {plane : Plane F} {id : Identity}
    {vm : VirtualMachine F} (hk : WellKept plane) (hs : plane.virtualMachines[id.id]?=some vm)
    (hl : ∃ l ∈ vm.leases,l.id.id∉plane.leases) :
    ∃ e names,names ⊆ (vm.leases.map fun l => l.id.id) ∧
      plane.destroyVirtualMachine id=(.error e,{plane with
        virtualMachines := plane.virtualMachines.erase id.id
        leases := eraseNames plane.leases names}) := by
  have hnot : ¬(Plane.releaseLeases {plane with
      virtualMachines := plane.virtualMachines.erase id.id} vm.leases).1=.ok () := by
    rw [releaseLeases_isOk (hk.valid _ _ hs) (hk.distinct _ _ hs)]
    simpa using hl
  rcases destroyVirtualMachine_cases hs with ⟨hok,_⟩|⟨e,names,_,hsub,hd⟩
  · exact (hnot hok).elim
  · exact ⟨e,names,hsub,hd⟩

/-- An execution changes the stage of the machine at most. -/
theorem executeVirtualMachine_change {plane : Plane F} {op : Operation F} (hk : WellKept plane)
    (id : Identity) (workload : WorkItem) (backend : ExecutionBackend F) (now : SystemTime) :
    Change plane op (plane.executeVirtualMachine id workload backend now).plane := by
  rw [executeVirtualMachine]
  cases hs : plane.virtualMachines[id.id]? with
  | none => exact .unchanged ⟨rfl,rfl,rfl⟩
  | some vm =>
    dsimp only
    cases plane.logicalNodes[vm.nodeId.id]? with
    | none => exact .unchanged ⟨rfl,rfl,rfl⟩
    | some node =>
      dsimp only
      obtain ⟨state,hvm⟩ := vm.executeAt_frame node workload backend now
      generalize vm.executeAt node workload backend now=run at hvm ⊢
      have hkey : run.vm.id.id=id.id := by
        rw [hvm]
        exact (hk.machine _ _ hs).1
      have hstaged : Change plane op
          {plane with virtualMachines := plane.virtualMachines.insert run.vm.id.id run.vm} := by
        rw [hkey,hvm]
        exact .staged hs state
      cases run.result with
      | panic => exact .unchanged ⟨rfl,rfl,rfl⟩
      | ok receipt => exact hstaged
      | err e => exact hstaged

/-- Every operation changes the plane in one of the listed ways. -/
theorem perform_change {plane : Plane F} (hk : WellKept plane) {uuids : ℕ → String}
    {op : Operation F} (hf : FreshIds plane.Known op.draws uuids) :
    Change plane op (plane.perform uuids op) := by
  cases op with
  | registerParticipant participant =>
    rw [perform,registerParticipant]
    cases plane.registry.register participant <;> exact .unchanged ⟨rfl,rfl,rfl⟩
  | announceParticipant ad observedAt =>
    rw [perform,announceParticipant]
    cases plane.discovery.upsert ad observedAt <;> exact .unchanged ⟨rfl,rfl,rfl⟩
  | removeDiscoveredParticipant id =>
    rw [perform,removeDiscoveredParticipant]
    cases plane.discovery.remove id <;> exact .unchanged ⟨rfl,rfl,rfl⟩
  | createVirtualMachine node createdAt =>
    exact createVirtualMachine_change (hf.fresh 0 (by simp [Operation.draws]))
  | createLeasedLogicalNode scheduler requirement now duration =>
    exact createLeasedLogicalNode_change hf
  | createLeasedLogicalNodeWithRuntime scheduler requirement runtime now duration =>
    rw [perform,createLeasedLogicalNodeWithRuntime_plane]
    exact createLeasedLogicalNode_change hf
  | createLeasedVirtualMachine scheduler requirement runtime createdAt duration =>
    exact createLeasedVirtualMachine_change hf
  | startVirtualMachine id =>
    exact updateVirtualMachine_change fun vm changed h =>
      ⟨.running,(VirtualMachine.start_eq_ok.mp h).2⟩
  | stopVirtualMachine id =>
    exact updateVirtualMachine_change fun vm changed h =>
      ⟨.stopped,(VirtualMachine.stop_eq_ok.mp h).2⟩
  | executeVirtualMachine id workload backend now =>
    exact executeVirtualMachine_change hk id workload backend now
  | destroyVirtualMachine id =>
    rw [perform]
    cases hs : plane.virtualMachines[id.id]? with
    | none =>
      rw [destroyVirtualMachine,hs]
      exact .unchanged ⟨rfl,rfl,rfl⟩
    | some vm =>
      by_cases hl : ∀ l ∈ vm.leases,l.id.id ∈ plane.leases
      · rw [destroyVirtualMachine_of_leased hk hs hl]
        exact .destroyed rfl hs hl
      · have hm : ∃ l ∈ vm.leases,l.id.id∉plane.leases := by simpa using hl
        obtain ⟨e,names,hsub,hd⟩ := destroyVirtualMachine_of_missing hk hs hm
        rw [hd]
        exact .halted rfl hs hsub hm
  | releaseLease id =>
    rw [perform]
    rcases hr : plane.releaseLease id with ⟨e|lease,after⟩
    · rw [releaseLease_of_error hr]
      exact .unchanged ⟨rfl,rfl,rfl⟩
    · obtain ⟨⟨hkind,_⟩,_,rfl⟩ := releaseLease_eq_ok.mp hr
      have hrel : ∀ k ∈ [id.id],(Operation.releaseLease (F:=F) id).Releases k := by
        intro k hm
        exact ⟨hkind,(List.mem_singleton.mp hm).symm⟩
      exact .released hrel
  | releaseLeases leases =>
    obtain ⟨names,hnames,hafter,_⟩ := plane.releaseLeases_frame leases
    rw [perform,hafter]
    exact .released hnames

/-- Every step of a plane in order is one of the listed changes. -/
theorem Step.change {plane after : Plane F} {op : Operation F} (hk : WellKept plane)
    (h : Step plane op after) : Change plane op after := by
  obtain ⟨uuids,hf,rfl⟩ := h
  exact perform_change hk hf

/-- A fact about planes in order that every allowed change keeps holds of
every plane that allowed operations lead to. -/
theorem ReachableBy.induct {allowed : Plane F → Operation F → Prop} {P : Plane F → Prop}
    (start : ∀ registry discovery,P (Plane.new registry discovery))
    (keeps : ∀ plane op after,WellKept plane → P plane → allowed plane op →
      Change plane op after → P after) {plane : Plane F} (h : ReachableBy allowed plane) :
    WellKept plane ∧ P plane := by
  obtain ⟨registry,discovery,hrun⟩ := h
  refine hrun.invariant (I:=fun p => WellKept p ∧ P p) ?_
    ⟨new_wellKept registry discovery,start registry discovery⟩
  rintro s op t ⟨hk,hp⟩ ha hstep
  have hc := hstep.change hk
  exact ⟨hk.keep hc,keeps s op t hk hp ha hc⟩

/-- Every reachable plane is in order. -/
theorem Reachable.wellKept {plane : Plane F} (h : Reachable plane) : WellKept plane :=
  (ReachableBy.induct (P:=fun _ => True) (fun _ _ => trivial) (fun _ _ _ _ _ _ _ => trivial) h).1

end Runs

section Sample

open AggregatingScheduler

/-- A new plane over exact CPU amounts. -/
def newPlane : Plane ℚ := Plane.new .empty emptyDiscovery

/-- A new plane knows no name. -/
theorem newPlane_known (k : String) : ¬newPlane.Known k := by
  simp [Known,newPlane,Plane.new]

/-- The planned node with a runtime. -/
def wasmNode : LogicalNode ℚ := {oneCoreNode with runtime := ⟨"wasm","1"⟩}

/-- The lease of the planned node. -/
def wasmLease : Lease ℚ :=
  ⟨⟨sampleTexts 0,.lease⟩,⟨wasmNode.id,.logicalNode⟩,⟨twoCores.participantId,.participant⟩,
    {oneCore with lifetime := some sampleDuration},sampleInstant,⟨2000,by decide⟩⟩

/-- A machine on the node under a given name, with given leases. -/
def wasmMachine (uuid : String) (leases : List (Lease ℚ)) : VirtualMachine ℚ :=
  ⟨⟨uuid,.virtualMachine⟩,⟨wasmNode.id,.logicalNode⟩,⟨oneCore,⟨"wasm","1"⟩⟩,leases,.created,
    sampleInstant⟩

/-- The plane with one leased machine. -/
def leasedPlane : Plane ℚ := {newPlane with
  leases := storeLeases newPlane.leases [wasmLease]
  logicalNodes := newPlane.logicalNodes.insert wasmNode.id wasmNode
  virtualMachines := newPlane.virtualMachines.insert (sampleTexts 1)
    (wasmMachine (sampleTexts 1) [wasmLease])}

/-- The creation of the leased machine. -/
def leaseOperation : Operation ℚ :=
  .createLeasedVirtualMachine (plan [twoCores] oneCoreNode.id) oneCore ⟨"wasm","1"⟩ sampleInstant
    sampleDuration

/-- A new plane becomes the plane with one leased machine. -/
theorem newPlane_step_leasedPlane : letI := hyphenatedUuid
    Step newPlane leaseOperation leasedPlane := by
  let := hyphenatedUuid
  have hp : planLeases (plan [twoCores] oneCoreNode.id) oneCore sampleInstant sampleDuration
      sampleTexts=.ok (oneCoreNode,[wasmLease]) := by
    decide +kernel
  have hv : VirtualMachine.fromLeasedNode wasmNode [wasmLease] sampleInstant (sampleTexts 1)=
      .ok (wasmMachine (sampleTexts 1) [wasmLease]) := by
    decide +kernel
  have hdraws : leaseOperation.draws=2 := by
    rw [leaseOperation,Operation.draws,Operation.planned,plan_twoCores]
    rfl
  refine ⟨sampleTexts,?_,?_⟩
  · rw [hdraws]
    refine ⟨?_,?_,fun i _ => newPlane_known _⟩
    · decide +kernel
    · decide +kernel
  · have hc := createLeasedVirtualMachine_of_ok newPlane hp (by decide) hv
    rw [leaseOperation,perform,hc]
    rfl

/-- The plane with one unleased machine on the node. -/
def sharedPlane : Plane ℚ := {newPlane with
  logicalNodes := newPlane.logicalNodes.insert wasmNode.id wasmNode
  virtualMachines := newPlane.virtualMachines.insert (sampleTexts 0)
    (wasmMachine (sampleTexts 0) [])}

/-- The creation of an unleased machine on the node. -/
theorem step_wasmMachine {plane : Plane ℚ} {uuid : String} (hc : IsCanonical uuid)
    (hf : ¬plane.Known uuid) : letI := hyphenatedUuid
    Step plane (.createVirtualMachine wasmNode sampleInstant) {plane with
      logicalNodes := plane.logicalNodes.insert wasmNode.id wasmNode
      virtualMachines := plane.virtualMachines.insert uuid (wasmMachine uuid [])} := by
  let := hyphenatedUuid
  have hv : VirtualMachine.fromNode wasmNode sampleInstant uuid=.ok (wasmMachine uuid []) := by
    rw [VirtualMachine.fromNode,VirtualMachine.fromNodeWithLeases_eq_ok]
    refine ⟨?_,rfl⟩
    decide +kernel
  refine ⟨fun _ => uuid,⟨fun i _ => hc,?_,fun i _ => hf⟩,?_⟩
  · intro i hi j hj _
    simp only [Operation.draws] at hi hj
    omega
  · rw [perform,createVirtualMachine,hv]
    rfl

/-- A new plane becomes the plane with one unleased machine. -/
theorem newPlane_step_sharedPlane : letI := hyphenatedUuid
    Step newPlane (.createVirtualMachine wasmNode sampleInstant) sharedPlane :=
  step_wasmMachine (by decide +kernel) (newPlane_known _)

end Sample

end OpenHost.Plane
