import OpenHost.PlaneRuns

/-!
# From a requirement to a running machine

The scheduler plans a node over the offers of the registry, the plane leases
the node and binds a runtime, and a machine is made from both. Each stage
checks the work of the stage before with rules of its own. Over exact CPU
amounts all these rules agree: nothing fails behind the plan but for the
reasons listed here, and the machine, once started, hands the allocations
of its node to the backend for as long as its leases last.
-/

namespace OpenHost.Plane

open AggregatingScheduler

/-- Among distinct participants, a search finds the allocation itself. -/
theorem find_allocation {F : Type} {allocations : List (Allocation F)}
    (hd : (allocations.map Allocation.participantId).Nodup) {a : Allocation F}
    (ha : a ∈ allocations) :
    allocations.find? (fun b => decide (b.participantId=a.participantId))=some a := by
  induction allocations with
  | nil => simp at ha
  | cons b rest ih =>
    rw [List.map_cons,List.nodup_cons] at hd
    rcases List.mem_cons.mp ha with rfl|hr
    · simp
    · have hne : b.participantId≠a.participantId := by
        intro he
        exact hd.1 (List.mem_map.mpr ⟨a,hr,he.symm⟩)
      rw [List.find?_cons_of_neg (by simpa using hne)]
      exact ih hd.2 hr

/-- A part and its lease have the same amounts. -/
theorem sameCapacity_leasedResources {F : Type} [Cores F] {r : ResourceFragment F}
    (hv : r.validate=.ok ()) (duration : Duration) :
    sameCapacity r (leasedResources r duration)=true := by
  obtain ⟨lifetime,he⟩ := leasedResources_eq r duration
  have hself := ResourceFragment.beq_self hv
  simp only [ResourceFragment.beq,Bool.and_eq_true] at hself
  rw [he,sameCapacity]
  simp [hself.1.1.1.1.1]

/-- The participants of a plan over a registry have canonical names. -/
theorem planned_canonical {registry : Registry ℚ} {nodeText : String}
    {requirement : ResourceFragment ℚ} {node : LogicalNode ℚ}
    (hp : plan registry.offers nodeText requirement=.ok node) :
    ∀ a ∈ node.resources.allocations,IsCanonical a.participantId := by
  intro a ha
  obtain ⟨o,ho,hid,_⟩ := ((planned_of_plan hp).backed a ha).offer
  obtain ⟨p,hs,_,_⟩ := Registry.mem_offers.mp ho
  have hkey := registry.keyed _ _ hs
  rw [← hid,← hkey]
  exact p.idValid.2

/-- A plan over a registry leads to leases exactly for a reservation that
starts behind the epoch, lasts, and is covered by the requirement. -/
theorem grantable_iff {registry : Registry ℚ} {nodeText : String}
    {requirement : ResourceFragment ℚ} {node : LogicalNode ℚ} {now : SystemTime}
    {duration : Duration} (hp : plan registry.offers nodeText requirement=.ok node)
    (hn : IsCanonical nodeText) (hadd : (now.checkedAdd duration).isSome=true) :
    Grantable now duration node ↔ now≠.unixEpoch ∧ duration.isZero=false ∧
      ∀ l,requirement.lifetime=some l → duration ≤ l := by
  have hplanned := planned_of_plan hp
  constructor
  · intro hg
    refine ⟨hg.started,hg.lasting,fun l hl => ?_⟩
    obtain ⟨a,ha⟩ := List.exists_mem_of_ne_nil _ hplanned.nonempty
    exact hg.lifetime a ha l ((hplanned.backed a ha).lifetime.trans hl)
  · rintro ⟨ht,hz,hl⟩
    refine ⟨ht,hz,hadd,by rw [hplanned.id]; exact hn,planned_canonical hp,
      hplanned.composable.valid,fun a ha l hal => hl l ?_⟩
    rw [← (hplanned.backed a ha).lifetime]
    exact hal

/-- The machine that a planned node and its leases become. -/
def machineFor (node : LogicalNode ℚ) (runtime : RuntimeSpec) (leases : List (Lease ℚ))
    (createdAt : SystemTime) (uuid : String) : VirtualMachine ℚ :=
  ⟨⟨uuid,.virtualMachine⟩,⟨node.id,.logicalNode⟩,⟨node.resources.capacity,runtime⟩,leases,.created,
    createdAt⟩

/-- The lease is stored and belongs to the node. -/
def StoredFor (plane : Plane ℚ) (nodeId : Identity) (lease : Lease ℚ) : Prop :=
  (∃ k : String,plane.leases[k]?=some lease) ∧ lease.logicalNodeId=nodeId

/-- The plane behind a successful creation. -/
def deliveredPlane (plane : Plane ℚ) (node : LogicalNode ℚ) (runtime : RuntimeSpec)
    (leases : List (Lease ℚ)) (vm : VirtualMachine ℚ) : Plane ℚ := {plane with
  leases := storeLeases plane.leases leases
  logicalNodes := plane.logicalNodes.insert node.id {node with runtime := runtime}
  virtualMachines := plane.virtualMachines.insert vm.id.id vm}

/-- The stored leases of a new node are those just granted. -/
theorem storedFor_iff {plane : Plane ℚ} {node : LogicalNode ℚ} (runtime : RuntimeSpec)
    {leases : List (Lease ℚ)} (vm : VirtualMachine ℚ) (hnew : ¬plane.Known node.id)
    (hd : (leases.map fun l => l.id.id).Nodup)
    (hnode : ∀ l ∈ leases,l.logicalNodeId=⟨node.id,.logicalNode⟩) (lease : Lease ℚ) :
    StoredFor (deliveredPlane plane node runtime leases vm) ⟨node.id,.logicalNode⟩ lease ↔
      lease ∈ leases := by
  constructor
  · rintro ⟨⟨k,hk⟩,hid⟩
    by_cases hm : k ∈ leases.map fun l => l.id.id
    · obtain ⟨l,hl,rfl⟩ := List.mem_map.mp hm
      have hfound : (storeLeases plane.leases leases)[l.id.id]?=some l := storeLeases_of_mem hd hl
      rw [deliveredPlane,hfound,Option.some.injEq] at hk
      rw [← hk]
      exact hl
    · rw [deliveredPlane,storeLeases_of_not_mem hm] at hk
      have hname : lease.logicalNodeId.id=node.id := by
        rw [hid]
      exact (hnew (Or.inr (Or.inr (Or.inr (Or.inl ⟨k,lease,hk,hname⟩))))).elim
  · intro hl
    exact ⟨⟨lease.id.id,storeLeases_of_mem hd hl⟩,hnode lease hl⟩

/-- A created machine can be started. -/
theorem startVirtualMachine_of_created {plane : Plane ℚ} (id : Identity) {vm : VirtualMachine ℚ}
    (hs : plane.virtualMachines[id.id]?=some vm) (hc : vm.state=.created) :
    plane.startVirtualMachine id=(.ok {vm with state := .running},{plane with
      virtualMachines := plane.virtualMachines.insert id.id {vm with state := .running}}) := by
  have hstart : vm.start=.ok {vm with state := .running} :=
    VirtualMachine.start_eq_ok.mpr ⟨hc,rfl⟩
  rw [startVirtualMachine,updateVirtualMachine,hs]
  dsimp only
  rw [hstart]

section Machine

variable [UuidCrate]

/-- Every granted lease passes the checks that a machine makes. -/
theorem checkLease_leaseFor {node : LogicalNode ℚ} {now expiresAt : SystemTime}
    {duration : Duration} (hc : CompositeResource.Composable node.resources.allocations)
    {a : Allocation ℚ} (ha : a ∈ node.resources.allocations) {uuid : String}
    (hv : (leaseFor ⟨node.id,.logicalNode⟩ now expiresAt duration a uuid).Valid) :
    VirtualMachine.checkLease node ⟨node.id,.logicalNode⟩ now
      (leaseFor ⟨node.id,.logicalNode⟩ now expiresAt duration a uuid)=.ok () := by
  have hvalid := (ResourceFragment.validateRequirement_eq_ok.mp (hc.valid a ha)).1
  refine VirtualMachine.checkLease_eq_ok.mpr ⟨hv,rfl,?_,a,find_allocation hc.distinct ha,
    sameCapacity_leasedResources hvalid duration⟩
  have hlast := hv.lasting
  simp only [leaseFor] at hlast
  simp [Lease.activeAt,leaseFor,hlast]

/-- A machine can be made from every planned and leased node with a runtime. -/
theorem fromLeasedNode_of_plan {offers : List (ResourceOffer ℚ)} {nodeText : String}
    {requirement : ResourceFragment ℚ} {node : LogicalNode ℚ} {createdAt : SystemTime}
    {duration : Duration} {uuids : ℕ → String} {leases : List (Lease ℚ)} {runtime : RuntimeSpec}
    (hp : planLeases (plan offers nodeText) requirement createdAt duration uuids=.ok (node,leases))
    (hr : runtime.validate=.ok ()) (uuid : String) :
    VirtualMachine.fromLeasedNode {node with runtime := runtime} leases createdAt uuid=
      .ok (machineFor node runtime leases createdAt uuid) := by
  obtain ⟨ht,_,hplan,hcanonical,expiresAt,_,hleases,hv⟩ := planLeases_eq_ok.mp hp
  have hplanned := planned_of_plan hplan
  have hrequired := ResourceFragment.validateRequirement_eq_ok.mp hplanned.required
  have hcapacity := plan_capacity hplan
  have hlength : leases.length=node.resources.allocations.length := by
    rw [hleases,leasesFor_length]
  have hne : leases≠[] := by
    intro hnil
    rw [hnil] at hlength
    exact hplanned.nonempty (List.length_eq_zero_iff.mp hlength.symm)
  rw [VirtualMachine.fromLeasedNode_eq_ok,VirtualMachine.fromNodeWithLeases_eq_ok]
  refine ⟨hne,⟨ht,hcanonical,?_,?_,hr,?_⟩,rfl⟩
  · rw [hcapacity]
    exact hrequired.2
  · rw [hcapacity]
    exact hrequired.1
  · refine (VirtualMachine.checkLeases_eq_ok hne).mpr ⟨hlength,?_,?_⟩
    · intro l hl
      have hvl := hv l hl
      rw [hleases] at hl
      obtain ⟨i,a,hi,rfl⟩ := mem_leasesFor.mp hl
      exact checkLease_leaseFor hplanned.composable (List.mem_of_getElem? hi) hvl
    · rw [hleases,leasesFor_participants]
      exact hplanned.composable.distinct

/-- A leased machine that was started hands the allocations of its node to
the backend while its leases last. -/
theorem executeVirtualMachine_sent {plane : Plane ℚ} {node : LogicalNode ℚ} {vm : VirtualMachine ℚ}
    {id : Identity} {workload : WorkItem} {t : SystemTime} {unitsPlan : ExecutionPlan ℚ}
    (hs : plane.virtualMachines[id.id]?=some vm)
    (hn : plane.logicalNodes[vm.nodeId.id]?=some node) (hrunning : vm.state=.running)
    (hactive : ∀ l ∈ vm.leases,l.activeAt t=true)
    (hplan : vm.executionPlan node workload=.ok unitsPlan) (backend : ExecutionBackend ℚ) :
    (plane.executeVirtualMachine id workload backend t).sent=some unitsPlan := by
  have hsent := (VirtualMachine.executeAt_sent hrunning hactive hplan backend).2
  rw [executeVirtualMachine,hs]
  dsimp only
  rw [hn]
  dsimp only
  cases hr : (vm.executeAt node workload backend t).result with
  | ok receipt => exact hsent
  | err e => exact hsent
  | panic => exact hsent

/-- No lease is refused with an error of a machine. -/
theorem grantLeases_error {nodeId : Identity} {now expiresAt : SystemTime} {duration : Duration}
    {allocations : List (Allocation ℚ)} {uuids : ℕ → String} {e : ControlError}
    (h : grantLeases nodeId now expiresAt duration allocations uuids=.error e) :
    e=.scheduler .insufficientResources := by
  induction allocations generalizing uuids with
  | nil => cases h
  | cons a rest ih =>
    simp only [grantLeases,Checks.bind_eq_error] at h
    rcases h with hfirst|⟨lease,_,hrest|⟨leases,_,hnone⟩⟩
    · simp only [grantLease,Checks.bind_eq_error,Checks.mapError_eq_error] at hfirst
      rcases hfirst with ⟨_,_,rfl⟩|⟨i,_,_,_,rfl⟩
      · rfl
      · rfl
    · exact ih hrest
    · cases hnone

/-- No plan with leases is refused with an error of a machine. -/
theorem planLeases_err {scheduler : Scheduler ℚ} {requirement : ResourceFragment ℚ}
    {now : SystemTime} {duration : Duration} {uuids : ℕ → String} {e : VirtualMachineError} :
    planLeases scheduler requirement now duration uuids≠.err (.virtualMachine e) := by
  rw [planLeases]
  cases hn : planNode scheduler requirement now duration with
  | error e' =>
    intro h
    have he : e'=.virtualMachine e := by
      simpa using h
    rw [he] at hn
    simp only [planNode,Checks.bind_eq_error,Checks.rejectIf_eq_error,Checks.mapError_eq_error,
      reduceCtorEq,and_false,exists_const,or_self,exists_false] at hn
  | ok found =>
    obtain ⟨node,nodeId⟩ := found
    intro h
    simp only [Outcome.monadLift_eq,Outcome.ofExcept_ok,Outcome.ok_bind] at h
    rw [SystemTime.add] at h
    cases hadd : now.checkedAdd duration with
    | none =>
      rw [hadd] at h
      simp at h
    | some expiresAt =>
      rw [hadd] at h
      simp only [Outcome.ok_bind] at h
      cases hg : grantLeases nodeId now expiresAt duration node.resources.allocations uuids with
      | error e' =>
        have he := grantLeases_error hg
        rw [hg,he] at h
        simp at h
      | ok leases =>
        rw [hg] at h
        simp at h

/-- The creation of a leased machine with the aggregating scheduler over the
registry of the plane. The first text names the node, the next ones name
the leases, and the one behind them names the machine. -/
def createOverRegistry (plane : Plane ℚ) (requirement : ResourceFragment ℚ)
    (runtime : RuntimeSpec) (createdAt : SystemTime) (duration : Duration) (uuids : ℕ → String) :
    Outcome ControlError (VirtualMachine ℚ×List (Lease ℚ))×Plane ℚ :=
  plane.createLeasedVirtualMachine (plan plane.registry.offers (uuids 0)) requirement runtime
    createdAt duration fun n => uuids (n+1)

/-- What a successful creation has delivered. -/
structure Delivered (requirement : ResourceFragment ℚ) (createdAt expiresAt : SystemTime)
    (node : LogicalNode ℚ) (after : Plane ℚ) (vm : VirtualMachine ℚ) (leases : List (Lease ℚ)) :
    Prop where
  /-- The machine waits to be started. -/
  created : vm.state=.created
  /-- The machine has the required resources, in every field. -/
  resources : vm.spec.resources=requirement
  /-- The returned leases are the stored leases of the node. -/
  listed : ∀ lease,lease ∈ leases ↔ StoredFor after vm.nodeId lease
  /-- There is exactly one stored lease for each allocation. -/
  leased : ∀ a ∈ node.resources.allocations,
    ∃! lease,StoredFor after vm.nodeId lease ∧ lease.participantId.id=a.participantId
  /-- There is no stored lease of the node but for its allocations. -/
  allocated : ∀ lease,StoredFor after vm.nodeId lease →
    ∃ a ∈ node.resources.allocations,lease.participantId.id=a.participantId
  /-- The stored leases of the node end together. -/
  expiring : ∀ lease,StoredFor after vm.nodeId lease → lease.expiresAt=expiresAt
  /-- The machine can be started, and then hands the allocations of the node
  to the backend at every instant of the reservation. -/
  executed : (∃ started,(after.startVirtualMachine vm.id).1=.ok started) ∧
    ∀ (workload : WorkItem) (backend : ExecutionBackend ℚ) (t : SystemTime),workload.id≠"" →
      createdAt ≤ t → t<expiresAt → ∃ unitsPlan,
        ((after.startVirtualMachine vm.id).2.executeVirtualMachine vm.id workload backend t).sent=
          some unitsPlan ∧
        unitsPlan.units=ExecutionPlan.unitsFor node.resources.allocations

/-- A machine that was just stored with its node can be started, and its
execution reaches the backend while its leases last. -/
theorem delivered_executes {plane : Plane ℚ} {offers : List (ResourceOffer ℚ)} {nodeText : String}
    {requirement : ResourceFragment ℚ} {node : LogicalNode ℚ} {runtime : RuntimeSpec}
    {createdAt expiresAt : SystemTime} {leases : List (Lease ℚ)} {uuid : String}
    (hplan : plan offers nodeText requirement=.ok node) (hcanonical : IsCanonical node.id)
    (hr : runtime.validate=.ok ())
    (hparticipants : ∀ a ∈ node.resources.allocations,IsCanonical a.participantId)
    (hwindow : ∀ l ∈ leases,l.createdAt=createdAt ∧ l.expiresAt=expiresAt) {after : Plane ℚ}
    (hafter : after=deliveredPlane plane node runtime leases
      (machineFor node runtime leases createdAt uuid)) :
    (∃ started,(after.startVirtualMachine ⟨uuid,.virtualMachine⟩).1=.ok started) ∧
    ∀ (workload : WorkItem) (backend : ExecutionBackend ℚ) (t : SystemTime),workload.id≠"" →
      createdAt ≤ t → t<expiresAt → ∃ unitsPlan,
        ((after.startVirtualMachine ⟨uuid,.virtualMachine⟩).2.executeVirtualMachine
          ⟨uuid,.virtualMachine⟩ workload backend t).sent=some unitsPlan ∧
        unitsPlan.units=ExecutionPlan.unitsFor node.resources.allocations := by
  have hplanned := planned_of_plan hplan
  have hcapacity := plan_capacity hplan
  have hvalid := (ResourceFragment.validateRequirement_eq_ok.mp hplanned.required).1
  have hstored : after.virtualMachines[uuid]?=
      some (machineFor node runtime leases createdAt uuid) := by
    rw [hafter,deliveredPlane]
    exact OrderedMap.getElem?_insert_eq_some.mpr (Or.inl ⟨rfl,rfl⟩)
  have hnode : after.logicalNodes[node.id]?=some {node with runtime := runtime} := by
    rw [hafter,deliveredPlane]
    exact OrderedMap.getElem?_insert_eq_some.mpr (Or.inl ⟨rfl,rfl⟩)
  rw [startVirtualMachine_of_created ⟨uuid,.virtualMachine⟩ hstored rfl]
  refine ⟨⟨_,rfl⟩,?_⟩
  intro workload backend t hw hfrom huntil
  have hunits : ExecutionPlan.fromNode {node with runtime := runtime} workload=
      .ok ⟨workload.id,⟨node.id,.logicalNode⟩,runtime,
        ExecutionPlan.unitsFor node.resources.allocations⟩ := by
    refine ExecutionPlan.fromNode_eq_ok.mpr ⟨hw,hcanonical,hplanned.nonempty,?_,
      RuntimeSpec.validate_eq_ok.mp hr,rfl⟩
    exact fun a ha => ⟨hparticipants a ha,hplanned.composable.valid a ha⟩
  have hself : node.resources.capacity.beq node.resources.capacity=true := by
    rw [hcapacity]
    exact ResourceFragment.beq_self hvalid
  have hown : VirtualMachine.executionPlan
      {machineFor node runtime leases createdAt uuid with state := .running}
      {node with runtime := runtime} workload=.ok ⟨workload.id,⟨node.id,.logicalNode⟩,runtime,
        ExecutionPlan.unitsFor node.resources.allocations⟩ :=
    VirtualMachine.executionPlan_eq_ok.mpr ⟨hcanonical,rfl,hself,rfl,hunits⟩
  refine ⟨_,executeVirtualMachine_sent
    (OrderedMap.getElem?_insert_eq_some.mpr (Or.inl ⟨rfl,rfl⟩)) hnode rfl ?_ hown backend,rfl⟩
  intro l hl
  obtain ⟨hc,he⟩ := hwindow l hl
  rw [Lease.activeAt,hc,he]
  simp [hfrom,huntil]

/-- What a plan with leases over a registry has delivered once the machine
is stored. -/
theorem delivered_of_plan {plane : Plane ℚ} {requirement : ResourceFragment ℚ}
    {runtime : RuntimeSpec} {createdAt expiresAt : SystemTime} {duration : Duration}
    {uuids : ℕ → String} {node : LogicalNode ℚ} {leases : List (Lease ℚ)}
    (hf : FreshIds plane.Known (plane.registry.offers.length+2) uuids)
    (hadd : createdAt.checkedAdd duration=some expiresAt)
    (hp : planLeases (plan plane.registry.offers (uuids 0)) requirement createdAt duration
      (fun n => uuids (n+1))=.ok (node,leases)) (hr : runtime.validate=.ok ()) :
    Delivered requirement createdAt expiresAt node
      (deliveredPlane plane node runtime leases
        (machineFor node runtime leases createdAt (uuids (leases.length+1))))
      (machineFor node runtime leases createdAt (uuids (leases.length+1))) leases := by
  obtain ⟨_,_,hplan,hcanonical,e,hadd',hleases,_⟩ := planLeases_eq_ok.mp hp
  have he : e=expiresAt := by
    rw [hadd,Option.some.injEq] at hadd'
    exact hadd'.symm
  rw [he] at hleases
  have hplanned := planned_of_plan hplan
  have hlength := hplanned.length
  have hnew : ¬plane.Known node.id := by
    rw [hplanned.id]
    exact hf.fresh 0 (by omega)
  have hdistinct : (leases.map fun l => l.id.id).Nodup := by
    rw [hleases]
    refine leasesFor_distinct fun i hi j hj hij => ?_
    have hij' := hf.distinct (i+1) (by omega) (j+1) (by omega) hij
    omega
  have hmem : ∀ l ∈ leases,∃ a ∈ node.resources.allocations,∃ uuid,
      l=leaseFor ⟨node.id,.logicalNode⟩ createdAt expiresAt duration a uuid := by
    intro l hl
    rw [hleases] at hl
    obtain ⟨i,a,hi,hla⟩ := mem_leasesFor.mp hl
    exact ⟨a,List.mem_of_getElem? hi,_,hla⟩
  have hnode : ∀ l ∈ leases,l.logicalNodeId=⟨node.id,.logicalNode⟩ := by
    intro l hl
    obtain ⟨a,_,uuid,rfl⟩ := hmem l hl
    rfl
  have hwindow : ∀ l ∈ leases,l.createdAt=createdAt ∧ l.expiresAt=expiresAt := by
    intro l hl
    obtain ⟨a,_,uuid,rfl⟩ := hmem l hl
    exact ⟨rfl,rfl⟩
  have hstored := storedFor_iff runtime
    (machineFor node runtime leases createdAt (uuids (leases.length+1))) hnew hdistinct hnode
  have hone : (leases.map fun l => l.participantId.id).Nodup := by
    rw [hleases,leasesFor_participants]
    exact hplanned.composable.distinct
  refine ⟨rfl,plan_capacity hplan,fun l => (hstored l).symm,?_,?_,?_,?_⟩
  · intro a ha
    obtain ⟨i,hi⟩ := List.mem_iff_getElem?.mp ha
    have hl : leaseFor ⟨node.id,.logicalNode⟩ createdAt expiresAt duration a (uuids (i+1)) ∈
        leases := by
      rw [hleases]
      exact mem_leasesFor.mpr ⟨i,a,hi,rfl⟩
    refine ⟨_,⟨(hstored _).mpr hl,rfl⟩,?_⟩
    intro other hother
    have hm := (hstored other).mp hother.1
    exact List.inj_on_of_nodup_map hone hm hl hother.2
  · intro l hl
    obtain ⟨a,ha,uuid,rfl⟩ := hmem l ((hstored l).mp hl)
    exact ⟨a,ha,rfl⟩
  · intro l hl
    exact (hwindow l ((hstored l).mp hl)).2
  · exact delivered_executes hplan hcanonical hr (planned_canonical hplan) hwindow rfl

/-- A plan with leases over a registry and a complete runtime always become
a stored machine. -/
theorem createOverRegistry_of_plan {plane : Plane ℚ} {requirement : ResourceFragment ℚ}
    {runtime : RuntimeSpec} {createdAt : SystemTime} {duration : Duration} {uuids : ℕ → String}
    {node : LogicalNode ℚ} {leases : List (Lease ℚ)}
    (hp : planLeases (plan plane.registry.offers (uuids 0)) requirement createdAt duration
      (fun n => uuids (n+1))=.ok (node,leases)) (hr : runtime.validate=.ok ()) :
    plane.createOverRegistry requirement runtime createdAt duration uuids=
      (.ok (machineFor node runtime leases createdAt (uuids (leases.length+1)),leases),
        deliveredPlane plane node runtime leases
          (machineFor node runtime leases createdAt (uuids (leases.length+1)))) :=
  createLeasedVirtualMachine_of_ok plane hp hr (fromLeasedNode_of_plan hp hr _)

/-- A creation that does not get past the plan, or whose runtime is
incomplete, fails without an error of a machine. -/
theorem createOverRegistry_fails {plane : Plane ℚ} {requirement : ResourceFragment ℚ}
    {runtime : RuntimeSpec} {createdAt : SystemTime} {duration : Duration} {uuids : ℕ → String}
    (h : ¬((∃ found,planLeases (plan plane.registry.offers (uuids 0)) requirement createdAt
      duration (fun n => uuids (n+1))=.ok found) ∧ runtime.validate=.ok ())) :
    (∀ found,(plane.createOverRegistry requirement runtime createdAt duration uuids).1≠.ok found) ∧
      ∀ e,(plane.createOverRegistry requirement runtime createdAt duration uuids).1≠
        .err (.virtualMachine e) := by
  rw [createOverRegistry,createLeasedVirtualMachine,createLeasedLogicalNodeWithRuntime,
    createLeasedLogicalNode]
  cases hp : planLeases (plan plane.registry.offers (uuids 0)) requirement createdAt duration
      (fun n => uuids (n+1)) with
  | err e =>
    refine ⟨fun found => by simp,?_⟩
    intro e' he
    have hee : e=.virtualMachine e' := by
      simpa using he
    rw [hee] at hp
    exact planLeases_err hp
  | panic => exact ⟨fun found => by simp,fun e => by simp⟩
  | ok found =>
    dsimp only
    cases hb : found.1.withRuntime runtime with
    | error e => exact ⟨fun found => by simp,fun e => by simp⟩
    | ok bound => exact (h ⟨⟨found,hp⟩,(LogicalNode.withRuntime_eq_ok.mp hb).1⟩).elim

/-- The leased pipeline over a registry, with exact CPU amounts and fresh
texts: when it succeeds, that it never fails behind the leases, and what it
has delivered. -/
theorem leasedPipeline (plane : Plane ℚ) (requirement : ResourceFragment ℚ)
    (runtime : RuntimeSpec) (createdAt expiresAt : SystemTime) (duration : Duration)
    (uuids : ℕ → String) (hf : FreshIds plane.Known (plane.registry.offers.length+2) uuids)
    (hadd : createdAt.checkedAdd duration=some expiresAt) :
    ((∃ vm leases,(plane.createOverRegistry requirement runtime createdAt duration uuids).1=
        .ok (vm,leases)) ↔
      createdAt≠.unixEpoch ∧ duration.isZero=false ∧
      (∃ node,plan plane.registry.offers (uuids 0) requirement=.ok node) ∧
      (∀ l,requirement.lifetime=some l → duration ≤ l) ∧ runtime.name≠"" ∧ runtime.version≠"") ∧
    (∀ e,(plane.createOverRegistry requirement runtime createdAt duration uuids).1≠
      .err (.virtualMachine e)) ∧
    ∀ vm leases,(plane.createOverRegistry requirement runtime createdAt duration uuids).1=
      .ok (vm,leases) → ∃ node,plan plane.registry.offers (uuids 0) requirement=.ok node ∧
        Delivered requirement createdAt expiresAt node
          (plane.createOverRegistry requirement runtime createdAt duration uuids).2 vm leases := by
  have hsome : (createdAt.checkedAdd duration).isSome=true := by
    rw [hadd]
    rfl
  have hcanonical : ∀ node,plan plane.registry.offers (uuids 0) requirement=.ok node →
      ∀ i<node.resources.allocations.length,IsCanonical (uuids (i+1)) := by
    intro node hp i hi
    have hlen := (planned_of_plan hp).length
    exact hf.canonical (i+1) (by omega)
  have hgrant : ∀ node,(∃ leases,planLeases (plan plane.registry.offers (uuids 0)) requirement
      createdAt duration (fun n => uuids (n+1))=.ok (node,leases)) ↔
      plan plane.registry.offers (uuids 0) requirement=.ok node ∧ createdAt≠.unixEpoch ∧
        duration.isZero=false ∧ ∀ l,requirement.lifetime=some l → duration ≤ l := by
    intro node
    constructor
    · rintro ⟨leases,hl⟩
      have hp := (planLeases_eq_ok.mp hl).2.2.1
      have hg := ((planLeases_exists (hcanonical node hp)).mp ⟨leases,hl⟩).2
      exact ⟨hp,(grantable_iff hp (hf.canonical 0 (by omega)) hsome).mp hg⟩
    · rintro ⟨hp,hcond⟩
      have hg := (grantable_iff hp (hf.canonical 0 (by omega)) hsome).mpr hcond
      exact (planLeases_exists (hcanonical node hp)).mpr ⟨hp,hg⟩
  by_cases hok : (∃ found,planLeases (plan plane.registry.offers (uuids 0)) requirement createdAt
      duration (fun n => uuids (n+1))=.ok found) ∧ runtime.validate=.ok ()
  · obtain ⟨⟨⟨node,leases⟩,hl⟩,hr⟩ := hok
    have hresult := createOverRegistry_of_plan hl hr
    have hcond := (hgrant node).mp ⟨leases,hl⟩
    have hruntime := RuntimeSpec.validate_eq_ok.mp hr
    rw [hresult]
    refine ⟨?_,fun e => by simp,?_⟩
    · exact iff_of_true ⟨_,_,rfl⟩
        ⟨hcond.2.1,hcond.2.2.1,⟨node,hcond.1⟩,hcond.2.2.2,hruntime.1,hruntime.2⟩
    · intro vm leases' hvm
      cases hvm
      exact ⟨node,hcond.1,delivered_of_plan hf hadd hl hr⟩
  · obtain ⟨hnot,herr⟩ := createOverRegistry_fails hok
    refine ⟨?_,herr,fun vm leases hvm => (hnot _ hvm).elim⟩
    refine iff_of_false (fun ⟨vm,leases,hvm⟩ => hnot _ hvm) ?_
    rintro ⟨ht,hz,⟨node,hp⟩,hlife,hruntime⟩
    obtain ⟨leases,hl⟩ := (hgrant node).mpr ⟨hp,ht,hz,hlife⟩
    exact hok ⟨⟨_,hl⟩,RuntimeSpec.validate_eq_ok.mpr hruntime⟩

end Machine

section Sample

/-- An active participant with two cores. -/
def twoCoresParticipant : Participant ℚ where
  id := ⟨twoCores.participantId,.participant⟩
  capability := ⟨2,0,0,0,0,1,none⟩
  resources := twoCores.resources
  state := .active
  joinedAt := sampleInstant
  updatedAt := sampleInstant
  idValid := by decide +kernel
  capabilityValid := by decide +kernel
  resourcesValid := by decide +kernel

/-- A plane with that participant. -/
def twoCoresPlane : Plane ℚ := Plane.new
  ⟨Std.ExtTreeMap.insert ∅ twoCores.participantId twoCoresParticipant,by
    intro k p h
    rcases OrderedMap.getElem?_insert_eq_some.mp h with ⟨hk,rfl⟩|⟨_,hp⟩
    · exact hk
    · simp at hp⟩
  emptyDiscovery

/-- Generated texts: node, lease, machine. -/
def pipelineTexts (n : ℕ) : String := if n=0 then oneCoreNode.id else sampleTexts (n-1)

/-- One core of two, leased for a while: a machine is delivered. -/
theorem leasedPipeline_twoCores : letI := hyphenatedUuid
    ∃ vm leases node,(twoCoresPlane.createOverRegistry oneCore ⟨"wasm","1"⟩ sampleInstant
        sampleDuration pipelineTexts).1=.ok (vm,leases) ∧
      Delivered oneCore sampleInstant ⟨2000,by decide⟩ node (twoCoresPlane.createOverRegistry oneCore
        ⟨"wasm","1"⟩ sampleInstant sampleDuration pipelineTexts).2 vm leases := by
  let := hyphenatedUuid
  have hoffers : twoCoresPlane.registry.offers=[twoCores] := by
    decide +kernel
  have hf : FreshIds twoCoresPlane.Known (twoCoresPlane.registry.offers.length+2)
      pipelineTexts := by
    rw [hoffers]
    refine ⟨?_,?_,?_⟩
    · decide +kernel
    · decide +kernel
    · intro i _
      simp [Known,twoCoresPlane,Plane.new]
  have hpipeline := leasedPipeline twoCoresPlane oneCore ⟨"wasm","1"⟩ sampleInstant
    ⟨2000,by decide⟩ sampleDuration pipelineTexts hf (by decide +kernel)
  have hplan : plan twoCoresPlane.registry.offers (pipelineTexts 0) oneCore=.ok oneCoreNode := by
    rw [hoffers]
    exact plan_twoCores
  have hlife : ∀ l,oneCore.lifetime=some l → sampleDuration ≤ l := by
    intro l hl
    cases hl
  obtain ⟨vm,leases,hok⟩ := hpipeline.1.mpr
    ⟨by decide,by decide,⟨oneCoreNode,hplan⟩,hlife,by decide,by decide⟩
  obtain ⟨node,_,hdelivered⟩ := hpipeline.2.2 vm leases hok
  exact ⟨vm,leases,node,hok,hdelivered⟩

end Sample

end OpenHost.Plane
