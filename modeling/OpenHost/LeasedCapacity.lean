import OpenHost.LeasedPipeline

/-!
# Leases and the resources of a participant

Every creation plans with all that the active participants have, whatever is
leased already. So the leases of one node stay within each participant, but
the leases of several nodes add up, and together they may exceed it.
-/

namespace OpenHost

/-- The scheduler that an operation asks, if it asks one. -/
def Operation.scheduler {F : Type} [Cores F] : Operation F → Option (Scheduler F)
  | createLeasedLogicalNode scheduler _ _ _ => some scheduler
  | createLeasedLogicalNodeWithRuntime scheduler _ _ _ _ => some scheduler
  | createLeasedVirtualMachine scheduler _ _ _ _ => some scheduler
  | _ => none

namespace Plane

open AggregatingScheduler

section Amounts

variable {F : Type}

/-- The amounts that are counted in whole units: memory, storage, network and GPU. -/
def counted : List (ResourceFragment F → ℕ) :=
  [fun r => r.memory.toNat,fun r => r.storage.toNat,fun r => r.network.toNat,fun r => r.gpu.toNat]

/-- What leases reserve together. -/
def reserved (amount : ResourceFragment F → ℕ) (leases : List (Lease F)) : ℕ :=
  (leases.map fun l => amount l.resources).sum

/-- No amount changes with the lifetime. -/
theorem counted_leasedResources {amount : ResourceFragment F → ℕ} (h : amount ∈ counted)
    (r : ResourceFragment F) (duration : Duration) :
    amount (leasedResources r duration)=amount r := by
  obtain ⟨lifetime,he⟩ := leasedResources_eq r duration
  rw [he]
  simp only [counted,List.mem_cons,List.not_mem_nil,or_false] at h
  rcases h with rfl|rfl|rfl|rfl <;> rfl

/-- Leases with a common bound reserve no more than that many times the bound. -/
theorem reserved_le {amount : ResourceFragment F → ℕ} {leases : List (Lease F)} {bound : ℕ}
    (h : ∀ l ∈ leases,amount l.resources ≤ bound) : reserved amount leases ≤ leases.length*bound := by
  have hs := List.sum_le_card_nsmul (leases.map fun l => amount l.resources) bound
    (List.forall_mem_map.mpr h)
  rwa [List.length_map,smul_eq_mul] at hs

variable [CoresArith F]

/-- A share has no more than the offer. -/
theorem counted_share {amount : ResourceFragment F → ℕ} (h : amount ∈ counted)
    {available missing share : ResourceFragment F}
    (hs : allocationShare available missing=some share) : amount share ≤ amount available := by
  obtain ⟨_,_,rfl⟩ := allocationShare_eq_some.mp hs
  simp only [counted,List.mem_cons,List.not_mem_nil,or_false] at h
  rcases h with rfl|rfl|rfl|rfl
  · exact UInt64.le_iff_toNat_le.mp Std.min_le_left
  · exact UInt64.le_iff_toNat_le.mp Std.min_le_left
  · exact UInt64.le_iff_toNat_le.mp Std.min_le_left
  · exact UInt32.le_iff_toNat_le.mp Std.min_le_left

/-- Every allocation of a plan has no more than an offer of its participant. -/
theorem counted_allocation {offers : List (ResourceOffer F)} {uuid : String}
    {requirement : ResourceFragment F} {node : LogicalNode F}
    (h : plan offers uuid requirement=.ok node) {a : Allocation F}
    (ha : a ∈ node.resources.allocations) :
    ∃ o ∈ offers,o.participantId=a.participantId ∧
      ∀ amount ∈ counted,amount a.resources ≤ amount o.resources := by
  obtain ⟨_,_,_,hc,_⟩ := plan_eq_ok h
  obtain ⟨_,_,hres⟩ := CompositeResource.compose_eq_ok.mp hc
  obtain ⟨picked,hsub,hshare,heq⟩ := allocate_selects requirement (sorted offers) .default []
  rw [hres,heq,List.nil_append] at ha
  obtain ⟨p,hp,rfl⟩ := List.mem_map.mp ha
  obtain ⟨t,ht⟩ := hshare p hp
  have ho := (sorted_perm offers).mem_iff.mp (hsub.subset (List.mem_map_of_mem hp))
  exact ⟨p.1,ho,rfl,fun amount hm => counted_share hm ht⟩

end Amounts

section Frame

variable {F : Type} [Cores F]

/-- Participants stay on file with what they have, and a stored lease was
stored before or is one of the new ones. -/
structure Frame (plane after : Plane F) (new : List (Lease F)) : Prop where
  /-- No participant is lost or changed. -/
  registry : ∀ (k : String) (p : Participant F),plane.registry.participants[k]?=some p →
    after.registry.participants[k]?=some p
  /-- Every lease is an old one or a new one, under its own name. -/
  leases : ∀ (k : String) (l : Lease F),after.leases[k]?=some l →
    plane.leases[k]?=some l ∨ (l ∈ new ∧ l.id.id=k)

/-- Nothing has happened to registry and leases. -/
theorem Frame.same {plane after : Plane F} (hr : after.registry=plane.registry)
    (hl : after.leases=plane.leases) : Frame plane after [] := by
  refine ⟨?_,?_⟩
  · intro k p h
    rw [hr]
    exact h
  · intro k l h
    rw [hl] at h
    exact Or.inl h

/-- Leases were taken out. -/
theorem Frame.erased {plane after : Plane F} (hr : after.registry=plane.registry)
    {names : List String} (hl : after.leases=eraseNames plane.leases names) :
    Frame plane after [] := by
  refine ⟨?_,?_⟩
  · intro k p h
    rw [hr]
    exact h
  · intro k l h
    rw [hl,eraseNames_getElem?] at h
    split at h
    · cases h
    · exact Or.inl h

/-- Leases were stored. -/
theorem Frame.stored {plane after : Plane F} {new : List (Lease F)} (hg : Granted plane new)
    (hr : after.registry=plane.registry) (hl : after.leases=storeLeases plane.leases new) :
    Frame plane after new := by
  refine ⟨?_,?_⟩
  · intro k p h
    rw [hr]
    exact h
  · intro k l h
    rw [hl] at h
    by_cases hm : k ∈ new.map fun l => l.id.id
    · obtain ⟨found,hf,rfl⟩ := List.mem_map.mp hm
      rw [storeLeases_of_mem hg.distinct hf,Option.some.injEq] at h
      subst h
      exact Or.inr ⟨hf,rfl⟩
    · rw [storeLeases_of_not_mem hm] at h
      exact Or.inl h

variable [UuidCrate]

/-- The leases that an operation may store: none, or those of one plan of its scheduler. -/
def Grants (op : Operation F) (uuids : ℕ → String) (new : List (Lease F)) : Prop :=
  new=[] ∨ ∃ scheduler ∈ op.scheduler,∃ requirement now duration node,
    planLeases scheduler requirement now duration uuids=.ok (node,new)

/-- The registration of a participant changes no other. -/
theorem registerParticipant_frame (plane : Plane F) (participant : Participant F) :
    Frame plane (plane.registerParticipant participant).2 [] := by
  rw [registerParticipant,Registry.register]
  by_cases hv : participant.id.kind≠.participant ∨ participant.id.validate.isOk=false
  · rw [if_pos hv]
    exact .same rfl rfl
  rw [if_neg hv]
  by_cases hm : participant.id.id ∈ plane.registry.participants
  · rw [if_pos hm]
    exact .same rfl rfl
  rw [if_neg hm]
  refine ⟨?_,fun k l h => Or.inl h⟩
  intro k p h
  refine OrderedMap.getElem?_insert_eq_some.mpr (Or.inr ⟨?_,h⟩)
  rintro rfl
  rw [Std.ExtTreeMap.getElem?_eq_none hm] at h
  cases h

/-- The creation of a leased node stores the leases of its plan, or none. -/
theorem createLeasedLogicalNode_frame {plane : Plane F} {op : Operation F}
    {scheduler : Scheduler F} (hs : op.scheduler=some scheduler)
    (requirement : ResourceFragment F) (now : SystemTime) (duration : Duration)
    {uuids : ℕ → String}
    (hf : FreshIds plane.Known (Operation.planned scheduler requirement) uuids) :
    ∃ new,Grants op uuids new ∧
      Frame plane (plane.createLeasedLogicalNode scheduler requirement now duration uuids).2 new := by
  rw [createLeasedLogicalNode]
  cases hp : planLeases scheduler requirement now duration uuids with
  | ok found =>
    have hg := granted_of_planLeases hf le_rfl hp
    exact ⟨found.2,Or.inr ⟨scheduler,hs,requirement,now,duration,found.1,hp⟩,.stored hg rfl rfl⟩
  | err e => exact ⟨[],Or.inl rfl,.same rfl rfl⟩
  | panic => exact ⟨[],Or.inl rfl,.same rfl rfl⟩

/-- The creation of a leased machine stores the leases of its plan, or none. -/
theorem createLeasedVirtualMachine_frame {plane : Plane F} {scheduler : Scheduler F}
    {requirement : ResourceFragment F} {runtime : RuntimeSpec} {createdAt : SystemTime}
    {duration : Duration} {uuids : ℕ → String}
    (hf : FreshIds plane.Known (Operation.planned scheduler requirement+1) uuids) :
    ∃ new,Grants (.createLeasedVirtualMachine scheduler requirement runtime createdAt duration)
        uuids new ∧
      Frame plane (plane.createLeasedVirtualMachine scheduler requirement runtime createdAt duration
        uuids).2 new := by
  have hfew := hf.weaken (Nat.le_succ _)
  have hs : (Operation.createLeasedVirtualMachine scheduler requirement runtime createdAt
      duration).scheduler=some scheduler := rfl
  rcases createLeasedVirtualMachine_cases hf with ⟨node,leases,vm,hp,_,hafter⟩|hafter|hafter
  · have hg := granted_of_planLeases hf (Nat.le_succ _) hp
    rw [hafter]
    exact ⟨leases,Or.inr ⟨scheduler,rfl,requirement,createdAt,duration,node,hp⟩,
      .stored hg rfl rfl⟩
  · rw [hafter]
    exact ⟨[],Or.inl rfl,.same rfl rfl⟩
  · rw [hafter]
    exact createLeasedLogicalNode_frame hs requirement createdAt duration hfew

omit [UuidCrate] in
/-- A change of a stored machine concerns neither registry nor leases. -/
theorem updateVirtualMachine_frame (plane : Plane F) (id : Identity)
    (change : VirtualMachine F → Except VirtualMachineError (VirtualMachine F)) :
    Frame plane (plane.updateVirtualMachine id change).2 [] := by
  rw [updateVirtualMachine]
  cases plane.virtualMachines[id.id]? with
  | none => exact .same rfl rfl
  | some vm =>
    dsimp only
    cases change vm <;> exact .same rfl rfl

/-- An execution concerns neither registry nor leases. -/
theorem executeVirtualMachine_frame (plane : Plane F) (id : Identity) (workload : WorkItem)
    (backend : ExecutionBackend F) (now : SystemTime) :
    Frame plane (plane.executeVirtualMachine id workload backend now).plane [] := by
  rw [executeVirtualMachine]
  cases plane.virtualMachines[id.id]? with
  | none => exact .same rfl rfl
  | some vm =>
    dsimp only
    cases plane.logicalNodes[vm.nodeId.id]? with
    | none => exact .same rfl rfl
    | some node =>
      dsimp only
      cases (vm.executeAt node workload backend now).result <;> exact .same rfl rfl

/-- The removal of a machine takes out leases at most. -/
theorem destroyVirtualMachine_frame (plane : Plane F) (id : Identity) :
    Frame plane (plane.destroyVirtualMachine id).2 [] := by
  cases hs : plane.virtualMachines[id.id]? with
  | none =>
    rw [destroyVirtualMachine,hs]
    exact .same rfl rfl
  | some vm =>
    rcases destroyVirtualMachine_cases hs with ⟨_,hd⟩|⟨e,names,_,_,hd⟩
    · rw [hd]
      exact .erased rfl rfl
    · rw [hd]
      exact .erased rfl rfl

/-- The release of a lease takes it out at most. -/
theorem releaseLease_frame (plane : Plane F) (id : Identity) :
    Frame plane (plane.releaseLease id).2 [] := by
  rcases hr : plane.releaseLease id with ⟨e|lease,after⟩
  · rw [releaseLease_of_error hr]
    exact .same rfl rfl
  · obtain ⟨_,_,rfl⟩ := releaseLease_eq_ok.mp hr
    have hl : plane.leases.erase id.id=eraseNames plane.leases [id.id] := rfl
    exact .erased rfl hl

/-- What every operation leaves in the registry and in the store of leases. -/
theorem perform_frame (plane : Plane F) {uuids : ℕ → String} {op : Operation F}
    (hf : FreshIds plane.Known op.draws uuids) :
    ∃ new,Grants op uuids new ∧ Frame plane (plane.perform uuids op) new := by
  have hnone {after : Plane F} (h : Frame plane after []) :
      ∃ new,Grants op uuids new ∧ Frame plane after new := ⟨[],Or.inl rfl,h⟩
  cases op with
  | registerParticipant participant => exact hnone (registerParticipant_frame plane participant)
  | announceParticipant ad observedAt =>
    rw [perform,announceParticipant]
    cases plane.discovery.upsert ad observedAt <;> exact hnone (.same rfl rfl)
  | removeDiscoveredParticipant id =>
    rw [perform,removeDiscoveredParticipant]
    cases plane.discovery.remove id <;> exact hnone (.same rfl rfl)
  | createVirtualMachine node createdAt =>
    rw [perform,createVirtualMachine]
    cases VirtualMachine.fromNode node createdAt (uuids 0) <;> exact hnone (.same rfl rfl)
  | createLeasedLogicalNode scheduler requirement now duration =>
    exact createLeasedLogicalNode_frame rfl requirement now duration hf
  | createLeasedLogicalNodeWithRuntime scheduler requirement runtime now duration =>
    rw [perform,createLeasedLogicalNodeWithRuntime_plane]
    exact createLeasedLogicalNode_frame rfl requirement now duration hf
  | createLeasedVirtualMachine scheduler requirement runtime createdAt duration =>
    exact createLeasedVirtualMachine_frame hf
  | startVirtualMachine id => exact hnone (updateVirtualMachine_frame plane id _)
  | stopVirtualMachine id => exact hnone (updateVirtualMachine_frame plane id _)
  | executeVirtualMachine id workload backend now =>
    exact hnone (executeVirtualMachine_frame plane id workload backend now)
  | destroyVirtualMachine id => exact hnone (destroyVirtualMachine_frame plane id)
  | releaseLease id => exact hnone (releaseLease_frame plane id)
  | releaseLeases leases =>
    obtain ⟨names,_,hafter,_⟩ := plane.releaseLeases_frame leases
    rw [perform,hafter]
    exact hnone (.erased rfl rfl)

end Frame

section Runs

variable {F : Type} [CoresArith F]

/-- The operation plans with the aggregating scheduler over the participants
of the plane, if it plans, and the node gets a new name. -/
def PlansOverRegistry (plane : Plane F) (op : Operation F) : Prop :=
  ∀ scheduler ∈ op.scheduler,∃ uuid,¬plane.Known uuid ∧ scheduler=plan plane.registry.offers uuid

/-- What can happen to a plane: an operation, or a change of the stage of
participants by whoever holds them. -/
inductive Happens [UuidCrate] (plane : Plane F) : Plane F → Prop where
  /-- An operation is performed. -/
  | performed {op : Operation F} {after : Plane F} (plans : PlansOverRegistry plane op)
    (step : Step plane op after) : Happens plane after
  /-- Participants change, but not what they have. -/
  | staged {registry : Registry F}
    (same : ∀ (k : String) (p : Participant F),plane.registry.participants[k]?=some p →
      ∃ q,registry.participants[k]?=some q ∧ q.resources=p.resources) :
    Happens plane {plane with registry := registry}

/-- Planes that a new plane can become in that way. -/
def Evolves [UuidCrate] (plane : Plane F) : Prop :=
  ∃ registry discovery,Relation.ReflTransGen Happens (Plane.new registry discovery) plane

/-- The stored leases on a participant that are active at an instant. -/
def leasedOn (plane : Plane F) (participantId : String) (now : SystemTime) : List (Lease F) :=
  (plane.leases.toList.map Prod.snd).filter fun l =>
    l.participantId.id==participantId && l.activeAt now

/-- At every instant the leases on each participant reserve no more than it has. -/
def NeverOversubscribed (plane : Plane F) : Prop :=
  ∀ (k : String) (p : Participant F),plane.registry.participants[k]?=some p →
    ∀ (now : SystemTime),∀ amount ∈ counted,
      reserved amount (plane.leasedOn k now) ≤ amount p.resources

/-- At every instant the leases of each node on each participant reserve no
more than the participant has, and those of all nodes no more than that for
every node. -/
def NodesWithinParticipants (plane : Plane F) : Prop :=
  ∀ (k : String) (p : Participant F),plane.registry.participants[k]?=some p →
    ∀ (now : SystemTime),∀ amount ∈ counted,
      (∀ nodeId,reserved amount ((plane.leasedOn k now).filter fun l => l.logicalNodeId.id==nodeId) ≤
        amount p.resources) ∧
      reserved amount (plane.leasedOn k now) ≤
        ((plane.leasedOn k now).map fun l => l.logicalNodeId.id).dedup.length*amount p.resources

/-- What every lease in the store keeps true. -/
structure Accounted (plane : Plane F) : Prop where
  /-- Its participant is on file and has what it reserves. -/
  backed : ∀ (k : String) (l : Lease F),plane.leases[k]?=some l →
    ∃ p,plane.registry.participants[l.participantId.id]?=some p ∧
      ∀ amount ∈ counted,amount l.resources ≤ amount p.resources
  /-- It is the only lease of its node on its participant. -/
  single : ∀ (k k' : String) (l l' : Lease F),plane.leases[k]?=some l → plane.leases[k']?=some l' →
    l.participantId.id=l'.participantId.id → l.logicalNodeId.id=l'.logicalNodeId.id → k=k'

/-- A new plane has no leases. -/
theorem new_accounted (registry : Registry F) (discovery : MemoryRegistry F) :
    Accounted (Plane.new registry discovery) :=
  ⟨by simp [Plane.new],by simp [Plane.new]⟩

/-- A change of stage keeps the account. -/
theorem Accounted.staged {plane : Plane F} (h : Accounted plane) {registry : Registry F}
    (same : ∀ (k : String) (p : Participant F),plane.registry.participants[k]?=some p →
      ∃ q,registry.participants[k]?=some q ∧ q.resources=p.resources) :
    Accounted {plane with registry := registry} := by
  refine ⟨?_,h.single⟩
  intro k l hl
  obtain ⟨p,hp,hle⟩ := h.backed k l hl
  obtain ⟨q,hq,hr⟩ := same _ _ hp
  exact ⟨q,hq,fun amount hm => hr ▸ hle amount hm⟩

/-- The leases on a participant are stored, and they are within it. -/
theorem Accounted.leasedOn_le {plane : Plane F} (h : Accounted plane) {k : String}
    {p : Participant F} (hp : plane.registry.participants[k]?=some p) (now : SystemTime)
    {amount : ResourceFragment F → ℕ} (hm : amount ∈ counted) :
    ∀ l ∈ plane.leasedOn k now,amount l.resources ≤ amount p.resources := by
  intro l hl
  obtain ⟨hstored,hactive⟩ := List.mem_filter.mp hl
  obtain ⟨e,he,rfl⟩ := List.mem_map.mp hstored
  obtain ⟨q,hq,hle⟩ := h.backed e.1 e.2 (Std.ExtTreeMap.mem_toList_iff_getElem?_eq_some.mp he)
  have hk : e.2.participantId.id=k := by
    rw [Bool.and_eq_true] at hactive
    exact beq_iff_eq.mp hactive.1
  rw [hk,hp,Option.some.injEq] at hq
  rw [hq]
  exact hle amount hm

/-- The leases on a participant are of distinct nodes. -/
theorem Accounted.leasedOn_nodes {plane : Plane F} (h : Accounted plane) (k : String)
    (now : SystemTime) : ((plane.leasedOn k now).map fun l => l.logicalNodeId.id).Nodup := by
  have hkeys : plane.leases.toList.Pairwise fun a b => ¬compare a.1 b.1=.eq :=
    Std.ExtTreeMap.distinct_keys_toList
  rw [leasedOn,List.filter_map,List.map_map,List.Nodup,List.pairwise_map]
  refine (hkeys.sublist List.filter_sublist).imp_of_mem ?_
  intro e e' he he' hne hnode
  obtain ⟨hs,hf⟩ := List.mem_filter.mp he
  obtain ⟨hs',hf'⟩ := List.mem_filter.mp he'
  simp only [Function.comp_apply,Bool.and_eq_true,beq_iff_eq] at hf hf'
  have hkey := h.single e.1 e'.1 e.2 e'.2 (Std.ExtTreeMap.mem_toList_iff_getElem?_eq_some.mp hs)
    (Std.ExtTreeMap.mem_toList_iff_getElem?_eq_some.mp hs') (hf.1.trans hf'.1.symm) hnode
  exact hne (Std.compare_eq_iff_eq.mpr hkey)

omit [CoresArith F] in
/-- Among leases of distinct nodes at most one is of a given node. -/
theorem length_filter_node {leases : List (Lease F)}
    (h : (leases.map fun l => l.logicalNodeId.id).Nodup) (nodeId : String) :
    (leases.filter fun l => l.logicalNodeId.id==nodeId).length ≤ 1 := by
  have hc := List.nodup_iff_count_le_one.mp h nodeId
  rw [List.count,List.countP_map,List.countP_eq_length_filter] at hc
  exact hc

variable [UuidCrate]

/-- The leases of one plan over the registry: each within its participant,
one for each, all of the node that was planned. -/
theorem leases_of_planLeases {registry : Registry F} {uuid : String}
    {requirement : ResourceFragment F} {now : SystemTime} {duration : Duration}
    {uuids : ℕ → String} {node : LogicalNode F} {new : List (Lease F)}
    (h : planLeases (plan registry.offers uuid) requirement now duration uuids=.ok (node,new)) :
    (∀ l ∈ new,l.logicalNodeId.id=uuid ∧
      ∃ p,registry.participants[l.participantId.id]?=some p ∧
        ∀ amount ∈ counted,amount l.resources ≤ amount p.resources) ∧
    (new.map fun l => l.participantId.id).Nodup := by
  obtain ⟨_,_,hplan,_,expiresAt,_,rfl,_⟩ := planLeases_eq_ok.mp h
  have hplanned := planned_of_plan hplan
  refine ⟨?_,?_⟩
  · intro l hl
    obtain ⟨i,a,hi,rfl⟩ := mem_leasesFor.mp hl
    obtain ⟨o,ho,hid,hle⟩ := counted_allocation hplan (List.mem_of_getElem? hi)
    obtain ⟨p,hp,_,hr⟩ := Registry.mem_offers.mp ho
    refine ⟨hplanned.id,p,?_,?_⟩
    · rw [hid] at hp
      exact hp
    · intro amount hm
      have hlease : amount (leasedResources a.resources duration)=amount a.resources :=
        counted_leasedResources hm a.resources duration
      rw [← hr]
      exact hlease.trans_le (hle amount hm)
  · rw [leasesFor_participants]
    exact hplanned.composable.distinct

/-- New leases are within their participants, of a node that was not known,
and one for each participant. -/
theorem Grants.overRegistry {plane : Plane F} {op : Operation F} {uuids : ℕ → String}
    {new : List (Lease F)} (h : Grants op uuids new) (hop : PlansOverRegistry plane op) :
    (∀ l ∈ new,¬plane.Known l.logicalNodeId.id ∧
      ∃ p,plane.registry.participants[l.participantId.id]?=some p ∧
        ∀ amount ∈ counted,amount l.resources ≤ amount p.resources) ∧
    (new.map fun l => l.participantId.id).Nodup := by
  rcases h with rfl|⟨scheduler,hs,requirement,now,duration,node,hp⟩
  · exact ⟨by simp,List.nodup_nil⟩
  · obtain ⟨uuid,hfresh,rfl⟩ := hop scheduler hs
    obtain ⟨hnew,hdistinct⟩ := leases_of_planLeases hp
    refine ⟨?_,hdistinct⟩
    intro l hl
    obtain ⟨hnode,hbacked⟩ := hnew l hl
    rw [hnode]
    exact ⟨hfresh,hbacked⟩

/-- An operation keeps the account. -/
theorem Accounted.performed {plane after : Plane F} (h : Accounted plane) {op : Operation F}
    (hop : PlansOverRegistry plane op) (hstep : Step plane op after) : Accounted after := by
  obtain ⟨uuids,hf,rfl⟩ := hstep
  obtain ⟨new,hgrants,hframe⟩ := perform_frame plane hf
  obtain ⟨hnew,hdistinct⟩ := hgrants.overRegistry hop
  have hapart : ∀ l ∈ new,∀ (k : String) (old : Lease F),plane.leases[k]?=some old →
      old.logicalNodeId.id≠l.logicalNodeId.id := by
    intro l hl k old hold he
    exact (hnew l hl).1 (Or.inr (Or.inr (Or.inr (Or.inl ⟨k,old,hold,he⟩))))
  refine ⟨?_,?_⟩
  · intro k l hl
    have hold : ∃ p,plane.registry.participants[l.participantId.id]?=some p ∧
        ∀ amount ∈ counted,amount l.resources ≤ amount p.resources := by
      rcases hframe.leases k l hl with hl|⟨hl,_⟩
      · exact h.backed k l hl
      · exact (hnew l hl).2
    obtain ⟨p,hp,hle⟩ := hold
    exact ⟨p,hframe.registry _ _ hp,hle⟩
  · intro k k' l l' hl hl' hparticipant hnode
    rcases hframe.leases k l hl with hl|⟨hl,hk⟩
    · rcases hframe.leases k' l' hl' with hl'|⟨hl',_⟩
      · exact h.single k k' l l' hl hl' hparticipant hnode
      · exact (hapart l' hl' k l hl hnode).elim
    · rcases hframe.leases k' l' hl' with hl'|⟨hl',hk'⟩
      · exact (hapart l hl k' l' hl' hnode.symm).elim
      · have he := List.inj_on_of_nodup_map hdistinct hl hl' hparticipant
        rw [← hk,← hk',he]

/-- Whatever happens to a plane, its leases are accounted for. -/
theorem Evolves.accounted {plane : Plane F} (h : Evolves plane) : Accounted plane := by
  obtain ⟨registry,discovery,hrun⟩ := h
  induction hrun with
  | refl => exact new_accounted registry discovery
  | tail _ hstep ih =>
    cases hstep with
    | performed hop hstep => exact ih.performed hop hstep
    | staged same => exact ih.staged same

/-- Whatever happens to a plane, the leases of one node never reserve more of
a participant than it has; leases of several nodes are not counted against
each other. -/
theorem nodesWithinParticipants {plane : Plane F} (h : Evolves plane) :
    NodesWithinParticipants plane := by
  intro k p hp now amount hm
  have hle := h.accounted.leasedOn_le hp now hm
  have hnodes := h.accounted.leasedOn_nodes k now
  refine ⟨?_,?_⟩
  · intro nodeId
    have hone := length_filter_node hnodes nodeId
    have hnode : ∀ l ∈ (plane.leasedOn k now).filter fun l => l.logicalNodeId.id==nodeId,
        amount l.resources ≤ amount p.resources := fun l hl => hle l (List.mem_of_mem_filter hl)
    have hsum := reserved_le hnode
    exact hsum.trans ((Nat.mul_le_mul_right _ hone).trans_eq (Nat.one_mul _))
  · have hsum := reserved_le hle
    rw [hnodes.dedup,List.length_map]
    exact hsum

end Runs

section Sample

/-- Two cores and ten bytes of memory. -/
def tenBytes : ResourceFragment ℚ := ⟨2,10,0,0,0,none⟩

/-- An active participant that has that much. -/
def tenBytesParticipant : Participant ℚ where
  id := ⟨twoCores.participantId,.participant⟩
  capability := ⟨2,0,10,0,0,1,none⟩
  resources := tenBytes
  state := .active
  joinedAt := sampleInstant
  updatedAt := sampleInstant
  idValid := twoCoresParticipant.idValid
  capabilityValid := by decide +kernel
  resourcesValid := by decide +kernel

/-- A new plane over that participant. -/
def tenBytesPlane : Plane ℚ := Plane.new
  ⟨Std.ExtTreeMap.insert ∅ twoCores.participantId tenBytesParticipant,by
    intro k p h
    rcases OrderedMap.getElem?_insert_eq_some.mp h with ⟨hk,rfl⟩|⟨_,hp⟩
    · exact hk
    · simp at hp⟩
  emptyDiscovery

/-- The creation of a leased node of that name that needs all of it. -/
def bookOperation (nodeText : String) : Operation ℚ :=
  .createLeasedLogicalNode (plan tenBytesPlane.registry.offers nodeText) tenBytes sampleInstant
    sampleDuration

/-- The lease that comes out of the creation. -/
def bookedLease (nodeText leaseText : String) : Lease ℚ :=
  ⟨⟨leaseText,.lease⟩,⟨nodeText,.logicalNode⟩,⟨twoCores.participantId,.participant⟩,
    {tenBytes with lifetime := some sampleDuration},sampleInstant,wasmLease.expiresAt⟩

/-- Generated texts for two nodes and two leases. -/
def bookedTexts (n : ℕ) : String :=
  if n=0 then "33333333-3333-4333-8333-333333333333"
  else if n=1 then "44444444-4444-4444-8444-444444444444"
  else if n=2 then "55555555-5555-4555-8555-555555555555"
  else "66666666-6666-4666-8666-666666666666"

/-- The plane after the first creation. -/
def bookedPlane : Plane ℚ := {tenBytesPlane with
  leases := storeLeases tenBytesPlane.leases [bookedLease (bookedTexts 0) (bookedTexts 1)]}

/-- The plane after the second creation. -/
def overbookedPlane : Plane ℚ := {tenBytesPlane with
  leases := storeLeases bookedPlane.leases [bookedLease (bookedTexts 2) (bookedTexts 3)]}

/-- A creation over the participant stores its lease. -/
theorem step_bookOperation {plane : Plane ℚ} {nodeText leaseText : String}
    (hc : IsCanonical leaseText) (hf : ¬plane.Known leaseText) : letI := hyphenatedUuid
    (∃ node,planLeases (plan tenBytesPlane.registry.offers nodeText) tenBytes sampleInstant
      sampleDuration (fun _ => leaseText)=.ok (node,[bookedLease nodeText leaseText])) →
    Step plane (bookOperation nodeText) {plane with
      leases := storeLeases plane.leases [bookedLease nodeText leaseText]} := by
  let := hyphenatedUuid
  rintro ⟨node,hp⟩
  have hone : (bookOperation nodeText).draws=1 := by
    obtain ⟨_,_,hplan,_,_,_,hleases,_⟩ := planLeases_eq_ok.mp hp
    have hlen := congrArg List.length hleases
    rw [leasesFor_length] at hlen
    rw [bookOperation,Operation.draws,Operation.planned,hplan]
    exact hlen.symm
  refine ⟨fun _ => leaseText,⟨fun i _ => hc,?_,fun i _ => hf⟩,?_⟩
  · intro i hi j hj _
    rw [hone] at hi hj
    omega
  · rw [bookOperation,perform,createLeasedLogicalNode,hp]

/-- What is known after the first creation is its lease and its node. -/
theorem not_known_bookedPlane {k : String} (hl : bookedTexts 1≠k) (hn : bookedTexts 0≠k) :
    ¬bookedPlane.Known k := by
  have hfound (id : String) (l : Lease ℚ) (h : bookedPlane.leases[id]?=some l) :
      bookedTexts 1=id ∧ bookedLease (bookedTexts 0) (bookedTexts 1)=l := by
    rcases OrderedMap.getElem?_insert_eq_some.mp h with hnew|⟨_,hold⟩
    · exact hnew
    · simp [tenBytesPlane,Plane.new] at hold
  rintro (hm|hm|hm|⟨id,l,hs,he⟩|⟨id,vm,hs,_⟩)
  · obtain ⟨l,hs⟩ := Option.isSome_iff_exists.mp (Std.ExtTreeMap.mem_iff_isSome_getElem?.mp hm)
    exact hl (hfound k l hs).1
  · simp [bookedPlane,tenBytesPlane,Plane.new] at hm
  · simp [bookedPlane,tenBytesPlane,Plane.new] at hm
  · obtain ⟨_,rfl⟩ := hfound id l hs
    exact hn he
  · simp [bookedPlane,tenBytesPlane,Plane.new] at hs

/-- The creations plan over the registry of the planes they meet. -/
theorem plansOverRegistry_booked :
    PlansOverRegistry tenBytesPlane (bookOperation (bookedTexts 0)) ∧
    PlansOverRegistry bookedPlane (bookOperation (bookedTexts 2)) := by
  refine ⟨?_,?_⟩
  · intro scheduler hs
    refine ⟨bookedTexts 0,?_,(Option.mem_some_iff.mp hs).symm⟩
    simp [Known,tenBytesPlane,Plane.new]
  · intro scheduler hs
    exact ⟨bookedTexts 2,not_known_bookedPlane (by decide) (by decide),
      (Option.mem_some_iff.mp hs).symm⟩

/-- The two creations happen one after the other. -/
theorem steps_booked : letI := hyphenatedUuid
    Step tenBytesPlane (bookOperation (bookedTexts 0)) bookedPlane ∧
    Step bookedPlane (bookOperation (bookedTexts 2)) overbookedPlane := by
  let := hyphenatedUuid
  refine ⟨step_bookOperation (by decide +kernel) ?_ ?_,
    step_bookOperation (by decide +kernel) ?_ ?_⟩
  · simp [Known,tenBytesPlane,Plane.new]
  · exact ⟨⟨bookedTexts 0,⟨tenBytes,[⟨twoCores.participantId,tenBytes⟩]⟩,.default⟩,by
      decide +kernel⟩
  · exact not_known_bookedPlane (by decide) (by decide)
  · exact ⟨⟨bookedTexts 2,⟨tenBytes,[⟨twoCores.participantId,tenBytes⟩]⟩,.default⟩,by
      decide +kernel⟩

/-- Two creations lease the memory of one participant twice. -/
theorem not_neverOversubscribed_overbookedPlane : letI := hyphenatedUuid
    PlansOverRegistry tenBytesPlane (bookOperation (bookedTexts 0)) ∧
    Step tenBytesPlane (bookOperation (bookedTexts 0)) bookedPlane ∧
    PlansOverRegistry bookedPlane (bookOperation (bookedTexts 2)) ∧
    Step bookedPlane (bookOperation (bookedTexts 2)) overbookedPlane ∧
    ¬NeverOversubscribed overbookedPlane := by
  let := hyphenatedUuid
  refine ⟨plansOverRegistry_booked.1,steps_booked.1,plansOverRegistry_booked.2,steps_booked.2,?_⟩
  intro h
  have hp : overbookedPlane.registry.participants[twoCores.participantId]?=
      some tenBytesParticipant := OrderedMap.getElem?_insert_eq_some.mpr (Or.inl ⟨rfl,rfl⟩)
  have hle := h _ _ hp sampleInstant (fun r => r.memory.toNat) List.mem_cons_self
  have htwice : reserved (fun r => r.memory.toNat)
      (overbookedPlane.leasedOn twoCores.participantId sampleInstant)=20 := by
    decide +kernel
  rw [htwice] at hle
  exact absurd hle (by decide)

/-- Each of the two nodes stays within the participant. -/
theorem nodesWithinParticipants_overbookedPlane : NodesWithinParticipants overbookedPlane := by
  let := hyphenatedUuid
  have hfirst : Happens tenBytesPlane bookedPlane :=
    .performed plansOverRegistry_booked.1 steps_booked.1
  have hsecond : Happens bookedPlane overbookedPlane :=
    .performed plansOverRegistry_booked.2 steps_booked.2
  exact nodesWithinParticipants ⟨_,_,.tail (.single hfirst) hsecond⟩

end Sample

end Plane

end OpenHost
