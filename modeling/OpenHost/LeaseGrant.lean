import OpenHost.Control

/-!
# Granting leases

What the plane grants for a planned node: one lease per allocation, named
in order by the generated texts, and nothing at all unless every one of
them passes its checks. The store then holds the granted leases beside the
old ones, and removing them again restores it when their names were new.
-/

namespace OpenHost.Plane

variable {F : Type}

/-- The lease that an allocation is granted. -/
def leaseFor (nodeId : Identity) (now expiresAt : SystemTime) (duration : Duration)
    (allocation : Allocation F) (uuid : String) : Lease F :=
  ⟨⟨uuid,.lease⟩,nodeId,⟨allocation.participantId,.participant⟩,
    leasedResources allocation.resources duration,now,expiresAt⟩

/-- The leases that the allocations are granted, in order. -/
def leasesFor (nodeId : Identity) (now expiresAt : SystemTime) (duration : Duration) :
    List (Allocation F) → (ℕ → String) → List (Lease F)
  | [],_ => []
  | allocation::rest,uuids =>
    leaseFor nodeId now expiresAt duration allocation (uuids 0)::
      leasesFor nodeId now expiresAt duration rest fun n => uuids (n+1)

/-- The lifetime of a lease is the duration, unless the part ends earlier. -/
theorem leasedResources_lifetime (r : ResourceFragment F) (duration : Duration) :
    (leasedResources r duration).lifetime=
      if r.lifetime.all (fun l => decide (duration<l)) then some duration else r.lifetime := by
  rw [leasedResources]
  split
  · rfl
  · rfl

/-- Only the lifetime differs between a part and its lease. -/
theorem leasedResources_eq (r : ResourceFragment F) (duration : Duration) :
    ∃ lifetime,leasedResources r duration={r with lifetime := lifetime} := by
  rw [leasedResources]
  split
  · exact ⟨_,rfl⟩
  · exact ⟨r.lifetime,rfl⟩

/-- A lease lives as long as its reservation exactly when the part does. -/
theorem leasedResources_covers (r : ResourceFragment F) (duration : Duration) :
    (∀ l,(leasedResources r duration).lifetime=some l → duration ≤ l) ↔
      ∀ l,r.lifetime=some l → duration ≤ l := by
  rw [leasedResources_lifetime]
  cases hl : r.lifetime with
  | none => simp
  | some life =>
    by_cases hlt : duration<life
    · simp [hlt,hlt.le]
    · simp [hlt]

@[simp] theorem leasesFor_length (nodeId : Identity) (now expiresAt : SystemTime)
    (duration : Duration) (allocations : List (Allocation F)) (uuids : ℕ → String) :
    (leasesFor nodeId now expiresAt duration allocations uuids).length=allocations.length := by
  induction allocations generalizing uuids with
  | nil => rfl
  | cons a rest ih => simp only [leasesFor,List.length_cons,ih]

/-- The leases at a position belong to the allocation and the text there. -/
theorem leasesFor_getElem? (nodeId : Identity) (now expiresAt : SystemTime) (duration : Duration)
    (allocations : List (Allocation F)) (uuids : ℕ → String) (i : ℕ) :
    (leasesFor nodeId now expiresAt duration allocations uuids)[i]?=
      allocations[i]?.map fun a => leaseFor nodeId now expiresAt duration a (uuids i) := by
  induction allocations generalizing uuids i with
  | nil => simp [leasesFor]
  | cons a rest ih =>
    cases i with
    | zero => simp [leasesFor]
    | succ i => simp only [leasesFor,List.getElem?_cons_succ,ih]

/-- The granted leases are those of the allocations. -/
theorem mem_leasesFor {nodeId : Identity} {now expiresAt : SystemTime} {duration : Duration}
    {allocations : List (Allocation F)} {uuids : ℕ → String} {lease : Lease F} :
    lease ∈ leasesFor nodeId now expiresAt duration allocations uuids ↔
      ∃ i a,allocations[i]?=some a ∧
        lease=leaseFor nodeId now expiresAt duration a (uuids i) := by
  simp only [List.mem_iff_getElem?,leasesFor_getElem?,Option.map_eq_some_iff]
  constructor
  · rintro ⟨i,a,ha,hl⟩
    exact ⟨i,a,ha,hl.symm⟩
  · rintro ⟨i,a,ha,hl⟩
    exact ⟨i,a,ha,hl.symm⟩

/-- The leases are named by the texts, in order. -/
theorem leasesFor_names (nodeId : Identity) (now expiresAt : SystemTime) (duration : Duration)
    (allocations : List (Allocation F)) (uuids : ℕ → String) :
    (leasesFor nodeId now expiresAt duration allocations uuids).map (fun l => l.id.id)=
      (List.range allocations.length).map uuids := by
  induction allocations generalizing uuids with
  | nil => rfl
  | cons a rest ih =>
    rw [leasesFor,List.map_cons,ih,List.length_cons,List.range_succ_eq_map,List.map_cons,
      List.map_map]
    rfl

/-- Distinct texts give the leases distinct names. -/
theorem leasesFor_distinct {nodeId : Identity} {now expiresAt : SystemTime} {duration : Duration}
    {allocations : List (Allocation F)} {uuids : ℕ → String}
    (h : ∀ i<allocations.length,∀ j<allocations.length,uuids i=uuids j → i=j) :
    ((leasesFor nodeId now expiresAt duration allocations uuids).map fun l => l.id.id).Nodup := by
  rw [leasesFor_names]
  refine List.nodup_range.map_on ?_
  intro i hi j hj he
  exact h i (List.mem_range.mp hi) j (List.mem_range.mp hj) he

/-- The leases reserve the participants of the allocations, in order. -/
theorem leasesFor_participants (nodeId : Identity) (now expiresAt : SystemTime)
    (duration : Duration) (allocations : List (Allocation F)) (uuids : ℕ → String) :
    (leasesFor nodeId now expiresAt duration allocations uuids).map (fun l => l.participantId.id)=
      allocations.map Allocation.participantId := by
  apply List.ext_getElem?
  intro i
  rw [List.getElem?_map,leasesFor_getElem?,List.getElem?_map,Option.map_map]
  rfl

section Granting

variable [Cores F]

/-- When an instant, a duration and a node lead to leases: the instant is
not the epoch, the duration is not zero and does not leave the calendar, the
names are canonical, and each part is valid and lives long enough. -/
structure Grantable (now : SystemTime) (duration : Duration) (node : LogicalNode F) : Prop where
  /-- The reservation does not start at the epoch. -/
  started : now≠.unixEpoch
  /-- The reservation lasts. -/
  lasting : duration.isZero=false
  /-- The end of the reservation is representable. -/
  representable : (now.checkedAdd duration).isSome=true
  /-- The node has a canonical name. -/
  named : IsCanonical node.id
  /-- Every participant has a canonical name. -/
  participant : ∀ a ∈ node.resources.allocations,IsCanonical a.participantId
  /-- Every part is a valid non-empty fragment. -/
  valid : ∀ a ∈ node.resources.allocations,a.resources.validateRequirement=.ok ()
  /-- No part ends before the reservation does. -/
  lifetime : ∀ a ∈ node.resources.allocations,∀ l,a.resources.lifetime=some l → duration ≤ l

/-- A leased part is a requirement exactly when the part is one. -/
theorem leasedResources_validateRequirement (r : ResourceFragment F) (duration : Duration) :
    (leasedResources r duration).validateRequirement=r.validateRequirement := by
  obtain ⟨lifetime,he⟩ := leasedResources_eq r duration
  rw [he]
  rfl

/-- A granted lease passes its checks exactly under these conditions. -/
theorem leaseFor_valid {nodeId : Identity} {now expiresAt : SystemTime} {duration : Duration}
    {a : Allocation F} {uuid : String} (hadd : now.checkedAdd duration=some expiresAt)
    (hz : duration.isZero=false) :
    (leaseFor nodeId now expiresAt duration a uuid).Valid ↔
      IsCanonical uuid ∧ (nodeId.kind=.logicalNode ∧ IsCanonical nodeId.id) ∧
      IsCanonical a.participantId ∧ a.resources.validateRequirement=.ok () ∧ now≠.unixEpoch ∧
      ∀ l,a.resources.lifetime=some l → duration ≤ l := by
  have hpos : 0<duration.nanos := by
    simp only [Duration.isZero,beq_eq_false_iff_ne,ne_eq] at hz
    omega
  have hlast : now<expiresAt := by
    rw [SystemTime.lt_iff,SystemTime.checkedAdd_nanos hadd]
    omega
  have hsince := SystemTime.durationSince_checkedAdd hadd
  constructor
  · intro h
    refine ⟨h.id.2,h.node,h.participant.2,?_,h.started,?_⟩
    · have hr := h.resources
      rwa [leaseFor,leasedResources_validateRequirement] at hr
    · rw [← leasedResources_covers]
      exact fun l hl => h.lifetime l duration hl hsince
  · rintro ⟨hu,hn,hp,hr,hs,hl⟩
    refine ⟨⟨rfl,hu⟩,hn,⟨rfl,hp⟩,?_,hs,hlast,?_⟩
    · rwa [leaseFor,leasedResources_validateRequirement]
    · intro l d hlife hd
      rw [← leasedResources_covers] at hl
      have hd' : d=duration := by
        rw [leaseFor] at hd
        rw [hsince,Option.some.injEq] at hd
        exact hd.symm
      rw [hd']
      exact hl l hlife

variable [UuidCrate]

/-- A lease is granted exactly when it passes its checks. -/
theorem grantLease_eq_ok {nodeId : Identity} {now expiresAt : SystemTime} {duration : Duration}
    {a : Allocation F} {uuid : String} {lease : Lease F} :
    grantLease nodeId now expiresAt duration a uuid=.ok lease ↔
      lease=leaseFor nodeId now expiresAt duration a uuid ∧ lease.Valid := by
  simp only [grantLease,Lease.new,Checks.bind_eq_ok,Checks.mapError_eq_ok,Identity.parse_eq_ok,
    Unique.exists_iff,PUnit.default_eq_unit,Lease.validate_eq_ok,Identity.new]
  constructor
  · rintro ⟨i,⟨_,rfl⟩,hv,hl⟩
    cases hl
    exact ⟨rfl,hv⟩
  · rintro ⟨rfl,hv⟩
    exact ⟨_,⟨hv.participant.2,rfl⟩,hv,rfl⟩

/-- Leases are granted exactly when all of them pass their checks. -/
theorem grantLeases_eq_ok {nodeId : Identity} {now expiresAt : SystemTime} {duration : Duration}
    {allocations : List (Allocation F)} {uuids : ℕ → String} {leases : List (Lease F)} :
    grantLeases nodeId now expiresAt duration allocations uuids=.ok leases ↔
      leases=leasesFor nodeId now expiresAt duration allocations uuids ∧ ∀ l ∈ leases,l.Valid := by
  induction allocations generalizing uuids leases with
  | nil =>
    simp only [grantLeases,leasesFor,Except.ok.injEq]
    constructor
    · rintro rfl
      exact ⟨rfl,by simp⟩
    · rintro ⟨rfl,_⟩
      rfl
  | cons a rest ih =>
    simp only [grantLeases,leasesFor,Checks.bind_eq_ok,grantLease_eq_ok,ih]
    constructor
    · rintro ⟨l,⟨rfl,hv⟩,ls,⟨rfl,hvs⟩,hl⟩
      cases hl
      exact ⟨rfl,List.forall_mem_cons.mpr ⟨hv,hvs⟩⟩
    · rintro ⟨rfl,hv⟩
      have hall := List.forall_mem_cons.mp hv
      exact ⟨_,⟨rfl,hall.1⟩,_,⟨rfl,hall.2⟩,rfl⟩

omit [Cores F] in
/-- Planning a node with an identity succeeds under these conditions. -/
theorem planNode_eq_ok {scheduler : Scheduler F} {requirement : ResourceFragment F}
    {now : SystemTime} {duration : Duration} {node : LogicalNode F} {nodeId : Identity} :
    planNode scheduler requirement now duration=.ok (node,nodeId) ↔
      now≠.unixEpoch ∧ duration.isZero=false ∧ scheduler requirement=.ok node ∧
        IsCanonical node.id ∧ nodeId=⟨node.id,.logicalNode⟩ := by
  simp only [planNode,Checks.bind_eq_ok,Unique.exists_iff,PUnit.default_eq_unit,
    Checks.rejectIf_eq_ok,Checks.mapError_eq_ok,Identity.parse_eq_ok,Bool.not_eq_true]
  constructor
  · rintro ⟨ht,hz,n,hn,i,⟨hc,rfl⟩,he⟩
    cases he
    exact ⟨ht,hz,hn,hc,rfl⟩
  · rintro ⟨ht,hz,hn,hc,rfl⟩
    exact ⟨ht,hz,node,hn,_,⟨hc,rfl⟩,rfl⟩

/-- When a plan with leases exists, and what the leases are. -/
theorem planLeases_eq_ok {scheduler : Scheduler F} {requirement : ResourceFragment F}
    {now : SystemTime} {duration : Duration} {uuids : ℕ → String} {node : LogicalNode F}
    {leases : List (Lease F)} :
    planLeases scheduler requirement now duration uuids=.ok (node,leases) ↔
      now≠.unixEpoch ∧ duration.isZero=false ∧ scheduler requirement=.ok node ∧
      IsCanonical node.id ∧ ∃ expiresAt,now.checkedAdd duration=some expiresAt ∧
        leases=leasesFor ⟨node.id,.logicalNode⟩ now expiresAt duration
          node.resources.allocations uuids ∧ ∀ l ∈ leases,l.Valid := by
  have hadd : ∀ expiresAt,(now.add duration : Outcome ControlError SystemTime)=.ok expiresAt ↔
      now.checkedAdd duration=some expiresAt := by
    intro expiresAt
    rw [SystemTime.add]
    cases now.checkedAdd duration with
    | none => simp
    | some later => simp
  simp only [planLeases,Outcome.bind_eq_ok,Outcome.monadLift_eq,Outcome.ofExcept_eq_ok,
    Prod.exists,planNode_eq_ok,hadd,grantLeases_eq_ok,Outcome.pure_eq,Outcome.ok.injEq,
    Prod.mk.injEq]
  constructor
  · rintro ⟨n,i,⟨ht,hz,hn,hc,rfl⟩,e,he,ls,⟨hls,hv⟩,rfl,rfl⟩
    exact ⟨ht,hz,hn,hc,e,he,hls,hv⟩
  · rintro ⟨ht,hz,hn,hc,e,he,hls,hv⟩
    exact ⟨node,_,⟨ht,hz,hn,hc,rfl⟩,e,he,leases,⟨hls,hv⟩,rfl,rfl⟩

/-- With canonical texts from the generator, leases come out exactly for the
grantable nodes. -/
theorem planLeases_exists {scheduler : Scheduler F} {requirement : ResourceFragment F}
    {now : SystemTime} {duration : Duration} {uuids : ℕ → String} {node : LogicalNode F}
    (hu : ∀ i<node.resources.allocations.length,IsCanonical (uuids i)) :
    (∃ leases,planLeases scheduler requirement now duration uuids=.ok (node,leases)) ↔
      scheduler requirement=.ok node ∧ Grantable now duration node := by
  simp only [planLeases_eq_ok]
  constructor
  · rintro ⟨leases,ht,hz,hn,hc,e,he,rfl,hv⟩
    have hall : ∀ a ∈ node.resources.allocations,IsCanonical a.participantId ∧
        a.resources.validateRequirement=.ok () ∧
        ∀ l,a.resources.lifetime=some l → duration ≤ l := by
      intro a ha
      obtain ⟨i,hi⟩ := List.mem_iff_getElem?.mp ha
      have hvi := (leaseFor_valid he hz).mp (hv _ (mem_leasesFor.mpr ⟨i,a,hi,rfl⟩))
      obtain ⟨_,_,hp,hr,_,hl⟩ := hvi
      exact ⟨hp,hr,hl⟩
    exact ⟨hn,ht,hz,by rw [he]; rfl,hc,fun a ha => (hall a ha).1,fun a ha => (hall a ha).2.1,
      fun a ha => (hall a ha).2.2⟩
  · rintro ⟨hn,hg⟩
    obtain ⟨e,he⟩ := Option.isSome_iff_exists.mp hg.representable
    refine ⟨_,hg.started,hg.lasting,hn,hg.named,e,he,rfl,?_⟩
    intro l hl
    obtain ⟨i,a,hi,rfl⟩ := mem_leasesFor.mp hl
    have hlen := (List.getElem?_eq_some_iff.mp hi).1
    have hm := List.mem_of_getElem? hi
    exact (leaseFor_valid he hg.lasting).mpr ⟨hu i hlen,⟨rfl,hg.named⟩,hg.participant a hm,
      hg.valid a hm,hg.started,hg.lifetime a hm⟩

end Granting

end OpenHost.Plane
