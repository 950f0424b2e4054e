import OpenHost.Participant

/-!
# The aggregating scheduler

Offers are sorted by participant, checked as a whole, and then drawn on one
after the other until the requirement is met. The loop is described twice.
For every CPU arithmetic it is a selection of offers with a share of each;
for exact CPU amounts its running total stays between nothing and the
requirement, so a plan that satisfies the requirement equals it.
-/

namespace OpenHost

/-- Errors of planning. -/
inductive SchedulerError where
  | invalidRequirement
  | insufficientResources
  | invalidOffer
  deriving DecidableEq

/-- What a scheduler answers to a requirement in one call. -/
abbrev Scheduler (F : Type) := ResourceFragment F → Except SchedulerError (LogicalNode F)

namespace AggregatingScheduler

section Model

variable {F : Type} [CoresArith F]

/-- What is still missing once the allocated amounts are taken off. -/
def remaining (required allocated : ResourceFragment F) : ResourceFragment F where
  cpu := CoresArith.max (CoresArith.sub required.cpu allocated.cpu) Cores.zero
  memory := saturatingSub64 required.memory allocated.memory
  storage := saturatingSub64 required.storage allocated.storage
  network := saturatingSub64 required.network allocated.network
  gpu := saturatingSub32 required.gpu allocated.gpu
  lifetime := required.lifetime

/-- An offer that is bounded more tightly than the requirement. -/
def tooShort : Option Duration → Option Duration → Bool
  | some available,some required => decide (available<required)
  | _,_ => false

/-- The amounts that an offer and a requirement have in common. -/
def common (available missing : ResourceFragment F) : ResourceFragment F where
  cpu := CoresArith.min available.cpu missing.cpu
  memory := min available.memory missing.memory
  storage := min available.storage missing.storage
  network := min available.network missing.network
  gpu := min available.gpu missing.gpu
  lifetime := missing.lifetime

/-- The share of an offer: none if the offer ends too early or has nothing
of what is missing. -/
def allocationShare (available missing : ResourceFragment F) : Option (ResourceFragment F) :=
  if tooShort available.lifetime missing.lifetime then none
  else if (common available missing).isEmpty then none
  else some (common available missing)

/-- Check every offer before any of them is used. -/
def offersValid : List (ResourceOffer F) → List String → Bool
  | [],_ => true
  | offer::rest,seen =>
    if offer.participantId="" ∨ offer.resources.validate.isOk=false ∨ offer.participantId ∈ seen
    then false
    else offersValid rest (offer.participantId::seen)

/-- Draw on the offers until the total satisfies the requirement. -/
def allocate (requirement : ResourceFragment F) : List (ResourceOffer F) → ResourceFragment F →
    List (Allocation F) → ResourceFragment F×List (Allocation F)
  | [],total,allocations => (total,allocations)
  | offer::rest,total,allocations =>
    match allocationShare offer.resources (remaining requirement total) with
    | none => allocate requirement rest total allocations
    | some share =>
      if (total.add share).satisfies requirement then
        (total.add share,allocations++[⟨offer.participantId,share⟩])
      else allocate requirement rest (total.add share) (allocations++[⟨offer.participantId,share⟩])

/-- The offers in the order of their participants. -/
def sorted (offers : List (ResourceOffer F)) : List (ResourceOffer F) :=
  offers.mergeSort fun a b => decide (a.participantId ≤ b.participantId)

/-- Plan a logical node over the offers; `uuid` is the text that the
generator returns for the node. -/
def plan (offers : List (ResourceOffer F)) (uuid : String) : Scheduler F := fun requirement => do
  requirement.validateRequirement.mapError fun _ => .invalidRequirement
  rejectIf (offersValid (sorted offers) []=false) .invalidOffer
  let (total,allocations) := allocate requirement (sorted offers) .default []
  rejectIf (total.satisfies requirement=false) .insufficientResources
  let resources ← (CompositeResource.compose allocations).mapError fun _ => .invalidOffer
  resources.validate.mapError fun _ => .invalidOffer
  .ok ⟨(Identity.new uuid .logicalNode).id,resources,.default⟩

end Model

section Selection

variable {F : Type}

/-- Sorting only reorders the offers. -/
theorem sorted_perm (offers : List (ResourceOffer F)) : (sorted offers).Perm offers :=
  List.mergeSort_perm _ _

variable [CoresArith F]

/-- A share exists exactly when the offer lasts and has something missing. -/
theorem allocationShare_eq_some {available missing share : ResourceFragment F} :
    allocationShare available missing=some share ↔
      tooShort available.lifetime missing.lifetime=false ∧
        (common available missing).isEmpty=false ∧ share=common available missing := by
  rw [allocationShare]
  cases tooShort available.lifetime missing.lifetime with
  | true => simp
  | false =>
    cases (common available missing).isEmpty with
    | true => simp
    | false => simp [eq_comm]

/-- A valid set of offers: named, valid, each participant once. -/
structure OffersValid (offers : List (ResourceOffer F)) : Prop where
  /-- Every participant has a name. -/
  named : ∀ o ∈ offers,o.participantId≠""
  /-- Every offer has a valid CPU amount. -/
  valid : ∀ o ∈ offers,o.resources.validate=.ok ()
  /-- No participant offers twice. -/
  distinct : (offers.map ResourceOffer.participantId).Nodup

/-- The whole-set check accepts exactly the valid sets. -/
theorem offersValid_eq_true {offers : List (ResourceOffer F)} {seen : List String} :
    offersValid offers seen=true ↔
      OffersValid offers ∧ ∀ o ∈ offers,o.participantId∉seen := by
  induction offers generalizing seen with
  | nil =>
    have hv : OffersValid (F:=F) [] := ⟨by simp,by simp,by simp⟩
    simp [offersValid,hv]
  | cons o rest ih =>
    have hok : o.resources.validate.isOk=false ↔ ¬o.resources.validate=.ok () := by
      cases o.resources.validate <;> simp [Except.isOk,Except.toBool]
    rw [offersValid]
    by_cases hbad : o.participantId="" ∨ o.resources.validate.isOk=false ∨ o.participantId ∈ seen
    · rw [if_pos hbad]
      simp only [Bool.false_eq_true,false_iff,not_and]
      intro hv hs
      rcases hbad with he|he|he
      · exact hv.named o List.mem_cons_self he
      · exact hok.mp he (hv.valid o List.mem_cons_self)
      · exact hs o List.mem_cons_self he
    · rw [if_neg hbad,ih]
      simp only [not_or,hok,not_not] at hbad
      constructor
      · rintro ⟨hv,hs⟩
        refine ⟨⟨?_,?_,?_⟩,?_⟩
        · exact List.forall_mem_cons.mpr ⟨hbad.1,hv.named⟩
        · exact List.forall_mem_cons.mpr ⟨hbad.2.1,hv.valid⟩
        · rw [List.map_cons,List.nodup_cons]
          refine ⟨?_,hv.distinct⟩
          intro hm
          obtain ⟨b,hb,he⟩ := List.mem_map.mp hm
          exact hs b hb (he ▸ List.mem_cons_self)
        · refine List.forall_mem_cons.mpr ⟨hbad.2.2,?_⟩
          exact fun b hb hm => hs b hb (List.mem_cons_of_mem _ hm)
      · rintro ⟨hv,hs⟩
        have hd := hv.distinct
        rw [List.map_cons,List.nodup_cons] at hd
        refine ⟨⟨fun b hb => hv.named b (List.mem_cons_of_mem _ hb),
          fun b hb => hv.valid b (List.mem_cons_of_mem _ hb),hd.2⟩,?_⟩
        intro b hb hm
        rcases List.mem_cons.mp hm with he|hm
        · exact hd.1 (List.mem_map.mpr ⟨b,hb,he⟩)
        · exact hs b (List.mem_cons_of_mem _ hb) hm

/-- The loop selects some of the offers, in order, and takes from each of
them a share of what was missing at that point. -/
theorem allocate_selects (requirement : ResourceFragment F) (offers : List (ResourceOffer F))
    (total : ResourceFragment F) (allocations : List (Allocation F)) :
    ∃ picked : List (ResourceOffer F×ResourceFragment F),
      (picked.map Prod.fst).Sublist offers ∧
      (∀ p ∈ picked,∃ t,allocationShare p.1.resources (remaining requirement t)=some p.2) ∧
      allocate requirement offers total allocations=
        (CompositeResource.total total (picked.map fun p => ⟨p.1.participantId,p.2⟩),
          allocations++picked.map fun p => ⟨p.1.participantId,p.2⟩) := by
  induction offers generalizing total allocations with
  | nil => exact ⟨[],by simp,by simp,by simp [allocate,CompositeResource.total]⟩
  | cons o rest ih =>
    rw [allocate]
    cases hs : allocationShare o.resources (remaining requirement total) with
    | none =>
      obtain ⟨picked,hsub,hshare,heq⟩ := ih total allocations
      exact ⟨picked,hsub.cons _,hshare,heq⟩
    | some share =>
      dsimp only
      split
      · refine ⟨[(o,share)],by simp,?_,by simp [CompositeResource.total]⟩
        intro p hp
        obtain rfl := List.mem_singleton.mp hp
        exact ⟨total,hs⟩
      · obtain ⟨picked,hsub,hshare,heq⟩ :=
          ih (total.add share) (allocations++[⟨o.participantId,share⟩])
        refine ⟨(o,share)::picked,?_,?_,?_⟩
        · rw [List.map_cons]
          exact hsub.cons_cons _
        · exact List.forall_mem_cons.mpr ⟨⟨total,hs⟩,hshare⟩
        · rw [heq]
          simp [CompositeResource.total]

/-- Validity of a set of offers does not depend on their order. -/
theorem OffersValid.perm {a b : List (ResourceOffer F)} (h : a.Perm b) (ha : OffersValid a) :
    OffersValid b where
  named o ho := ha.named o (h.mem_iff.mpr ho)
  valid o ho := ha.valid o (h.mem_iff.mpr ho)
  distinct := (h.map ResourceOffer.participantId).nodup_iff.mp ha.distinct

/-- A successful plan is the outcome of the loop, composed and named. -/
theorem plan_eq_ok {offers : List (ResourceOffer F)} {uuid : String}
    {requirement : ResourceFragment F} {node : LogicalNode F}
    (h : plan offers uuid requirement=.ok node) :
    requirement.validateRequirement=.ok () ∧ OffersValid offers ∧
      (allocate requirement (sorted offers) .default []).1.satisfies requirement=true ∧
      CompositeResource.compose (allocate requirement (sorted offers) .default []).2=
        .ok node.resources ∧ node=⟨uuid,node.resources,.default⟩ := by
  simp only [plan,Checks.bind_eq_ok,Unique.exists_iff,PUnit.default_eq_unit,
    Checks.rejectIf_eq_ok,Checks.mapError_eq_ok,Bool.not_eq_false,offersValid_eq_true] at h
  obtain ⟨hr,⟨hv,_⟩,hs,resources,hc,_,hn⟩ := h
  cases hn
  exact ⟨hr,hv.perm (sorted_perm offers),hs,hc,rfl⟩

/-- Adding up parts of one common lifetime keeps that lifetime. -/
theorem total_lifetime {lifetime : Option Duration} {allocations : List (Allocation F)}
    {start : ResourceFragment F} (hs : start.lifetime=lifetime)
    (h : ∀ a ∈ allocations,a.resources.lifetime=lifetime) :
    (CompositeResource.total start allocations).lifetime=lifetime := by
  induction allocations generalizing start with
  | nil => exact hs
  | cons a rest ih =>
    have ha := h a List.mem_cons_self
    have hstep : (start.add a.resources).lifetime=lifetime := by
      rw [ResourceFragment.add,hs,ha]
      cases lifetime with
      | none => rfl
      | some l => simp [lifetimeMin]
    exact ih hstep fun b hb => h b (List.mem_cons_of_mem _ hb)

/-- A composition of parts of one common lifetime has that lifetime. -/
theorem compose_lifetime {lifetime : Option Duration} {allocations : List (Allocation F)}
    (hne : allocations≠[]) (h : ∀ a ∈ allocations,a.resources.lifetime=lifetime) :
    (CompositeResource.total .default allocations).lifetime=lifetime := by
  cases allocations with
  | nil => exact (hne rfl).elim
  | cons a rest =>
    have ha := h a List.mem_cons_self
    have hstep : (ResourceFragment.default.add a.resources).lifetime=lifetime := by
      rw [ResourceFragment.add,ha]
      rfl
    have hrest : ∀ b ∈ rest,b.resources.lifetime=lifetime :=
      fun b hb => h b (List.mem_cons_of_mem _ hb)
    rw [CompositeResource.total,List.foldl_cons]
    exact total_lifetime hstep hrest

/-- What a successful plan says about each of its allocations. -/
structure Backed (offers : List (ResourceOffer F)) (requirement : ResourceFragment F)
    (a : Allocation F) : Prop where
  /-- The allocation is a share of an offer that does not end too early. -/
  offer : ∃ o ∈ offers,o.participantId=a.participantId ∧
    tooShort o.resources.lifetime requirement.lifetime=false
  /-- The share has the lifetime of the requirement. -/
  lifetime : a.resources.lifetime=requirement.lifetime

/-- Every allocation of the loop is a share of one of the offers. -/
theorem allocate_backed {requirement total : ResourceFragment F} {offers : List (ResourceOffer F)}
    {a : Allocation F} (h : a ∈ (allocate requirement offers total []).2) :
    Backed offers requirement a := by
  obtain ⟨picked,hsub,hshare,heq⟩ := allocate_selects requirement offers total []
  rw [heq,List.nil_append] at h
  obtain ⟨p,hp,rfl⟩ := List.mem_map.mp h
  obtain ⟨t,ht⟩ := hshare p hp
  obtain ⟨hlong,_,he⟩ := allocationShare_eq_some.mp ht
  refine ⟨⟨p.1,hsub.subset (List.mem_map_of_mem hp),rfl,hlong⟩,?_⟩
  dsimp only
  rw [he]
  rfl

/-- A successful plan names the node, leaves the runtime unbound, and
distributes the capacity over composable shares of the offers. -/
structure Planned (offers : List (ResourceOffer F)) (uuid : String)
    (requirement : ResourceFragment F) (node : LogicalNode F) : Prop where
  /-- The node has the generated name. -/
  id : node.id=uuid
  /-- No runtime is bound yet. -/
  runtime : node.runtime=.default
  /-- The requirement is valid and asks for something. -/
  required : requirement.validateRequirement=.ok ()
  /-- The offers are valid as a whole. -/
  offered : OffersValid offers
  /-- There is at least one allocation. -/
  nonempty : node.resources.allocations≠[]
  /-- The allocations compose. -/
  composable : CompositeResource.Composable node.resources.allocations
  /-- The allocations are shares of the offers. -/
  backed : ∀ a ∈ node.resources.allocations,Backed offers requirement a
  /-- No more allocations than offers. -/
  length : node.resources.allocations.length ≤ offers.length

/-- What a successful plan has established. -/
theorem planned_of_plan {offers : List (ResourceOffer F)} {uuid : String}
    {requirement : ResourceFragment F} {node : LogicalNode F}
    (h : plan offers uuid requirement=.ok node) : Planned offers uuid requirement node := by
  obtain ⟨hr,hv,_,hc,hn⟩ := plan_eq_ok h
  obtain ⟨hne,hcomp,hres⟩ := CompositeResource.compose_eq_ok.mp hc
  have hall : node.resources.allocations=(allocate requirement (sorted offers) .default []).2 := by
    rw [hres]
  refine ⟨by rw [hn],by rw [hn],hr,hv,hall ▸ hne,hall ▸ hcomp,?_,?_⟩
  · intro a ha
    rw [hall] at ha
    obtain ⟨⟨o,ho,hid,hlong⟩,hlife⟩ := allocate_backed ha
    exact ⟨⟨o,(sorted_perm offers).mem_iff.mp ho,hid,hlong⟩,hlife⟩
  · obtain ⟨picked,hsub,_,heq⟩ := allocate_selects requirement (sorted offers) .default []
    have hlen := hsub.length_le
    rw [hall,heq,List.nil_append]
    simp only [List.length_map,(sorted_perm offers).length_eq] at hlen ⊢
    exact hlen

end Selection

section Exact

/-- The running total lies between nothing and the requirement. -/
structure Within (total requirement : ResourceFragment ℚ) : Prop where
  /-- No negative CPU amount. -/
  nonneg : 0 ≤ total.cpu
  /-- CPU amount at most the required one. -/
  cpu : total.cpu ≤ requirement.cpu
  /-- Memory at most the required one. -/
  memory : total.memory ≤ requirement.memory
  /-- Storage at most the required one. -/
  storage : total.storage ≤ requirement.storage
  /-- Network at most the required one. -/
  network : total.network ≤ requirement.network
  /-- GPU units at most the required ones. -/
  gpu : total.gpu ≤ requirement.gpu

/-- An exact fragment is valid exactly when its CPU amount is not negative. -/
theorem validate_eq_ok_iff {r : ResourceFragment ℚ} : r.validate=.ok () ↔ 0 ≤ r.cpu := by
  have hz : (Cores.zero : ℚ)=0 := rfl
  have hf : Cores.isFinite r.cpu=true := rfl
  have hl : Cores.lt r.cpu (Cores.zero : ℚ)=decide (r.cpu<0) := rfl
  rw [ResourceFragment.validate,hf,hl]
  by_cases h : r.cpu<0
  · simp [h]
  · simp [h,not_lt.mp h]

/-- One 64-bit dimension of a step: a share of what is missing is added
without saturation. -/
theorem step64 {required total available : UInt64} (h : total ≤ required) :
    saturatingAdd64 total (min available (saturatingSub64 required total)) ≤ required := by
  rw [UInt64.le_iff_toNat_le] at h ⊢
  rw [saturatingAdd64_toNat,UInt64.toNat_min,saturatingSub64_toNat]
  omega

/-- One 32-bit dimension of a step. -/
theorem step32 {required total available : UInt32} (h : total ≤ required) :
    saturatingAdd32 total (min available (saturatingSub32 required total)) ≤ required := by
  rw [UInt32.le_iff_toNat_le] at h ⊢
  rw [saturatingAdd32_toNat,UInt32.toNat_min,saturatingSub32_toNat]
  omega

/-- A step of the loop keeps the running total within the requirement. -/
theorem Within.add_share {total requirement available share : ResourceFragment ℚ}
    (h : Within total requirement) (ha : 0 ≤ available.cpu)
    (hs : allocationShare available (remaining requirement total)=some share) :
    Within (total.add share) requirement := by
  obtain ⟨_,_,rfl⟩ := allocationShare_eq_some.mp hs
  have hmiss : (0:ℚ) ≤ max (requirement.cpu-total.cpu) 0 := le_max_right _ _
  have hgap : max (requirement.cpu-total.cpu) 0=requirement.cpu-total.cpu :=
    max_eq_left (sub_nonneg.mpr h.cpu)
  refine ⟨?_,?_,step64 h.memory,step64 h.storage,step64 h.network,step32 h.gpu⟩
  · change (0:ℚ) ≤ total.cpu+min available.cpu (max (requirement.cpu-total.cpu) 0)
    exact add_nonneg h.nonneg (le_min ha hmiss)
  · change total.cpu+min available.cpu (max (requirement.cpu-total.cpu) 0) ≤ requirement.cpu
    have hmin := min_le_right available.cpu (max (requirement.cpu-total.cpu) 0)
    rw [hgap] at hmin ⊢
    linarith

/-- The loop keeps the running total within the requirement. -/
theorem allocate_within {requirement total : ResourceFragment ℚ}
    {offers : List (ResourceOffer ℚ)} (hv : ∀ o ∈ offers,o.resources.validate=.ok ())
    (h : Within total requirement) (allocations : List (Allocation ℚ)) :
    Within (allocate requirement offers total allocations).1 requirement := by
  induction offers generalizing total allocations with
  | nil => exact h
  | cons o rest ih =>
    have hrest : ∀ b ∈ rest,b.resources.validate=.ok () := fun b hb =>
      hv b (List.mem_cons_of_mem _ hb)
    rw [allocate]
    cases hs : allocationShare o.resources (remaining requirement total) with
    | none => exact ih hrest h allocations
    | some share =>
      have hc := validate_eq_ok_iff.mp (hv o List.mem_cons_self)
      have hw := h.add_share hc hs
      dsimp only
      split
      · exact hw
      · exact ih hrest hw _

/-- A total within the requirement that satisfies it has the same amounts. -/
theorem Within.eq_of_satisfies {total requirement : ResourceFragment ℚ}
    (h : Within total requirement) (hs : total.satisfies requirement=true)
    (hl : total.lifetime=requirement.lifetime) : total=requirement := by
  simp only [ResourceFragment.satisfies,Bool.and_eq_true,decide_eq_true_eq] at hs
  obtain ⟨⟨⟨⟨⟨hc,hm⟩,hst⟩,hn⟩,hg⟩,_⟩ := hs
  have hcpu : requirement.cpu ≤ total.cpu := of_decide_eq_true hc
  ext
  · exact le_antisymm h.cpu hcpu ▸ rfl
  · exact congrArg UInt64.toNat (UInt64.le_antisymm h.memory hm)
  · exact congrArg UInt64.toNat (UInt64.le_antisymm h.storage hst)
  · exact congrArg UInt64.toNat (UInt64.le_antisymm h.network hn)
  · exact congrArg UInt32.toNat (UInt32.le_antisymm h.gpu hg)
  · rw [hl]

/-- The capacity of an exact plan is the requirement, in every field. -/
theorem plan_capacity {offers : List (ResourceOffer ℚ)} {uuid : String}
    {requirement : ResourceFragment ℚ} {node : LogicalNode ℚ}
    (h : plan offers uuid requirement=.ok node) : node.resources.capacity=requirement := by
  obtain ⟨hr,hv,hs,hc,_⟩ := plan_eq_ok h
  have hp := planned_of_plan h
  obtain ⟨_,_,hres⟩ := CompositeResource.compose_eq_ok.mp hc
  obtain ⟨picked,_,_,heq⟩ := allocate_selects requirement (sorted offers) .default []
  have hcap : node.resources.capacity=
      (allocate requirement (sorted offers) .default []).1 := by
    rw [hres,heq,List.nil_append]
  have hcpu := validate_eq_ok_iff.mp (ResourceFragment.validateRequirement_eq_ok.mp hr).1
  have hstart : Within .default requirement :=
    ⟨le_rfl,hcpu,UInt64.zero_le,UInt64.zero_le,UInt64.zero_le,UInt32.zero_le⟩
  have hsorted : ∀ o ∈ sorted offers,o.resources.validate=.ok () := fun o ho =>
    hv.valid o ((sorted_perm offers).mem_iff.mp ho)
  have hw := allocate_within hsorted hstart []
  rw [hcap]
  refine hw.eq_of_satisfies hs ?_
  have hlife := compose_lifetime hp.nonempty fun a ha => (hp.backed a ha).lifetime
  rw [← hcap]
  have htotal : node.resources.capacity=
      CompositeResource.total .default node.resources.allocations := by
    rw [hres]
  rw [htotal]
  exact hlife

/-- One participant with two cores. -/
def twoCores : ResourceOffer ℚ := ⟨"11111111-1111-4111-8111-111111111111",⟨2,0,0,0,0,none⟩⟩

/-- A requirement of one core for any time. -/
def oneCore : ResourceFragment ℚ := ⟨1,0,0,0,0,none⟩

/-- The node that one core of two is planned as. -/
def oneCoreNode : LogicalNode ℚ :=
  ⟨"22222222-2222-4222-8222-222222222222",
    ⟨oneCore,[⟨"11111111-1111-4111-8111-111111111111",oneCore⟩]⟩,.default⟩

/-- The plan for one core of two, computed. -/
theorem plan_twoCores : plan [twoCores] oneCoreNode.id oneCore=.ok oneCoreNode := by
  have hs : sorted [twoCores]=[twoCores] := List.mergeSort_singleton _
  rw [plan,hs]
  decide +kernel

end Exact

end AggregatingScheduler

end OpenHost
