import OpenHost.PlaneChange

/-!
# Leases and the offers behind them

A bounded requirement passes its lifetime on to every share, so that a lease
ends before the offer behind it does. A requirement without a lifetime
passes none on: the share of a bounded offer looks unbounded, and its lease
may be longer than the offer. The leases stay within their offers exactly
when the requirement is bounded or every offer drawn on lasts long enough.
-/

namespace OpenHost

namespace AggregatingScheduler

variable {F : Type} [CoresArith F]

/-- The offers that the loop takes a share of. -/
def drawn (requirement : ResourceFragment F) : List (ResourceOffer F) → ResourceFragment F →
    List (ResourceOffer F)
  | [],_ => []
  | offer::rest,total =>
    match allocationShare offer.resources (remaining requirement total) with
    | none => drawn requirement rest total
    | some share =>
      if (total.add share).satisfies requirement then [offer]
      else offer::drawn requirement rest (total.add share)

/-- The allocations of the loop name the participants it draws on. -/
theorem allocate_names (requirement : ResourceFragment F) (offers : List (ResourceOffer F))
    (total : ResourceFragment F) (allocations : List (Allocation F)) :
    (allocate requirement offers total allocations).2.map Allocation.participantId=
      allocations.map Allocation.participantId++
        (drawn requirement offers total).map ResourceOffer.participantId := by
  induction offers generalizing total allocations with
  | nil => simp [allocate,drawn]
  | cons offer rest ih =>
    rw [allocate,drawn]
    cases allocationShare offer.resources (remaining requirement total) with
    | none => exact ih total allocations
    | some share =>
      dsimp only
      split
      · simp
      · rw [ih]
        simp

/-- The loop draws on offers only. -/
theorem drawn_subset (requirement : ResourceFragment F) (offers : List (ResourceOffer F))
    (total : ResourceFragment F) : drawn requirement offers total ⊆ offers := by
  induction offers generalizing total with
  | nil => exact fun o ho => ho
  | cons offer rest ih =>
    rw [drawn]
    intro o ho
    cases hs : allocationShare offer.resources (remaining requirement total) with
    | none =>
      rw [hs] at ho
      exact List.mem_cons_of_mem _ (ih total ho)
    | some share =>
      rw [hs] at ho
      dsimp only at ho
      split at ho
      · rw [List.mem_singleton.mp ho]
        exact List.mem_cons_self
      · rcases List.mem_cons.mp ho with rfl|hr
        · exact List.mem_cons_self
        · exact List.mem_cons_of_mem _ (ih _ hr)

/-- The allocations of a plan name the participants drawn on. -/
theorem plan_names {offers : List (ResourceOffer F)} {uuid : String}
    {requirement : ResourceFragment F} {node : LogicalNode F}
    (h : plan offers uuid requirement=.ok node) :
    node.resources.allocations.map Allocation.participantId=
      (drawn requirement (sorted offers) .default).map ResourceOffer.participantId := by
  obtain ⟨_,_,_,hc,_⟩ := plan_eq_ok h
  obtain ⟨_,_,hres⟩ := CompositeResource.compose_eq_ok.mp hc
  have hnames := allocate_names requirement (sorted offers) .default []
  rw [hres]
  exact hnames

/-- Valid offers of one participant are one offer. -/
theorem OffersValid.unique {offers : List (ResourceOffer F)} (hv : OffersValid offers)
    {o o' : ResourceOffer F} (ho : o ∈ offers) (ho' : o' ∈ offers)
    (he : o.participantId=o'.participantId) : o=o' :=
  List.inj_on_of_nodup_map hv.distinct ho ho' he

end AggregatingScheduler

namespace Plane

open AggregatingScheduler

section Exact

variable {F : Type} [CoresArith F]

/-- No lease is longer than a bounded offer of its participant. -/
def WithinOffers (offers : List (ResourceOffer F)) (leases : List (Lease F)) : Prop :=
  ∀ l ∈ leases,∀ o ∈ offers,o.participantId=l.participantId.id →
    ∀ bound,o.resources.lifetime=some bound →
      ∀ duration,l.expiresAt.durationSince l.createdAt=some duration → duration ≤ bound

/-- The participant of an allocation has an offer that was drawn on. -/
theorem drawn_of_allocation {offers : List (ResourceOffer F)} {nodeText : String}
    {requirement : ResourceFragment F} {node : LogicalNode F}
    (hp : plan offers nodeText requirement=.ok node) {a : Allocation F}
    (ha : a ∈ node.resources.allocations) {o : ResourceOffer F} (ho : o ∈ offers)
    (hid : o.participantId=a.participantId) : o ∈ drawn requirement (sorted offers) .default := by
  have hm : a.participantId ∈ node.resources.allocations.map Allocation.participantId :=
    List.mem_map_of_mem ha
  rw [plan_names hp] at hm
  obtain ⟨o',ho',he⟩ := List.mem_map.mp hm
  have hin : o' ∈ offers := (sorted_perm offers).mem_iff.mp (drawn_subset _ _ _ ho')
  have heq := (planned_of_plan hp).offered.unique ho hin (hid.trans he.symm)
  rw [heq]
  exact ho'

/-- A lease for a share of a bounded requirement ends before the offer does. -/
theorem bounded_requirement_covers {offers : List (ResourceOffer F)} {nodeText : String}
    {requirement : ResourceFragment F} {node : LogicalNode F} {now : SystemTime}
    {duration : Duration} (hp : plan offers nodeText requirement=.ok node)
    (hg : Grantable now duration node) {required bound : Duration}
    (hr : requirement.lifetime=some required) {a : Allocation F}
    (ha : a ∈ node.resources.allocations) {o : ResourceOffer F} (ho : o ∈ offers)
    (hid : o.participantId=a.participantId) (hb : o.resources.lifetime=some bound) :
    duration ≤ bound := by
  have hplanned := planned_of_plan hp
  have hback := hplanned.backed a ha
  obtain ⟨o',ho',hid',hlong⟩ := hback.offer
  have heq := hplanned.offered.unique ho' ho (hid'.trans hid.symm)
  rw [heq,hb,hr,tooShort,decide_eq_false_iff_not,not_lt] at hlong
  exact (hg.lifetime a ha required (hback.lifetime.trans hr)).trans hlong

variable [UuidCrate]

/-- Every lease that comes out of a leased node stays within its offer. -/
def LeasesWithinOffers (plane : Plane F) (offers : List (ResourceOffer F)) (nodeText : String)
    (requirement : ResourceFragment F) (now : SystemTime) (duration : Duration)
    (uuids : ℕ → String) : Prop :=
  ∀ node leases after,plane.createLeasedLogicalNode (plan offers nodeText) requirement now duration
    uuids=(.ok (node,leases),after) → WithinOffers offers leases

/-- The leases of a planned node stay within their offers exactly when the
requirement has a lifetime, or every offer that the plan draws on is
unbounded or lasts for the duration. -/
theorem leasesWithinOffers_iff (plane : Plane F) (offers : List (ResourceOffer F))
    (nodeText : String) (requirement : ResourceFragment F) (now : SystemTime) (duration : Duration)
    (uuids : ℕ → String) (hf : FreshIds plane.Known offers.length uuids) :
    LeasesWithinOffers plane offers nodeText requirement now duration uuids ↔
      ∀ node,plan offers nodeText requirement=.ok node → Grantable now duration node →
        requirement.lifetime=none → ∀ o ∈ drawn requirement (sorted offers) .default,
          ∀ bound,o.resources.lifetime=some bound → duration ≤ bound := by
  have hcanonical : ∀ node,plan offers nodeText requirement=.ok node →
      ∀ i<node.resources.allocations.length,IsCanonical (uuids i) := by
    intro node hp i hi
    have hlen := (planned_of_plan hp).length
    exact hf.canonical i (by omega)
  constructor
  · intro hwithin node hp hg _ o ho bound hb
    obtain ⟨leases,hleases⟩ := (planLeases_exists (hcanonical node hp)).mpr ⟨hp,hg⟩
    have hm : o.participantId ∈
        (drawn requirement (sorted offers) .default).map ResourceOffer.participantId :=
      List.mem_map_of_mem ho
    rw [← plan_names hp] at hm
    obtain ⟨a,ha,hid⟩ := List.mem_map.mp hm
    obtain ⟨i,hi⟩ := List.mem_iff_getElem?.mp ha
    have hin : o ∈ offers := (sorted_perm offers).mem_iff.mp (drawn_subset _ _ _ ho)
    obtain ⟨_,_,_,_,e,hadd,rfl,_⟩ := planLeases_eq_ok.mp hleases
    exact hwithin node _ _ (createLeasedLogicalNode_eq_ok.mpr ⟨hleases,rfl⟩) _
      (mem_leasesFor.mpr ⟨i,a,hi,rfl⟩) o hin hid.symm bound hb duration
      (SystemTime.durationSince_checkedAdd hadd)
  · intro hcond node leases after hok
    obtain ⟨hleases,_⟩ := createLeasedLogicalNode_eq_ok.mp hok
    have hp := (planLeases_eq_ok.mp hleases).2.2.1
    have hg := ((planLeases_exists (hcanonical node hp)).mp ⟨leases,hleases⟩).2
    obtain ⟨_,_,_,_,e,hadd,rfl,_⟩ := planLeases_eq_ok.mp hleases
    intro l hl o ho hid bound hb d hd
    obtain ⟨i,a,hi,rfl⟩ := mem_leasesFor.mp hl
    have ha := List.mem_of_getElem? hi
    have hd' : duration=d := by
      have hsince := SystemTime.durationSince_checkedAdd hadd
      rw [leaseFor] at hd
      rw [hsince,Option.some.injEq] at hd
      exact hd
    rw [← hd']
    cases hr : requirement.lifetime with
    | none => exact hcond node hp hg hr o (drawn_of_allocation hp ha ho hid) bound hb
    | some required => exact bounded_requirement_covers hp hg hr ha ho hid hb

end Exact

section Sample

/-- Two cores for a time. -/
def boundedCores (bound : Duration) : ResourceOffer ℚ :=
  ⟨twoCores.participantId,{twoCores.resources with lifetime := some bound}⟩

/-- An offer that lasts longer than the lease. -/
theorem leasesWithinOffers_boundedCores : letI := hyphenatedUuid
    LeasesWithinOffers (Plane.new .empty emptyDiscovery) [boundedCores ⟨2000,by decide⟩]
      oneCoreNode.id oneCore sampleInstant sampleDuration sampleTexts := by
  let := hyphenatedUuid
  have hf : FreshIds (Plane.new .empty emptyDiscovery).Known [boundedCores ⟨2000,by decide⟩].length
      sampleTexts := by
    refine ⟨?_,?_,?_⟩
    · decide +kernel
    · intro i hi j hj _
      simp only [List.length_singleton] at hi hj
      omega
    · intro i _
      simp [Known,Plane.new]
  refine (leasesWithinOffers_iff _ _ _ _ _ _ _ hf).mpr ?_
  intro node hp hg hr o ho bound hb
  have hin : o ∈ [boundedCores ⟨2000,by decide⟩] :=
    (sorted_perm _).mem_iff.mp (drawn_subset _ _ _ ho)
  rw [List.mem_singleton.mp hin,boundedCores,Option.some.injEq] at hb
  rw [← hb]
  decide

/-- The participant leaves after 500 nanoseconds and is leased for 1000. -/
theorem not_leasesWithinOffers_boundedCores : letI := hyphenatedUuid
    ¬LeasesWithinOffers (Plane.new .empty emptyDiscovery) [boundedCores ⟨500,by decide⟩]
      oneCoreNode.id oneCore sampleInstant sampleDuration sampleTexts := by
  let := hyphenatedUuid
  intro h
  have hp : planLeases (plan [boundedCores ⟨500,by decide⟩] oneCoreNode.id) oneCore sampleInstant
      sampleDuration sampleTexts=.ok (oneCoreNode,leasesFor ⟨oneCoreNode.id,.logicalNode⟩
        sampleInstant ⟨2000,by decide⟩ sampleDuration oneCoreNode.resources.allocations
        sampleTexts) := by
    decide +kernel
  have hw := h _ _ _ (createLeasedLogicalNode_eq_ok.mpr ⟨hp,rfl⟩) _ List.mem_cons_self _
    List.mem_cons_self rfl ⟨500,by decide⟩ rfl sampleDuration (by decide +kernel)
  revert hw
  decide

end Sample

end Plane

end OpenHost
