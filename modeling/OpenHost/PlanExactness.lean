import OpenHost.Composition

/-!
# When a plan exists and what it allocates

Drawing on the offers one after the other adds up the offered amounts under
the ceiling of the requirement, in each dimension by itself: an offer that
ends too early or has nothing of what is missing adds nothing, and the loop
stops only when every dimension has reached its ceiling. So a plan exists
exactly when the offers that last long enough hold the requirement together,
and its allocations add up to the requirement without saturation.
-/

namespace OpenHost.AggregatingScheduler

open CappedSum CompositeResource

section Dimension

/-- An offer ends too early exactly when its lifetime does not cover the
required one. -/
theorem tooShort_eq_not_covers (available required : Option Duration) :
    tooShort available required=!lifetimeCovers available required := by
  cases available with
  | none => cases required <;> rfl
  | some a =>
    cases required with
    | none => rfl
    | some r =>
      change decide (a<r)=!decide (r ≤ a)
      rw [← decide_not,decide_eq_decide,not_le]

variable {M : Type} [AddCommMonoid M] [LinearOrder M]

/-- One dimension of a fragment, with exact amounts for its machine words. -/
structure Dimension (amount : ResourceFragment ℚ → M) : Prop where
  /-- Nothing at the start of the loop. -/
  start : amount .default=0
  /-- No valid fragment has a negative amount. -/
  nonneg : ∀ {r},r.validate=.ok () → 0 ≤ amount r
  /-- An empty fragment has nothing. -/
  empty : ∀ {r},r.isEmpty=true → amount r=0
  /-- A share is the smaller of what is offered and what is missing. -/
  share : ∀ a b,amount (common a b)=min (amount a) (amount b)
  /-- What is missing completes the requirement. -/
  missing : ∀ {required total},amount total ≤ amount required →
    amount total+amount (remaining required total)=amount required
  /-- Below a requirement no addition saturates. -/
  sum : ∀ {a b required},amount a+amount b ≤ amount required → amount (a.add b)=amount a+amount b
  /-- A fragment that satisfies a requirement has its amount. -/
  satisfied : ∀ {r required},r.satisfies required=true → amount required ≤ amount r

variable {amount : ResourceFragment ℚ → M} {requirement total : ResourceFragment ℚ}

section Share

variable [IsOrderedAddMonoid M] {available share : ResourceFragment ℚ}

/-- What is common to an offer and what is missing adds all of the offer, up
to the ceiling. -/
theorem Dimension.add_common (h : Dimension amount) (available : ResourceFragment ℚ)
    (ht : amount total ≤ amount requirement) :
    amount total+amount (common available (remaining requirement total))=
      cappedAdd (amount requirement) (amount total) (amount available) := by
  rw [h.share,cappedAdd,← min_add_add_left,h.missing ht]

/-- Taking a share adds the offer under the ceiling, without saturation. -/
theorem Dimension.add_share (h : Dimension amount) (ht : amount total ≤ amount requirement)
    (hs : allocationShare available (remaining requirement total)=some share) :
    amount (total.add share)=amount total+amount share ∧
      amount (total.add share)=cappedAdd (amount requirement) (amount total) (amount available) := by
  obtain ⟨_,_,rfl⟩ := allocationShare_eq_some.mp hs
  have hsum := h.add_common available ht
  have hle := cappedAdd_le (amount requirement) (amount total) (amount available)
  have hadd := h.sum (hsum.trans_le hle)
  exact ⟨hadd,hadd.trans hsum⟩

/-- An offer that lasts and yet has no share leaves the total as it is, and
the sum under the ceiling too. -/
theorem Dimension.no_share (h : Dimension amount) (ht : amount total ≤ amount requirement)
    (hlasts : lifetimeCovers available.lifetime requirement.lifetime=true)
    (hs : allocationShare available (remaining requirement total)=none) :
    cappedAdd (amount requirement) (amount total) (amount available)=amount total := by
  have hlong : tooShort available.lifetime (remaining requirement total).lifetime=false := by
    change tooShort available.lifetime requirement.lifetime=false
    rw [tooShort_eq_not_covers,hlasts]
    rfl
  have hempty : (common available (remaining requirement total)).isEmpty=true := by
    by_contra hne
    have hsome := allocationShare_eq_some.mpr ⟨hlong,by simpa using hne,rfl⟩
    rw [hs] at hsome
    cases hsome
  rw [← h.add_common available ht,h.empty hempty,add_zero]

/-- An offer that does not last has no share. -/
theorem allocationShare_eq_none (total : ResourceFragment ℚ)
    (h : lifetimeCovers available.lifetime requirement.lifetime=false) :
    allocationShare available (remaining requirement total)=none := by
  have hshort : tooShort available.lifetime (remaining requirement total).lifetime=true := by
    change tooShort available.lifetime requirement.lifetime=true
    rw [tooShort_eq_not_covers,h]
    rfl
  rw [allocationShare,if_pos hshort]

end Share

/-- The offers that last as long as the requirement asks. -/
def lasting (requirement : ResourceFragment ℚ) (offers : List (ResourceOffer ℚ)) :
    List (ResourceOffer ℚ) :=
  offers.filter fun o => lifetimeCovers o.resources.lifetime requirement.lifetime

/-- What the lasting offers hold together in one dimension. -/
def offered (amount : ResourceFragment ℚ → M) (requirement : ResourceFragment ℚ)
    (offers : List (ResourceOffer ℚ)) : M :=
  ((lasting requirement offers).map fun o => amount o.resources).sum

omit [LinearOrder M] in
/-- The order of the offers does not change what they hold. -/
theorem offered_perm {a b : List (ResourceOffer ℚ)} (h : a.Perm b) :
    offered amount requirement a=offered amount requirement b :=
  ((h.filter _).map _).sum_eq

omit [LinearOrder M] in
/-- An offer counts when it lasts. -/
theorem offered_cons (o : ResourceOffer ℚ) (rest : List (ResourceOffer ℚ)) :
    offered amount requirement (o::rest)=
      if lifetimeCovers o.resources.lifetime requirement.lifetime then
        amount o.resources+offered amount requirement rest
      else offered amount requirement rest := by
  rw [offered,lasting,List.filter_cons]
  split
  · rw [List.map_cons,List.sum_cons]
    rfl
  · rfl

variable [IsOrderedAddMonoid M] {offers : List (ResourceOffer ℚ)}

/-- Valid offers hold no negative amount together. -/
theorem Dimension.offered_nonneg (h : Dimension amount) (requirement : ResourceFragment ℚ)
    (hv : ∀ o ∈ offers,o.resources.validate=.ok ()) : 0 ≤ offered amount requirement offers := by
  refine List.sum_nonneg fun x hx => ?_
  obtain ⟨o,ho,rfl⟩ := List.mem_map.mp hx
  exact h.nonneg (hv o (List.mem_of_mem_filter ho))

/-- The loop adds up what the lasting offers hold, under the ceiling of the
requirement; where it stops early the ceiling is reached. -/
theorem Dimension.allocate_amount (h : Dimension amount)
    (hv : ∀ o ∈ offers,o.resources.validate=.ok ()) (ht : amount total ≤ amount requirement)
    (allocations : List (Allocation ℚ)) :
    amount (allocate requirement offers total allocations).1=
      cappedAdd (amount requirement) (amount total) (offered amount requirement offers) := by
  induction offers generalizing total allocations with
  | nil => exact (cappedAdd_zero ht).symm
  | cons o rest ih =>
    have hrest : ∀ b ∈ rest,b.resources.validate=.ok () := fun b hb =>
      hv b (List.mem_cons_of_mem _ hb)
    have hnonneg := h.offered_nonneg requirement hrest
    rw [allocate,offered_cons]
    cases hl : lifetimeCovers o.resources.lifetime requirement.lifetime with
    | false =>
      rw [allocationShare_eq_none total hl,if_neg Bool.false_ne_true]
      exact ih hrest ht allocations
    | true =>
      rw [if_pos rfl]
      rw [← cappedAdd_cappedAdd hnonneg]
      cases hs : allocationShare o.resources (remaining requirement total) with
      | none =>
        rw [h.no_share ht hl hs]
        exact ih hrest ht allocations
      | some share =>
        have hstep := (h.add_share ht hs).2
        have hle : amount (total.add share) ≤ amount requirement := hstep ▸ cappedAdd_le _ _ _
        dsimp only
        rw [← hstep]
        split
        · next hsat =>
          have heq := le_antisymm hle (h.satisfied hsat)
          have hceiling : amount requirement ≤ amount requirement+offered amount requirement rest :=
            le_add_of_nonneg_right hnonneg
          rw [heq,cappedAdd,min_eq_right hceiling]
        · exact ih hrest hle _

/-- The allocations of the loop add up to its total exactly. -/
theorem Dimension.allocate_exact (h : Dimension amount) (ht : amount total ≤ amount requirement)
    {allocations : List (Allocation ℚ)}
    (heq : amount total=(allocations.map fun a => amount a.resources).sum) :
    amount (allocate requirement offers total allocations).1=
      ((allocate requirement offers total allocations).2.map fun a => amount a.resources).sum := by
  induction offers generalizing total allocations with
  | nil => exact heq
  | cons o rest ih =>
    rw [allocate]
    cases hs : allocationShare o.resources (remaining requirement total) with
    | none => exact ih ht heq
    | some share =>
      obtain ⟨hadd,hstep⟩ := h.add_share ht hs
      have hnext : amount (total.add share)=
          ((allocations++[(⟨o.participantId,share⟩ : Allocation ℚ)]).map
            fun a => amount a.resources).sum := by
        rw [hadd,heq,List.map_append,List.sum_append,List.map_singleton,List.sum_singleton]
      have hle : amount (total.add share) ≤ amount requirement := hstep ▸ cappedAdd_le _ _ _
      dsimp only
      split
      · exact hnext
      · exact ih hle hnext

/-- From nothing, the loop reaches the requirement exactly when the lasting
offers hold it. -/
theorem Dimension.reached (h : Dimension amount) (hr : requirement.validate=.ok ())
    (hv : ∀ o ∈ offers,o.resources.validate=.ok ()) :
    amount requirement ≤ amount (allocate requirement offers .default []).1 ↔
      amount requirement ≤ offered amount requirement offers := by
  have hstart : amount .default ≤ amount requirement := h.start ▸ h.nonneg hr
  rw [h.allocate_amount hv hstart,ceiling_le_cappedAdd,h.start,zero_add]

end Dimension

section Dimensions

/-- A fragment satisfies a requirement in each dimension by itself. -/
theorem satisfies_eq_true {r required : ResourceFragment ℚ} :
    r.satisfies required=true ↔ required.cpu ≤ r.cpu ∧ required.memory ≤ r.memory ∧
      required.storage ≤ r.storage ∧ required.network ≤ r.network ∧ required.gpu ≤ r.gpu ∧
      lifetimeCovers r.lifetime required.lifetime=true := by
  have hle : Cores.le required.cpu r.cpu=decide (required.cpu ≤ r.cpu) := rfl
  simp only [ResourceFragment.satisfies,hle,Bool.and_eq_true,decide_eq_true_eq,and_assoc]

/-- An empty fragment has nothing in each dimension by itself. -/
theorem isEmpty_eq_true {r : ResourceFragment ℚ} :
    r.isEmpty=true ↔ r.cpu=0 ∧ r.memory=0 ∧ r.storage=0 ∧ r.network=0 ∧ r.gpu=0 := by
  have hbeq : Cores.beq r.cpu (Cores.zero : ℚ)=decide (r.cpu=0) := rfl
  simp only [ResourceFragment.isEmpty,hbeq,Bool.and_eq_true,decide_eq_true_eq,beq_iff_eq,and_assoc]

/-- CPU amounts are exact. -/
theorem dimension_cpu : Dimension fun r : ResourceFragment ℚ => r.cpu where
  start := rfl
  nonneg h := validate_eq_ok_iff.mp h
  empty h := (isEmpty_eq_true.mp h).1
  share _ _ := rfl
  missing {required total} h := by
    change total.cpu+max (required.cpu-total.cpu) 0=required.cpu
    rw [max_eq_left (sub_nonneg.mpr h),add_sub_cancel]
  sum _ := rfl
  satisfied h := (satisfies_eq_true.mp h).1

/-- A 64-bit dimension, given how the program treats it. -/
theorem dimension_word64 {word : ResourceFragment ℚ → UInt64} (hstart : word .default=0)
    (hempty : ∀ r,r.isEmpty=true → word r=0)
    (hshare : ∀ a b,word (common a b)=min (word a) (word b))
    (hmissing : ∀ required total,
      word (remaining required total)=saturatingSub64 (word required) (word total))
    (hsum : ∀ a b,word (a.add b)=saturatingAdd64 (word a) (word b))
    (hsatisfied : ∀ r required,r.satisfies required=true → word required ≤ word r) :
    Dimension fun r => (word r).toNat where
  start := by rw [hstart]; rfl
  nonneg _ := Nat.zero_le _
  empty {r} h := by rw [hempty r h]; rfl
  share a b := by rw [hshare,UInt64.toNat_min]
  missing {required total} h := by
    rw [hmissing,saturatingSub64_toNat]
    omega
  sum {a b required} h := by
    have hlt := (word required).toNat_lt
    rw [hsum,saturatingAdd64_toNat]
    omega
  satisfied {r required} h := UInt64.le_iff_toNat_le.mp (hsatisfied r required h)

/-- Memory is a 64-bit dimension. -/
theorem dimension_memory : Dimension fun r : ResourceFragment ℚ => r.memory.toNat :=
  dimension_word64 rfl (fun _ h => (isEmpty_eq_true.mp h).2.1) (fun _ _ => rfl) (fun _ _ => rfl)
    (fun _ _ => rfl) fun _ _ h => (satisfies_eq_true.mp h).2.1

/-- Storage is a 64-bit dimension. -/
theorem dimension_storage : Dimension fun r : ResourceFragment ℚ => r.storage.toNat :=
  dimension_word64 rfl (fun _ h => (isEmpty_eq_true.mp h).2.2.1) (fun _ _ => rfl) (fun _ _ => rfl)
    (fun _ _ => rfl) fun _ _ h => (satisfies_eq_true.mp h).2.2.1

/-- Network is a 64-bit dimension. -/
theorem dimension_network : Dimension fun r : ResourceFragment ℚ => r.network.toNat :=
  dimension_word64 rfl (fun _ h => (isEmpty_eq_true.mp h).2.2.2.1) (fun _ _ => rfl)
    (fun _ _ => rfl) (fun _ _ => rfl) fun _ _ h => (satisfies_eq_true.mp h).2.2.2.1

/-- GPU units are a 32-bit dimension. -/
theorem dimension_gpu : Dimension fun r : ResourceFragment ℚ => r.gpu.toNat where
  start := rfl
  nonneg _ := Nat.zero_le _
  empty h := by rw [(isEmpty_eq_true.mp h).2.2.2.2]; rfl
  share _ _ := UInt32.toNat_min _ _
  missing {required total} h := by
    change total.gpu.toNat+(saturatingSub32 required.gpu total.gpu).toNat=required.gpu.toNat
    rw [saturatingSub32_toNat]
    omega
  sum {a b required} h := by
    have hlt := required.gpu.toNat_lt
    change (saturatingAdd32 a.gpu b.gpu).toNat=a.gpu.toNat+b.gpu.toNat
    rw [saturatingAdd32_toNat]
    omega
  satisfied h := UInt32.le_iff_toNat_le.mp (satisfies_eq_true.mp h).2.2.2.2.1

end Dimensions

section Completeness

/-- The offers that last long enough hold the requirement together, in exact
sums. -/
structure Suffices (requirement : ResourceFragment ℚ) (offers : List (ResourceOffer ℚ)) :
    Prop where
  /-- Enough CPU. -/
  cpu : requirement.cpu ≤ offered (fun r => r.cpu) requirement offers
  /-- Enough memory. -/
  memory : requirement.memory.toNat ≤ offered (fun r => r.memory.toNat) requirement offers
  /-- Enough storage. -/
  storage : requirement.storage.toNat ≤ offered (fun r => r.storage.toNat) requirement offers
  /-- Enough network. -/
  network : requirement.network.toNat ≤ offered (fun r => r.network.toNat) requirement offers
  /-- Enough GPU units. -/
  gpu : requirement.gpu.toNat ≤ offered (fun r => r.gpu.toNat) requirement offers

/-- The order of the offers does not matter. -/
theorem Suffices.perm {requirement : ResourceFragment ℚ} {a b : List (ResourceOffer ℚ)}
    (h : a.Perm b) (ha : Suffices requirement a) : Suffices requirement b where
  cpu := ha.cpu.trans_eq (offered_perm h)
  memory := ha.memory.trans_eq (offered_perm h)
  storage := ha.storage.trans_eq (offered_perm h)
  network := ha.network.trans_eq (offered_perm h)
  gpu := ha.gpu.trans_eq (offered_perm h)

/-- The lifetime of the loop's total covers the requirement: it is that of
the requirement, or unbounded if nothing was taken. -/
theorem allocate_covers (requirement : ResourceFragment ℚ) (offers : List (ResourceOffer ℚ)) :
    lifetimeCovers (allocate requirement offers .default []).1.lifetime
      requirement.lifetime=true := by
  obtain ⟨picked,_,hshare,heq⟩ := allocate_selects requirement offers .default []
  rw [heq]
  by_cases hp : picked=[]
  · rw [hp]
    cases requirement.lifetime <;> rfl
  · have hne : picked.map (fun p => (⟨p.1.participantId,p.2⟩ : Allocation ℚ))≠[] := by
      simpa using hp
    have hshares : ∀ a ∈ picked.map (fun p => (⟨p.1.participantId,p.2⟩ : Allocation ℚ)),
        a.resources.lifetime=requirement.lifetime := by
      intro a ha
      obtain ⟨p,hmem,rfl⟩ := List.mem_map.mp ha
      obtain ⟨t,ht⟩ := hshare p hmem
      obtain ⟨_,_,hcommon⟩ := allocationShare_eq_some.mp ht
      dsimp only
      rw [hcommon]
      rfl
    have hlife := compose_lifetime hne hshares
    dsimp only
    rw [hlife]
    cases requirement.lifetime with
    | none => rfl
    | some l => exact decide_eq_true le_rfl

/-- The loop satisfies a valid requirement exactly when the lasting offers
hold it. -/
theorem allocate_satisfies {requirement : ResourceFragment ℚ} {offers : List (ResourceOffer ℚ)}
    (hr : requirement.validate=.ok ()) (hv : ∀ o ∈ offers,o.resources.validate=.ok ()) :
    (allocate requirement offers .default []).1.satisfies requirement=true ↔
      Suffices requirement offers := by
  have hcpu := dimension_cpu.reached hr hv
  have hmemory := dimension_memory.reached hr hv
  have hstorage := dimension_storage.reached hr hv
  have hnetwork := dimension_network.reached hr hv
  have hgpu := dimension_gpu.reached hr hv
  rw [satisfies_eq_true,UInt64.le_iff_toNat_le,UInt64.le_iff_toNat_le,UInt64.le_iff_toNat_le,
    UInt32.le_iff_toNat_le]
  constructor
  · rintro ⟨hc,hm,hs,hn,hg,_⟩
    exact ⟨hcpu.mp hc,hmemory.mp hm,hstorage.mp hs,hnetwork.mp hn,hgpu.mp hg⟩
  · intro h
    exact ⟨hcpu.mpr h.cpu,hmemory.mpr h.memory,hstorage.mpr h.storage,hnetwork.mpr h.network,
      hgpu.mpr h.gpu,allocate_covers requirement offers⟩

/-- A requirement that is invalid or empty is refused before any offer is
looked at. -/
theorem plan_of_not_required {requirement : ResourceFragment ℚ}
    (h : ¬requirement.validateRequirement=.ok ()) (offers : List (ResourceOffer ℚ)) (uuid : String) :
    plan offers uuid requirement=.error .invalidRequirement := by
  obtain ⟨e,he⟩ := Checks.exists_error_of_unit h
  rw [plan,he]
  rfl

/-- Valid offers that do not hold the requirement are not enough. -/
theorem plan_of_not_satisfied {requirement : ResourceFragment ℚ} {offers : List (ResourceOffer ℚ)}
    (hr : requirement.validateRequirement=.ok ()) (hv : OffersValid offers)
    (hs : (allocate requirement (sorted offers) .default []).1.satisfies requirement=false)
    (uuid : String) : plan offers uuid requirement=.error .insufficientResources := by
  have hvalid : offersValid (sorted offers) []=true :=
    offersValid_eq_true.mpr ⟨hv.perm (sorted_perm offers).symm,fun _ _ => List.not_mem_nil⟩
  rw [plan,hr,hvalid]
  dsimp only [Except.mapError,bind,Except.bind,rejectIf]
  rw [if_neg (by decide),hs]
  rfl

/-- Valid offers that hold the requirement are planned. -/
theorem plan_of_satisfied {requirement : ResourceFragment ℚ} {offers : List (ResourceOffer ℚ)}
    (hr : requirement.validateRequirement=.ok ()) (hv : OffersValid offers)
    (hs : (allocate requirement (sorted offers) .default []).1.satisfies requirement=true)
    (uuid : String) : ∃ node,plan offers uuid requirement=.ok node := by
  have hsorted := hv.perm (sorted_perm offers).symm
  obtain ⟨hne,hc⟩ := allocate_composable hsorted hr hs
  have hcompose := compose_eq_ok.mpr ⟨hne,hc,rfl⟩
  have hcheck : (⟨total .default (allocate requirement (sorted offers) .default []).2,
      (allocate requirement (sorted offers) .default []).2⟩ : CompositeResource ℚ).validate=.ok () :=
    validate_eq_ok.mpr ⟨_,hcompose,rfl⟩
  simp only [plan,Checks.bind_eq_ok,Unique.exists_iff,PUnit.default_eq_unit,
    Checks.rejectIf_eq_ok,Checks.mapError_eq_ok,Bool.not_eq_false,offersValid_eq_true]
  exact ⟨_,hr,⟨hsorted,fun _ _ => List.not_mem_nil⟩,hs,_,hcompose,hcheck,rfl⟩

/-- A set of offers is refused for a nameless or invalid offer, or for two
offers of one participant. -/
theorem not_offersValid_iff {offers : List (ResourceOffer ℚ)} :
    ¬OffersValid offers ↔
      (∃ o ∈ offers,o.participantId="" ∨ ¬o.resources.validate=.ok ()) ∨
        ¬(offers.map ResourceOffer.participantId).Nodup := by
  constructor
  · intro h
    by_contra hn
    rw [not_or,not_not] at hn
    refine h ⟨fun o ho he => hn.1 ⟨o,ho,.inl he⟩,fun o ho => ?_,hn.2⟩
    by_contra hv
    exact hn.1 ⟨o,ho,.inr hv⟩
  · rintro (⟨o,ho,he|hv⟩|hd) h
    · exact h.named o ho he
    · exact hv (h.valid o ho)
    · exact hd h.distinct

/-- A requirement is refused when it is invalid or empty. -/
theorem not_required_iff {requirement : ResourceFragment ℚ} :
    ¬requirement.validateRequirement=.ok () ↔
      ¬requirement.validate=.ok () ∨ requirement.isEmpty=true := by
  rw [ResourceFragment.validateRequirement_eq_ok,not_and_or,Bool.not_eq_false]

/-- The four answers of the planner, each with the inputs that it is given
to. -/
theorem plan_outcomes (offers : List (ResourceOffer ℚ)) (uuid : String)
    (requirement : ResourceFragment ℚ) :
    (plan offers uuid requirement=.error .invalidRequirement ↔
      ¬requirement.validate=.ok () ∨ requirement.isEmpty=true) ∧
    (plan offers uuid requirement=.error .invalidOffer ↔
      (requirement.validate=.ok () ∧ requirement.isEmpty=false) ∧
        ((∃ o ∈ offers,o.participantId="" ∨ ¬o.resources.validate=.ok ()) ∨
          ¬(offers.map ResourceOffer.participantId).Nodup)) ∧
    ((∃ node,plan offers uuid requirement=.ok node) ↔
      (requirement.validate=.ok () ∧ requirement.isEmpty=false) ∧ OffersValid offers ∧
        Suffices requirement offers) ∧
    (plan offers uuid requirement=.error .insufficientResources ↔
      (requirement.validate=.ok () ∧ requirement.isEmpty=false) ∧ OffersValid offers ∧
        ¬Suffices requirement offers) := by
  rw [← not_required_iff,← not_offersValid_iff,← ResourceFragment.validateRequirement_eq_ok]
  by_cases hr : requirement.validateRequirement=.ok ()
  case neg =>
    have hplan := plan_of_not_required hr offers uuid
    simp [hplan,hr]
  by_cases hv : OffersValid offers
  case neg =>
    have hplan := plan_of_not_valid hv uuid requirement
    rw [hr] at hplan
    dsimp only [Except.mapError,bind,Except.bind] at hplan
    simp [hplan,hr,hv]
  have hvalid : ∀ o ∈ sorted offers,o.resources.validate=.ok () := fun o ho =>
    hv.valid o ((sorted_perm offers).mem_iff.mp ho)
  have hok := (ResourceFragment.validateRequirement_eq_ok.mp hr).1
  have hsorted : Suffices requirement (sorted offers) ↔ Suffices requirement offers :=
    ⟨Suffices.perm (sorted_perm offers),Suffices.perm (sorted_perm offers).symm⟩
  have hloop := (allocate_satisfies hok hvalid).trans hsorted
  by_cases hs : Suffices requirement offers
  · obtain ⟨node,hplan⟩ := plan_of_satisfied hr hv (hloop.mpr hs) uuid
    simp [hplan,hr,hv,hs]
  · have hplan := plan_of_not_satisfied hr hv
      (Bool.eq_false_iff.mpr fun h => hs (hloop.mp h)) uuid
    simp [hplan,hr,hv,hs]

end Completeness

section Soundness

/-- The resources of a plan are what the loop ends with. -/
theorem plan_resources {offers : List (ResourceOffer ℚ)} {uuid : String}
    {requirement : ResourceFragment ℚ} {node : LogicalNode ℚ}
    (h : plan offers uuid requirement=.ok node) :
    node.resources=⟨(allocate requirement (sorted offers) .default []).1,
      (allocate requirement (sorted offers) .default []).2⟩ := by
  obtain ⟨_,_,_,hc,_⟩ := plan_eq_ok h
  obtain ⟨_,_,hres⟩ := compose_eq_ok.mp hc
  obtain ⟨picked,_,_,heq⟩ := allocate_selects requirement (sorted offers) .default []
  rw [hres,heq,List.nil_append]

/-- The one offer behind an allocation has at least the allocated amounts and
does not end before the requirement. -/
structure Covered (offers : List (ResourceOffer ℚ)) (requirement : ResourceFragment ℚ)
    (a : Allocation ℚ) (o : ResourceOffer ℚ) : Prop where
  /-- The participant has no other offer. -/
  only : offers.filter (fun o => o.participantId=a.participantId)=[o]
  /-- CPU within the offer. -/
  cpu : a.resources.cpu ≤ o.resources.cpu
  /-- Memory within the offer. -/
  memory : a.resources.memory ≤ o.resources.memory
  /-- Storage within the offer. -/
  storage : a.resources.storage ≤ o.resources.storage
  /-- Network within the offer. -/
  network : a.resources.network ≤ o.resources.network
  /-- GPU units within the offer. -/
  gpu : a.resources.gpu ≤ o.resources.gpu
  /-- The offer lasts as long as the requirement whenever both are bounded. -/
  lasts : ∀ l r,o.resources.lifetime=some l → requirement.lifetime=some r → r ≤ l

/-- Among offers of distinct participants, an offer is the only one of its
participant. -/
theorem filter_participant {F : Type} {offers : List (ResourceOffer F)}
    (hd : (offers.map ResourceOffer.participantId).Nodup) {o : ResourceOffer F} (ho : o ∈ offers) :
    offers.filter (fun b => b.participantId=o.participantId)=[o] := by
  have hnodup := (List.Nodup.of_map _ hd).filter fun b => decide (b.participantId=o.participantId)
  have hperm : (offers.filter fun b => b.participantId=o.participantId).Perm [o] := by
    refine (List.perm_ext_iff_of_nodup hnodup (List.nodup_singleton o)).mpr fun b => ?_
    rw [List.mem_filter,List.mem_singleton,decide_eq_true_eq]
    constructor
    · rintro ⟨hb,he⟩
      exact List.inj_on_of_nodup_map hd hb ho he
    · rintro rfl
      exact ⟨ho,rfl⟩
  exact List.perm_singleton.mp hperm

/-- A share is covered by the offer that it was taken from. -/
theorem covered_of_share {offers : List (ResourceOffer ℚ)} {requirement : ResourceFragment ℚ}
    (hd : (offers.map ResourceOffer.participantId).Nodup) {o : ResourceOffer ℚ} (ho : o ∈ offers)
    {total share : ResourceFragment ℚ}
    (hs : allocationShare o.resources (remaining requirement total)=some share) :
    Covered offers requirement ⟨o.participantId,share⟩ o := by
  obtain ⟨hlong,_,rfl⟩ := allocationShare_eq_some.mp hs
  refine ⟨filter_participant hd ho,min_le_left _ _,Std.min_le_left,Std.min_le_left,
    Std.min_le_left,Std.min_le_left,?_⟩
  intro l r hl hr
  change tooShort o.resources.lifetime requirement.lifetime=false at hlong
  rw [hl,hr] at hlong
  exact not_lt.mp (of_decide_eq_false hlong)

/-- The allocations stand in the strict order of their participants. -/
theorem allocate_increasing {offers : List (ResourceOffer ℚ)} (hv : OffersValid offers)
    (requirement : ResourceFragment ℚ) :
    ((allocate requirement (sorted offers) .default []).2.map Allocation.participantId).Pairwise
      (· < ·) := by
  obtain ⟨picked,hsub,_,heq⟩ := allocate_selects requirement (sorted offers) .default []
  have hdistinct := (hv.perm (sorted_perm offers).symm).distinct
  have hle : ((sorted offers).map ResourceOffer.participantId).Pairwise (· ≤ ·) :=
    List.pairwise_map.mpr (sorted_pairwise offers)
  have hlt : ((sorted offers).map ResourceOffer.participantId).Pairwise (· < ·) :=
    (hle.and hdistinct).imp fun h => lt_of_le_of_ne h.1 h.2
  have hpicked := hlt.sublist (hsub.map ResourceOffer.participantId)
  rw [heq,List.nil_append]
  rw [List.map_map] at hpicked ⊢
  exact hpicked

/-- The allocations add up to the requirement in exact sums. -/
structure AddsUp (allocations : List (Allocation ℚ)) (requirement : ResourceFragment ℚ) : Prop where
  /-- CPU. -/
  cpu : (allocations.map fun a => a.resources.cpu).sum=requirement.cpu
  /-- Memory. -/
  memory : (allocations.map fun a => a.resources.memory.toNat).sum=requirement.memory.toNat
  /-- Storage. -/
  storage : (allocations.map fun a => a.resources.storage.toNat).sum=requirement.storage.toNat
  /-- Network. -/
  network : (allocations.map fun a => a.resources.network.toNat).sum=requirement.network.toNat
  /-- GPU units. -/
  gpu : (allocations.map fun a => a.resources.gpu.toNat).sum=requirement.gpu.toNat

/-- In each dimension the allocations of a plan add up to the requirement. -/
theorem Dimension.plan_exact {M : Type} [AddCommMonoid M] [LinearOrder M] [IsOrderedAddMonoid M]
    {amount : ResourceFragment ℚ → M} (hdim : Dimension amount) {offers : List (ResourceOffer ℚ)}
    {uuid : String} {requirement : ResourceFragment ℚ} {node : LogicalNode ℚ}
    (h : plan offers uuid requirement=.ok node) :
    (node.resources.allocations.map fun a => amount a.resources).sum=amount requirement := by
  obtain ⟨hr,_⟩ := plan_eq_ok h
  have hvalid := (ResourceFragment.validateRequirement_eq_ok.mp hr).1
  have hstart : amount .default ≤ amount requirement := hdim.start ▸ hdim.nonneg hvalid
  have hres := plan_resources h
  have hcap := plan_capacity h
  have hexact : amount (allocate requirement (sorted offers) .default []).1=
      ((allocate requirement (sorted offers) .default []).2.map fun a => amount a.resources).sum :=
    hdim.allocate_exact hstart hdim.start
  rw [hres] at hcap ⊢
  dsimp only at hcap ⊢
  rw [← hexact,hcap]

/-- A successful plan is the requirement, exactly distributed over distinct
participants, each within its one offer. -/
theorem plan_sound {offers : List (ResourceOffer ℚ)} {uuid : String}
    {requirement : ResourceFragment ℚ} {node : LogicalNode ℚ}
    (h : plan offers uuid requirement=.ok node) :
    node.resources.capacity=requirement ∧ node.resources.allocations≠[] ∧
      (node.resources.allocations.map Allocation.participantId).Pairwise (· < ·) ∧
      (∀ a ∈ node.resources.allocations,a.resources.isEmpty=false ∧
        ∃ o,Covered offers requirement a o) ∧
      node.resources.validate=.ok () ∧ AddsUp node.resources.allocations requirement := by
  obtain ⟨_,hv,_,hc,_⟩ := plan_eq_ok h
  have hp := planned_of_plan h
  have hres := plan_resources h
  refine ⟨plan_capacity h,hp.nonempty,?_,?_,?_,?_⟩
  · rw [hres]
    exact allocate_increasing hv requirement
  · intro a ha
    refine ⟨(ResourceFragment.validateRequirement_eq_ok.mp (hp.composable.valid a ha)).2,?_⟩
    obtain ⟨picked,hsub,hshare,heq⟩ := allocate_selects requirement (sorted offers) .default []
    rw [hres,heq,List.nil_append] at ha
    obtain ⟨p,hmem,rfl⟩ := List.mem_map.mp ha
    obtain ⟨t,ht⟩ := hshare p hmem
    have ho := (sorted_perm offers).mem_iff.mp (hsub.subset (List.mem_map_of_mem hmem))
    exact ⟨p.1,covered_of_share hv.distinct ho ht⟩
  · have hcompose : compose node.resources.allocations=.ok node.resources := by
      rw [hres] at hc ⊢
      exact hc
    exact validate_eq_ok.mpr ⟨_,hcompose,rfl⟩
  · exact ⟨dimension_cpu.plan_exact h,dimension_memory.plan_exact h,
      dimension_storage.plan_exact h,dimension_network.plan_exact h,dimension_gpu.plan_exact h⟩

/-- One core of two is planned soundly. -/
theorem plan_sound_twoCores : oneCoreNode.resources.capacity=oneCore ∧
    oneCoreNode.resources.validate=.ok () ∧ AddsUp oneCoreNode.resources.allocations oneCore :=
  have h := plan_sound plan_twoCores
  ⟨h.1,h.2.2.2.2⟩

end Soundness

end OpenHost.AggregatingScheduler
