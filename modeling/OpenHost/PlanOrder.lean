import OpenHost.Scheduler

/-!
# What a plan depends on

A plan depends on the set of offers and not on the order in which they
arrive: distinct names have one sorted order, and every other set is
refused as a whole before any offer is used. For exact CPU amounts a set
of offers that passes this check is never refused later.
-/

namespace OpenHost.AggregatingScheduler

section Order

variable {F : Type}

/-- Sorting puts the names in order. -/
theorem sorted_pairwise (offers : List (ResourceOffer F)) :
    (sorted offers).Pairwise fun a b => a.participantId ≤ b.participantId := by
  have ht : ∀ a b c : ResourceOffer F, decide (a.participantId ≤ b.participantId)=true →
      decide (b.participantId ≤ c.participantId)=true →
      decide (a.participantId ≤ c.participantId)=true := by
    intro a b c hab hbc
    simp only [decide_eq_true_eq] at hab hbc ⊢
    exact le_trans hab hbc
  have hc : ∀ a b : ResourceOffer F, (decide (a.participantId ≤ b.participantId) ||
      decide (b.participantId ≤ a.participantId))=true := by
    intro a b
    simp only [Bool.or_eq_true,decide_eq_true_eq]
    exact le_total _ _
  have hp := List.pairwise_mergeSort ht hc offers
  exact hp.imp fun h => of_decide_eq_true h

/-- Offers with distinct names have one sorted order. -/
theorem sorted_eq_of_perm {a b : List (ResourceOffer F)} (h : a.Perm b)
    (hd : (a.map ResourceOffer.participantId).Nodup) : sorted a=sorted b := by
  have hp : (sorted a).Perm (sorted b) := ((sorted_perm a).trans h).trans (sorted_perm b).symm
  refine List.Perm.eq_of_pairwise ?_ (sorted_pairwise a) (sorted_pairwise b) hp
  intro x y hx hy hxy hyx
  have hxa : x ∈ a := (sorted_perm a).mem_iff.mp hx
  have hya : y ∈ a := h.mem_iff.mpr ((sorted_perm b).mem_iff.mp hy)
  exact List.inj_on_of_nodup_map hd hxa hya (le_antisymm hxy hyx)

variable [CoresArith F]

/-- The generated name is the only part of a plan that another generated
name changes. -/
theorem plan_rename (offers : List (ResourceOffer F)) (uuid uuid' : String)
    (requirement : ResourceFragment F) :
    plan offers uuid' requirement=
      (plan offers uuid requirement).map fun node => {node with id := uuid'} := by
  simp only [plan,Checks.map_bind]
  rfl

/-- A set of offers that is not valid as a whole is refused whatever its
order, unless the requirement is refused first. -/
theorem plan_of_not_valid {offers : List (ResourceOffer F)} (h : ¬OffersValid offers)
    (uuid : String) (requirement : ResourceFragment F) :
    plan offers uuid requirement=
      ((requirement.validateRequirement.mapError fun _ => SchedulerError.invalidRequirement) >>=
        fun _ => .error .invalidOffer) := by
  have hv : offersValid (sorted offers) []=false := by
    rw [← Bool.not_eq_true,offersValid_eq_true]
    exact fun hs => h (hs.1.perm (sorted_perm offers))
  rw [plan,hv]
  rfl

/-- Whatever the order of the offers, a plan is the same error or the same
node up to its generated name. -/
theorem plan_perm {a b : List (ResourceOffer F)} (h : a.Perm b) (uuid uuid' : String)
    (requirement : ResourceFragment F) :
    plan b uuid' requirement=
      (plan a uuid requirement).map fun node => {node with id := uuid'} := by
  by_cases hv : OffersValid a
  · have hs := sorted_eq_of_perm h hv.distinct
    rw [← plan_rename a uuid uuid',plan,plan,hs]
  · have hb : ¬OffersValid b := fun hb => hv (hb.perm h.symm)
    rw [plan_of_not_valid hv,plan_of_not_valid hb]
    cases requirement.validateRequirement <;> rfl

end Order

section Exact

/-- A share of a valid exact offer is a valid requirement by itself. -/
theorem share_valid {available requirement total share : ResourceFragment ℚ}
    (ha : available.validate=.ok ())
    (hs : allocationShare available (remaining requirement total)=some share) :
    share.validateRequirement=.ok () := by
  obtain ⟨_,hne,rfl⟩ := allocationShare_eq_some.mp hs
  have hc := validate_eq_ok_iff.mp ha
  have hmiss : (0:ℚ) ≤ max (requirement.cpu-total.cpu) 0 := le_max_right _ _
  have hcpu : 0 ≤ (common available (remaining requirement total)).cpu := le_min hc hmiss
  exact ResourceFragment.validateRequirement_eq_ok.mpr ⟨validate_eq_ok_iff.mpr hcpu,hne⟩

/-- Nothing satisfies no valid requirement. -/
theorem default_not_satisfies {requirement : ResourceFragment ℚ}
    (h : requirement.validateRequirement=.ok ()) :
    (ResourceFragment.default : ResourceFragment ℚ).satisfies requirement=false := by
  obtain ⟨hv,hne⟩ := ResourceFragment.validateRequirement_eq_ok.mp h
  have hcpu := validate_eq_ok_iff.mp hv
  by_contra hs
  simp only [Bool.not_eq_false,ResourceFragment.satisfies,Bool.and_eq_true,decide_eq_true_eq] at hs
  obtain ⟨⟨⟨⟨⟨hc,hm⟩,hst⟩,hn⟩,hg⟩,_⟩ := hs
  have hzero : requirement.cpu=0 := le_antisymm (of_decide_eq_true hc) hcpu
  have hm' : requirement.memory=0 := UInt64.le_antisymm hm UInt64.zero_le
  have hst' : requirement.storage=0 := UInt64.le_antisymm hst UInt64.zero_le
  have hn' : requirement.network=0 := UInt64.le_antisymm hn UInt64.zero_le
  have hg' : requirement.gpu=0 := UInt32.le_antisymm hg UInt32.zero_le
  have he : requirement.isEmpty=true := by
    have hb : Cores.beq requirement.cpu (Cores.zero : ℚ)=true := by
      rw [hzero]
      rfl
    simp [ResourceFragment.isEmpty,hb,hm',hst',hn',hg']
  rw [he] at hne
  cases hne

/-- Allocations that satisfy a valid requirement over valid exact offers
compose. -/
theorem allocate_composable {offers : List (ResourceOffer ℚ)} (hv : OffersValid offers)
    {requirement : ResourceFragment ℚ} (hr : requirement.validateRequirement=.ok ())
    (hs : (allocate requirement offers .default []).1.satisfies requirement=true) :
    (allocate requirement offers .default []).2≠[] ∧
      CompositeResource.Composable (allocate requirement offers .default []).2 := by
  obtain ⟨picked,hsub,hshare,heq⟩ := allocate_selects requirement offers .default []
  have hmem : ∀ p ∈ picked,p.1 ∈ offers := fun p hp => hsub.subset (List.mem_map_of_mem hp)
  rw [heq] at hs ⊢
  rw [List.nil_append]
  refine ⟨?_,⟨?_,?_,?_⟩⟩
  · intro he
    dsimp only at he hs
    rw [he,CompositeResource.total,List.foldl_nil,default_not_satisfies hr] at hs
    cases hs
  · intro a ha
    obtain ⟨p,hp,rfl⟩ := List.mem_map.mp ha
    exact hv.named p.1 (hmem p hp)
  · intro a ha
    obtain ⟨p,hp,rfl⟩ := List.mem_map.mp ha
    obtain ⟨t,ht⟩ := hshare p hp
    exact share_valid (hv.valid p.1 (hmem p hp)) ht
  · have hnames := hv.distinct.sublist (hsub.map ResourceOffer.participantId)
    rw [List.map_map] at hnames ⊢
    exact hnames

/-- An exact fragment equals itself. -/
theorem beq_exact (r : ResourceFragment ℚ) : r.beq r=true := by
  simp [ResourceFragment.beq,Cores.beq_self r.cpu rfl]

end Exact

section Sample

/-- Another participant with one core. -/
def anotherCore : ResourceOffer ℚ := ⟨"55555555-5555-4555-8555-555555555555",⟨1,0,0,0,0,none⟩⟩

/-- Two offers are planned alike in both orders. -/
theorem plan_perm_twoOffers : [twoCores,anotherCore].Perm [anotherCore,twoCores] ∧
    plan [anotherCore,twoCores] "b" oneCore=
      (plan [twoCores,anotherCore] "a" oneCore).map fun node => {node with id := "b"} :=
  ⟨List.Perm.swap _ _ _,plan_perm (List.Perm.swap _ _ _) "a" "b" oneCore⟩

end Sample

end OpenHost.AggregatingScheduler
