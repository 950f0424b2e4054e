import OpenHost.PlanExactness
import OpenHost.PlanOrder

/-!
# Which offers a plan draws on, and how much

Seen from the requirement the scheduler fills a vessel: the lasting offers
are poured in, in the order of their participants, and each adds what still
fits. So the amount drawn from an offer is the rise of the level between the
offers before it and itself. Leaving the loop early changes nothing, and
neither do offers that are not drawn on, nor those behind the last one that is.
-/

namespace OpenHost.AggregatingScheduler

open CappedSum CompositeResource

/-- The shares that are taken from the offers in turn, without an early exit. -/
def draws (requirement : ResourceFragment ℚ) : List (ResourceOffer ℚ) → ResourceFragment ℚ →
    List (Allocation ℚ)
  | [],_ => []
  | offer::rest,total =>
    match allocationShare offer.resources (remaining requirement total) with
    | none => draws requirement rest total
    | some share => ⟨offer.participantId,share⟩::draws requirement rest (total.add share)

section Draws

variable {requirement : ResourceFragment ℚ}

end Draws

section Level

variable {M : Type} [AddCommMonoid M] [LinearOrder M] [IsOrderedAddMonoid M]
  {amount : ResourceFragment ℚ → M} {requirement : ResourceFragment ℚ}
  {offers : List (ResourceOffer ℚ)}

end Level

section Plans

variable {offers : List (ResourceOffer ℚ)} {uuid : String} {requirement : ResourceFragment ℚ}
  {node : LogicalNode ℚ}

/-- Sorting a valid set of offers keeps it valid. -/
theorem OffersValid.sorted (h : OffersValid offers) : OffersValid (sorted offers) :=
  h.perm (sorted_perm offers).symm

/-- Valid sorted offers stand in the strict order of their participants. -/
theorem OffersValid.increasing (h : OffersValid offers) :
    (AggregatingScheduler.sorted offers).Pairwise fun a b => a.participantId<b.participantId := by
  have hdistinct := List.pairwise_map.mp h.sorted.distinct
  exact ((sorted_pairwise offers).and hdistinct).imp fun hab => lt_of_le_of_ne hab.1 hab.2

/-- The offers before one of them, and up to it. -/
theorem OffersValid.split (h : OffersValid offers) {o : ResourceOffer ℚ} (ho : o ∈ offers) :
    ∃ before after,AggregatingScheduler.sorted offers=before++o::after ∧
      (∀ b ∈ before,b.participantId<o.participantId) ∧
      (∀ b ∈ after,o.participantId<b.participantId) ∧
      before.Perm (offers.filter fun b => b.participantId<o.participantId) ∧
      (before++[o]).Perm (offers.filter fun b => b.participantId ≤ o.participantId) := by
  obtain ⟨before,after,hsplit⟩ := List.append_of_mem ((sorted_perm offers).mem_iff.mpr ho)
  have hincreasing := h.increasing
  rw [hsplit,List.pairwise_append,List.pairwise_cons] at hincreasing
  obtain ⟨_,⟨hafter,_⟩,hbefore⟩ := hincreasing
  have hlow : ∀ b ∈ before,b.participantId<o.participantId :=
    fun b hb => hbefore b hb o List.mem_cons_self
  refine ⟨before,after,hsplit,hlow,hafter,?_,?_⟩
  · have hperm := (sorted_perm offers).filter fun b => b.participantId<o.participantId
    rw [hsplit,List.filter_append,List.filter_cons] at hperm
    have hnone : after.filter (fun b => b.participantId<o.participantId)=[] :=
      List.filter_eq_nil_iff.mpr fun b hb => by
        rw [decide_eq_true_eq]
        exact (hafter b hb).not_gt
    rw [List.filter_eq_self.mpr fun b hb => decide_eq_true (hlow b hb),if_neg (by simp),hnone,
      List.append_nil] at hperm
    exact hperm
  · have hperm := (sorted_perm offers).filter fun b => b.participantId ≤ o.participantId
    rw [hsplit,List.filter_append,List.filter_cons] at hperm
    have hnone : after.filter (fun b => b.participantId ≤ o.participantId)=[] :=
      List.filter_eq_nil_iff.mpr fun b hb => by
        rw [decide_eq_true_eq]
        exact (hafter b hb).not_ge
    rw [List.filter_eq_self.mpr fun b hb => decide_eq_true (hlow b hb).le,if_pos (by simp),
      hnone] at hperm
    exact hperm

end Plans

section Sample

end Sample

end OpenHost.AggregatingScheduler
