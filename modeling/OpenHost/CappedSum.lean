import Mathlib

/-!
# Sums under a ceiling

Additions that stop at a ceiling add up to the exact sum or to the ceiling,
whichever is smaller, in every order and wherever the ceiling is met. The
amounts are those of any linearly ordered commutative monoid, so that
machine words with saturation and exact amounts under a demand are the same
case.
-/

namespace OpenHost.CappedSum

variable {M : Type*} [AddCommMonoid M]

section Step

variable [LinearOrder M]

/-- Addition that stops at the ceiling. -/
def cappedAdd (ceiling a b : M) : M := min (a+b) ceiling

/-- Nothing is lost by adding nothing below the ceiling. -/
theorem cappedAdd_zero {ceiling a : M} (h : a ≤ ceiling) : cappedAdd ceiling a 0=a := by
  rw [cappedAdd,add_zero,min_eq_left h]

/-- The result stays below the ceiling. -/
theorem cappedAdd_le (ceiling a b : M) : cappedAdd ceiling a b ≤ ceiling := min_le_right _ _

/-- The ceiling is reached exactly when the exact sum reaches it. -/
theorem ceiling_le_cappedAdd {ceiling a b : M} :
    ceiling ≤ cappedAdd ceiling a b ↔ ceiling ≤ a+b := by
  rw [cappedAdd,le_min_iff]
  exact ⟨fun h => h.1,fun h => ⟨h,le_rfl⟩⟩

variable [IsOrderedAddMonoid M]

/-- A stop on the way is no other stop than the one at the end. -/
theorem cappedAdd_cappedAdd {ceiling a b c : M} (h : 0 ≤ c) :
    cappedAdd ceiling (cappedAdd ceiling a b) c=cappedAdd ceiling a (b+c) := by
  have hceiling : ceiling ≤ ceiling+c := le_add_of_nonneg_right h
  rw [cappedAdd,cappedAdd,cappedAdd,min_add,min_assoc,min_eq_right hceiling,add_assoc]

end Step

section Loop

variable {σ α : Type*}

/-- A loop that adds up amounts without a ceiling ends with the exact sum. -/
theorem view_foldl_exact (view : σ → M) (step : σ → α → σ) (amount : α → M) {items : List α}
    (hstep : ∀ s,∀ x ∈ items,view (step s x)=view s+amount x) (start : σ) :
    view (items.foldl step start)=view start+(items.map amount).sum := by
  induction items generalizing start with
  | nil => exact (add_zero _).symm
  | cons x rest ih =>
    have hx := hstep start x List.mem_cons_self
    have htail := ih (fun s y hy => hstep s y (List.mem_cons_of_mem _ hy)) (step start x)
    rw [List.foldl_cons,htail,hx,add_assoc,List.map_cons,List.sum_cons]

variable [LinearOrder M] [IsOrderedAddMonoid M]

/-- A loop that adds up amounts under a ceiling, seen through one amount of
its state, ends with the exact sum or the ceiling. -/
theorem view_foldl (view : σ → M) (step : σ → α → σ) (amount : α → M) {ceiling : M}
    {items : List α} {start : σ}
    (hstep : ∀ s,view s ≤ ceiling → ∀ x ∈ items,
      view (step s x)=cappedAdd ceiling (view s) (amount x))
    (hamount : ∀ x ∈ items,0 ≤ amount x) (hstart : view start ≤ ceiling) :
    view (items.foldl step start)=cappedAdd ceiling (view start) (items.map amount).sum := by
  induction items generalizing start with
  | nil => exact (cappedAdd_zero hstart).symm
  | cons x rest ih =>
    have hx := hstep start hstart x List.mem_cons_self
    have hrest : 0 ≤ (rest.map amount).sum := List.sum_nonneg fun y hy => by
      obtain ⟨z,hz,rfl⟩ := List.mem_map.mp hy
      exact hamount z (List.mem_cons_of_mem _ hz)
    have hnext : view (step start x) ≤ ceiling := hx ▸ cappedAdd_le _ _ _
    have htail := ih (fun s hs y hy => hstep s hs y (List.mem_cons_of_mem _ hy))
      (fun y hy => hamount y (List.mem_cons_of_mem _ hy)) hnext
    rw [List.foldl_cons,htail,hx,cappedAdd_cappedAdd hrest,List.map_cons,List.sum_cons]

end Loop

end OpenHost.CappedSum
