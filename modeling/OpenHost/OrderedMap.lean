import Mathlib

/-!
# Lookup laws of ordered maps

Extensional search trees, read through their lookup function. Keys with a
lawful comparison are compared by equality here, so that a proof about an
insertion or a removal splits on `k=a` and never on an ordering.
-/

namespace OpenHost.OrderedMap

variable {κ υ : Type} [Ord κ] [Std.TransOrd κ] [Std.LawfulEqOrd κ] [DecidableEq κ]

/-- Lookup after an insertion. -/
theorem getElem?_insert_eq (m : Std.ExtTreeMap κ υ) (k a : κ) (v : υ) :
    (m.insert k v)[a]?=if k=a then some v else m[a]? := by
  rw [Std.ExtTreeMap.getElem?_insert]
  simp only [Std.compare_eq_iff_eq]

/-- Lookup after a removal. -/
theorem getElem?_erase_eq (m : Std.ExtTreeMap κ υ) (k a : κ) :
    (m.erase k)[a]?=if k=a then none else m[a]? := by
  rw [Std.ExtTreeMap.getElem?_erase]
  simp only [Std.compare_eq_iff_eq]

omit [Std.LawfulEqOrd κ] [DecidableEq κ] in
/-- The keys of a tree are listed in strictly increasing order. -/
theorem keys_increasing [LT κ] [Std.LawfulLTOrd κ] (m : Std.ExtTreeMap κ υ) :
    (m.toList.map Prod.fst).Pairwise (·<·) := by
  refine List.pairwise_map.mpr (Std.ExtTreeMap.ordered_keys_toList.imp ?_)
  intro a b hab
  exact Std.LawfulLTCmp.eq_lt_iff_lt.mp hab

/-- An entry found after an insertion is the new one or an old one under
another key. -/
theorem getElem?_insert_eq_some {m : Std.ExtTreeMap κ υ} {k a : κ} {v w : υ} :
    (m.insert k v)[a]?=some w ↔ k=a ∧ v=w ∨ k≠a ∧ m[a]?=some w := by
  rw [getElem?_insert_eq]
  by_cases h : k=a
  · simp [h]
  · simp [h]

/-- An entry found after a removal is an old one under another key. -/
theorem getElem?_erase_eq_some {m : Std.ExtTreeMap κ υ} {k a : κ} {w : υ} :
    (m.erase k)[a]?=some w ↔ k≠a ∧ m[a]?=some w := by
  rw [getElem?_erase_eq]
  by_cases h : k=a
  · simp [h]
  · simp [h]

/-- Removing an absent key changes nothing. -/
theorem erase_of_getElem?_eq_none {m : Std.ExtTreeMap κ υ} {k : κ} (h : m[k]?=none) :
    m.erase k=m := by
  apply Std.ExtTreeMap.ext_getElem?
  intro a
  rw [getElem?_erase_eq]
  split
  · next he => rw [← he,h]
  · rfl

/-- Entries stored one after the other under their own keys leave every other
key alone. -/
theorem getElem?_foldl_insert_of_not_mem (key : υ → κ) {entries : List υ} {a : κ}
    (h : a∉entries.map key) (m : Std.ExtTreeMap κ υ) :
    (entries.foldl (fun m x => m.insert (key x) x) m)[a]?=m[a]? := by
  induction entries generalizing m with
  | nil => rfl
  | cons x rest ih =>
    simp only [List.map_cons,List.mem_cons,not_or] at h
    rw [List.foldl_cons,ih h.2,getElem?_insert_eq,if_neg (Ne.symm h.1)]

/-- Entries with distinct keys are all found under them afterwards. -/
theorem getElem?_foldl_insert_of_mem (key : υ → κ) {entries : List υ}
    (hd : (entries.map key).Nodup) {x : υ} (h : x ∈ entries) (m : Std.ExtTreeMap κ υ) :
    (entries.foldl (fun m x => m.insert (key x) x) m)[key x]?=some x := by
  induction entries generalizing m with
  | nil => simp at h
  | cons y rest ih =>
    rw [List.map_cons,List.nodup_cons] at hd
    rw [List.foldl_cons]
    rcases List.mem_cons.mp h with rfl|hr
    · rw [getElem?_foldl_insert_of_not_mem key hd.1,getElem?_insert_eq,if_pos rfl]
    · exact ih hd.2 hr _

/-- Removing entries one after the other clears exactly their keys. -/
theorem getElem?_foldl_erase {α : Type} (key : α → κ) (entries : List α) (m : Std.ExtTreeMap κ υ)
    (a : κ) : (entries.foldl (fun m x => m.erase (key x)) m)[a]?=
      if a ∈ entries.map key then none else m[a]? := by
  induction entries generalizing m with
  | nil => simp
  | cons x rest ih =>
    rw [List.foldl_cons,ih,getElem?_erase_eq]
    by_cases hx : key x=a
    · simp [hx]
    · have hxa : a≠key x := Ne.symm hx
      simp [hx,hxa]

/-- Removing entries that have just been stored under new keys restores the map. -/
theorem foldl_erase_foldl_insert (key : υ → κ) {entries : List υ} {m : Std.ExtTreeMap κ υ}
    (h : ∀ x ∈ entries,m[key x]?=none) :
    entries.foldl (fun m x => m.erase (key x))
      (entries.foldl (fun m x => m.insert (key x) x) m)=m := by
  apply Std.ExtTreeMap.ext_getElem?
  intro a
  rw [getElem?_foldl_erase]
  by_cases ha : a ∈ entries.map key
  · obtain ⟨x,hx,rfl⟩ := List.mem_map.mp ha
    rw [if_pos ha,h x hx]
  · rw [if_neg ha,getElem?_foldl_insert_of_not_mem key ha]

end OpenHost.OrderedMap
