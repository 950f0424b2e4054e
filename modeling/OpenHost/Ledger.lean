import OpenHost.OrderedMap

/-!
# Ledgers of ordered maps

What is stored in a map, and what every entry and every party answers for,
are multisets. A ledger balances if the stored part is the owned part and the
part of the parties together; names are unique if stored and announced names
together have no repetition. Both survive a step of one party as soon as the
step balances by itself.
-/

namespace OpenHost.Ledger

section Maps

variable {κ υ : Type} [Ord κ] [Std.TransOrd κ] [Std.LawfulEqOrd κ] [DecidableEq κ]

/-- The entries of a map. -/
def entries (m : Std.ExtTreeMap κ υ) : Multiset (κ×υ) := m.toList

/-- The keys of a map. -/
def keys (m : Std.ExtTreeMap κ υ) : Multiset κ := (entries m).map Prod.fst

omit [DecidableEq κ] in
/-- The entries are what lookups find. -/
theorem mem_entries {m : Std.ExtTreeMap κ υ} {k : κ} {v : υ} :
    (k,v) ∈ entries m ↔ m[k]?=some v := by
  rw [entries,Multiset.mem_coe]
  exact Std.ExtTreeMap.mem_toList_iff_getElem?_eq_some

omit [DecidableEq κ] in
/-- A key is one under which a lookup finds something. -/
theorem mem_keys {m : Std.ExtTreeMap κ υ} {k : κ} : k ∈ keys m ↔ ∃ v,m[k]?=some v := by
  rw [keys,Multiset.mem_map]
  constructor
  · rintro ⟨⟨_,v⟩,hm,rfl⟩
    exact ⟨v,mem_entries.mp hm⟩
  · rintro ⟨v,hs⟩
    exact ⟨(k,v),mem_entries.mpr hs,rfl⟩

omit [DecidableEq κ] in
/-- A key that is none finds nothing. -/
theorem getElem?_of_not_mem_keys {m : Std.ExtTreeMap κ υ} {k : κ} (h : k∉keys m) : m[k]?=none := by
  cases hs : m[k]? with
  | none => rfl
  | some v => exact (h (mem_keys.mpr ⟨v,hs⟩)).elim

omit [DecidableEq κ] in
/-- No key occurs twice. -/
theorem nodup_keys (m : Std.ExtTreeMap κ υ) : (keys m).Nodup := by
  have hlist : (m.toList.map Prod.fst).Nodup := by
    rw [List.Nodup,List.pairwise_map]
    refine Std.ExtTreeMap.distinct_keys_toList.imp ?_
    intro a b hab he
    exact hab (Std.compare_eq_iff_eq.mpr he)
  exact Multiset.coe_nodup.mpr hlist

omit [DecidableEq κ] in
/-- No entry occurs twice. -/
theorem nodup_entries (m : Std.ExtTreeMap κ υ) : (entries m).Nodup := (nodup_keys m).of_map _

omit [DecidableEq κ] in
/-- An empty map has no entries. -/
@[simp] theorem entries_empty : entries (∅ : Std.ExtTreeMap κ υ)=0 := by
  refine Multiset.eq_zero_of_forall_notMem ?_
  rintro ⟨k,v⟩ h
  have hs := mem_entries.mp h
  simp at hs

omit [DecidableEq κ] in
/-- An empty map has no keys. -/
@[simp] theorem keys_empty : keys (∅ : Std.ExtTreeMap κ υ)=0 := by
  rw [keys,entries_empty,Multiset.map_zero]

/-- An entry that is removed was one of the entries. -/
theorem entries_erase {m : Std.ExtTreeMap κ υ} {k : κ} {v : υ} (h : m[k]?=some v) :
    entries m=(k,v)::ₘentries (m.erase k) := by
  have hgone : (k,v)∉entries (m.erase k) := fun hm =>
    (OrderedMap.getElem?_erase_eq_some.mp (mem_entries.mp hm)).1 rfl
  refine ((nodup_entries m).ext (Multiset.nodup_cons.mpr ⟨hgone,nodup_entries _⟩)).mpr ?_
  rintro ⟨a,w⟩
  rw [Multiset.mem_cons,mem_entries,mem_entries,OrderedMap.getElem?_erase_eq_some]
  by_cases ha : k=a
  · subst ha
    simp [h,eq_comm]
  · simp [ha,Ne.symm ha]

/-- An entry that is stored is one of the entries, the others are those that
are left without its key. -/
theorem entries_insert (m : Std.ExtTreeMap κ υ) (k : κ) (v : υ) :
    entries (m.insert k v)=(k,v)::ₘentries (m.erase k) := by
  have hs : (m.insert k v)[k]?=some v := OrderedMap.getElem?_insert_eq_some.mpr (.inl ⟨rfl,rfl⟩)
  have he : (m.insert k v).erase k=m.erase k := by
    refine Std.ExtTreeMap.ext_getElem? fun a => ?_
    rw [OrderedMap.getElem?_erase_eq,OrderedMap.getElem?_erase_eq,OrderedMap.getElem?_insert_eq]
    split <;> rfl
  rw [entries_erase hs,he]

/-- An entry under a new key comes on top of the others. -/
theorem entries_insert_new {m : Std.ExtTreeMap κ υ} {k : κ} (h : m[k]?=none) (v : υ) :
    entries (m.insert k v)=(k,v)::ₘentries m := by
  rw [entries_insert,OrderedMap.erase_of_getElem?_eq_none h]

/-- What the entries of a map answer for together. -/
def tally {μ : Type} [AddCommMonoid μ] (f : κ×υ → μ) (m : Std.ExtTreeMap κ υ) : μ :=
  ((entries m).map f).sum

variable {μ : Type} [AddCommMonoid μ] (f : κ×υ → μ)

omit [DecidableEq κ] in
/-- An empty map answers for nothing. -/
@[simp] theorem tally_empty : tally f (∅ : Std.ExtTreeMap κ υ)=0 := by
  rw [tally,entries_empty,Multiset.map_zero,Multiset.sum_zero]

/-- What a removed entry answered for, the others do not. -/
theorem tally_erase {m : Std.ExtTreeMap κ υ} {k : κ} {v : υ} (h : m[k]?=some v) :
    tally f m=f (k,v)+tally f (m.erase k) := by
  rw [tally,entries_erase h,Multiset.map_cons,Multiset.sum_cons,tally]

/-- An entry under a new key answers for its own part. -/
theorem tally_insert_new {m : Std.ExtTreeMap κ υ} {k : κ} (h : m[k]?=none) (v : υ) :
    tally f (m.insert k v)=f (k,v)+tally f m := by
  rw [tally,entries_insert_new h,Multiset.map_cons,Multiset.sum_cons,tally]

/-- An entry that is replaced by one that answers for the same changes nothing. -/
theorem tally_replace {m : Std.ExtTreeMap κ υ} {k : κ} {v w : υ} (h : m[k]?=some v)
    (hf : f (k,w)=f (k,v)) : tally f (m.insert k w)=tally f m := by
  rw [tally_erase f h,tally,entries_insert,Multiset.map_cons,Multiset.sum_cons,hf,tally]

/-- Replacing an entry changes no key. -/
theorem keys_replace {m : Std.ExtTreeMap κ υ} {k : κ} {v : υ} (h : m[k]?=some v) (w : υ) :
    keys (m.insert k w)=keys m := by
  rw [keys,entries_insert,keys,entries_erase h,Multiset.map_cons,Multiset.map_cons]

/-- Removing an entry adds no key. -/
theorem keys_erase_le (m : Std.ExtTreeMap κ υ) (k : κ) : keys (m.erase k) ≤ keys m := by
  cases hs : m[k]? with
  | none => rw [OrderedMap.erase_of_getElem?_eq_none hs]
  | some v =>
    rw [keys,keys,entries_erase hs,Multiset.map_cons]
    exact Multiset.le_cons_self _ _

omit [DecidableEq κ] in
/-- What one entry answers for, all of them do. -/
theorem mem_tally {α : Type} {f : κ×υ → Multiset α} {m : Std.ExtTreeMap κ υ} {a : α} :
    a ∈ tally f m ↔ ∃ k v,m[k]?=some v ∧ a ∈ f (k,v) := by
  change a ∈ ((entries m).map f).join ↔ _
  rw [Multiset.mem_join]
  constructor
  · rintro ⟨part,hp,ha⟩
    obtain ⟨⟨k,v⟩,hm,rfl⟩ := Multiset.mem_map.mp hp
    exact ⟨k,v,mem_entries.mp hm,ha⟩
  · rintro ⟨k,v,hs,ha⟩
    exact ⟨_,Multiset.mem_map_of_mem f (mem_entries.mpr hs),ha⟩

/-- Entries answer for things with different names, if no name occurs twice
among the things that they all answer for. -/
theorem apart_of_nodup_tally {α β : Type} {f : κ×υ → Multiset α} (name : α → β)
    {m : Std.ExtTreeMap κ υ} (h : ((tally f m).map name).Nodup) {k j : κ} {v w : υ}
    (hk : m[k]?=some v) (hj : m[j]?=some w) (hne : k≠j) {a b : α} (ha : a ∈ f (k,v))
    (hb : b ∈ f (j,w)) : name a≠name b := by
  have hrest : (m.erase k)[j]?=some w := OrderedMap.getElem?_erase_eq_some.mpr ⟨hne,hj⟩
  rw [tally_erase f hk,Multiset.map_add,Multiset.nodup_add] at h
  intro he
  refine Multiset.disjoint_left.mp h.2.2 (Multiset.mem_map_of_mem name ha) ?_
  rw [he]
  exact Multiset.mem_map_of_mem name (mem_tally.mpr ⟨j,w,hrest,hb⟩)

/-- Entries under new distinct keys that are stored one after the other come
on top of the others. -/
theorem entries_foldl_insert (key : υ → κ) {values : List υ} {m : Std.ExtTreeMap κ υ}
    (hd : (values.map key).Nodup) (hn : ∀ v ∈ values,m[key v]?=none) :
    entries (values.foldl (fun m v => m.insert (key v) v) m)=
      (values.map fun v => (key v,v) : Multiset (κ×υ))+entries m := by
  induction values generalizing m with
  | nil => simp
  | cons v rest ih =>
    rw [List.map_cons,List.nodup_cons] at hd
    rw [List.forall_mem_cons] at hn
    have hrest : ∀ w ∈ rest,(m.insert (key v) v)[key w]?=none := by
      intro w hw
      have hne : key v≠key w := fun he => hd.1 (he ▸ List.mem_map_of_mem hw)
      rw [OrderedMap.getElem?_insert_eq,if_neg hne]
      exact hn.2 w hw
    rw [List.foldl_cons,ih hd.2 hrest,entries_insert_new hn.1,List.map_cons,← Multiset.cons_coe,
      Multiset.cons_add,Multiset.add_cons]

/-- Entries that are removed one after the other leave the others. -/
theorem entries_foldl_erase (key : υ → κ) {values : List υ} {m : Std.ExtTreeMap κ υ}
    {rest : Multiset (κ×υ)}
    (h : entries m=(values.map fun v => (key v,v) : Multiset (κ×υ))+rest) :
    entries (values.foldl (fun m v => m.erase (key v)) m)=rest := by
  induction values generalizing m with
  | nil => simpa using h
  | cons v others ih =>
    rw [List.map_cons,← Multiset.cons_coe,Multiset.cons_add] at h
    have hs : m[key v]?=some v := by
      rw [← mem_entries,h]
      exact Multiset.mem_cons_self _ _
    rw [entries_erase hs,Multiset.cons_inj_right] at h
    exact ih h

end Maps

section Parties

variable {μ β : Type} [AddCommMonoid μ]

/-- Where one of several parties moves, the sum over all parties changes by
the difference of the two places. -/
theorem sum_map_set (part : β → μ) {parties : List β} {i : ℕ} {old : β} (h : parties[i]?=some old)
    (new : β) : ((parties.set i new).map part).sum+part old=(parties.map part).sum+part new := by
  induction parties generalizing i with
  | nil => cases h
  | cons first rest ih =>
    cases i with
    | zero =>
      rw [List.getElem?_cons_zero,Option.some.injEq] at h
      subst h
      rw [List.set_cons_zero,List.map_cons,List.map_cons,List.sum_cons,List.sum_cons]
      ac_rfl
    | succ i =>
      have hrest := ih (i:=i) h
      rw [List.set_cons_succ,List.map_cons,List.map_cons,List.sum_cons,List.sum_cons,add_assoc,
        hrest,add_assoc]

/-- A party that comes adds its part. -/
theorem sum_map_append (part : β → μ) (parties : List β) (new : β) :
    ((parties++[new]).map part).sum=(parties.map part).sum+part new := by
  rw [List.map_append,List.sum_append,List.map_singleton,List.sum_singleton]

/-- What one party answers for, all of them do together. -/
theorem part_le_sum {α : Type} (part : β → Multiset α) {parties : List β} {party : β}
    (h : party ∈ parties) : part party ≤ (parties.map part).sum := by
  induction parties with
  | nil => cases h
  | cons first rest ih =>
    rw [List.map_cons,List.sum_cons]
    rcases List.mem_cons.mp h with rfl|h
    · exact Multiset.le_add_right _ _
    · exact (ih h).trans (Multiset.le_add_left _ _)

end Parties

section Steps

/-- A ledger balances behind a step that balances by itself. -/
theorem balance_step {μ : Type} [AddCancelCommMonoid μ]
    {stored stored' owned owned' parties parties' old new : μ} (h : stored=owned+parties)
    (hp : parties'+old=parties+new) (hs : stored'+owned+old=stored+owned'+new) :
    stored'=owned'+parties' := by
  refine add_right_cancel (b:=owned+old) ?_
  calc stored'+(owned+old)=stored+owned'+new := by rw [← hs,add_assoc]
    _=owned+owned'+(parties+new) := by rw [h]; ac_rfl
    _=owned'+parties'+(owned+old) := by rw [← hp]; ac_rfl

/-- Names stay unique behind a step that brings no new ones. -/
theorem nodup_step {α : Type} {stored stored' parties parties' old new : Multiset α}
    (h : (stored+parties).Nodup) (hp : parties'+old=parties+new) (hs : stored'+new ≤ stored+old) :
    (stored'+parties').Nodup := by
  refine Multiset.nodup_of_le (le_of_add_le_add_right (a:=old) ?_) h
  calc stored'+parties'+old=stored'+new+parties := by rw [add_assoc,hp]; ac_rfl
    _ ≤ stored+old+parties := by gcongr
    _=stored+parties+old := by ac_rfl

/-- Distinct names that are new can be announced. -/
theorem nodup_announce {α : Type} {stored parties names : Multiset α} (h : (stored+parties).Nodup)
    (hn : names.Nodup) (hfresh : ∀ a ∈ names,a∉stored+parties) : (stored+(parties+names)).Nodup := by
  rw [← add_assoc,Multiset.nodup_add]
  exact ⟨h,hn,Multiset.disjoint_right.mpr fun ha => hfresh _ ha⟩

end Steps

end OpenHost.Ledger
