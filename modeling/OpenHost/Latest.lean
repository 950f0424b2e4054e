import OpenHost.OrderedMap

/-!
# Maps that keep the latest entry of each key

Entries arrive one after another, each with a key and a rank, and an entry
replaces what is held under its key unless that has a greater rank. The map
then holds, under each key, an entry of greatest rank among all that arrived.
Where the ranks under one key are distinct there is only one such entry, so
the order of arrival does not matter.
-/

namespace OpenHost.Latest

variable {κ α ρ : Type} {key : α → κ} {rank : α → ρ}

/-- No two entries of one key have the same rank. -/
def Ranked (key : α → κ) (rank : α → ρ) (seen : List α) : Prop :=
  seen.Pairwise fun x y => key x=key y → rank x≠rank y

/-- Other entries of the key have other ranks, whichever comes first. -/
theorem rank_ne_symm {x y : α} (h : key x=key y → rank x≠rank y) (hk : key y=key x) :
    rank y≠rank x := (h hk.symm).symm

variable [LinearOrder ρ]

/-- The entry has the greatest rank among those of its key. -/
def Greatest (key : α → κ) (rank : α → ρ) (seen : List α) (k : κ) (x : α) : Prop :=
  x ∈ seen ∧ key x=k ∧ ∀ y ∈ seen,key y=k → rank y ≤ rank x

/-- The greatest entry stays the greatest when another key is seen. -/
theorem Greatest.append_of_ne {seen : List α} {k : κ} {x y : α} (h : Greatest key rank seen k x)
    (hk : key y≠k) : Greatest key rank (seen++[y]) k x := by
  refine ⟨List.mem_append_left _ h.1,h.2.1,?_⟩
  intro z hz hzk
  rcases List.mem_append.mp hz with hz|hz
  · exact h.2.2 z hz hzk
  · rw [List.mem_singleton.mp hz] at hzk
    exact absurd hzk hk

/-- Distinct ranks leave one greatest entry. -/
theorem Greatest.unique {seen : List α} (hr : Ranked key rank seen) {k : κ} {x y : α}
    (hx : Greatest key rank seen k x) (hy : Greatest key rank seen k y) : x=y := by
  have he : rank x=rank y := le_antisymm (hy.2.2 x hx.1 hx.2.1) (hx.2.2 y hy.1 hy.2.1)
  have hk : key x=key y := hx.2.1.trans hy.2.1.symm
  have hsymm : Std.Symm fun x y : α => key x=key y → rank x≠rank y := ⟨fun _ _ => rank_ne_symm⟩
  by_contra hne
  exact List.Pairwise.forall hr hx.1 hy.1 hne hk he

/-- Among the same entries the greatest is the same. -/
theorem Greatest.perm {a b : List α} (h : a.Perm b) {k : κ} {x : α}
    (hx : Greatest key rank a k x) : Greatest key rank b k x :=
  ⟨h.mem_iff.mp hx.1,hx.2.1,fun y hy => hx.2.2 y (h.mem_iff.mpr hy)⟩

section Maps

variable [Ord κ] [Std.TransOrd κ]

/-- Hold an entry unless one of greater rank is held under its key. -/
def keep (key : α → κ) (rank : α → ρ) (m : Std.ExtTreeMap κ α) (x : α) : Std.ExtTreeMap κ α :=
  if m[key x]?.any (fun held => decide (rank x<rank held))=true then m else m.insert (key x) x

/-- The map holds an entry of greatest rank under each key that was seen. -/
structure Tracks (key : α → κ) (rank : α → ρ) (m : Std.ExtTreeMap κ α) (seen : List α) : Prop where
  /-- What is held has the greatest rank. -/
  held : ∀ (k : κ) (x : α),m[k]?=some x → Greatest key rank seen k x
  /-- Nothing is held only where nothing was seen. -/
  absent : ∀ (k : κ),m[k]?=none → ∀ y ∈ seen,key y≠k

/-- The empty map is right before anything was seen. -/
theorem tracks_nil : Tracks key rank ∅ [] where
  held k x h := by simp at h
  absent k _ y hy := by simp at hy

/-- With distinct ranks an entry is held exactly when it is the greatest. -/
theorem Tracks.getElem?_eq_some {m : Std.ExtTreeMap κ α} {seen : List α}
    (h : Tracks key rank m seen) (hr : Ranked key rank seen) {k : κ} {x : α} :
    m[k]?=some x ↔ Greatest key rank seen k x := by
  constructor
  · exact h.held k x
  · intro hx
    cases hm : m[k]? with
    | none => exact absurd hx.2.1 (h.absent k hm x hx.1)
    | some y => rw [(h.held k y hm).unique hr hx]

/-- Nothing is held exactly where nothing was seen. -/
theorem Tracks.getElem?_eq_none {m : Std.ExtTreeMap κ α} {seen : List α}
    (h : Tracks key rank m seen) {k : κ} : m[k]?=none ↔ ∀ y ∈ seen,key y≠k := by
  constructor
  · exact h.absent k
  · intro hn
    by_contra hs
    obtain ⟨x,hx⟩ := Option.ne_none_iff_exists'.mp hs
    exact hn x (h.held k x hx).1 (h.held k x hx).2.1

variable [Std.LawfulEqOrd κ] [DecidableEq κ]

/-- One more entry is tracked. -/
theorem Tracks.keep {m : Std.ExtTreeMap κ α} {seen : List α} (h : Tracks key rank m seen) (x : α) :
    Tracks key rank (keep key rank m x) (seen++[x]) := by
  rw [Latest.keep]
  split
  case isTrue hc =>
    obtain ⟨y,hy,hr⟩ := (Option.any_eq_true _ _).mp hc
    have hlt : rank x<rank y := of_decide_eq_true hr
    constructor
    · intro k z hz
      by_cases hk : key x=k
      · subst hk
        rw [hy,Option.some.injEq] at hz
        subst hz
        obtain ⟨hmem,hkey,hmax⟩ := h.held _ y hy
        refine ⟨List.mem_append_left _ hmem,hkey,?_⟩
        intro w hw hwk
        rcases List.mem_append.mp hw with hw|hw
        · exact hmax w hw hwk
        · rw [List.mem_singleton.mp hw]
          exact hlt.le
      · exact (h.held k z hz).append_of_ne hk
    · intro k hk z hz
      rcases List.mem_append.mp hz with hz|hz
      · exact h.absent k hk z hz
      · rintro rfl
        rw [List.mem_singleton.mp hz,hy] at hk
        cases hk
  case isFalse hc =>
    have hle : ∀ y,m[key x]?=some y → rank y ≤ rank x := by
      intro y hy
      rw [hy,Option.any_some,decide_eq_true_eq,not_lt] at hc
      exact hc
    constructor
    · intro k z hz
      rcases OrderedMap.getElem?_insert_eq_some.mp hz with ⟨rfl,rfl⟩|⟨hk,hz⟩
      · refine ⟨by simp,rfl,?_⟩
        intro w hw hwk
        rcases List.mem_append.mp hw with hw|hw
        · cases hm : m[key x]? with
          | none => exact absurd hwk (h.absent _ hm w hw)
          | some y => exact ((h.held _ y hm).2.2 w hw hwk).trans (hle y hm)
        · rw [List.mem_singleton.mp hw]
      · exact (h.held k z hz).append_of_ne hk
    · intro k hk z hz
      rw [OrderedMap.getElem?_insert_eq] at hk
      split at hk
      · cases hk
      · next hne =>
        rcases List.mem_append.mp hz with hz|hz
        · exact h.absent k hk z hz
        · rwa [List.mem_singleton.mp hz]

/-- Any number of entries is tracked. -/
theorem Tracks.foldl {m : Std.ExtTreeMap κ α} {seen : List α} (h : Tracks key rank m seen)
    (entries : List α) :
    Tracks key rank (entries.foldl (Latest.keep key rank) m) (seen++entries) := by
  induction entries generalizing m seen with
  | nil => simpa using h
  | cons x rest ih =>
    have hx := ih (h.keep x)
    rwa [List.append_assoc,List.singleton_append] at hx

/-- What arrives at an empty map is tracked. -/
theorem tracks_foldl (entries : List α) :
    Tracks key rank (entries.foldl (keep key rank) ∅) entries := by
  have h : Tracks key rank (entries.foldl (keep key rank) ∅) ([]++entries) :=
    tracks_nil.foldl entries
  rwa [List.nil_append] at h

/-- With distinct ranks the order of arrival does not matter. -/
theorem foldl_keep_perm {a b : List α} (h : a.Perm b) (hr : Ranked key rank a) :
    a.foldl (keep key rank) ∅=b.foldl (keep key rank) ∅ := by
  have hb : Ranked key rank b := h.pairwise hr rank_ne_symm
  apply Std.ExtTreeMap.ext_getElem?
  intro k
  apply Option.ext
  intro x
  rw [(tracks_foldl a).getElem?_eq_some hr,(tracks_foldl b).getElem?_eq_some hb]
  exact ⟨fun hx => hx.perm h,fun hx => hx.perm h.symm⟩

end Maps

end OpenHost.Latest
