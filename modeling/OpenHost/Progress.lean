import OpenHost.Transition

/-!
# Runs that come to an end

A system whose allowed steps all leave less work behind takes only so many of
them, so every run can be continued to a state in which no allowed step is
left. Where a state that is not final always has an allowed step, that state
is final.
-/

namespace OpenHost.Progress

open Transition

variable {σ α : Type}

/-- A run along a sequence of labels. -/
def Path (step : σ → α → σ → Prop) (allowed : σ → α → Prop) : List α → σ → σ → Prop
  | [],s,t => s=t
  | a::rest,s,t => ∃ u,allowed s a ∧ step s a u ∧ Path step allowed rest u t

/-- A run along labels passes a state. -/
def Passes (step : σ → α → σ → Prop) (allowed : σ → α → Prop) (labels : List α) (s t u : σ) : Prop :=
  ∃ before after,labels=before++after ∧ Path step allowed before s u ∧ Path step allowed after u t

/-- Every allowed step keeps an invariant and leaves less work behind. -/
structure Shrinks (step : σ → α → σ → Prop) (allowed : σ → α → Prop) (I : σ → Prop)
    (work : σ → ℕ) : Prop where
  /-- The invariant is kept. -/
  keeps : ∀ s a t,I s → allowed s a → step s a t → I t
  /-- There is less work behind a step. -/
  less : ∀ s a t,I s → allowed s a → step s a t → work t<work s

variable {step : σ → α → σ → Prop} {allowed : σ → α → Prop} {I : σ → Prop} {work : σ → ℕ}

/-- A run along labels is a run. -/
theorem Path.reaches {labels : List α} {s t : σ} (h : Path step allowed labels s t) :
    Reaches step allowed s t := by
  induction labels generalizing s with
  | nil =>
    cases h
    exact .refl
  | cons a rest ih =>
    obtain ⟨u,ha,hstep,hrest⟩ := h
    exact .head ⟨a,ha,hstep⟩ (ih hrest)

/-- A run passes the state that it starts from. -/
theorem Path.passes_start {labels : List α} {s t : σ} (h : Path step allowed labels s t) :
    Passes step allowed labels s t s := ⟨[],labels,rfl,rfl,h⟩

/-- A run passes the state that it ends in. -/
theorem Path.passes_end {labels : List α} {s t : σ} (h : Path step allowed labels s t) :
    Passes step allowed labels s t t := ⟨labels,[],(List.append_nil labels).symm,h,rfl⟩

/-- A run passes what it passes behind its first step. -/
theorem Passes.cons {labels : List α} {a : α} {r s t u : σ} (ha : allowed r a) (hstep : step r a s)
    (h : Passes step allowed labels s t u) : Passes step allowed (a::labels) r t u := by
  obtain ⟨before,after,rfl,hbefore,hafter⟩ := h
  exact ⟨a::before,after,rfl,⟨s,ha,hstep,hbefore⟩,hafter⟩

/-- A run takes at most as many steps as there is work in front of it. -/
theorem Shrinks.length_le (hw : Shrinks step allowed I work) {labels : List α} {s t : σ}
    (h : Path step allowed labels s t) (hs : I s) : labels.length+work t ≤ work s := by
  induction labels generalizing s with
  | nil =>
    cases h
    simp
  | cons a rest ih =>
    obtain ⟨u,ha,hstep,hrest⟩ := h
    have hless := hw.less s a u hs ha hstep
    have hle := ih hrest (hw.keeps s a u hs ha hstep)
    rw [List.length_cons]
    omega

/-- Every state leads to one that is final, if only final states are without
an allowed step. -/
theorem Shrinks.exists_final (hw : Shrinks step allowed I work) {final : σ → Prop}
    (hprogress : ∀ s,I s → final s ∨ ∃ a t,allowed s a ∧ step s a t) {s : σ} (hs : I s) :
    ∃ t,Reaches step allowed s t ∧ final t := by
  induction hn : work s using Nat.strong_induction_on generalizing s with
  | _ n ih =>
    rcases hprogress s hs with hfinal|⟨a,t,ha,hstep⟩
    · exact ⟨s,.refl,hfinal⟩
    · have hless := hw.less s a t hs ha hstep
      obtain ⟨u,hreach,hfinal⟩ := ih (work t) (hn ▸ hless) (hw.keeps s a t hs ha hstep) rfl
      exact ⟨u,.head ⟨a,ha,hstep⟩ hreach,hfinal⟩

end OpenHost.Progress
