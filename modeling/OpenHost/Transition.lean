import Mathlib

/-!
# Runs of labelled transition systems

A run takes labelled steps, each of them allowed in the state where it is
taken. What every allowed step keeps, every run keeps; and a property holds
at the end of every run from a state exactly when the state satisfies the
largest inductive condition that implies it.
-/

namespace OpenHost.Transition

variable {σ α : Type} {step : σ → α → σ → Prop} {allowed : σ → α → Prop}

/-- One allowed step under some label. -/
def Moves (step : σ → α → σ → Prop) (allowed : σ → α → Prop) (s t : σ) : Prop :=
  ∃ a,allowed s a ∧ step s a t

/-- Any number of allowed steps. -/
abbrev Reaches (step : σ → α → σ → Prop) (allowed : σ → α → Prop) : σ → σ → Prop :=
  Relation.ReflTransGen (Moves step allowed)

/-- What every allowed step keeps, a run keeps. -/
theorem Reaches.invariant {I : σ → Prop}
    (keeps : ∀ s a t,I s → allowed s a → step s a t → I t) {s t : σ}
    (h : Reaches step allowed s t) (hs : I s) : I t := by
  induction h with
  | refl => exact hs
  | tail _ hmove ih =>
    obtain ⟨a,ha,hstep⟩ := hmove
    exact keeps _ a _ ih ha hstep

/-- A run under a stricter condition is a run. -/
theorem Reaches.weaken {stricter : σ → α → Prop} (hw : ∀ s a,stricter s a → allowed s a) {s t : σ}
    (h : Reaches step stricter s t) : Reaches step allowed s t := by
  refine Relation.ReflTransGen.mono ?_ s t h
  intro u v hmove
  obtain ⟨a,ha,hstep⟩ := hmove
  exact ⟨a,hw u a ha,hstep⟩

/-- A property survives every run exactly when an inductive condition holds
that implies it and whose failure leads to a failure of the property. -/
theorem forever_iff {P I : σ → Prop} (keeps : ∀ s a t,I s → allowed s a → step s a t → I t)
    (safe : ∀ s,I s → P s) {s : σ}
    (escape : ¬I s → ∃ t,Reaches step allowed s t ∧ ¬P t) :
    (∀ t,Reaches step allowed s t → P t) ↔ I s := by
  constructor
  · intro hall
    by_contra hn
    obtain ⟨t,ht,hp⟩ := escape hn
    exact hp (hall t ht)
  · intro hs t ht
    exact safe t (ht.invariant keeps hs)

end OpenHost.Transition
