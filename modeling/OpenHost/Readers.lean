import OpenHost.Progress

/-!
# Readers of a state that grows

A number of readers ask one question each of a shared state, every one at a
moment of its own, while others change the state. If the state only grows and
certain answers stay what they are as it does, then all that the readers have
learned could have been learned from one state that the run has passed: the
last one if every answer is good, and else the one that gave the first bad
answer.
-/

namespace OpenHost.Readers

open Progress

variable {σ α γ β : Type}

/-- A shared state, and the questions with their answers so far. -/
structure Reading (σ γ β : Type) where
  /-- The state that the readers share. -/
  shared : σ
  /-- What each reader asks, and what it was answered. -/
  readers : List (γ×Option β)

/-- What moves next. -/
inductive Event (α : Type) where
  /-- The shared state changes. -/
  | change (label : α)
  /-- One of the readers asks. -/
  | ask (i : ℕ)

/-- The reader has not asked yet. -/
def Reading.Waits (s : Reading σ γ β) (j : ℕ) (q : γ) : Prop := s.readers[j]?=some (q,none)

/-- The reader was given the answer. -/
def Reading.Answered (s : Reading σ γ β) (j : ℕ) (q : γ) (b : β) : Prop :=
  s.readers[j]?=some (q,some b)

/-- Nobody has asked yet. -/
def start (shared : σ) (questions : List γ) : Reading σ γ β :=
  ⟨shared,questions.map fun q => (q,none)⟩

/-- One step, with what a change does and what a question is answered. -/
inductive Step (change : σ → α → σ) (answer : γ → σ → β) :
    Reading σ γ β → Event α → Reading σ γ β → Prop where
  | change {shared readers} (label : α) : Step change answer ⟨shared,readers⟩ (.change label)
    ⟨change shared label,readers⟩
  | ask {shared readers} {i : ℕ} {q : γ} : readers[i]?=some (q,none) →
    Step change answer ⟨shared,readers⟩ (.ask i)
      ⟨shared,readers.set i (q,some (answer q shared))⟩

/-- The step is an answer, or a change of the kind. -/
def OfKind (kind : α → Prop) (_ : Reading σ γ β) (e : Event α) : Prop :=
  ∀ label,e=.change label → kind label

/-- A run along events, with changes of one kind only. -/
abbrev Run (change : σ → α → σ) (answer : γ → σ → β) (kind : α → Prop) :
    List (Event α) → Reading σ γ β → Reading σ γ β → Prop :=
  Path (Step change answer) (OfKind kind)

/-- Such a run passes a state. -/
abbrev Passes (change : σ → α → σ) (answer : γ → σ → β) (kind : α → Prop) :
    List (Event α) → Reading σ γ β → Reading σ γ β → Reading σ γ β → Prop :=
  Progress.Passes (Step change answer) (OfKind kind)

section Runs

variable {change : σ → α → σ} {answer : γ → σ → β} {kind : α → Prop} {s t u : Reading σ γ β}
  {events : List (Event α)}

/-- A step gives at most one reader its answer. -/
theorem Step.readers {e : Event α} (h : Step change answer s e t) (j : ℕ) :
    t.readers[j]?=s.readers[j]? ∨ ∃ q,s.Waits j q ∧ t.Answered j q (answer q s.shared) := by
  cases h with
  | change label => exact Or.inl rfl
  | @ask shared readers i q hi =>
    by_cases hij : i=j
    · subst hij
      obtain ⟨hlt,_⟩ := List.getElem?_eq_some_iff.mp hi
      exact Or.inr ⟨q,hi,List.getElem?_set_self hlt⟩
    · exact Or.inl (List.getElem?_set_ne hij)

/-- A reader keeps its answer. -/
theorem answer_kept (h : Run change answer kind events s t) {j : ℕ} {q : γ} {b : β}
    (hs : s.Answered j q b) : t.Answered j q b := by
  refine h.reaches.invariant (I:=fun u => u.Answered j q b) ?_ hs
  intro u e v hu _ hstep
  rcases hstep.readers j with hsame|⟨q',hq,_⟩
  · exact hsame.trans hu
  · rw [Reading.Waits,hu] at hq
    cases hq

/-- A reader that waits goes on waiting, or is answered by a state that the
run passes. -/
theorem answered_on_the_way (h : Run change answer kind events s t) {j : ℕ} {q : γ}
    (hs : s.Waits j q) : t.Waits j q ∨
      ∃ u,Passes change answer kind events s t u ∧ t.Answered j q (answer q u.shared) := by
  induction events generalizing s with
  | nil =>
    cases h
    exact Or.inl hs
  | cons e rest ih =>
    obtain ⟨v,ha,hstep,hrest⟩ := h
    rcases hstep.readers j with hsame|⟨q',hq,hv⟩
    · rcases ih hrest (hsame.trans hs) with hwaits|⟨u,hu,ht⟩
      · exact Or.inl hwaits
      · exact Or.inr ⟨u,hu.cons ha hstep,ht⟩
    · rw [Reading.Waits,hs] at hq
      cases hq
      have hrun : Run change answer kind (e::rest) s t := ⟨v,ha,hstep,hrest⟩
      exact Or.inr ⟨s,hrun.passes_start,answer_kept hrest hv⟩

/-- All answers given so far are good. -/
def Good (good : γ → β → Prop) (s : Reading σ γ β) : Prop :=
  ∀ j q b,s.Answered j q b → good q b

/-- All answers are good, or the run passes a state behind good answers alone
that would give a bad one. -/
theorem first_bad (h : Run change answer kind events s t) {good : γ → β → Prop}
    (hs : Good good s) : Good good t ∨ ∃ (u : Reading σ γ β) (i : ℕ) (q : γ),
      Passes change answer kind events s t u ∧ Good good u ∧ u.Waits i q ∧
      ¬good q (answer q u.shared) := by
  induction events generalizing s with
  | nil =>
    cases h
    exact Or.inl hs
  | cons e rest ih =>
    obtain ⟨v,ha,hstep,hrest⟩ := h
    by_cases hbad : ∃ i q,s.Waits i q ∧ ¬good q (answer q s.shared)
    · obtain ⟨i,q,hi,hq⟩ := hbad
      have hrun : Run change answer kind (e::rest) s t := ⟨v,ha,hstep,hrest⟩
      exact Or.inr ⟨s,i,q,hrun.passes_start,hs,hi,hq⟩
    have hv : Good good v := by
      intro j q b hj
      rcases hstep.readers j with hsame|⟨q',hq,hw⟩
      · exact hs j q b (hsame.symm.trans hj)
      · rw [Reading.Answered,hj] at hw
        cases hw
        exact not_not.mp fun hn => hbad ⟨j,q,hq,hn⟩
    rcases ih hrest hv with hgood|⟨u,i,q,hu,hrest⟩
    · exact Or.inl hgood
    · exact Or.inr ⟨u,i,q,hu.cons ha hstep,hrest⟩

/-- What every change of the kind lets grow, has grown along a run. -/
theorem grown {r : σ → σ → Prop} (hrefl : ∀ x,r x x) (htrans : ∀ x y z,r x y → r y z → r x z)
    (hgrows : ∀ x label,kind label → r x (change x label))
    (h : Run change answer kind events s t) : r s.shared t.shared := by
  refine h.reaches.invariant (I:=fun u => r s.shared u.shared) ?_ (hrefl _)
  intro u e v hu ha hstep
  refine htrans _ _ _ hu ?_
  cases hstep with
  | change label => exact hgrows _ _ (ha label rfl)
  | ask _ => exact hrefl _

/-- At the start nobody has an answer. -/
theorem waits_of_start {shared : σ} {questions : List γ} {j : ℕ} {q : γ} {a : Option β}
    (h : (start shared questions : Reading σ γ β).readers[j]?=some (q,a)) :
    (start shared questions : Reading σ γ β).Waits j q := by
  have hnone : a=none := by
    rw [start,List.getElem?_map,Option.map_eq_some_iff] at h
    obtain ⟨q',_,he⟩ := h
    exact (congrArg Prod.snd he).symm
  rw [Reading.Waits,← hnone,h]

/-- What a reader asks is its question. -/
theorem question_of_waits {shared : σ} {questions : List γ} {j : ℕ} {q : γ}
    (h : (start shared questions : Reading σ γ β).Waits j q) : questions[j]?=some q := by
  rw [Reading.Waits,start,List.getElem?_map,Option.map_eq_some_iff] at h
  obtain ⟨q',hq,he⟩ := h
  obtain rfl : q'=q := congrArg Prod.fst he
  exact hq

/-- Readers neither come nor go, and each keeps its question. -/
theorem questions_kept (h : Run change answer kind events s t) :
    t.readers.map Prod.fst=s.readers.map Prod.fst := by
  refine h.reaches.invariant (I:=fun u => u.readers.map Prod.fst=s.readers.map Prod.fst) ?_ rfl
  intro u e v hu _ hstep
  rw [← hu]
  refine List.ext_getElem? fun j => ?_
  rw [List.getElem?_map,List.getElem?_map]
  rcases hstep.readers j with hsame|⟨q,hq,hv⟩
  · rw [hsame]
  · rw [Reading.Waits] at hq
    rw [Reading.Answered] at hv
    rw [hq,hv]
    rfl

/-- Along a run, a reader asks what it was given at the start. -/
theorem waits_of_run {shared : σ} {questions : List γ} {j : ℕ} {q : γ} {a : Option β}
    (h : Run change answer kind events (start shared questions) t)
    (ht : t.readers[j]?=some (q,a)) : (start shared questions : Reading σ γ β).Waits j q := by
  have hq := congrArg (fun names => names[j]?) (questions_kept h)
  simp only [List.getElem?_map,ht,Option.map_some] at hq
  obtain ⟨⟨q',a'⟩,hasked,hsame⟩ := Option.map_eq_some_iff.mp hq.symm
  obtain rfl : q'=q := hsame
  exact waits_of_start hasked

end Runs

section Growing

/-- The state grows, certain answers stay as it does, and good ones are among
them. -/
structure Growing (change : σ → α → σ) (answer : γ → σ → β) (kind : α → Prop)
    (r : σ → σ → Prop) (lasting good : γ → β → Prop) : Prop where
  /-- Every state has grown from itself. -/
  refl : ∀ x,r x x
  /-- What has grown from what has grown has grown. -/
  trans : ∀ x y z,r x y → r y z → r x z
  /-- Changes of the kind let the state grow. -/
  grows : ∀ x label,kind label → r x (change x label)
  /-- A lasting answer stays what it is. -/
  stays : ∀ x y q,r x y → lasting q (answer q x) → answer q y=answer q x
  /-- A good answer lasts. -/
  lasts : ∀ q b,good q b → lasting q b

variable {change : σ → α → σ} {answer : γ → σ → β} {kind : α → Prop} {r : σ → σ → Prop}
  {lasting good : γ → β → Prop} {shared : σ} {questions : List γ} {s t : Reading σ γ β}
  {events : List (Event α)}

/-- Along a run lasting answers stay. -/
theorem Growing.answer_eq (hg : Growing change answer kind r lasting good)
    (h : Run change answer kind events s t) {q : γ} (hl : lasting q (answer q s.shared)) :
    answer q t.shared=answer q s.shared :=
  hg.stays _ _ q (grown hg.refl hg.trans hg.grows h) hl

/-- A lasting answer is what the state answers in the end. -/
theorem Growing.answer_of_lasting (hg : Growing change answer kind r lasting good)
    (h : Run change answer kind events (start shared questions) t) {j : ℕ} {q : γ} {b : β}
    (ht : t.Answered j q b) (hl : lasting q b) : answer q t.shared=b := by
  rcases answered_on_the_way h (waits_of_run h ht) with hwaits|⟨v,⟨_,_,_,_,hvt⟩,hv⟩
  · rw [Reading.Waits,ht] at hwaits
    cases hwaits
  · rw [Reading.Answered,ht] at hv
    cases hv
    exact hg.answer_eq hvt hl

/-- Either all answers are good, or the run passes a state that gives one of
the readers a bad answer, and whatever lasting answer it gives to a reader is
the one that was given. -/
theorem Growing.explained (hg : Growing change answer kind r lasting good)
    (h : Run change answer kind events (start shared questions) t) :
    Good good t ∨ ∃ (u : Reading σ γ β) (i : ℕ) (q : γ),
      Passes change answer kind events (start shared questions) t u ∧
      (start shared questions : Reading σ γ β).Waits i q ∧ ¬good q (answer q u.shared) ∧
      ∀ j q b,t.Answered j q b → lasting q (answer q u.shared) → b=answer q u.shared := by
  have hstart : Good good (start shared questions : Reading σ γ β) := by
    intro j q b hj
    have hwaits := waits_of_start hj
    rw [Reading.Waits,hj] at hwaits
    cases hwaits
  rcases first_bad h hstart with hgood|⟨u,i,q,hpasses,hgood,hi,hbad⟩
  · exact Or.inl hgood
  obtain ⟨before,after,hsplit,hu,hut⟩ := hpasses
  refine Or.inr ⟨u,i,q,⟨before,after,hsplit,hu,hut⟩,waits_of_run hu hi,hbad,
    fun j q b hj hl => ?_⟩
  rcases answered_on_the_way hu (waits_of_run h hj) with hwaits|⟨w,_,hw⟩
  · rcases answered_on_the_way hut hwaits with hwaits|⟨v,⟨_,_,_,huv,_⟩,hv⟩
    · rw [Reading.Waits,hj] at hwaits
      cases hwaits
    · rw [Reading.Answered,hj] at hv
      cases hv
      exact hg.answer_eq huv hl
  · have hkept := answer_kept hut hw
    rw [Reading.Answered,hj] at hkept
    cases hkept
    exact (hg.answer_of_lasting hu hw (hg.lasts _ _ (hgood _ _ _ hw))).symm

end Growing

end OpenHost.Readers
