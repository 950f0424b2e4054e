import OpenHost.Outcome

/-!
# Sequences of early returns

A routine that refuses its input by a sequence of early returns succeeds
exactly when every refusing condition is false. The rewriting rules below
turn such a routine into the conjunction of its conditions.
-/

namespace OpenHost

variable {ε ε' α β : Type}

/-- Return the error early when the condition holds. -/
def rejectIf (p : Prop) [Decidable p] (e : ε) : Except ε Unit := if p then .error e else .ok ()

/-- The value of an option, or the error when there is none. -/
def okOr (x : Option α) (e : ε) : Except ε α :=
  match x with
  | some a => .ok a
  | none => .error e

namespace Checks

@[simp] theorem okOr_eq_ok {x : Option α} {e : ε} {a : α} : okOr x e=.ok a ↔ x=some a := by
  cases x <;> simp [okOr]

@[simp] theorem rejectIf_eq_ok {p : Prop} [Decidable p] {e : ε} :
    rejectIf p e=.ok () ↔ ¬p := by
  rw [rejectIf]
  split
  · next h => simp [h]
  · next h => simp [h]

/-- A sequence succeeds exactly when both parts do. -/
@[simp] theorem bind_eq_ok {x : Except ε α} {f : α → Except ε β} {b : β} :
    (x >>= f)=.ok b ↔ ∃ a, x=.ok a ∧ f a=.ok b := by
  cases x with
  | error e => simp [bind,Except.bind]
  | ok a => simp [bind,Except.bind]

/-- A check followed by the rest succeeds exactly when both do. -/
theorem check_bind_eq_ok {x : Except ε Unit} {f : Unit → Except ε β} {b : β} :
    (x >>= f)=.ok b ↔ x=.ok () ∧ f ()=.ok b := by
  rw [bind_eq_ok]
  exact ⟨fun ⟨_,hx,hf⟩ => ⟨hx,hf⟩,fun ⟨hx,hf⟩ => ⟨(),hx,hf⟩⟩

/-- Renaming an error does not turn it into a value. -/
@[simp] theorem mapError_eq_ok {x : Except ε α} {f : ε → ε'} {a : α} :
    x.mapError f=.ok a ↔ x=.ok a := by
  cases x <;> simp [Except.mapError]

/-- A mapped result is a value exactly when the result is one. -/
@[simp] theorem map_eq_ok {x : Except ε α} {f : α → β} {b : β} :
    x.map f=.ok b ↔ ∃ a, x=.ok a ∧ f a=b := by
  cases x <;> simp [Except.map]

/-- The value of a sequence is mapped in its last part. -/
theorem map_bind {γ : Type} (x : Except ε α) (f : α → Except ε β) (g : β → γ) :
    (x >>= f).map g=x >>= fun a => (f a).map g := by
  cases x <;> rfl

/-- A sequence fails exactly when its first part does, or when that part
returns a value and the second part fails on it. -/
theorem bind_eq_error {x : Except ε α} {f : α → Except ε β} {e : ε} :
    (x >>= f)=.error e ↔ x=.error e ∨ ∃ a, x=.ok a ∧ f a=.error e := by
  cases x with
  | error e' => simp [bind,Except.bind]
  | ok a => simp [bind,Except.bind]

/-- A renamed error is the name of an error. -/
theorem mapError_eq_error {x : Except ε α} {f : ε → ε'} {e : ε'} :
    x.mapError f=.error e ↔ ∃ e', x=.error e' ∧ f e'=e := by
  cases x <;> simp [Except.mapError]

/-- An early return is the error it was given. -/
theorem rejectIf_eq_error {p : Prop} [Decidable p] {e e' : ε} :
    rejectIf p e=.error e' ↔ p ∧ e=e' := by
  rw [rejectIf]
  split
  · next h => simp [h]
  · next h => simp [h]

/-- A check of every element succeeds exactly when each element passes. -/
theorem forM_eq_ok {f : α → Except ε Unit} {xs : List α} :
    xs.forM f=.ok () ↔ ∀ x ∈ xs,f x=.ok () := by
  induction xs with
  | nil => simp [pure,Except.pure]
  | cons x rest ih =>
    change (f x >>= fun _ => rest.forM f)=.ok () ↔ _
    rw [check_bind_eq_ok,ih,List.forall_mem_cons]

/-- A traversal whose elements all fail in one way, or are mapped, fails in that
way as soon as one of them does. -/
theorem mapM_eq_ite {f : α → Except ε β} {g : α → β} {p : α → Prop} [DecidablePred p] {e : ε}
    {xs : List α} (h : ∀ x ∈ xs,f x=if p x then .ok (g x) else .error e) :
    xs.mapM f=if ∀ x ∈ xs,p x then .ok (xs.map g) else .error e := by
  induction xs with
  | nil => rfl
  | cons x rest ih =>
    rw [List.mapM_cons,h x List.mem_cons_self,ih fun y hy => h y (List.mem_cons_of_mem x hy)]
    by_cases hx : p x
    · by_cases hrest : ∀ y ∈ rest,p y
      · rw [if_pos hx,if_pos hrest,if_pos (List.forall_mem_cons.mpr ⟨hx,hrest⟩)]
        rfl
      · rw [if_pos hx,if_neg hrest,if_neg fun hall => hrest (List.forall_mem_cons.mp hall).2]
        rfl
    · rw [if_neg hx,if_neg fun hall => hx (List.forall_mem_cons.mp hall).1]
      rfl

/-- A result that is no value is an error. -/
theorem exists_error {x : Except ε α} (h : ∀ a, x≠.ok a) : ∃ e, x=.error e := by
  cases x with
  | error e => exact ⟨e,rfl⟩
  | ok a => exact (h a rfl).elim

/-- A check that does not pass is an error. -/
theorem exists_error_of_unit {x : Except ε Unit} (h : ¬x=.ok ()) : ∃ e, x=.error e :=
  exists_error fun _ => h

end Checks

end OpenHost
