import Mathlib

/-!
# Computations that return a value, return an error, or panic

A fallible routine has three ways to end. It hands back a value, it hands
back an error that its caller may inspect, or it unwinds. The third end is
kept apart from the second, so that a proof that a routine returns an error
cannot be discharged by a routine that never returns at all.
-/

namespace OpenHost

/-- The three ways in which a fallible routine can end. -/
inductive Outcome (ε α : Type) where
  /-- Normal return of a value. -/
  | ok (value : α)
  /-- Normal return of an error. -/
  | err (error : ε)
  /-- The routine unwound and returned nothing. -/
  | panic
  deriving DecidableEq

variable {ε ε' α β γ : Type}

namespace Outcome

/-- Continue after a value; an error or a panic ends the whole sequence. -/
def bind (x : Outcome ε α) (f : α → Outcome ε β) : Outcome ε β :=
  match x with
  | ok a => f a
  | err e => err e
  | panic => panic

instance : Monad (Outcome ε) where
  pure := ok
  bind := bind

instance : LawfulMonad (Outcome ε) :=
  LawfulMonad.mk' _
    (fun x => by cases x <;> rfl)
    (fun _ _ => rfl)
    (fun x _ _ => by cases x <;> rfl)

/-- A plain result has no third end. -/
def ofExcept : Except ε α → Outcome ε α
  | .ok a => ok a
  | .error e => err e

instance : MonadLift (Except ε) (Outcome ε) where
  monadLift := ofExcept

/-- Replace the error of a routine, leaving values and panics alone. -/
def mapErr (f : ε → ε') : Outcome ε α → Outcome ε' α
  | ok a => ok a
  | err e => err (f e)
  | panic => panic

@[simp] theorem pure_eq (a : α) : (pure a : Outcome ε α)=ok a := rfl

@[simp] theorem ok_bind (a : α) (f : α → Outcome ε β) : (ok a >>= f)=f a := rfl

@[simp] theorem err_bind (e : ε) (f : α → Outcome ε β) : (err e >>= f)=err e := rfl

@[simp] theorem panic_bind (f : α → Outcome ε β) : ((panic : Outcome ε α) >>= f)=panic := rfl

@[simp] theorem ofExcept_ok (a : α) : (ofExcept (.ok a) : Outcome ε α)=ok a := rfl

@[simp] theorem ofExcept_error (e : ε) : (ofExcept (.error e) : Outcome ε α)=err e := rfl

@[simp] theorem monadLift_eq (x : Except ε α) : (monadLift x : Outcome ε α)=ofExcept x := rfl

@[simp] theorem mapErr_ok (f : ε → ε') (a : α) : mapErr f (ok a : Outcome ε α)=ok a := rfl

@[simp] theorem mapErr_err (f : ε → ε') (e : ε) : mapErr f (err e : Outcome ε α)=err (f e) := rfl

@[simp] theorem mapErr_panic (f : ε → ε') : mapErr f (panic : Outcome ε α)=panic := rfl


/-- A sequence returns a value exactly when both of its parts do. -/
theorem bind_eq_ok {x : Outcome ε α} {f : α → Outcome ε β} {b : β} :
    (x >>= f)=ok b ↔ ∃ a, x=ok a ∧ f a=ok b := by
  cases x with
  | ok a => simp
  | err e => simp
  | panic => simp

/-- A sequence panics exactly when its first part does, or when that part
returns a value and the second part panics on it. -/
theorem bind_eq_panic {x : Outcome ε α} {f : α → Outcome ε β} :
    (x >>= f)=panic ↔ x=panic ∨ ∃ a, x=ok a ∧ f a=panic := by
  cases x with
  | ok a => simp
  | err e => simp
  | panic => simp

/-- Replacing errors neither hides nor makes a panic. -/
theorem mapErr_eq_panic {f : ε → ε'} {x : Outcome ε α} : mapErr f x=panic ↔ x=panic := by
  cases x with
  | ok a => simp
  | err e => simp
  | panic => simp

/-- Only a returned value of the plain result becomes a value. -/
theorem ofExcept_eq_ok {x : Except ε α} {a : α} : ofExcept x=ok a ↔ x=.ok a := by
  cases x <;> simp [ofExcept]

/-- A plain result never unwinds. -/
@[simp] theorem ofExcept_ne_panic (x : Except ε α) : ofExcept x≠panic := by
  cases x <;> simp [ofExcept]

end Outcome

end OpenHost
