import Mathlib.Data.List.Basic
import Mathlib.Tactic.Common

/-!
# Splitting a text at its last separator, and decimal numbers

A list is split at the last occurrence of a separator, and a decimal number is
read digit by digit and given up as soon as it reaches a bound. Both are
described without their recursion: the parts are the only ones with no
separator in the second, and the number is the value of its digits.
-/

namespace TextParsing

section Splitting

variable {α : Type} [DecidableEq α] {separator : α} {text before after : List α}

/-- Split a list at the last occurrence of the separator. -/
def rsplitOnce (separator : α) : List α → Option (List α × List α)
  | [] => none
  | x::rest =>
    match rsplitOnce separator rest with
    | some (before,after) => some (x::before,after)
    | none => if x=separator then some ([],rest) else none

/-- A list is split exactly if it has a separator. -/
theorem rsplitOnce_eq_none_iff : rsplitOnce separator text=none ↔ separator ∉ text := by
  induction text with
  | nil => simp [rsplitOnce]
  | cons x rest ih =>
    rw [rsplitOnce,List.mem_cons,not_or,← ih]
    cases hr : rsplitOnce separator rest with
    | some parts => simp
    | none =>
      dsimp only
      split
      · next hx => simp [hx]
      · next hx => simp [Ne.symm hx]

/-- A list is split at a separator behind which there is no other. -/
theorem rsplitOnce_append (before : List α) (h : separator ∉ after) :
    rsplitOnce separator (before++separator::after)=some (before,after) := by
  induction before with
  | nil =>
    rw [List.nil_append,rsplitOnce,rsplitOnce_eq_none_iff.mpr h]
    exact if_pos rfl
  | cons x before ih => rw [List.cons_append,rsplitOnce,ih]

/-- The parts make up the list, and there is no separator in the second one. -/
theorem rsplitOnce_eq_some_iff : rsplitOnce separator text=some (before,after) ↔
    text=before++separator::after ∧ separator ∉ after := by
  constructor
  swap
  · rintro ⟨rfl,h⟩
    exact rsplitOnce_append before h
  induction text generalizing before with
  | nil => nofun
  | cons x rest ih =>
    intro h
    rw [rsplitOnce] at h
    cases hr : rsplitOnce separator rest with
    | some parts =>
      rw [hr] at h
      cases h
      obtain ⟨rfl,hn⟩ := ih hr
      exact ⟨rfl,hn⟩
    | none =>
      rw [hr] at h
      dsimp only at h
      split at h
      · next hx =>
        cases h
        exact ⟨by rw [hx,List.nil_append],rsplitOnce_eq_none_iff.mp hr⟩
      · cases h

end Splitting

section Decimal

/-- Read digits behind a number; none at any other character, or as soon as
the number reaches the bound. -/
def decimalBelow (bound : ℕ) : List Char → ℕ → Option ℕ
  | [],value => some value
  | c::rest,value =>
    if c.isDigit ∧ 10*value+(c.toNat - '0'.toNat)<bound then
      decimalBelow bound rest (10*value+(c.toNat - '0'.toNat))
    else none

/-- Digits behind a number do not make it smaller. -/
theorem le_ofDigitChars (text : List Char) (value : ℕ) :
    value ≤ Nat.ofDigitChars 10 text value := by
  induction text generalizing value with
  | nil => exact Nat.le_of_eq Nat.ofDigitChars_nil.symm
  | cons c rest ih =>
    rw [Nat.ofDigitChars_cons]
    have hrest := ih (10*value+(c.toNat - '0'.toNat))
    omega

/-- Exactly the digits of a number below the bound are read, as this number. -/
theorem decimalBelow_eq_some_iff {bound value number : ℕ} {text : List Char} (h : value<bound) :
    decimalBelow bound text value=some number ↔ (∀ c ∈ text,c.isDigit=true) ∧
      Nat.ofDigitChars 10 text value=number ∧ number<bound := by
  induction text generalizing value with
  | nil =>
    rw [decimalBelow,Nat.ofDigitChars_nil,Option.some.injEq]
    constructor
    · rintro rfl
      exact ⟨nofun,rfl,h⟩
    · exact fun hn => hn.2.1
  | cons c rest ih =>
    rw [decimalBelow,Nat.ofDigitChars_cons,List.forall_mem_cons]
    split
    · next hc => rw [ih hc.2,and_iff_right hc.1]
    · next hc =>
      refine iff_of_false nofun ?_
      rintro ⟨⟨hd,_⟩,rfl,hlt⟩
      exact hc ⟨hd,Nat.lt_of_le_of_lt (le_ofDigitChars rest _) hlt⟩

/-- A number below the bound is read back from its digits. -/
theorem decimalBelow_toDigits {bound number : ℕ} (h : number<bound) :
    decimalBelow bound (Nat.toDigits 10 number) 0=some number :=
  (decimalBelow_eq_some_iff (by omega)).mpr
    ⟨fun _ hc => Nat.isDigit_of_mem_toDigits (by decide) (by decide) hc,
      Nat.ofDigitChars_ten_toDigits,h⟩

end Decimal

end TextParsing
