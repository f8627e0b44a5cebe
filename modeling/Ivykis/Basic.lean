import Mathlib.Order.WithBot
import Mathlib.Tactic.Linarith

/-!
# Shared vocabulary

The ways in which a library call can end other than by returning, machine integers, and
`struct timespec` with the comparison that all of the library uses for it.
-/

namespace Ivykis

/-- How a call ends when it does not return: in `iv_fatal`, in behaviour that C leaves
undefined, or never. -/
inductive Fault where
  /-- `iv_fatal` with this message. -/
  | fatal (msg : String)
  /-- A null, freed or wrongly typed pointer is followed. -/
  | invalidAccess
  /-- `free` of something that is not an allocated object. -/
  | invalidFree
  /-- A shift by at least the width of `int`, or one that leaves its range. -/
  | undefinedShift
  /-- Signed arithmetic leaves the range of `int`. -/
  | intOverflow
  /-- A loop has not ended within its bound. -/
  | stuck
  deriving DecidableEq, Repr

section Except

variable {ε α β : Type}

@[simp] lemma ok_bind (a : α) (f : α → Except ε β) : (Except.ok a >>= f) = f a := rfl

@[simp] lemma error_bind (e : ε) (f : α → Except ε β) :
    ((Except.error e : Except ε α) >>= f) = .error e := rfl

lemma bind_eq_ok {x : Except ε α} {f : α → Except ε β} {b : β} :
    (x >>= f) = .ok b ↔ ∃ a, x = .ok a ∧ f a = .ok b := by
  cases x with
  | error e => simp
  | ok a => simp

lemma toOption_eq_some {x : Except ε α} {a : α} : x.toOption = some a ↔ x = .ok a := by
  cases x <;> simp [Except.toOption]

/-- The fault that a call ends in. -/
def faultOf {α : Type} : Except Fault α → Option Fault
  | .ok _    => none
  | .error e => some e

lemma faultOf_eq_some {α : Type} {x : Except Fault α} {e : Fault} :
    faultOf x = some e ↔ x = .error e := by
  cases x <;> simp [faultOf]

end Except

/-- A thread. -/
abbrev ThreadId := ℕ

/-! ### Machine integers -/

/-- `INT_MAX`, with a 32 bit `int`. -/
def intMax : ℕ := 2 ^ 31 - 1

/-- The result of signed arithmetic on non-negative values. -/
def checkInt (n : ℕ) : Except Fault ℕ :=
  if n ≤ intMax then .ok n else .error .intOverflow

/-- `n >> k` for a non-negative `int`. -/
def shiftRight (n k : ℕ) : Except Fault ℕ :=
  if k < 32 then .ok (n >>> k) else .error .undefinedShift

/-- `1 << k` for `int`. -/
def shiftLeftOne (k : ℕ) : Except Fault ℕ :=
  if k < 31 then .ok (1 <<< k) else .error .undefinedShift

/-! ### `struct timespec` -/

structure Timespec where
  tvSec  : ℤ
  tvNsec : ℤ
  deriving DecidableEq, Repr

/-- `timespec_gt`. -/
def timespecGt (a b : Timespec) : Bool :=
  decide (a.tvSec > b.tvSec) || (decide (a.tvSec = b.tvSec) && decide (a.tvNsec > b.tvNsec))

lemma timespecGt_eq_true {a b : Timespec} : timespecGt a b = true ↔
    b.tvSec < a.tvSec ∨ (a.tvSec = b.tvSec ∧ b.tvNsec < a.tvNsec) := by
  simp [timespecGt]

lemma timespecGt_eq_false {a b : Timespec} : timespecGt a b = false ↔
    ¬ (b.tvSec < a.tvSec ∨ (a.tvSec = b.tvSec ∧ b.tvNsec < a.tvNsec)) := by
  rw [← timespecGt_eq_true, Bool.not_eq_true]

/-- The order that `timespec_gt` decides. -/
instance : LinearOrder Timespec where
  le a b := timespecGt a b = false
  lt a b := timespecGt b a = true
  le_refl a := by
    rw [timespecGt_eq_false]
    omega
  le_trans a b c hab hbc := by
    rw [timespecGt_eq_false] at *
    omega
  lt_iff_le_not_ge a b := by
    rw [timespecGt_eq_false, timespecGt_eq_false, timespecGt_eq_true]
    omega
  le_antisymm a b hab hba := by
    rw [timespecGt_eq_false] at hab hba
    cases a
    cases b
    simp only [Timespec.mk.injEq] at *
    omega
  le_total a b := by
    rw [timespecGt_eq_false, timespecGt_eq_false]
    omega
  toDecidableLE a b := inferInstanceAs (Decidable (timespecGt a b = false))

lemma timespecGt_iff {a b : Timespec} : timespecGt a b = true ↔ b < a := Iff.rfl

end Ivykis
