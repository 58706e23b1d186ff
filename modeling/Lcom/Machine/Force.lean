/-
Handing values on in evaluated form.

A computation that carries a value from step to step by name carries the
whole expression that produced it. The functions below match on a value
before they pass it to a continuation, so that what is passed on is a
constructor, or a numeral, and each step starts from an evaluated value.
None of them changes anything: `force x k = k x`.
-/
import Mathlib

namespace Lcom.Machine

variable {α β : Type}

/-- Pass a flag on, evaluated. -/
def forceBool : Bool → (Bool → α) → α
  | true, k => k true
  | false, k => k false

@[simp] theorem forceBool_eq (b : Bool) (k : Bool → α) :
    forceBool b k = k b := by
  cases b <;> rfl

/-- Pass a number on, evaluated. -/
def forceNat : Nat → (Nat → α) → α
  | 0, k => k 0
  | n + 1, k => k (n + 1)

@[simp] theorem forceNat_eq (n : Nat) (k : Nat → α) :
    forceNat n k = k n := by
  cases n <;> rfl

/-- Pass an integer on, evaluated. -/
def forceInt : Int → (Int → α) → α
  | .ofNat n, k => forceNat n fun n => k (.ofNat n)
  | .negSucc n, k => forceNat n fun n => k (.negSucc n)

@[simp] theorem forceInt_eq (z : Int) (k : Int → α) :
    forceInt z k = k z := by
  cases z with
  | ofNat n => exact forceNat_eq n _
  | negSucc n => exact forceNat_eq n _

/-- Pass a list on with its entries evaluated. -/
def forceList (force : β → (β → α) → α) : List β → (List β → α) → α
  | [], k => k []
  | x :: xs, k =>
      force x fun x => forceList force xs fun xs => k (x :: xs)

theorem forceList_eq {force : β → (β → α) → α}
    (h : ∀ x k, force x k = k x) (xs : List β) (k : List β → α) :
    forceList force xs k = k xs := by
  induction xs generalizing k with
  | nil => rfl
  | cons x xs ih =>
      unfold forceList
      rw [h, ih]

/-- Pass a vector on with its entries evaluated. -/
def forceVector {n : Nat} (force : β → (β → α) → α)
    (v : List.Vector β n) (k : List.Vector β n → α) : α :=
  forceList force v.toList fun xs =>
    if h : xs.length = n then k ⟨xs, h⟩ else k v

theorem forceVector_eq {n : Nat} {force : β → (β → α) → α}
    (h : ∀ x k, force x k = k x) (v : List.Vector β n)
    (k : List.Vector β n → α) : forceVector force v k = k v := by
  unfold forceVector
  rw [forceList_eq h, dif_pos v.toList_length]
  rfl

end Lcom.Machine
