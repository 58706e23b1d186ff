/-
Machines that answer every input.

`transduce step s is` is the list of answers to the inputs `is`. A
machine `Remembers` if its answer is a function of the input and of the
one before it; the state is then one way to keep that input, and any
two machines that remember for the same function answer alike
(`Remembers.transduce`).
-/
import Mathlib

namespace Lcom.Machine

variable {σ ι ω : Type*}

/-- The answers to a list of inputs. -/
def transduce (step : σ → ι → σ × ω) : σ → List ι → List ω
  | _, [] => []
  | s, i :: is => (step s i).2 :: transduce step (step s i).1 is

/-- Each input with the one before it. -/
def withPrevious (answer : Option ι → ι → ω) (prev : Option ι)
    (is : List ι) : List ω :=
  List.zipWith answer (prev :: is.map some) is

/-- While `R` says which input the state remembers, the machine answers
by it and remembers the next. -/
def Remembers (step : σ → ι → σ × ω) (answer : Option ι → ι → ω)
    (R : Option ι → σ → Prop) : Prop :=
  ∀ prev s i, R prev s →
    (step s i).2 = answer prev i ∧ R (some i) (step s i).1

/-- A machine that remembers answers each input by the one before it. -/
theorem Remembers.transduce {step : σ → ι → σ × ω}
    {answer : Option ι → ι → ω} {R : Option ι → σ → Prop}
    (h : Remembers step answer R) {prev : Option ι} {s : σ}
    (hs : R prev s) (is : List ι) :
    transduce step s is = withPrevious answer prev is := by
  induction is generalizing prev s with
  | nil => rfl
  | cons i is ih =>
      obtain ⟨hanswer, hnext⟩ := h prev s i hs
      show _ :: _ = answer prev i :: withPrevious answer (some i) is
      rw [hanswer, ih hnext]

end Lcom.Machine
