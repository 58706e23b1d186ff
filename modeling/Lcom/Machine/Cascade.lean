/-
Guarded actions tried one after another on one state.

A `Rule` looks at the state and may fire, for a cause; if it fires it
changes the state, and the next rule looks at the changed state. `run`
is what a list of rules does to a state and `causes` lists why, in the
order in which they fired.

This is the shape of a handler that tests several latches in sequence:
an earlier rule can disarm a later one, or forget to.
-/
import Mathlib

namespace Lcom.Machine

variable {σ κ : Type*}

/-- A guarded action: why it fires, if it does, and what it then
does. -/
structure Rule (σ κ : Type*) where
  fires : σ → Option κ
  act : σ → σ

/-- Try the rules in order. -/
def Rule.run : List (Rule σ κ) → σ → σ
  | [], s => s
  | r :: rs, s => Rule.run rs (if (r.fires s).isSome then r.act s else s)

/-- The causes of the rules that fire, in order. -/
def Rule.causes : List (Rule σ κ) → σ → List κ
  | [], _ => []
  | r :: rs, s =>
      match r.fires s with
      | some c => c :: Rule.causes rs (r.act s)
      | none => Rule.causes rs s

section

variable {r : Rule σ κ} {rs : List (Rule σ κ)} {s : σ}

theorem Rule.run_fired {c : κ} (h : r.fires s = some c) :
    Rule.run (r :: rs) s = Rule.run rs (r.act s) := by
  show Rule.run rs _ = _
  rw [h]
  rfl

theorem Rule.run_silent (h : r.fires s = none) :
    Rule.run (r :: rs) s = Rule.run rs s := by
  show Rule.run rs _ = _
  rw [h]
  rfl

theorem Rule.causes_fired {c : κ} (h : r.fires s = some c) :
    Rule.causes (r :: rs) s = c :: Rule.causes rs (r.act s) := by
  rw [Rule.causes, h]

theorem Rule.causes_silent (h : r.fires s = none) :
    Rule.causes (r :: rs) s = Rule.causes rs s := by
  rw [Rule.causes, h]

end

end Lcom.Machine
