/-
Calls that may fail, one after another, with an early return at the
first that does.

`attempt ok calls` gives the calls that were made and whether they all
succeeded; `ok` is the environment, one answer per call. What comes
after a failed call is never made (`mem_attempt`): this is where cleanup
gets lost.
-/
import Mathlib

namespace Lcom.Machine

variable {κ : Type*}

/-- Make the calls in order, up to the first that fails. -/
def attempt (ok : κ → Bool) : List κ → List κ × Bool
  | [] => ([], true)
  | c :: cs =>
      if ok c then (c :: (attempt ok cs).1, (attempt ok cs).2)
      else ([c], false)

variable {ok : κ → Bool}

/-- All calls succeed, and then all are made. -/
theorem attempt_eq_true {cs : List κ} :
    (attempt ok cs).2 = true ↔ ∀ c ∈ cs, ok c = true := by
  induction cs with
  | nil => simp [attempt]
  | cons c cs ih =>
      unfold attempt
      cases hc : ok c with
      | true => simp [hc, ih]
      | false => simp [hc]

theorem attempt_all {cs : List κ} (h : ∀ c ∈ cs, ok c = true) :
    (attempt ok cs).1 = cs := by
  induction cs with
  | nil => rfl
  | cons c cs ih =>
      unfold attempt
      rw [if_pos (h c (by simp)), ih fun c' hc' => h c' (by simp [hc'])]

/-- The last call is made even if it fails. -/
theorem attempt_concat {cs : List κ} (h : ∀ c ∈ cs, ok c = true) (c : κ) :
    (attempt ok (cs ++ [c])).1 = cs ++ [c] := by
  induction cs with
  | nil =>
      rw [List.nil_append]
      unfold attempt
      split <;> rfl
  | cons c' cs ih =>
      rw [List.cons_append]
      unfold attempt
      rw [if_pos (h c' (by simp)), ih fun c hc => h c (by simp [hc])]

/-- Only listed calls are made. -/
theorem attempt_subset {cs : List κ} {c : κ}
    (h : c ∈ (attempt ok cs).1) : c ∈ cs := by
  induction cs with
  | nil => exact h
  | cons c' cs ih =>
      unfold attempt at h
      split at h
      · rcases List.mem_cons.1 h with rfl | h
        · exact List.mem_cons_self
        · exact List.mem_cons_of_mem _ (ih h)
      · rw [List.mem_singleton] at h
        subst h
        exact List.mem_cons_self

/-- A call is made if and only if all calls before it succeed. -/
theorem mem_attempt (before : List κ) {after : List κ} {c : κ}
    (hc : c ∉ before) :
    c ∈ (attempt ok (before ++ c :: after)).1
      ↔ ∀ c' ∈ before, ok c' = true := by
  induction before with
  | nil =>
      refine ⟨fun _ c' hc' => (by cases hc'), fun _ => ?_⟩
      rw [List.nil_append]
      unfold attempt
      split <;> simp
  | cons c' before ih =>
      rw [List.mem_cons, not_or] at hc
      rw [List.cons_append]
      unfold attempt
      cases hok : ok c' with
      | true =>
          have hrest := ih hc.2
          simp [hc.1, hok, hrest]
      | false => simp [hc.1, hok]

end Lcom.Machine
