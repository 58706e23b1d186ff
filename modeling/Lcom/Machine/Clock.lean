/-
Clocks that step through their times in order and start over.

A `Clock` has finitely many times, ordered by `rank`; `next` is the one
after, and after `last` comes `first`. `turns t n` counts how often the
clock starts over in `n` steps from `t`.

What the clock has shown in the meantime is an interval of the order as
long as it has not started over, two ends of it if it has once, and
everything if it has more often (`held_iff`).
-/
import Mathlib

namespace Lcom.Machine

/-- A clock, its times in order. -/
structure Clock (τ : Type*) where
  next : τ → τ
  rank : τ → ℕ
  first : τ
  last : τ
  rank_injective : Function.Injective rank
  first_le : ∀ t, rank first ≤ rank t
  le_last : ∀ t, rank t ≤ rank last
  next_last : next last = first
  /-- No time lies between one and the next. -/
  lt_iff : ∀ t, t ≠ last → ∀ u, rank t < rank u ↔ rank (next t) ≤ rank u

namespace Clock

variable {τ : Type*} (c : Clock τ) {t u : τ} {n : ℕ}

-- ====================================================== times and turns

/-- The time `n` steps after `t`. -/
def after (t : τ) (n : ℕ) : τ := c.next^[n] t

/-- The clock shows `u` at some point of `n` steps from `t`. -/
def Held (t : τ) (n : ℕ) (u : τ) : Prop := ∃ k, k ≤ n ∧ c.after t k = u

/-- How often the clock starts over in `n` steps from `t`. -/
def turns [DecidableEq τ] (t : τ) (n : ℕ) : ℕ :=
  (List.range n).countP fun k => decide (c.after t k = c.last)

theorem after_succ : c.after t (n + 1) = c.after (c.next t) n := rfl

theorem after_add (m : ℕ) : c.after t (m + n) = c.after (c.after t m) n := by
  unfold after
  rw [Nat.add_comm, Function.iterate_add_apply]

theorem turns_succ [DecidableEq τ] :
    c.turns t (n + 1)
      = (if t = c.last then 1 else 0) + c.turns (c.next t) n := by
  unfold turns
  rw [List.range_succ_eq_map, List.countP_cons, List.countP_map, add_comm]
  congr 1
  exact if_congr decide_eq_true_iff rfl rfl

theorem turns_add [DecidableEq τ] (m : ℕ) :
    c.turns t (m + n) = c.turns t m + c.turns (c.after t m) n := by
  induction m generalizing t with
  | zero => rw [Nat.zero_add]; exact (Nat.zero_add _).symm
  | succ m ih =>
      rw [Nat.succ_add, turns_succ, turns_succ, ih, after_succ,
        Nat.add_assoc]

-- ==================================================== what it has shown

theorem held_zero : c.Held t 0 u ↔ t = u := by
  constructor
  · rintro ⟨k, hk, rfl⟩
    rw [Nat.le_zero.1 hk]
    rfl
  · rintro rfl
    exact ⟨0, le_refl 0, rfl⟩

/-- Now or later. -/
theorem held_succ :
    c.Held t (n + 1) u ↔ t = u ∨ c.Held (c.next t) n u := by
  constructor
  · rintro ⟨k, hk, rfl⟩
    cases k with
    | zero => exact .inl rfl
    | succ k => exact .inr ⟨k, Nat.le_of_succ_le_succ hk, rfl⟩
  · rintro (rfl | ⟨k, hk, rfl⟩)
    · exact ⟨0, Nat.zero_le _, rfl⟩
    · exact ⟨k + 1, Nat.succ_le_succ hk, rfl⟩

/-- The times from one on are the time and those from the next on. -/
theorem rank_le_iff (ht : t ≠ c.last) :
    c.rank t ≤ c.rank u ↔ t = u ∨ c.rank (c.next t) ≤ c.rank u := by
  rw [← c.lt_iff t ht u, le_iff_eq_or_lt, c.rank_injective.eq_iff]

/-- The times from the last on are the last. -/
theorem rank_last_le_iff : c.rank c.last ≤ c.rank u ↔ c.last = u := by
  rw [← c.rank_injective.eq_iff]
  have hle := c.le_last u
  omega

variable [DecidableEq τ]

/-- Without starting over the clock goes up. -/
theorem rank_le_after (h : c.turns t n = 0) :
    c.rank t ≤ c.rank (c.after t n) := by
  induction n generalizing t with
  | zero => exact le_refl _
  | succ n ih =>
      rw [turns_succ, Nat.add_eq_zero_iff] at h
      have ht : t ≠ c.last := by
        intro hlast
        rw [if_pos hlast] at h
        exact absurd h.1 one_ne_zero
      rw [after_succ]
      exact (c.rank_le_iff ht).2 (.inr (ih h.2))

/-- What the clock has shown after `n` steps: the times from `t` on, up
to where it is if it has not started over; the times up to where it is
if it has; and all if it has twice. -/
def Shown (t : τ) (n : ℕ) (u : τ) : Prop :=
  (c.rank t ≤ c.rank u
      ∧ (c.turns t n = 0 → c.rank u ≤ c.rank (c.after t n)))
    ∨ (c.turns t n = 1 ∧ c.rank u ≤ c.rank (c.after t n))
    ∨ 2 ≤ c.turns t n

/-- One step of a clock that does not start over. -/
theorem shown_succ (ht : t ≠ c.last) :
    c.Shown t (n + 1) u ↔ t = u ∨ c.Shown (c.next t) n u := by
  have hturns : c.turns t (n + 1) = c.turns (c.next t) n := by
    rw [turns_succ, if_neg ht, Nat.zero_add]
  unfold Shown
  rw [hturns, after_succ, c.rank_le_iff ht]
  constructor
  · rintro (⟨rfl | hle, hup⟩ | hrest)
    · exact .inl rfl
    · exact .inr (.inl ⟨hle, hup⟩)
    · exact .inr (.inr hrest)
  · rintro (rfl | ⟨hle, hup⟩ | hrest)
    · refine .inl ⟨.inl rfl, fun h => ?_⟩
      have hnext := (c.rank_le_iff ht).2 (.inr (le_refl (c.rank (c.next t))))
      exact hnext.trans (c.rank_le_after h)
    · exact .inl ⟨.inr hle, hup⟩
    · exact .inr hrest

/-- One step of a clock that starts over. -/
theorem shown_last :
    c.Shown c.last (n + 1) u ↔ c.last = u ∨ c.Shown c.first n u := by
  have hturns : c.turns c.last (n + 1) = c.turns c.first n + 1 := by
    rw [turns_succ, if_pos rfl, c.next_last, Nat.add_comm]
  have hafter : c.after c.last (n + 1) = c.after c.first n := by
    rw [after_succ, c.next_last]
  have hfirst := c.first_le u
  unfold Shown
  rw [hturns, hafter, c.rank_last_le_iff]
  by_cases h0 : c.turns c.first n = 0
  · simp [h0, hfirst]
  · have h2 : 2 ≤ c.turns c.first n + 1 := by omega
    simp [h0, hfirst, h2]

theorem held_iff_shown : c.Held t n u ↔ c.Shown t n u := by
  induction n generalizing t with
  | zero =>
      rw [held_zero, ← c.rank_injective.eq_iff, le_antisymm_iff]
      simp [Shown, turns, after]
  | succ n ih =>
      rw [held_succ, ih]
      by_cases ht : t = c.last
      · subst ht
        rw [c.next_last, shown_last]
      · rw [c.shown_succ ht]

end Clock

end Lcom.Machine
