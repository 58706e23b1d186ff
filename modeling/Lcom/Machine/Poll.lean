/-
Loops that poll a device.

A turn of the loop gives what it did and, if it leaves the loop, its
result. `poll turn env n` is the loop against the device `env`, cut off
after `n` turns: a loop that has not left by then has no result. Which of
the two it is depends on the first turn that leaves, if there is one
(`first_leaving`), and on nothing after it (`poll_leaves`, `poll_stays`).
-/
import Mathlib

namespace Lcom.Machine

variable {τ α ρ : Type*}

/-- What a loop did, and its result unless it is still polling. -/
structure Polled (α ρ : Type*) where
  trace : List α
  result : Option ρ
  deriving DecidableEq, Repr

section

variable {ρ' ρ'' β : Type*}

/-- What comes after a call that returns. -/
def Polled.bind (p : Polled α ρ) (next : ρ → Polled α ρ') : Polled α ρ' :=
  match p.result with
  | none => ⟨p.trace, none⟩
  | some r => ⟨p.trace ++ (next r).trace, (next r).result⟩

/-- Something done at once. -/
def Polled.act (a : α) : Polled α Unit := ⟨[a], some ()⟩

/-- A result without doing anything. -/
def Polled.pure (r : ρ) : Polled α ρ := ⟨[], some r⟩

/-- The same, with what is done seen as part of something larger. -/
def Polled.lift (f : α → β) (p : Polled α ρ) : Polled β ρ :=
  ⟨p.trace.map f, p.result⟩

theorem Polled.bind_returns {p : Polled α ρ} {r : ρ} (h : p.result = some r)
    (next : ρ → Polled α ρ') :
    p.bind next = ⟨p.trace ++ (next r).trace, (next r).result⟩ := by
  unfold Polled.bind
  rw [h]

theorem Polled.bind_hangs {p : Polled α ρ} (h : p.result = none)
    (next : ρ → Polled α ρ') : (p.bind next).result = none := by
  unfold Polled.bind
  rw [h]

/-- A sequence returns if both parts do. -/
theorem Polled.bind_result {p : Polled α ρ} {next : ρ → Polled α ρ'}
    {r' : ρ'} :
    (p.bind next).result = some r'
      ↔ ∃ r, p.result = some r ∧ (next r).result = some r' := by
  cases h : p.result with
  | none => simp [Polled.bind_hangs h]
  | some r => simp [Polled.bind_returns h]

end

/-- The loop over the turns of a list. -/
def pollList (turn : τ → Polled α ρ) : List τ → Polled α ρ
  | [] => ⟨[], none⟩
  | t :: ts =>
      match (turn t).result with
      | some r => ⟨(turn t).trace, some r⟩
      | none =>
          ⟨(turn t).trace ++ (pollList turn ts).trace,
            (pollList turn ts).result⟩

/-- The loop against a device, for at most `n` turns. -/
def poll (turn : τ → Polled α ρ) (env : Nat → τ) (n : Nat) : Polled α ρ :=
  pollList turn ((List.range n).map env)

variable {turn : τ → Polled α ρ}

/-- Turns that stay in the loop only add what they do. -/
theorem pollList_append {before : List τ}
    (h : ∀ t ∈ before, (turn t).result = none) (after : List τ) :
    pollList turn (before ++ after)
      = ⟨(before.flatMap fun t => (turn t).trace)
          ++ (pollList turn after).trace,
        (pollList turn after).result⟩ := by
  induction before with
  | nil => rfl
  | cons t before ih =>
      rw [List.cons_append, pollList, h t (by simp),
        ih fun t' ht' => h t' (by simp [ht']), List.flatMap_cons,
        List.append_assoc]

variable {env : Nat → τ}

/-- While no turn leaves, the loop has no result. -/
theorem poll_stays {n : Nat} (h : ∀ k < n, (turn (env k)).result = none) :
    poll turn env n
      = ⟨(List.range n).flatMap fun k => (turn (env k)).trace, none⟩ := by
  have hall : ∀ t ∈ (List.range n).map env, (turn t).result = none := by
    intro t ht
    obtain ⟨k, hk, rfl⟩ := List.mem_map.1 ht
    exact h k (List.mem_range.1 hk)
  have happend := pollList_append hall []
  rw [List.append_nil] at happend
  rw [poll, happend, pollList, List.append_nil, List.flatMap_map]

/-- The first turn that leaves gives the result, whatever comes after. -/
theorem poll_leaves {k : Nat} (h : ∀ j < k, (turn (env j)).result = none)
    {r : ρ} (hk : (turn (env k)).result = some r) {n : Nat} (hn : k < n) :
    poll turn env n
      = ⟨((List.range k).flatMap fun j => (turn (env j)).trace)
          ++ (turn (env k)).trace,
        some r⟩ := by
  obtain ⟨m, rfl⟩ := Nat.exists_eq_add_of_lt hn
  have hall : ∀ t ∈ (List.range k).map env, (turn t).result = none := by
    intro t ht
    obtain ⟨j, hj, rfl⟩ := List.mem_map.1 ht
    exact h j (List.mem_range.1 hj)
  have hsplit : (List.range (k + m + 1)).map env
      = (List.range k).map env
        ++ env k :: (List.range m).map fun j => env (k + (j + 1)) := by
    rw [Nat.add_assoc, List.range_add, List.map_append, List.range_succ_eq_map]
    simp
  rw [poll, hsplit, pollList_append hall, pollList, hk, List.flatMap_map]

/-- Either no turn leaves, or there is a first one that does. -/
theorem first_leaving (turn : τ → Polled α ρ) (env : Nat → τ) :
    (∀ k, (turn (env k)).result = none)
      ∨ ∃ k r, (∀ j < k, (turn (env j)).result = none)
        ∧ (turn (env k)).result = some r := by
  classical
  by_cases h : ∃ k, (turn (env k)).result ≠ none
  · right
    obtain ⟨r, hr⟩ := Option.ne_none_iff_exists'.1 (Nat.find_spec h)
    exact ⟨Nat.find h, r, fun j hj => not_not.1 (Nat.find_min h hj), hr⟩
  · left
    intro k
    exact not_not.1 fun hk => h ⟨k, hk⟩

/-- What the loop did was done in its turns. -/
theorem mem_poll_trace {n : Nat} {a : α} (h : a ∈ (poll turn env n).trace) :
    ∃ k, a ∈ (turn (env k)).trace := by
  unfold poll at h
  generalize List.range n = l at h
  induction l with
  | nil => cases h
  | cons k l ih =>
      rw [List.map_cons, pollList] at h
      split at h
      · exact ⟨k, h⟩
      · rcases List.mem_append.1 h with h | h
        · exact ⟨k, h⟩
        · exact ih h

end Lcom.Machine
