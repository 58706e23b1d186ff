/-
Writes laid over a memory, one after another.

A write gives the value it puts at an address, or nothing where it
leaves the memory alone. After a list of writes an address holds what
the last write there has put (`overlay_cases`): its old value if there
was none (`overlay_keeps`), and `v` if there was one and all of them put
`v` (`overlay_puts`).
-/
import Mathlib

namespace Lcom.Machine

variable {α β : Type*}

/-- The memory after the writes. -/
def overlay (s : α → β) (ws : List (α → Option β)) : α → β :=
  ws.foldl (fun s w a => (w a).getD (s a)) s

@[simp] theorem overlay_nil (s : α → β) : overlay s [] = s := rfl

@[simp] theorem overlay_cons (s : α → β) (w : α → Option β)
    (ws : List (α → Option β)) :
    overlay s (w :: ws) = overlay (fun a => (w a).getD (s a)) ws := rfl

theorem overlay_append (s : α → β) (ws ws' : List (α → Option β)) :
    overlay s (ws ++ ws') = overlay (overlay s ws) ws' :=
  List.foldl_append

variable {s : α → β} {ws : List (α → Option β)} {a : α} {v : β}

/-- An address no write reaches keeps its value. -/
theorem overlay_keeps (h : ∀ w ∈ ws, w a = none) :
    overlay s ws a = s a := by
  induction ws generalizing s with
  | nil => rfl
  | cons w ws ih =>
      rw [overlay_cons, ih fun w' hw' => h w' (List.mem_cons_of_mem _ hw'),
        h w List.mem_cons_self]
      rfl

/-- An address holds what some write has put there, or no write has
reached it. -/
theorem overlay_cases (s : α → β) (ws : List (α → Option β)) (a : α) :
    (∃ w ∈ ws, w a = some (overlay s ws a))
      ∨ (∀ w ∈ ws, w a = none) ∧ overlay s ws a = s a := by
  by_cases hnone : ∀ w ∈ ws, w a = none
  · exact .inr ⟨hnone, overlay_keeps hnone⟩
  left
  induction ws generalizing s with
  | nil => exact absurd (fun w hw => by cases hw) hnone
  | cons w ws ih =>
      rw [overlay_cons]
      by_cases hrest : ∀ w' ∈ ws, w' a = none
      · -- the last write there is the first of the list
        cases hw : w a with
        | none =>
            refine absurd (fun w' hw' => ?_) hnone
            rcases List.mem_cons.1 hw' with rfl | hw'
            · exact hw
            · exact hrest w' hw'
        | some u =>
            refine ⟨w, List.mem_cons_self, ?_⟩
            rw [overlay_keeps hrest, hw]
            rfl
      · obtain ⟨w', hw', hval⟩ := ih (fun a => (w a).getD (s a)) hrest
        exact ⟨w', List.mem_cons_of_mem _ hw', hval⟩

/-- An address some write reaches, and every one that does puts `v`
there, holds `v`. -/
theorem overlay_puts (h : ∀ w ∈ ws, ∀ u, w a = some u → u = v)
    (hex : ∃ w ∈ ws, w a ≠ none) : overlay s ws a = v := by
  rcases overlay_cases s ws a with ⟨w, hw, hval⟩ | ⟨hnone, -⟩
  · exact h w hw _ hval
  · obtain ⟨w, hw, hne⟩ := hex
    exact absurd (hnone w hw) hne

end Lcom.Machine
