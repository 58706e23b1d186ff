/-
Swapping every position of an array with a later one.

`swaps` performs a list of swaps in turn, as a permutation: the array `a`
becomes `a ∘ swaps l`. If every swap is of a position with itself or a
later one, and the positions increase, the first is not touched again, so
the permutation shows what it was swapped with, and the others follow
from the rest (`swaps_inj`). An array has as many such choices as
permutations, so each permutation is performed by one of them
(`performed_bijective`).
-/
import Mathlib

namespace Lcom.Machine

-- ============================================================== swapping

section

variable {α ι : Type*} [LinearOrder α]

/-- The permutation the swaps perform, first one first. -/
def swaps (l : List (α × α)) : Equiv.Perm α :=
  (l.map fun p => Equiv.swap p.1 p.2).prod

@[simp] theorem swaps_nil : swaps ([] : List (α × α)) = 1 := rfl

@[simp] theorem swaps_cons (p : α × α) (l : List (α × α)) :
    swaps (p :: l) = Equiv.swap p.1 p.2 * swaps l :=
  List.prod_cons

/-- Swaps among later positions leave a position alone. -/
theorem swaps_before {l : List (α × α)} {a : α}
    (h : ∀ p ∈ l, a < p.1 ∧ p.1 ≤ p.2) : swaps l a = a := by
  induction l with
  | nil => rfl
  | cons p l ih =>
      obtain ⟨hlt, hle⟩ := h p List.mem_cons_self
      rw [swaps_cons, Equiv.Perm.mul_apply,
        ih fun q hq => h q (List.mem_cons_of_mem _ hq)]
      exact Equiv.swap_apply_of_ne_of_ne hlt.ne (hlt.trans_le hle).ne

/-- Increasing positions, each swapped with itself or a later one: the
permutation determines what each was swapped with. -/
theorem swaps_inj {position : ι → α} {c d : ι → α} {l : List ι}
    (hl : l.Pairwise fun i j => position i < position j)
    (hc : ∀ i ∈ l, position i ≤ c i) (hd : ∀ i ∈ l, position i ≤ d i)
    (h : swaps (l.map fun i => (position i, c i))
      = swaps (l.map fun i => (position i, d i))) :
    ∀ i ∈ l, c i = d i := by
  induction l with
  | nil => nofun
  | cons i l ih =>
      obtain ⟨hi, hl⟩ := List.pairwise_cons.1 hl
      have hc' := fun j hj => hc j (List.mem_cons_of_mem i hj)
      have hd' := fun j hj => hd j (List.mem_cons_of_mem i hj)
      -- the first position is swapped once and then left alone
      have hfirst : ∀ e : ι → α, (∀ j ∈ l, position j ≤ e j) →
          swaps ((i :: l).map fun j => (position j, e j)) (position i)
            = e i := by
        intro e he
        rw [List.map_cons, swaps_cons, Equiv.Perm.mul_apply, swaps_before,
          Equiv.swap_apply_left]
        intro p hp
        obtain ⟨j, hj, rfl⟩ := List.mem_map.1 hp
        exact ⟨hi j hj, he j hj⟩
      have heq : c i = d i := by
        rw [← hfirst c hc', ← hfirst d hd', h]
      rw [List.map_cons, List.map_cons, swaps_cons, swaps_cons, heq] at h
      intro j hj
      rcases List.mem_cons.1 hj with rfl | hj
      · exact heq
      · exact ih hl hc' hd' (mul_left_cancel h) j hj

end

-- =========================================================== whole arrays

/-- For each position of an array but the last, itself or a later one. -/
abbrev LaterChoices (n : Nat) : Type :=
  (i : Fin n) → {j : Fin (n + 1) // i.castSucc ≤ j}

/-- The permutation of positions a shuffle with these choices performs. -/
def performed {n : Nat} (c : LaterChoices n) : Equiv.Perm (Fin (n + 1)) :=
  swaps ((List.finRange n).map fun i => (i.castSucc, (c i).val))

variable {n : Nat}

theorem performed_injective :
    Function.Injective (performed : LaterChoices n → _) := by
  intro c d h
  have hlt : (List.finRange n).Pairwise fun i j => i.castSucc < j.castSucc :=
    List.pairwise_lt_finRange n
  have hval := swaps_inj hlt (fun i _ => (c i).property)
    (fun i _ => (d i).property) h
  funext i
  exact Subtype.ext (hval i (List.mem_finRange i))

/-- There are as many choices as permutations. -/
theorem card_laterChoices :
    Fintype.card (LaterChoices n) = Fintype.card (Equiv.Perm (Fin (n + 1))) := by
  have hcard : ∀ i : Fin n,
      Fintype.card {j : Fin (n + 1) // i.castSucc ≤ j} = n + 1 - i.val := by
    intro i
    rw [Fintype.card_subtype]
    have hfilter : (Finset.univ.filter fun j : Fin (n + 1) => i.castSucc ≤ j)
        = Finset.Ici i.castSucc := by
      ext j
      simp
    rw [hfilter, Fin.card_Ici]
    rfl
  rw [Fintype.card_pi, Fintype.card_perm, Fintype.card_fin]
  calc ∏ i : Fin n, Fintype.card {j : Fin (n + 1) // i.castSucc ≤ j}
      = ∏ i : Fin n, (n + 1 - i.val) := Finset.prod_congr rfl fun i _ => hcard i
    _ = ∏ i ∈ Finset.range n, (n + 1 - i) :=
        Fin.prod_univ_eq_prod_range (fun i => n + 1 - i) n
    _ = (n + 1).descFactorial n := (Nat.descFactorial_eq_prod_range _ _).symm
    _ = (n + 1).factorial := by
        have hfact := Nat.factorial_mul_descFactorial (Nat.le_add_right n 1)
        rw [Nat.add_sub_cancel_left, Nat.factorial_one, one_mul] at hfact
        exact hfact

/-- Every permutation is performed by exactly one choice. -/
theorem performed_bijective :
    Function.Bijective (performed : LaterChoices n → _) :=
  (Fintype.bijective_iff_injective_and_card _).2
    ⟨performed_injective, card_laterChoices⟩

end Lcom.Machine
