/-
The shuffle of `initialize_game_cards` reaches every board, and each in
one way.

The index `i + rand() / (RAND_MAX / (16 - i) + 1)` cuts the range of
`rand` into `16 - i` parts, all of them hit and none left over, for every
`RAND_MAX` the C standard allows (`swapIndex_range`, `swapIndex_hits`).
The loop swaps the positions in turn, each with itself or a later one, so
what it does to the board is one permutation for each list of choices.
-/
import Lcom.Machine.Shuffle
import Lcom.Proj.Proofs.Deal

namespace Lcom.Proj

open Machine

-- ============================================================ the index

/-- The index the shuffle swaps with `i`, where `RAND_MAX` is `max`. -/
def swapIndex (max i r : Nat) : Nat := i + r / (max / (16 - i) + 1)

section

variable {max i r : Nat}

/-- The parts are long enough that `16 - i` of them cover the range. -/
theorem swapIndex_range (hi : i < 16) (hr : r ≤ max) :
    i ≤ swapIndex max i r ∧ swapIndex max i r ≤ 15 := by
  have hcover : max < (16 - i) * (max / (16 - i) + 1) :=
    Nat.lt_mul_div_succ max (by omega)
  have hpart : r / (max / (16 - i) + 1) < 16 - i := by
    apply Nat.div_lt_of_lt_mul
    rw [Nat.mul_comm]
    omega
  exact ⟨Nat.le_add_right i _, by unfold swapIndex; omega⟩

/-- They are short enough that the last one starts inside it. -/
theorem swapIndex_hits (hmax : 32767 ≤ max) (hi : i < 16) {j : Nat}
    (hij : i ≤ j) (hj : j ≤ 15) : ∃ r ≤ max, swapIndex max i r = j := by
  obtain ⟨k, rfl⟩ := Nat.exists_eq_add_of_le hij
  refine ⟨k * (max / (16 - i) + 1), ?_, ?_⟩
  · have hparts : 16 ≤ max / (16 - i) := by
      rw [Nat.le_div_iff_mul_le (by omega)]
      omega
    have hdiv := Nat.div_mul_le_self max (16 - i)
    have hmul : (k + 1) * (max / (16 - i)) ≤ (16 - i) * (max / (16 - i)) :=
      Nat.mul_le_mul_right _ (by omega)
    rw [Nat.mul_comm (max / (16 - i))] at hdiv
    rw [Nat.succ_mul] at hmul
    rw [Nat.mul_add, Nat.mul_one]
    omega
  · unfold swapIndex
    rw [Nat.mul_div_cancel _ (Nat.succ_pos _)]

end

-- ============================================================= the loop

/-- The swap loop, with its indices given. -/
def swapLoop (c : LaterChoices 15) (cards : Cards) : Cards :=
  (List.finRange 15).foldl
    (fun cards i => swapCards cards i.val (c i).val.val) cards

theorem foldl_swapCards (c : LaterChoices 15) (l : List (Fin 15))
    (cards : Cards) (k : Fin 16) :
    (l.foldl (fun cards i => swapCards cards i.val (c i).val.val) cards).get k
      = cards.get (swaps (l.map fun i => (i.castSucc, (c i).val)) k) := by
  induction l generalizing cards with
  | nil => rfl
  | cons i l ih =>
      rw [List.foldl_cons, ih]
      exact swapCards_perm i.castSucc.isLt (c i).val.isLt cards _

/-- The choices a list of random values makes. -/
def chosen (rands : Fin 15 → Rand) : LaterChoices 15 := fun i =>
  ⟨⟨shuffleIndex i.val (rands i).val,
      shuffleIndex_lt (Nat.lt_succ_of_lt i.isLt) (rands i)⟩,
    Nat.le_add_right i.val _⟩

/-- The loop of the model, over consecutive positions. -/
theorem shuffleCards_foldl (rands : Fin 15 → Rand) :
    ∀ (l : List (Fin 15)) (i : Nat) (cards : Cards),
      l.map Fin.val = List.range' i l.length →
      shuffleCards l.length i (l.map rands) cards
        = some (l.foldl (fun cards i =>
          swapCards cards i.val (chosen rands i).val.val) cards, []) := by
  intro l
  induction l with
  | nil => intro i cards _; rfl
  | cons k l ih =>
      intro i cards h
      rw [List.map_cons, List.length_cons, List.range'_succ,
        List.cons.injEq] at h
      obtain ⟨hk, hrest⟩ := h
      rw [List.length_cons, List.map_cons, shuffleCards, ih (i + 1) _ hrest,
        List.foldl_cons, ← hk]
      rfl

/-- The shuffle is the swap loop with the choices of its random values. -/
theorem shuffleCards_eq (rands : Fin 15 → Rand) (cards : Cards) :
    shuffleCards 15 0 ((List.finRange 15).map rands) cards
      = some (swapLoop (chosen rands) cards, []) :=
  shuffleCards_foldl rands (List.finRange 15) 0 cards (by decide)

/-- Every list of choices is made by some random values. -/
theorem chosen_surjective : Function.Surjective chosen := by
  intro c
  have hrand : ∀ i : Fin 15, ∃ r : Rand,
      shuffleIndex i.val r.val = (c i).val.val := by
    intro i
    obtain ⟨r, hr, hhit⟩ := @swapIndex_hits randMax i.val (by decide)
      (by omega) _ (c i).property (Nat.le_of_lt_succ (c i).val.isLt)
    exact ⟨⟨r, Nat.lt_succ_of_le hr⟩, hhit⟩
  choose rands hrands using hrand
  refine ⟨rands, funext fun i => Subtype.ext (Fin.ext ?_)⟩
  exact hrands i

/-- For every `RAND_MAX` of at least 32767 the index of round `i` is one
of `i..15`, and each of them for some random value; the shuffle is the
loop with the choices of its random values, the loop moves the board by a
permutation that the choices determine and that determines them, every
permutation is one, and the shuffle performs every one of them. -/
theorem shuffle_reaches_every_board (max : Nat) (hmax : 32767 ≤ max) :
    (∀ i < 15,
        (∀ r ≤ max, i ≤ swapIndex max i r ∧ swapIndex max i r ≤ 15)
          ∧ ∀ j, i ≤ j → j ≤ 15 → ∃ r ≤ max, swapIndex max i r = j)
      ∧ (∀ (rands : Fin 15 → Rand) (cards : Cards),
        shuffleCards 15 0 ((List.finRange 15).map rands) cards
          = some (swapLoop (chosen rands) cards, []))
      ∧ (∀ (c : LaterChoices 15) (cards : Cards) (k : Fin 16),
        (swapLoop c cards).get k = cards.get (performed c k))
      ∧ Function.Bijective
        (performed : LaterChoices 15 → Equiv.Perm (Fin 16))
      ∧ ∀ (σ : Equiv.Perm (Fin 16)) (cards : Cards), ∃ rands shuffled,
        shuffleCards 15 0 rands cards = some (shuffled, [])
          ∧ ∀ k, shuffled.get k = cards.get (σ k) := by
  refine ⟨fun i hi => ⟨?_, ?_⟩, shuffleCards_eq, ?_, performed_bijective, ?_⟩
  · intro r hr
    exact swapIndex_range (by omega) hr
  · intro j hij hj
    exact swapIndex_hits hmax (by omega) hij hj
  · intro c cards k
    exact foldl_swapCards c (List.finRange 15) cards k
  · intro σ cards
    obtain ⟨c, rfl⟩ := performed_bijective.surjective σ
    obtain ⟨rands, rfl⟩ := chosen_surjective c
    refine ⟨_, _, shuffleCards_eq rands cards, fun k => ?_⟩
    exact foldl_swapCards _ (List.finRange 15) cards k

/-- With the smallest `RAND_MAX` and in the first round, the largest
random value picks the last card. -/
theorem shuffle_reaches_every_board_small :
    swapIndex 32767 0 32767 = 15
      ∧ ∀ r ≤ 32767, swapIndex 32767 0 r ≤ 15 := by
  obtain ⟨hindex, -⟩ := shuffle_reaches_every_board 32767 (Nat.le_refl _)
  exact ⟨by decide, fun r hr => ((hindex 0 (by decide)).1 r hr).2⟩

end Lcom.Proj
