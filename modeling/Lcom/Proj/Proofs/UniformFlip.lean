/-
A uniform flip, from the first drawing to the last.

A set of `n` face-up cards moves the shared width in strides of `n`, up
from one until it is past ten and down the same way, so it comes back to
one exactly, whatever the stride (`spinning_up`, `spinning_down`). A
single face-down card goes one step further, to zero. `draw_game_cards`
makes as many calls as there are cards turning, and may finish the flip
in the middle of its loop; so repeated drawings finish it
(`uniform_flip_completes`).
-/
import Lcom.Proj.Proofs.Deal
import Lcom.Proj.Proofs.Turning

namespace Lcom.Proj

-- ========================================================== the strides

/-- Calls until the width is past ten. -/
def risingCalls (n : Nat) : Nat := (9 + n) / n

section

variable {n k : Nat}

theorem rising_le (hn : 1 ≤ n) : k < risingCalls n ↔ k * n ≤ 9 := by
  unfold risingCalls
  rw [Nat.lt_div_iff_mul_lt hn]
  have : n * k = k * n := Nat.mul_comm n k
  omega

/-- On the way up. -/
theorem spinning_up (hn : 1 ≤ n) :
    k ≤ risingCalls n → spinning n k = (1 + ((k * n : Nat) : Int), 0) := by
  induction k with
  | zero => intro _; simp [spinning_zero]
  | succ k ih =>
      intro hk
      have hlow := (rising_le hn).1 hk
      rw [spinning_succ, ih (by omega)]
      unfold spin
      rw [if_neg (by dsimp only; omega)]
      dsimp only
      rw [if_pos rfl, Nat.succ_mul]
      refine Prod.ext ?_ rfl
      push_cast
      omega

/-- On the way down, `k` calls before the end. -/
theorem spinning_down (hn : 1 ≤ n) {j : Nat} :
    k + j = risingCalls n → 1 ≤ j →
      spinning n (risingCalls n + j) = (1 + ((k * n : Nat) : Int), 1) := by
  intro hk hj
  induction j generalizing k with
  | zero => omega
  | succ j ih =>
      rw [← Nat.add_assoc, spinning_succ]
      rcases Nat.eq_zero_or_pos j with rfl | hpos
      · -- the first call past ten shows the other side
        have hhigh : ¬risingCalls n * n ≤ 9 := fun h =>
          absurd ((rising_le hn).2 h) (Nat.lt_irrefl _)
        have hk' : risingCalls n = k + 1 := by omega
        rw [Nat.add_zero, spinning_up hn (Nat.le_refl _)]
        unfold spin
        rw [if_pos (by dsimp only; omega)]
        dsimp only
        rw [if_neg (by decide), hk', Nat.succ_mul]
        refine Prod.ext ?_ rfl
        push_cast
        omega
      · rw [ih (by omega : k + 1 + j = risingCalls n) hpos]
        unfold spin
        dsimp only
        rw [ite_self, if_neg (by decide), Nat.succ_mul]
        refine Prod.ext ?_ rfl
        push_cast
        omega

/-- Face-up cards come back to width one, in any number. -/
theorem lands_down (hn : 1 ≤ n) : Lands n 1 (2 * risingCalls n) := by
  have hup : ∀ k, k ≤ risingCalls n →
      (spinning n k).1 = 1 + ((k * n : Nat) : Int) :=
    fun k hk => by rw [spinning_up hn hk]
  have hdown : ∀ k, risingCalls n < k → k ≤ 2 * risingCalls n →
      (spinning n k).1
        = 1 + (((2 * risingCalls n - k) * n : Nat) : Int) := by
    intro k hk hk'
    obtain ⟨j, rfl⟩ := Nat.exists_eq_add_of_le hk.le
    have hrest : 2 * risingCalls n - (risingCalls n + j)
        = risingCalls n - j := by omega
    have hsplit : risingCalls n - j + j = risingCalls n := by omega
    rw [spinning_down hn hsplit (by omega), hrest]
  refine ⟨fun k hk => ?_, fun k hk => ?_, ?_⟩
  · rcases Nat.lt_or_ge (risingCalls n) k with h | h
    · rw [hdown k h hk.le]
      omega
    · rw [hup k h]
      omega
  · rcases Nat.lt_or_ge (risingCalls n) (k + 1) with h | h
    · rw [hdown (k + 1) h hk.le]
      have hpos : 1 * 1 ≤ (2 * risingCalls n - (k + 1)) * n :=
        Nat.mul_le_mul (by omega) hn
      omega
    · rw [hup (k + 1) h]
      have hpos : 1 * 1 ≤ (k + 1) * n := Nat.mul_le_mul (by omega) hn
      omega
  · have hrise : 0 < risingCalls n := (rising_le hn).2 (by omega)
    rw [hdown _ (by omega) (Nat.le_refl _), Nat.sub_self]
    simp

end

-- ======================================================= the drawings

/-- The loop of `draw_game_cards` runs to its end, and the width is at
least one whenever it comes to draw a card. -/
def DrawsWide (m : ModeInfo) : List (Fin 16) → Pen → Board → Prop
  | [], _, _ => True
  | i :: is, p, b => 1 ≤ b.increaseWidth ∧ (drawCard p i b).trapped = false
      ∧ DrawsWide m is (p.advance m) (drawCard p i b).board

/-- `k` calls of `draw_game_cards` take `b` to `b'`, the width at least
one at every drawing. -/
def Draws (m : ModeInfo) : Nat → Board → Board → Prop
  | 0, b, b' => b' = b
  | k + 1, b, b' => DrawsWide m (List.finRange 16) (Pen.home m) b
      ∧ (drawGameCards m b).trapped = false
      ∧ Draws m k (drawGameCards m b).board b'

/-- The set `S` is marked as flipping. -/
def Board.startFlipping (b : Board) (S : Finset (Fin 16)) : Board :=
  { b with cardArray := .ofFn fun i =>
      if i ∈ S then (b.card i).startFlipping else b.card i }

/-- `b'` is `b` with the cards of `S` turned over. -/
def TurnedOver (b b' : Board) (S : Finset (Fin 16)) : Prop :=
  ∀ i, b'.card i = if i ∈ S then
    { b.card i with isFlipped := !(b.card i).isFlipped } else b.card i

theorem startFlipping_card (b : Board) (S : Finset (Fin 16)) (i : Fin 16) :
    (b.startFlipping S).card i
      = if i ∈ S then (b.card i).startFlipping else b.card i :=
  List.Vector.get_ofFn ..

/-- What the loop leaves is what the board does. -/
theorem trapped_of_result {f : Frame} {b : Board} (h : f.result = some b) :
    f.trapped = false ∧ f.board = b := by
  unfold Frame.result at h
  cases ht : f.trapped with
  | true => rw [ht, if_pos rfl] at h; cases h
  | false =>
      rw [ht, if_neg (by decide)] at h
      cases h
      exact ⟨rfl, rfl⟩

theorem drawsWide_of_eachBoard {m : ModeInfo} :
    ∀ (is : List (Fin 16)) (p : Pen) (b : Board),
      EachBoard (fun b => 1 ≤ b.increaseWidth) is b →
      DrawsWide m is p b := by
  intro is
  induction is with
  | nil => intro p b _; trivial
  | cons i is ih =>
      intro p b h
      have hturn : ∃ b', turnCard b i = some b' := by
        unfold turnCard
        have hw := h.1
        split
        · rw [if_neg (by omega)]
          exact ⟨_, rfl⟩
        · exact ⟨_, rfl⟩
      obtain ⟨b', hb'⟩ := hturn
      obtain ⟨htrap, hboard⟩ :=
        trapped_of_result ((drawCard_result p i b).trans hb')
      refine ⟨h.1, htrap, ih _ _ ?_⟩
      rw [hboard]
      exact h.2 b' hb'

section

variable {m : ModeInfo}

/-- Only the resolution decides what `draw_game_cards` does. -/
theorem drawGameCards_mode (hx : m.xResolution = 800)
    (hy : m.yResolution = 600) (b : Board) :
    drawGameCards m b = drawGameCards mode0x115 b := by
  have hhome : Pen.home m = Pen.home mode0x115 := by
    unfold Pen.home
    rw [hx, hy]
    rfl
  have hadvance : Pen.advance m = Pen.advance mode0x115 := by
    funext p
    unfold Pen.advance
    rw [hhome]
  have hoff : ∀ p : Pen, p.offScreen m = p.offScreen mode0x115 := by
    intro p
    unfold Pen.offScreen
    rw [hx, hy]
    rfl
  have hcards : ∀ (is : List (Fin 16)) (p : Pen) (b : Board),
      drawCards m is p b = drawCards mode0x115 is p b := by
    intro is
    induction is with
    | nil => intro p b; rfl
    | cons i is ih =>
        intro p b
        unfold drawCards
        simp only [hadvance, hoff, ih]
  unfold drawGameCards
  rw [hhome, hcards]

/-- One drawing of cards that turn together. -/
theorem draws_turning (hx : m.xResolution = 800) (hy : m.yResolution = 600)
    {T : Finset (Fin 16)} {facing : Bool} {K k : Nat} (hT : T.Nonempty)
    (hl : Lands T.card (flipStop facing) K) {b : Board} (hk : k < K)
    (h : Turning b T facing (spinning T.card k)) :
    DrawsWide m (List.finRange 16) (Pen.home m) b
      ∧ (drawGameCards m b).trapped = false
      ∧ ((k + T.card < K
          ∧ (drawGameCards m b).board.cardArray = b.cardArray
          ∧ Turning (drawGameCards m b).board T facing
            (spinning T.card (k + T.card)))
        ∨ Landed b (drawGameCards m b).board T facing) := by
  refine ⟨drawsWide_of_eachBoard _ _ _ (eachBoard_width hT hl _ hk h), ?_⟩
  rw [drawGameCards_mode hx hy]
  have hloop := turnCards_turning hT hl (List.finRange 16) b k hk h
  rw [countP_finRange] at hloop
  rcases hloop with ⟨hlt, b', hb', harr, hturn⟩ | ⟨-, b', hb', hland⟩
  · obtain ⟨htrap, hboard⟩ :=
      trapped_of_result ((drawGameCards_result b).trans hb')
    rw [hboard]
    exact ⟨htrap, .inl ⟨hlt, harr, hturn⟩⟩
  · obtain ⟨htrap, hboard⟩ :=
      trapped_of_result ((drawGameCards_result b).trans hb')
    rw [hboard]
    exact ⟨htrap, .inr hland⟩

/-- Repeated drawings complete the turn. -/
theorem draws_lands (hx : m.xResolution = 800) (hy : m.yResolution = 600)
    {T : Finset (Fin 16)} {facing : Bool} {K : Nat} (hT : T.Nonempty)
    (hl : Lands T.card (flipStop facing) K) :
    ∀ (left k : Nat) (b : Board), K - k ≤ left → k < K →
      Turning b T facing (spinning T.card k) →
      ∃ calls b', Draws m calls b b' ∧ Landed b b' T facing := by
  intro left
  induction left with
  | zero => intro k b hleft hk; omega
  | succ left ih =>
      intro k b hleft hk h
      obtain ⟨hwide, htrap, hdraw⟩ := draws_turning hx hy hT hl hk h
      rcases hdraw with ⟨hlt, harr, hturn⟩ | hland
      · have hpos : 1 ≤ T.card := hT.card_pos
        obtain ⟨calls, b', hdraws, hland⟩ :=
          ih (k + T.card) _ (by omega) hlt hturn
        refine ⟨calls + 1, b', ⟨hwide, htrap, hdraws⟩, fun i => ?_,
          hland.still⟩
        rw [hland.card i]
        unfold Board.card
        rw [harr]
      · exact ⟨1, _, ⟨hwide, htrap, rfl⟩, hland⟩

/-- Marked cards turn together, from the start. -/
theorem Still.startFlipping {b : Board} (h : Still b)
    {S : Finset (Fin 16)} {facing : Bool}
    (hface : ∀ i ∈ S, (b.card i).isFlipped = facing) :
    Turning (b.startFlipping S) S facing (spinning S.card 0) := by
  refine ⟨fun i => ?_, fun i hi => ?_, h.width, fun i => ?_⟩
  · rw [startFlipping_card]
    by_cases hi : i ∈ S
    · rw [if_pos hi]
      exact iff_of_true rfl hi
    · rw [if_neg hi, h.isFlipping i]
      exact iff_of_false (by decide) hi
  · rw [startFlipping_card, if_pos hi]
    exact hface i hi
  · show b.otherSide.get i = _
    rw [h.otherSide i, spinning_zero, ite_self]

/-- A landed turn has turned the marked cards over. -/
theorem Landed.turnedOver {b b' : Board} {S : Finset (Fin 16)}
    {facing : Bool} (h : Still b)
    (hface : ∀ i ∈ S, (b.card i).isFlipped = facing)
    (hl : Landed (b.startFlipping S) b' S facing) : TurnedOver b b' S := by
  intro i
  rw [hl.card i, startFlipping_card]
  by_cases hi : i ∈ S
  · rw [if_pos hi, if_pos hi, if_pos hi, hface i hi]
    have hstill := h.isFlipping i
    unfold Card.startFlipping
    rw [← hstill]
  · rw [if_neg hi, if_neg hi, if_neg hi]

/-- A uniform flip of face-up cards, or of one face-down card, completes:
after finitely many drawings exactly the marked cards have turned over,
and the animation globals are as at the start. -/
theorem uniform_flip_completes (m : ModeInfo) (hx : m.xResolution = 800)
    (hy : m.yResolution = 600) (b : Board) (h : Still b)
    (S : Finset (Fin 16)) (hS : S.Nonempty)
    (hface : (∀ i ∈ S, (b.card i).isFlipped = false)
      ∨ ∃ i, S = {i} ∧ (b.card i).isFlipped = true) :
    ∃ calls b', Draws m calls (b.startFlipping S) b'
      ∧ TurnedOver b b' S ∧ Still b' := by
  have hpos : 1 ≤ S.card := hS.card_pos
  rcases hface with hup | ⟨i, rfl, hdown⟩
  · have hl : Lands S.card (flipStop false) (2 * risingCalls S.card) :=
      lands_down hpos
    have hcalls : 0 < risingCalls S.card := (rising_le hpos).2 (by omega)
    obtain ⟨calls, b', hdraws, hland⟩ := draws_lands hx hy hS hl _ 0 _
      (Nat.le_refl _) (by omega) (h.startFlipping hup)
    exact ⟨calls, b', hdraws, hland.turnedOver h hup, hland.still⟩
  · have hone : ∀ j ∈ ({i} : Finset (Fin 16)),
        (b.card j).isFlipped = true := by
      intro j hj
      rw [Finset.mem_singleton.1 hj]
      exact hdown
    have hl : Lands ({i} : Finset (Fin 16)).card (flipStop true) 21 := by
      rw [Finset.card_singleton]
      exact lands_one
    obtain ⟨calls, b', hdraws, hland⟩ := draws_lands hx hy hS hl _ 0 _
      (Nat.le_refl _) (by omega) (h.startFlipping hone)
    exact ⟨calls, b', hdraws, hland.turnedOver h hone, hland.still⟩

end

theorem orderedBoard_still : Still (Board.ofCards orderedCards) :=
  ⟨by decide, rfl, by decide⟩

/-- Three cards of a fresh board. -/
theorem uniform_flip_three :
    ∃ calls b', Draws mode0x115 calls
        ((Board.ofCards orderedCards).startFlipping {0, 5, 9}) b'
      ∧ TurnedOver (Board.ofCards orderedCards) b' {0, 5, 9}
      ∧ Still b' :=
  uniform_flip_completes mode0x115 rfl rfl _ orderedBoard_still {0, 5, 9}
    ⟨0, by decide⟩ (.inl (by decide))

end Lcom.Proj
