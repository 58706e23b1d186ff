/-
What the turning animation does to the board, for every board.

Two facts carry the rest of the development. First, a flip call moves
the shared width by the sum of one step per turning card
(`turnWidth_eq_sum`), so its effect depends on how many cards turn and
on which side each of them shows. Second, in mode 0x115 the drawing
loop is never cut short by its screen test, so one `draw_game_cards` is
one flip call per turning card it meets, in board order (`turnCards`,
`drawGameCards_board`): the offsets drop out of the state.

Neither drawing nor clicking touches a card's value or its match
(`SameMarks`).
-/
import Lcom.Proj.MainLoop

namespace Lcom.Proj

-- =================================================== reading the board

/-- Some card is turning, read pointwise. -/
theorem anyFlipping_iff {b : Board} :
    b.anyFlipping = true ↔ ∃ i, (b.card i).isFlipping = true := by
  unfold Board.anyFlipping Board.card
  rw [List.any_eq_true]
  constructor
  · intro hex
    obtain ⟨c, hc, hflip⟩ := hex
    obtain ⟨i, rfl⟩ := (List.Vector.mem_iff_get _ _).1 hc
    exact ⟨i, hflip⟩
  · intro hex
    obtain ⟨i, hflip⟩ := hex
    exact ⟨_, List.Vector.get_mem i _, hflip⟩

theorem anyFlipping_still {b : Board}
    (h : ∀ i, (b.card i).isFlipping = false) : b.anyFlipping = false := by
  refine Bool.eq_false_iff.2 fun hf => ?_
  obtain ⟨i, hi⟩ := anyFlipping_iff.1 hf
  rw [h i] at hi
  cases hi

/-- `endGame`, read pointwise. -/
theorem allMatched_iff {b : Board} :
    b.allMatched = true ↔ ∀ i, (b.card i).flipSuccess = true := by
  unfold Board.allMatched Board.card
  rw [List.all_eq_true]
  constructor
  · intro h i
    exact h _ (List.Vector.get_mem i _)
  · intro h c hc
    obtain ⟨i, rfl⟩ := (List.Vector.mem_iff_get _ _).1 hc
    exact h i

/-- `otherSide` after marking, read pointwise. -/
theorem markOtherSide_get (facing : Bool) (b : Board) (i : Fin 16) :
    (b.markOtherSide facing).get i
      = if (b.card i).isFlipping && decide (b.increaseWidth > 10)
          && (b.card i).isFlipped == facing then 1
        else b.otherSide.get i := by
  unfold Board.markOtherSide
  rw [List.Vector.zipWith_get]
  rfl

-- ======================================================= the width loop

/-- What one card adds to the width. -/
def widthDelta (c : Card) (other : Int) : Int :=
  if c.isFlipping then if other = 0 then 1 else -1 else 0

/-- One round of the width loop adds one card's delta. -/
theorem widthStep_eq (w : Int) (c : Card) (o : Int) :
    widthStep w (c, o) = w + widthDelta c o := by
  unfold widthStep widthDelta
  cases c.isFlipping
  · simp
  · by_cases ho : o = 0
    · simp [ho]
    · simp [ho]
      omega

/-- Two rows side by side, position by position. -/
theorem zip_rows {α β : Type} (v : List.Vector α 16)
    (w : List.Vector β 16) : v.toList.zip w.toList
      = (List.finRange 16).map fun i => (v.get i, w.get i) := by
  refine List.ext_getElem (by simp) fun k h₁ h₂ => ?_
  simp [List.Vector.get_eq_get_toList]

/-- The width loop, as a sum over the board. -/
theorem turnWidth_eq_sum (cards : Cards) (other : List.Vector Int 16)
    (w : Int) :
    turnWidth cards other w
      = w + ∑ i, widthDelta (cards.get i) (other.get i) := by
  have hfold : ∀ (l : List (Fin 16)) (w : Int),
      l.foldl (fun w i => widthStep w (cards.get i, other.get i)) w
        = w + (l.map fun i => widthDelta (cards.get i) (other.get i)).sum := by
    intro l
    induction l with
    | nil => intro w; simp
    | cons i l ih =>
        intro w
        rw [List.foldl_cons, ih, widthStep_eq, List.map_cons, List.sum_cons]
        omega
  rw [turnWidth, zip_rows, List.foldl_map, hfold, Fin.sum_univ_def]

-- =========================================================== one flip

/-- A flip call that has not reached its stop moves the width and the
sides, and no card. -/
theorem flipCards_going {facing : Bool} {stop : Int} {b : Board}
    (h : b.turned facing ≠ stop) :
    (flipCards facing stop b).1
      = { b with increaseWidth := b.turned facing
                 otherSide := b.markOtherSide facing } := by
  unfold flipCards
  rw [if_neg h]

/-- A flip call that reaches its stop turns every turning card over,
whatever face it showed. -/
theorem flipCards_done_card {facing : Bool} {stop : Int} {b : Board}
    (h : b.turned facing = stop) (i : Fin 16) :
    (flipCards facing stop b).1.card i
      = if (b.card i).isFlipping then
          { b.card i with isFlipping := false, isFlipped := !facing }
        else b.card i := by
  unfold flipCards
  rw [if_pos h]
  show (b.cardArray.map _).get i = _
  rw [List.Vector.get_map]
  rfl

/-- A finished flip leaves the width at one, if anything was turning. -/
theorem flipCards_done_width {facing : Bool} {stop : Int} {b : Board}
    (h : b.turned facing = stop) (hany : b.anyFlipping = true) :
    (flipCards facing stop b).1.increaseWidth = 1 := by
  unfold flipCards
  rw [if_pos h]
  exact if_pos hany

/-- A finished flip clears the side of every turning card. -/
theorem flipCards_done_other {facing : Bool} {stop : Int} {b : Board}
    (h : b.turned facing = stop) (i : Fin 16) :
    (flipCards facing stop b).1.otherSide.get i
      = if (b.card i).isFlipping then 0
        else (b.markOtherSide facing).get i := by
  unfold flipCards
  rw [if_pos h]
  show (List.Vector.zipWith _ _ _).get i = _
  rw [List.Vector.zipWith_get]
  rfl

-- ================================================= values and matches

/-- Two boards with the same values and the same matches. -/
def SameMarks (b b' : Board) : Prop :=
  ∀ i, (b'.card i).value = (b.card i).value
    ∧ (b'.card i).flipSuccess = (b.card i).flipSuccess

theorem SameMarks.refl (b : Board) : SameMarks b b := fun _ => ⟨rfl, rfl⟩

theorem SameMarks.trans {b₁ b₂ b₃ : Board} (h : SameMarks b₁ b₂)
    (h' : SameMarks b₂ b₃) : SameMarks b₁ b₃ := fun i =>
  ⟨(h' i).1.trans (h i).1, (h' i).2.trans (h i).2⟩

/-- A flip call keeps values and matches. -/
theorem flipCards_sameMarks (facing : Bool) (stop : Int) (b : Board) :
    SameMarks b (flipCards facing stop b).1 := by
  intro i
  by_cases h : b.turned facing = stop
  · rw [flipCards_done_card h]
    cases (b.card i).isFlipping <;> exact ⟨rfl, rfl⟩
  · rw [flipCards_going h]
    exact ⟨rfl, rfl⟩

-- ============================================= drawing without a screen

/-- What the drawing loop does to the board at card `i`: one flip call
if it is turning. A zero width traps. -/
def turnCard (b : Board) (i : Fin 16) : Option Board :=
  if (b.card i).isFlipping then
    if b.increaseWidth = 0 then none
    else some (if (b.card i).isFlipped then (flipACardUp b).1
      else (flipACardDown b).1)
  else some b

/-- The drawing loop, seen from the board. -/
def turnCards : List (Fin 16) → Board → Option Board
  | [], b => some b
  | i :: is, b =>
      match turnCard b i with
      | some b' => turnCards is b'
      | none => none

theorem drawCard_result (p : Pen) (i : Fin 16) (b : Board) :
    (drawCard p i b).result = turnCard b i := by
  unfold drawCard turnCard Frame.result
  by_cases hf : (b.card i).isFlipping = true
  · by_cases hw : b.increaseWidth = 0
    · simp [hf, hw]
    · simp [hf, hw]
  · cases hd : (b.card i).isFlipped <;> simp [hf, hd]

/-- As long as the screen test passes, the drawing loop is the turning
loop. -/
theorem drawCards_result {m : ModeInfo} :
    ∀ (is : List (Fin 16)) (p : Pen) (b : Board),
      (∀ k, 1 ≤ k → k < is.length →
        ((Pen.advance m)^[k] p).offScreen m = false) →
      (drawCards m is p b).result = turnCards is b := by
  intro is
  induction is with
  | nil => intro p b _; rfl
  | cons i is ih =>
      intro p b hpen
      have hcard := drawCard_result p i b
      unfold drawCards turnCards
      rw [← hcard]
      cases htrap : (drawCard p i b).trapped with
      | true => simp [Frame.result, htrap]
      | false =>
          cases is with
          | nil =>
              -- the last card: nothing is left to cut short
              simp only [Frame.result, htrap, drawCards, turnCards,
                Bool.false_eq_true, if_false]
              cases (p.advance m).offScreen m <;> simp [htrap]
          | cons j js =>
              have hon : (p.advance m).offScreen m = false :=
                hpen 1 (Nat.le_refl _) (by simp)
              have hrest := ih (p.advance m) (drawCard p i b).board
                fun k hk hlt => by
                  have := hpen (k + 1) (by omega) (by simpa using hlt)
                  rwa [Function.iterate_succ_apply] at this
              simp only [Frame.result, htrap, hon, Bool.false_eq_true,
                if_false] at hrest ⊢
              exact hrest

/-- At 800x600 no card before the last one moves the pen off screen. -/
theorem pen_onScreen : ∀ k : Nat, 1 ≤ k → k < 16 →
    ((Pen.advance mode0x115)^[k] (Pen.home mode0x115)).offScreen mode0x115
      = false := by
  decide

/-- `draw_game_cards` in mode 0x115 turns every turning card it
meets. -/
theorem drawGameCards_result (b : Board) :
    (drawGameCards mode0x115 b).result
      = turnCards (List.finRange 16) b :=
  drawCards_result _ _ _ fun k hk hlt =>
    pen_onScreen k hk (by simpa using hlt)

/-- The drawing call of the main loop. -/
theorem draw_eq (s : State) :
    draw mode0x115 s = (turnCards (List.finRange 16) s.board).map fun b =>
      { s with board := b } := by
  unfold draw
  rw [drawGameCards_result]

/-- A turning step keeps values and matches. -/
theorem turnCard_sameMarks {b b' : Board} {i : Fin 16}
    (h : turnCard b i = some b') : SameMarks b b' := by
  unfold turnCard at h
  split at h
  · split at h
    · cases h
    · injection h with h
      subst h
      split
      · exact flipCards_sameMarks _ _ _
      · exact flipCards_sameMarks _ _ _
  · injection h with h
    subst h
    exact SameMarks.refl _

/-- Drawing keeps values and matches. -/
theorem turnCards_sameMarks {is : List (Fin 16)} {b b' : Board}
    (h : turnCards is b = some b') : SameMarks b b' := by
  induction is generalizing b with
  | nil => cases h; exact SameMarks.refl _
  | cons i is ih =>
      unfold turnCards at h
      cases hi : turnCard b i with
      | none => rw [hi] at h; cases h
      | some b₁ =>
          rw [hi] at h
          exact (turnCard_sameMarks hi).trans (ih h)

end Lcom.Proj
