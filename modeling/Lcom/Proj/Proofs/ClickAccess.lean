/-
A click, with every access to `cardArray` checked.

`flipCardOnClick` keeps the index of the card it hit in `posInArray`,
which has no initial value. Here the blocks run on the columns and rows
of the source, an access outside the array fails, and so does the last
test when no block has assigned `posInArray`. The blocks agree with the
ones the main loop's model runs (`clickCells_run`); a cursor on a card
is handled as intended, and a cursor on none makes the last test read an
index that was never assigned (`click_selects_iff`).
-/
import Lcom.Proj.Proofs.Click
import Lcom.Proj.Proofs.Deal

namespace Lcom.Proj

-- ======================================================== the accesses

/-- What `flipCardOnClick` works on; `posInArray` is `none` until a block
assigns it. -/
structure ClickState where
  cardArray : Cards
  posInArray : Option Int

/-- The card an access to `cardArray` reaches; an index outside 0..15
fails. -/
def cardIndex (i : Int) : Option (Fin 16) :=
  if h : 0 ≤ i ∧ i < 16 then some ⟨i.toNat, by omega⟩ else none

/-- The column and row each block assigns to `x` and `y`, in the order of
the source. -/
def clickCells : List (Int × Int) :=
  [(0, 0), (0, 1), (2, 0), (3, 0), (1, 0), (1, 1), (2, 1), (3, 1),
   (0, 2), (1, 2), (2, 2), (3, 2), (0, 3), (1, 3), (2, 3), (3, 3)]

/-- One block: a hit assigns `posInArray` and marks the card there. -/
def clickCell (m : ModeInfo) (mouse : Mouse) (st : ClickState)
    (p : Int × Int) : Option ClickState :=
  if hitsCell m mouse p.1 p.2 then
    let posInArray := p.1 + p.2 * 4
    (cardIndex posInArray).map fun k =>
      { cardArray := setFlipping st.cardArray k true
        posInArray := some posInArray }
  else some st

/-- `flipCardOnClick`, failing at the first access to `cardArray` whose
index was never assigned or lies outside the array. -/
def flipCardOnClickChecked (m : ModeInfo) (mouse : Mouse) (cards : Cards) :
    Option Cards := do
  let st ← clickCells.foldlM (clickCell m mouse) ⟨cards, none⟩
  let posInArray ← st.posInArray
  let k ← cardIndex posInArray
  -- the last test runs whether or not a block did
  if (st.cardArray.get k).isFlipped = false then
    return setFlipping st.cardArray k false
  else
    return st.cardArray

-- ================================================= against the main loop

/-- The state of the blocks of `flipCardOnClick`, with a plain index. -/
def ClickState.of (st : Cards × Option (Fin 16)) : ClickState :=
  ⟨st.1, st.2.map fun k => (k.val : Int)⟩

/-- Column and row of card `k`. -/
def cellOf (k : Fin 16) : Int × Int := ((k.val % 4 : Nat), (k.val / 4 : Nat))

theorem clickCells_eq : clickCells = clickBlocks.map cellOf := rfl

theorem cardIndex_val (k : Fin 16) : cardIndex k.val = some k := by
  unfold cardIndex
  rw [dif_pos ⟨by omega, by omega⟩]
  rfl

/-- Its array index leads back to the card. -/
theorem cellOf_pos (k : Fin 16) :
    (cellOf k).1 + (cellOf k).2 * 4 = (k.val : Int) := by
  simp only [cellOf]
  omega

/-- One block, on both sides. -/
theorem clickCell_of (m : ModeInfo) (mouse : Mouse)
    (st : Cards × Option (Fin 16)) (k : Fin 16) :
    clickCell m mouse (.of st) (cellOf k)
      = some (.of (clickBlock m mouse st k)) := by
  unfold clickCell clickBlock
  change (if onCard m mouse k = true then _ else _) = _
  by_cases h : onCard m mouse k = true
  · rw [if_pos h, if_pos h]
    dsimp only
    rw [cellOf_pos, cardIndex_val]
    rfl
  · rw [if_neg h, if_neg h]

/-- All of them. -/
theorem clickCells_run (m : ModeInfo) (mouse : Mouse) (ks : List (Fin 16))
    (st : Cards × Option (Fin 16)) :
    (ks.map cellOf).foldlM (clickCell m mouse) (.of st)
      = some (.of (ks.foldl (clickBlock m mouse) st)) := by
  induction ks generalizing st with
  | nil => rfl
  | cons k ks ih =>
      rw [List.map_cons, List.foldlM_cons, clickCell_of]
      exact ih (clickBlock m mouse st k)

/-- The checked click, from the fold the main loop's click runs. -/
theorem flipCardOnClickChecked_eq (m : ModeInfo) (mouse : Mouse)
    (cards : Cards) :
    flipCardOnClickChecked m mouse cards
      = (clickBlocks.foldl (clickBlock m mouse) (cards, none)).2.map
          fun _ => flipCardOnClick m mouse cards := by
  have hrun := clickCells_run m mouse clickBlocks (cards, none)
  unfold flipCardOnClickChecked flipCardOnClick
  rw [clickCells_eq]
  change ((clickBlocks.map cellOf).foldlM (clickCell m mouse)
    (.of (cards, none))).bind _ = _
  rw [hrun, Option.bind_some]
  generalize clickBlocks.foldl (clickBlock m mouse) (cards, none) = st
  obtain ⟨after, pos⟩ := st
  cases pos with
  | none => rfl
  | some k =>
      simp only [ClickState.of, Option.map_some, Option.bind_eq_bind,
        Option.bind_some, cardIndex_val]
      exact (apply_ite some _ _ _).symm

/-- A click off every card reads an index that no block assigned. -/
theorem flipCardOnClickChecked_off {m : ModeInfo} {mouse : Mouse}
    {cards : Cards} (h : ∀ k, onCard m mouse k = false) :
    flipCardOnClickChecked m mouse cards = none := by
  rw [flipCardOnClickChecked_eq, foldl_clickBlock_off h]
  rfl

/-- A click on a card makes assigned accesses only. -/
theorem flipCardOnClickChecked_on {m : ModeInfo} {mouse : Mouse}
    {cards : Cards} {k : Fin 16} (h : onCard m mouse k = true) :
    flipCardOnClickChecked m mouse cards
      = some (flipCardOnClick m mouse cards) := by
  rw [flipCardOnClickChecked_eq, foldl_clickBlock_on h]
  rfl

-- ======================================================== what is meant

/-- The array index of column `c` and row `r`. -/
def cell (c r : Fin 4) : Fin 16 := ⟨c.val + 4 * r.val, by omega⟩

/-- The rectangle of column `c` and row `r` contains the cursor. -/
def Under (m : ModeInfo) (mouse : Mouse) (c r : Fin 4) : Prop :=
  let s := getCardsScreenXY m c.val r.val
  (s.1 ≤ mouse.x ∧ mouse.x ≤ s.1 + cardWidth)
    ∧ s.2 ≤ mouse.y ∧ mouse.y ≤ s.2 + cardHeight

instance (m : ModeInfo) (mouse : Mouse) (c r : Fin 4) :
    Decidable (Under m mouse c r) :=
  inferInstanceAs (Decidable ((_ ∧ _) ∧ _ ∧ _))

/-- The click selects the card under the cursor: it is marked if it is
face down, no second card is there, and everything else stays. -/
structure Selects (m : ModeInfo) (mouse : Mouse) (cards after : Cards) :
    Prop where
  marked : ∀ c r, Under m mouse c r →
    (cards.get (cell c r)).isFlipped = true →
    after.get (cell c r) = { cards.get (cell c r) with isFlipping := true }
  atMostOne : ∀ c r c' r', Under m mouse c r → Under m mouse c' r' →
    c = c' ∧ r = r'
  others : ∀ k, (∀ c r, Under m mouse c r →
      (cards.get (cell c r)).isFlipped = true → k ≠ cell c r) →
    after.get k = cards.get k

theorem under_iff {m : ModeInfo} {mouse : Mouse} {c r : Fin 4} :
    Under m mouse c r ↔ onCard m mouse (cell c r) = true := by
  have hc : (c.val + 4 * r.val) % 4 = c.val := by omega
  have hr : (c.val + 4 * r.val) / 4 = r.val := by omega
  rw [onCard_iff]
  simp only [Under, cell, hc, hr, and_assoc]

/-- Every card has its column and row. -/
theorem exists_cell (k : Fin 16) : ∃ c r, cell c r = k := by
  refine ⟨⟨k.val % 4, by omega⟩, ⟨k.val / 4, by omega⟩, Fin.ext ?_⟩
  simp only [cell]
  omega

theorem cell_inj {c r c' r' : Fin 4} (h : cell c r = cell c' r') :
    c = c' ∧ r = r' := by
  have hval : c.val + 4 * r.val = c'.val + 4 * r'.val := congrArg Fin.val h
  exact ⟨Fin.ext (by omega), Fin.ext (by omega)⟩

/-- With no card turning, what a click leaves is what was meant. -/
theorem flipCardOnClick_selects (m : ModeInfo) (mouse : Mouse)
    {cards : Cards} (hstill : ∀ i, (cards.get i).isFlipping = false) :
    Selects m mouse cards (flipCardOnClick m mouse cards) := by
  have hone : ∀ c r c' r', Under m mouse c r → Under m mouse c' r' →
      c = c' ∧ r = r' := fun c r c' r' h h' =>
    cell_inj (onCard_unique (under_iff.1 h) (under_iff.1 h'))
  rcases flipCardOnClick_cases m mouse hstill with
    ⟨k, hon, hdown, heq⟩ | ⟨hup, heq⟩
  · obtain ⟨c, r, rfl⟩ := exists_cell k
    rw [heq]
    refine ⟨fun c' r' hu _ => ?_, hone, fun k hk => ?_⟩
    · obtain ⟨rfl, rfl⟩ := hone c' r' c r hu (under_iff.2 hon)
      rw [setFlipping_get, if_pos rfl]
    · rw [setFlipping_get, if_neg (hk c r (under_iff.2 hon) hdown)]
  · rw [heq]
    refine ⟨fun c r hu hdown => ?_, hone, fun _ _ => rfl⟩
    rw [hup (cell c r) (under_iff.1 hu)] at hdown
    cases hdown

/-- With no card turning, a click selects the card under the cursor, all
its accesses at assigned indices of the array, exactly when there is a
card under the cursor. -/
theorem click_selects_iff (m : ModeInfo) (mouse : Mouse) (cards : Cards)
    (hstill : ∀ i, (cards.get i).isFlipping = false) :
    (∃ after, flipCardOnClickChecked m mouse cards = some after
        ∧ Selects m mouse cards after)
      ↔ ∃ c r, Under m mouse c r := by
  constructor
  · rintro ⟨after, hrun, -⟩
    by_contra hoff
    have hnone : flipCardOnClickChecked m mouse cards = none := by
      apply flipCardOnClickChecked_off
      intro k
      obtain ⟨c, r, rfl⟩ := exists_cell k
      exact Bool.eq_false_iff.2 fun hon =>
        hoff ⟨c, r, under_iff.2 hon⟩
    rw [hnone] at hrun
    cases hrun
  · rintro ⟨c, r, hu⟩
    exact ⟨flipCardOnClick m mouse cards,
      flipCardOnClickChecked_on (under_iff.1 hu),
      flipCardOnClick_selects m mouse hstill⟩

/-- A board once its cards have been turned down. -/
def faceDownCards : Cards :=
  .ofFn fun k => { orderedCards.get k with isFlipped := true }

theorem faceDownCards_still :
    ∀ i, (faceDownCards.get i).isFlipping = false := by decide

/-- A cursor on the first card marks it. -/
theorem click_selects_first :
    (∃ c r, Under mode0x115 ⟨210, 80⟩ c r)
      ∧ ∃ after, flipCardOnClickChecked mode0x115 ⟨210, 80⟩ faceDownCards
          = some after
        ∧ Selects mode0x115 ⟨210, 80⟩ faceDownCards after := by
  have hunder : ∃ c r, Under mode0x115 ⟨210, 80⟩ c r := by decide
  exact ⟨hunder, (click_selects_iff mode0x115 ⟨210, 80⟩ faceDownCards
    faceDownCards_still).2 hunder⟩

/-- In the gap between the first two cards of the first row no block
runs, and the last test indexes `cardArray` with whatever `posInArray`
holds. -/
theorem click_in_gap_unassigned :
    (∀ i, (faceDownCards.get i).isFlipping = false)
      ∧ flipCardOnClickChecked mode0x115 ⟨280, 100⟩ faceDownCards = none
      ∧ ¬∃ after, flipCardOnClickChecked mode0x115 ⟨280, 100⟩ faceDownCards
          = some after
        ∧ Selects mode0x115 ⟨280, 100⟩ faceDownCards after := by
  have hoff : ∀ k, onCard mode0x115 ⟨280, 100⟩ k = false := by decide
  have hnone := @flipCardOnClickChecked_off _ _ faceDownCards hoff
  refine ⟨faceDownCards_still, hnone, ?_⟩
  rintro ⟨after, hrun, -⟩
  rw [hnone] at hrun
  cases hrun

end Lcom.Proj
