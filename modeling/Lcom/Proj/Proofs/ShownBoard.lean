/-
The board on the screen, while no card is turning.

`draw_game_cards` walks the cells with running offsets and
`getCardsScreenXY` computes them; at 800x600 the two agree on all sixteen
(`drawGameCards_still`). A card's picture is smaller than the distance
between two cells, so the buffer shows every card where its cell is, and
the background around them (`board_shown`).

A click is taken on the size of a front while the card that can be
clicked shows its back, which is wider and higher: what is right of and
below the front's size does not react (`click_meets_drawing_iff`).
-/
import Lcom.Proj.Proofs.ClickAccess
import Lcom.Proj.Proofs.Sprites
import Lcom.Proj.Proofs.UniformFlip

namespace Lcom.Proj

open Machine

-- ================================================================ cells

/-- The corner of cell `i`. -/
def cellXY (m : ModeInfo) (i : Fin 16) : Int × Int :=
  getCardsScreenXY m (i.val % 4 : Nat) (i.val / 4 : Nat)

/-- The picture of a card that is not turning. -/
def restingAt (screenX screenY : Int) (c : Card) : CardDraw :=
  if c.isFlipped = false then .plain screenX screenY c.x c.y
  else .plain screenX screenY (-1) (-1)

theorem drawCard_still (p : Pen) {i : Fin 16} {b : Board}
    (h : (b.card i).isFlipping = false) :
    drawCard p i b = { board := b, trapped := false
                       draws := [restingAt p.startX p.startY (b.card i)] } := by
  unfold drawCard restingAt
  cases hd : (b.card i).isFlipped <;> simp [h, hd]

/-- The loop over cards that lie still: one picture for each card, at the
running offsets. -/
theorem drawCards_still {m : ModeInfo} {b : Board}
    (hstill : ∀ i, (b.card i).isFlipping = false) (is : List (Fin 16))
    (p : Pen) (hpen : ∀ k, 1 ≤ k → k < is.length →
      ((Pen.advance m)^[k] p).offScreen m = false) :
    (drawCards m is p b).draws = is.zipIdx.map fun q =>
      restingAt ((Pen.advance m)^[q.2] p).startX
        ((Pen.advance m)^[q.2] p).startY (b.card q.1) := by
  induction is generalizing p with
  | nil => rfl
  | cons i is ih =>
      unfold drawCards
      rw [drawCard_still p (hstill i)]
      cases is with
      | nil =>
          -- nothing is left to cut short
          cases (p.advance m).offScreen m <;> rfl
      | cons j js =>
          have hon : (p.advance m).offScreen m = false :=
            hpen 1 (Nat.le_refl _) (by simp)
          have hrest := ih (p.advance m) fun k hk hlt => by
            have hnext := hpen (k + 1) (by omega) (by simpa using hlt)
            rwa [Function.iterate_succ_apply] at hnext
          rw [List.zipIdx_cons', List.map_cons, List.map_map]
          simp only [hon, Bool.false_eq_true, if_false, hrest]
          rfl

/-- At 800x600 the running offsets are the corners of the cells. -/
theorem pen_cellXY : ∀ i : Fin 16,
    ((Pen.advance mode0x115)^[i.val] (Pen.home mode0x115)).startX
        = (cellXY mode0x115 i).1
      ∧ ((Pen.advance mode0x115)^[i.val] (Pen.home mode0x115)).startY
        = (cellXY mode0x115 i).2 := by
  decide

section

variable {m : ModeInfo} {b : Board}

/-- At 800x600 the corners are these. -/
theorem cellXY_eq (hx : m.xResolution = 800) (hy : m.yResolution = 600)
    (i : Fin 16) :
    cellXY m i = (202 + 99 * ((i.val % 4 : Nat) : Int),
      74 + 113 * ((i.val / 4 : Nat) : Int)) := by
  unfold cellXY getCardsScreenXY cardWidth cardHeight
  rw [hx, hy]
  rfl

/-- At 800x600 `draw_game_cards` draws every card at its cell. -/
theorem drawGameCards_still (hx : m.xResolution = 800)
    (hy : m.yResolution = 600)
    (hstill : ∀ i, (b.card i).isFlipping = false) :
    (drawGameCards m b).draws = (List.finRange 16).map fun i =>
      restingAt (cellXY m i).1 (cellXY m i).2 (b.card i) := by
  have hzip : (List.finRange 16).zipIdx
      = (List.finRange 16).map fun i => (i, i.val) := by decide
  rw [drawGameCards_mode hx hy]
  unfold drawGameCards
  rw [drawCards_still hstill _ _ fun k hk hlt =>
    pen_onScreen k hk (by simpa using hlt), hzip, List.map_map]
  refine List.map_congr_left fun i _ => ?_
  rw [cellXY_eq hx hy, ← @cellXY_eq mode0x115 rfl rfl, ← (pen_cellXY i).1,
    ← (pen_cellXY i).2]
  rfl

/-- The picture of card `i` is the one at place `i`. -/
theorem draws_still_get (hx : m.xResolution = 800)
    (hy : m.yResolution = 600)
    (hstill : ∀ i, (b.card i).isFlipping = false) (i : Fin 16) :
    (drawGameCards m b).draws[i.val]?
      = some (restingAt (cellXY m i).1 (cellXY m i).2 (b.card i)) := by
  rw [drawGameCards_still hx hy hstill, List.getElem?_map]
  simp

end

-- ================================================= clicking and drawing

section

variable {m : ModeInfo} {mouse : Mouse} {i : Fin 16}

/-- The click turns card `i`, with all its accesses at assigned
indices. -/
def ClickAccepted (m : ModeInfo) (mouse : Mouse) (cards : Cards)
    (i : Fin 16) : Prop :=
  ∃ after, flipCardOnClickChecked m mouse cards = some after
    ∧ (after.get i).isFlipping = true

/-- The cursor lies on a pixel that `draw_game_cards` paints for card
`i`. -/
def PaintedAt (m : ModeInfo) (a : BoardSprites) (b : Board) (i : Fin 16)
    (mouse : Mouse) : Prop :=
  ∃ draw, (drawGameCards m b).draws[i.val]? = some draw
    ∧ ∃ d ∈ draw.dots m a b.cardArray,
      (d.x.toNat : Int) = mouse.x ∧ (d.y.toNat : Int) = mouse.y

/-- The cursor lies on the card back, right of or below the size of a
front. -/
def OnMargin (m : ModeInfo) (i : Fin 16) (mouse : Mouse) : Prop :=
  (cellXY m i).1 ≤ mouse.x ∧ mouse.x < (cellXY m i).1 + 75
    ∧ (cellXY m i).2 ≤ mouse.y ∧ mouse.y < (cellXY m i).2 + 109
    ∧ ((cellXY m i).1 + cardWidth < mouse.x
      ∨ (cellXY m i).2 + cardHeight < mouse.y)

/-- A face-down card takes exactly the clicks on it. -/
theorem clickAccepted_iff {cards : Cards}
    (hstill : ∀ i, (cards.get i).isFlipping = false)
    (hdown : (cards.get i).isFlipped = true) :
    ClickAccepted m mouse cards i ↔ onCard m mouse i = true := by
  constructor
  · rintro ⟨after, hrun, hturn⟩
    by_cases hon : ∃ k, onCard m mouse k = true
    · obtain ⟨k, hk⟩ := hon
      rw [flipCardOnClickChecked_on hk] at hrun
      cases hrun
      rcases flipCardOnClick_cases m mouse hstill with
        ⟨k', hk', -, heq⟩ | ⟨-, heq⟩
      · rw [heq, setFlipping_get] at hturn
        split at hturn
        · next he => exact he ▸ hk'
        · rw [hstill i] at hturn
          cases hturn
      · rw [heq, hstill i] at hturn
        cases hturn
    · rw [flipCardOnClickChecked_off fun k =>
        Bool.eq_false_iff.2 fun hk => hon ⟨k, hk⟩] at hrun
      cases hrun
  · intro hon
    refine ⟨_, flipCardOnClickChecked_on hon, ?_⟩
    rcases flipCardOnClick_cases m mouse hstill with
      ⟨k, hk, -, heq⟩ | ⟨hup, -⟩
    · obtain rfl := onCard_unique hon hk
      rw [heq, setFlipping_get, if_pos rfl]
    · rw [hup i hon] at hdown
      cases hdown

/-- A face-down card is painted where its back is. -/
theorem paintedAt_iff (hx : m.xResolution = 800) (hy : m.yResolution = 600)
    {a : BoardSprites} (hwidth : a.cardBack.width = 75)
    (hheight : a.cardBack.height = 109) {b : Board}
    (hstill : ∀ i, (b.card i).isFlipping = false)
    (hdown : (b.card i).isFlipped = true) :
    PaintedAt m a b i mouse
      ↔ (cellXY m i).1 ≤ mouse.x ∧ mouse.x < (cellXY m i).1 + 75
        ∧ (cellXY m i).2 ≤ mouse.y ∧ mouse.y < (cellXY m i).2 + 109 := by
  have hdraw : (drawGameCards m b).draws[i.val]?
      = some (.plain (cellXY m i).1 (cellXY m i).2 (-1) (-1)) := by
    rw [draws_still_get hx hy hstill, restingAt,
      if_neg (by simp [hdown])]
  have hi := i.isLt
  unfold PaintedAt
  rw [hdraw]
  simp only [Option.some.injEq, exists_eq_left', CardDraw.dots,
    vgDrawCard_back, drawPicture, mem_spriteLines, hwidth, hheight,
    cellXY_eq hx hy]
  constructor
  · rintro ⟨d, ⟨l, hl, c, hc, rfl⟩, hmx, hmy⟩
    rw [toUInt16_cast (by omega) (by omega)] at hmx hmy
    omega
  · rintro ⟨hleft, hright, htop, hbottom⟩
    obtain ⟨c, hc⟩ := Int.eq_ofNat_of_zero_le (sub_nonneg.2 hleft)
    obtain ⟨l, hl⟩ := Int.eq_ofNat_of_zero_le (sub_nonneg.2 htop)
    refine ⟨_, ⟨l, by omega, c, by omega, rfl⟩, ?_, ?_⟩
    · rw [toUInt16_cast (by omega) (by omega)]
      omega
    · rw [toUInt16_cast (by omega) (by omega)]
      omega

/-- At 800x600, with no card turning, a face-down card takes clicks
exactly where it is painted, but for the margin of its back. -/
theorem click_meets_drawing_iff (m : ModeInfo) (hx : m.xResolution = 800)
    (hy : m.yResolution = 600) (a : BoardSprites)
    (hwidth : a.cardBack.width = 75) (hheight : a.cardBack.height = 109)
    (b : Board) (hstill : ∀ i, (b.card i).isFlipping = false) (i : Fin 16)
    (hdown : (b.card i).isFlipped = true) (mouse : Mouse) :
    (ClickAccepted m mouse b.cardArray i ↔ PaintedAt m a b i mouse)
      ↔ ¬OnMargin m i mouse := by
  have hon : onCard m mouse i = true
      ↔ (cellXY m i).1 ≤ mouse.x ∧ mouse.x ≤ (cellXY m i).1 + cardWidth
        ∧ (cellXY m i).2 ≤ mouse.y ∧ mouse.y ≤ (cellXY m i).2 + cardHeight :=
    onCard_iff
  rw [clickAccepted_iff hstill hdown, hon,
    paintedAt_iff hx hy hwidth hheight hstill hdown]
  unfold OnMargin cardWidth cardHeight
  omega

end

/-- A black sprite. -/
def blankSprite (width height : UInt16) : Sprite :=
  { width := width.toNat, height := height.toNat, bytes := fun _ => 0
    width_lt := width.toNat_lt, height_lt := height.toNat_lt }

/-- Black sprites for the board, of the sizes it is meant for. -/
def blankSprites : BoardSprites :=
  { deck := blankSprite 950 392, cardBack := blankSprite 75 109
    background := blankSprite 800 600 }

/-- A board whose cards all lie face down. -/
def faceDownBoard : Board := Board.ofCards faceDownCards

/-- A cursor on the first card. -/
theorem click_meets_drawing_first :
    ClickAccepted mode0x115 ⟨210, 80⟩ faceDownBoard.cardArray 0
      ↔ PaintedAt mode0x115 blankSprites faceDownBoard 0 ⟨210, 80⟩ :=
  (click_meets_drawing_iff mode0x115 rfl rfl blankSprites rfl rfl
    faceDownBoard faceDownCards_still 0 (by decide) ⟨210, 80⟩).2
    (by unfold OnMargin; decide)

/-- A cursor on column 70 of the first card, which is painted and takes
no click. -/
theorem painted_not_clickable :
    PaintedAt mode0x115 blankSprites faceDownBoard 0 ⟨272, 80⟩
      ∧ ¬ClickAccepted mode0x115 ⟨272, 80⟩ faceDownBoard.cardArray 0 := by
  have hstill : ∀ i, (faceDownBoard.card i).isFlipping = false :=
    faceDownCards_still
  have hdown : (faceDownBoard.card 0).isFlipped = true := by decide
  constructor
  · exact (paintedAt_iff rfl rfl rfl rfl hstill hdown).2 (by decide)
  · exact mt (clickAccepted_iff hstill hdown).1 (by decide)

-- ============================================================ the buffer

/-- The size of a resting card on the screen. -/
def Card.restingSize (c : Card) : Nat × Nat :=
  if c.isFlipped = false then (69, 93) else (75, 109)

/-- What the pixel in column `c` and line `l` of a resting card is read
from: the card's picture in the deck, or the back. -/
def Card.restingSource (a : BoardSprites) (card : Card) (c l : Nat) :
    Source :=
  if card.isFlipped = false then
    .sprite a.deck (a.deck.offset (73 * card.x + c) (99 * card.y + l))
  else .sprite a.cardBack (a.cardBack.offset c l)

/-- The pixel in column `c` and line `l` of cell `i`. -/
def cellPixel (i : Fin 16) (c l : Nat) : Nat × Nat :=
  (((cellXY mode0x115 i).1 + c).toNat, ((cellXY mode0x115 i).2 + l).toNat)

/-- The buffer shows every card at its cell, and the background around
the cards. -/
structure BoardShown (a : BoardSprites) (junk : UInt8) (b : Board)
    (buf : Buffer) : Prop where
  card : ∀ i, ∀ c < (b.card i).restingSize.1, ∀ l < (b.card i).restingSize.2,
    HoldsColor mode0x115 buf (cellPixel i c l).1 (cellPixel i c l).2
      (((b.card i).restingSource a c l).color junk)
  around : ∀ x < 800, ∀ y < 600,
    (∀ i, ∀ c < (b.card i).restingSize.1, ∀ l < (b.card i).restingSize.2,
      cellPixel i c l ≠ (x, y)) →
    HoldsColor mode0x115 buf x y
      ((Source.sprite a.background (a.background.offset x y)).color junk)

/-- The three bytes read lie in the image. -/
def Source.Inside : Source → Prop
  | .sprite s offset => 0 ≤ offset ∧ offset + 3 ≤ 3 * (s.width * s.height)
  | .green => True

/-- The pixels of two pictures have no coordinates in common. -/
def Apart (ds ds' : List Dot) : Prop :=
  ∀ d ∈ ds, ∀ d' ∈ ds', (d.x, d.y) ≠ (d'.x, d'.y)

/-- The sizes of the sprites the board is meant for, background first. -/
structure BoardSprites.Meant (a : BoardSprites) : Prop where
  backgroundWidth : a.background.width = 800
  backgroundHeight : a.background.height = 600
  deckWidth : a.deck.width = 950
  deckHeight : a.deck.height = 392
  backWidth : a.cardBack.width = 75
  backHeight : a.cardBack.height = 109

section

variable {a : BoardSprites} {b : Board} {i j : Fin 16} {c l : Nat}

/-- The picture of a resting card. -/
def restingDots (a : BoardSprites) (b : Board) (i : Fin 16) : List Dot :=
  (restingAt (cellXY mode0x115 i).1 (cellXY mode0x115 i).2 (b.card i)).dots
    mode0x115 a b.cardArray

theorem Card.restingSize_le (card : Card) :
    card.restingSize.1 ≤ 75 ∧ card.restingSize.2 ≤ 109 := by
  unfold Card.restingSize
  split <;> decide

theorem mem_restingDots (ha : a.Meant) (hx : 0 ≤ (b.card i).x) {d : Dot} :
    d ∈ restingDots a b i
      ↔ ∃ l < (b.card i).restingSize.2, ∃ c < (b.card i).restingSize.1,
        d = ⟨toUInt16 ((cellXY mode0x115 i).1 + (c : Nat)),
          toUInt16 ((cellXY mode0x115 i).2 + (l : Nat)),
          (b.card i).restingSource a c l⟩ := by
  unfold restingDots restingAt Card.restingSize Card.restingSource
  cases hd : (b.card i).isFlipped with
  | false => exact mem_vgDrawCard rfl hx
  | true =>
      simp only [CardDraw.dots, vgDrawCard_back, Bool.true_eq_false, if_false]
      rw [mem_drawPicture rfl, ha.backWidth, ha.backHeight]

/-- The coordinates of a card's pixel, as they are passed on. -/
theorem cellPixel_cast (hc : c < 75) (hl : l < 109) :
    (toUInt16 ((cellXY mode0x115 i).1 + c)).toNat = (cellPixel i c l).1
      ∧ (toUInt16 ((cellXY mode0x115 i).2 + l)).toNat
        = (cellPixel i c l).2 := by
  have hx := @toUInt16_cast ((cellXY mode0x115 i).1 + c)
  have hy := @toUInt16_cast ((cellXY mode0x115 i).2 + l)
  have hi := i.isLt
  unfold cellPixel
  rw [@cellXY_eq mode0x115 rfl rfl] at hx hy ⊢
  dsimp only at hx hy ⊢
  have hx := hx (by omega) (by omega)
  have hy := hy (by omega) (by omega)
  omega

/-- The cells do not overlap. -/
theorem cellPixel_inj {c' l' : Nat} (hc : c < 75) (hl : l < 109)
    (hc' : c' < 75) (hl' : l' < 109)
    (h : cellPixel i c l = cellPixel j c' l') :
    i = j ∧ c = c' ∧ l = l' := by
  unfold cellPixel at h
  rw [@cellXY_eq mode0x115 rfl rfl, @cellXY_eq mode0x115 rfl rfl] at h
  obtain ⟨hx, hy⟩ := Prod.mk.inj h
  dsimp only at hx hy
  have hij : i.val = j.val := by omega
  exact ⟨Fin.ext hij, by omega, by omega⟩

theorem cellPixel_onScreen (hc : c < 75) (hl : l < 109) :
    (cellPixel i c l).1 < 800 ∧ (cellPixel i c l).2 < 600 := by
  have hi := i.isLt
  unfold cellPixel
  rw [@cellXY_eq mode0x115 rfl rfl]
  dsimp only
  omega

/-- A pixel of a resting card, by its coordinates. -/
theorem restingDots_pixel (ha : a.Meant) (hx : 0 ≤ (b.card i).x) {d : Dot}
    (hd : d ∈ restingDots a b i) :
    ∃ c < (b.card i).restingSize.1, ∃ l < (b.card i).restingSize.2,
      (d.x.toNat, d.y.toNat) = cellPixel i c l
        ∧ d.source = (b.card i).restingSource a c l := by
  obtain ⟨l, hl, c, hc, rfl⟩ := (mem_restingDots ha hx).1 hd
  obtain ⟨hw, hh⟩ := (b.card i).restingSize_le
  obtain ⟨hcx, hcy⟩ := @cellPixel_cast i c l (by omega) (by omega)
  exact ⟨c, hc, l, hl, Prod.ext hcx hcy, rfl⟩

/-- The pictures of two resting cards have no pixel in common. -/
theorem restingDots_apart (ha : a.Meant) (hx : ∀ i, 0 ≤ (b.card i).x)
    (hij : i ≠ j) : Apart (restingDots a b i) (restingDots a b j) := by
  intro d hd d' hd' he
  obtain ⟨c, hc, l, hl, hpix, -⟩ := restingDots_pixel ha (hx i) hd
  obtain ⟨c', hc', l', hl', hpix', -⟩ := restingDots_pixel ha (hx j) hd'
  obtain ⟨hw, hh⟩ := (b.card i).restingSize_le
  obtain ⟨hw', hh'⟩ := (b.card j).restingSize_le
  obtain ⟨hex, hey⟩ := Prod.mk.inj he
  rw [hex, hey, hpix'] at hpix
  exact hij (cellPixel_inj (by omega) (by omega) (by omega) (by omega)
    hpix.symm).1

/-- The pixels of a resting card lie on the screen. -/
theorem restingDots_onScreen (ha : a.Meant) (hx : 0 ≤ (b.card i).x)
    {d : Dot} (hd : d ∈ restingDots a b i) : d.OnScreen mode0x115 := by
  obtain ⟨c, hc, l, hl, hpix, -⟩ := restingDots_pixel ha hx hd
  obtain ⟨hw, hh⟩ := (b.card i).restingSize_le
  obtain ⟨hon, hon'⟩ := @cellPixel_onScreen i c l (by omega) (by omega)
  rw [← hpix] at hon hon'
  exact ⟨hon, hon'⟩

/-- A pixel of the background. -/
theorem mem_drawBackground (ha : a.Meant) {d : Dot} :
    d ∈ drawBackground mode0x115 a
      ↔ ∃ y < 600, ∃ x < 800, d = ⟨toUInt16 (x : Nat), toUInt16 (y : Nat),
        .sprite a.background (a.background.offset x y)⟩ := by
  unfold drawBackground
  rw [mem_drawPicture rfl, ha.backgroundWidth, ha.backgroundHeight]
  simp only [zero_add]

/-- After the background every pixel of the screen holds it. -/
theorem background_holds (ha : a.Meant) (junk : UInt8) (buf : Buffer)
    {x y : Nat} (hx : x < 800) (hy : y < 600) :
    HoldsColor mode0x115
      (paint mode0x115 junk buf (drawBackground mode0x115 a)) x y
      ((Source.sprite a.background (a.background.offset x y)).color junk) := by
  refine paint_holds (by decide) ?_ ?_ ?_
  · intro d hd
    obtain ⟨y', hy', x', hx', rfl⟩ := (mem_drawBackground ha).1 hd
    refine ⟨?_, ?_⟩
    · rw [toUInt16_natCast (show x' < 2 ^ 16 by omega)]
      exact hx'
    · rw [toUInt16_natCast (show y' < 2 ^ 16 by omega)]
      exact hy'
  · exact ⟨_, (mem_drawBackground ha).2 ⟨y, hy, x, hx, rfl⟩,
      toUInt16_natCast (by omega), toUInt16_natCast (by omega)⟩
  · intro d hd hdx hdy
    obtain ⟨y', hy', x', hx', rfl⟩ := (mem_drawBackground ha).1 hd
    dsimp only at hdx hdy ⊢
    rw [toUInt16_natCast (show x' < 2 ^ 16 by omega)] at hdx
    rw [toUInt16_natCast (show y' < 2 ^ 16 by omega)] at hdy
    rw [hdx, hdy]

/-- What `draw_game_cards` paints on a board that lies still. -/
theorem paintGameCards_still (a : BoardSprites)
    (hstill : ∀ i, (b.card i).isFlipping = false) :
    paintGameCards mode0x115 a b = drawBackground mode0x115 a
      ++ (List.finRange 16).flatMap (restingDots a b) := by
  unfold paintGameCards
  rw [drawGameCards_still rfl rfl hstill, List.flatMap_map]
  rfl

/-- Every card shows at its cell, and the background around the cards. -/
theorem boardShown_paint (ha : a.Meant)
    (hstill : ∀ i, (b.card i).isFlipping = false)
    (hx : ∀ i, 0 ≤ (b.card i).x) (junk : UInt8) (buf : Buffer) :
    BoardShown a junk b
      (paint mode0x115 junk buf (paintGameCards mode0x115 a b)) := by
  rw [paintGameCards_still a hstill, paint_append]
  have hon : ∀ d ∈ (List.finRange 16).flatMap (restingDots a b),
      d.OnScreen mode0x115 := by
    intro d hd
    obtain ⟨i, -, hd⟩ := List.mem_flatMap.1 hd
    exact restingDots_onScreen ha (hx i) hd
  constructor
  · intro i c hc l hl
    obtain ⟨hw, hh⟩ := (b.card i).restingSize_le
    obtain ⟨hcx, hcy⟩ := @cellPixel_cast i c l (by omega) (by omega)
    refine paint_holds (by decide) hon ⟨_, List.mem_flatMap.2
      ⟨i, List.mem_finRange i, (mem_restingDots ha (hx i)).2
        ⟨l, hl, c, hc, rfl⟩⟩, hcx, hcy⟩ ?_
    -- another card has no pixel there, and this one has one
    intro d hd hdx hdy
    obtain ⟨j, -, hd⟩ := List.mem_flatMap.1 hd
    obtain ⟨c', hc', l', hl', hpix, hsource⟩ :=
      restingDots_pixel ha (hx j) hd
    obtain ⟨hw', hh'⟩ := (b.card j).restingSize_le
    rw [hdx, hdy] at hpix
    obtain ⟨rfl, rfl, rfl⟩ := cellPixel_inj (by omega) (by omega)
      (by omega) (by omega) hpix
    exact hsource
  · intro x hx' y hy' hno
    refine paint_keeps (by decide) hon hx' hy' ?_
      (background_holds ha junk buf hx' hy')
    rintro d hd ⟨hdx, hdy⟩
    obtain ⟨i, -, hd⟩ := List.mem_flatMap.1 hd
    obtain ⟨c, hc, l, hl, hpix, -⟩ := restingDots_pixel ha (hx i) hd
    rw [hdx, hdy] at hpix
    exact hno i c hc l hl hpix.symm

/-- A pixel of an image, inside it. -/
theorem offset_inside {s : Sprite} {px py : Int} (hx : 0 ≤ px)
    (hxw : px < s.width) (hy : 0 ≤ py) (hyh : py < s.height) :
    (Source.sprite s (s.offset px py)).Inside := by
  have hrow := Int.mul_le_mul_of_nonneg_left
    (show py + 1 ≤ s.height by omega) (Int.natCast_nonneg s.width)
  have hpos := Int.mul_nonneg (Int.natCast_nonneg s.width) hy
  rw [mul_add, mul_one] at hrow
  unfold Source.Inside Sprite.offset
  omega

/-- No read of `draw_game_cards` leaves its image. -/
theorem paintGameCards_inside (ha : a.Meant)
    (hstill : ∀ i, (b.card i).isFlipping = false)
    (hcards : ∀ i, 0 ≤ (b.card i).x ∧ (b.card i).x ≤ 12
      ∧ 0 ≤ (b.card i).y ∧ (b.card i).y ≤ 3) :
    ∀ d ∈ paintGameCards mode0x115 a b, d.source.Inside := by
  intro d hd
  rw [paintGameCards_still a hstill, List.mem_append] at hd
  rcases hd with hd | hd
  · obtain ⟨y, hy, x, hx, rfl⟩ := (mem_drawBackground ha).1 hd
    have hw := ha.backgroundWidth
    have hh := ha.backgroundHeight
    exact offset_inside (by omega) (by omega) (by omega) (by omega)
  · obtain ⟨i, -, hd⟩ := List.mem_flatMap.1 hd
    obtain ⟨hx, hx12, hy, hy3⟩ := hcards i
    obtain ⟨c, hc, l, hl, -, hsource⟩ := restingDots_pixel ha hx hd
    rw [hsource]
    unfold Card.restingSize at hc hl
    unfold Card.restingSource
    have hdw := ha.deckWidth
    have hdh := ha.deckHeight
    have hbw := ha.backWidth
    have hbh := ha.backHeight
    split at hc
    · next hup =>
        rw [if_pos hup] at hl ⊢
        exact offset_inside (by omega) (by omega) (by omega) (by omega)
    · next hup =>
        rw [if_neg hup] at hl ⊢
        exact offset_inside (by omega) (by omega) (by omega) (by omega)

end

/-- In the game's mode and for sprites of the sizes it is meant for, on a
board of cards of the deck that lie still: after `draw_game_cards` the
buffer shows every card at its cell and the background around the cards,
no read leaves its image, and no two cards are drawn on one pixel. -/
theorem board_shown (a : BoardSprites) (ha : a.Meant) (b : Board)
    (hstill : ∀ i, (b.card i).isFlipping = false)
    (hcards : ∀ i, 0 ≤ (b.card i).x ∧ (b.card i).x ≤ 12
      ∧ 0 ≤ (b.card i).y ∧ (b.card i).y ≤ 3) (junk : UInt8)
    (buf : Buffer) :
    BoardShown a junk b
        (paint mode0x115 junk buf (paintGameCards mode0x115 a b))
      ∧ (∀ d ∈ paintGameCards mode0x115 a b, d.source.Inside)
      ∧ ∀ i j : Fin 16, i ≠ j → ∀ draw draw',
        (drawGameCards mode0x115 b).draws[i.val]? = some draw →
        (drawGameCards mode0x115 b).draws[j.val]? = some draw' →
        Apart (draw.dots mode0x115 a b.cardArray)
          (draw'.dots mode0x115 a b.cardArray) := by
  refine ⟨boardShown_paint ha hstill (fun i => (hcards i).1) junk buf,
    paintGameCards_inside ha hstill hcards, ?_⟩
  intro i j hij draw draw' hi hj
  rw [draws_still_get rfl rfl hstill] at hi hj
  cases hi
  cases hj
  exact restingDots_apart ha (fun i => (hcards i).1) hij

/-- A board of face-down cards, drawn with black sprites. -/
theorem board_shown_faceDown :
    BoardShown blankSprites 0 faceDownBoard (paint mode0x115 0 (fun _ => 0)
      (paintGameCards mode0x115 blankSprites faceDownBoard)) :=
  (board_shown blankSprites ⟨rfl, rfl, rfl, rfl, rfl, rfl⟩ faceDownBoard
    faceDownCards_still (by decide) 0 fun _ => 0).1

end Lcom.Proj
