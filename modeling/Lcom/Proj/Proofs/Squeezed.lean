/-
What a turning card shows.

The pointer moves by `increaseWidth` pixels after every column and, at
the end of a line, by what is left of the deck's line after a whole card.
The columns have taken it `CARD_WIDTH / increaseWidth * increaseWidth`
pixels far, so unless the width divides `CARD_WIDTH` every line starts
some pixels short of the one below: the picture slants. The back skips
nothing at the end of a line and slants in the same way unless the width
divides its width.
-/
import Lcom.Proj.MainLoop
import Lcom.Proj.Proofs.Deal
import Lcom.Proj.Proofs.Sprites

namespace Lcom.Proj

-- ========================================================= the property

/-- The picture shows pixel `(px, py)` of the sprite at `(x, y)`. -/
def ShowsPixel (ds : List Dot) (x y : Int) (s : Sprite) (px py : Int) :
    Prop :=
  ∃ source, shown ds (toUInt16 x, toUInt16 y) = some source
    ∧ ∀ junk, source.color junk
      = (Source.sprite s (s.offset px py)).color junk

/-- The sizes of the deck and the card back. -/
structure CardSizes where
  deckWidth : Nat
  deckHeight : Nat
  backWidth : Nat
  backHeight : Nat

/-- The sizes are `uint16_t`. -/
def CardSizes.Valid (z : CardSizes) : Prop :=
  z.deckWidth < 2 ^ 16 ∧ z.deckHeight < 2 ^ 16 ∧ z.backWidth < 2 ^ 16
    ∧ z.backHeight < 2 ^ 16

/-- The sprites have these sizes. -/
structure BoardSprites.Sized (a : BoardSprites) (z : CardSizes) : Prop where
  deckWidth : a.deck.width = z.deckWidth
  deckHeight : a.deck.height = z.deckHeight
  backWidth : a.cardBack.width = z.backWidth
  backHeight : a.cardBack.height = z.backHeight

section

variable (m : ModeInfo) (z : CardSizes) (cards : Cards) (i : Fin 16)
  (w : Int)

/-- Whatever the deck looks like, the front of turning card `i` shows
every `w`-th column of the card, and for `w = 1` what `vg_draw_card`
shows. -/
def FrontShows : Prop :=
  ∀ a : BoardSprites, a.Sized z → ∀ c l : Nat, c < cardWidth / w →
    l < cardHeight →
    let screen := getCardsScreenXY m (i.val % 4 : Nat) (i.val / 4 : Nat)
    let ds := (CardDraw.squeezed i true w).dots m a cards
    ShowsPixel ds (screen.1 + c) (screen.2 + l) a.deck
        (73 * (cards.get i).x + c * w) (99 * (cards.get i).y + l)
      ∧ (w = 1 → shown ds (toUInt16 (screen.1 + c), toUInt16 (screen.2 + l))
        = shown (vgDrawCard m a screen.1 screen.2 (cards.get i).x
            (cards.get i).y)
          (toUInt16 (screen.1 + c), toUInt16 (screen.2 + l)))

/-- Whatever the card back looks like, the back of turning card `i` shows
every `w`-th column of it, and for `w = 1` what `vg_draw_card` shows. -/
def BackShows : Prop :=
  ∀ a : BoardSprites, a.Sized z → ∀ c l : Nat, c < z.backWidth / w →
    l < z.backHeight →
    let screen := getCardsScreenXY m (i.val % 4 : Nat) (i.val / 4 : Nat)
    let ds := (CardDraw.squeezed i false w).dots m a cards
    ShowsPixel ds (screen.1 + c) (screen.2 + l) a.cardBack (c * w) l
      ∧ (w = 1 → shown ds (toUInt16 (screen.1 + c), toUInt16 (screen.2 + l))
        = shown (vgDrawCard m a screen.1 screen.2 (-1) (-1))
          (toUInt16 (screen.1 + c), toUInt16 (screen.2 + l)))

/-- The picture of a turning card shows the card. -/
def SqueezedShows (front : Bool) : Prop :=
  if front then FrontShows m z cards i w else BackShows m z cards i w

end

/-- The width divides the picture's, or leaves no column of it, or there
is at most one line. -/
def SqueezesEvenly (width height : Nat) (w : Int) : Prop :=
  (width : Int) % w = 0 ∨ width < w ∨ height ≤ 1

-- ============================================================== offsets

/-- Where the loop over a squeezed picture reads in column `c` and line
`l`. -/
def readAt (start : Int) (cols : Nat) (w skip : Int) (c l : Nat) : Int :=
  start + l * (cols * (3 * w) + 3 * skip) + c * (3 * w)

/-- The loop over a squeezed picture: line `l` starts `l` lines of
`across` pixels after the start if and only if the columns and the skip
make up `across` pixels, or there is nothing to see. -/
theorem squeezed_offsets_iff (start : Int) {cols lines : Nat}
    {w skip across : Int} :
    (∀ c l : Nat, c < cols → l < lines →
        readAt start cols w skip c l = start + 3 * (c * w + across * l))
      ↔ cols = 0 ∨ lines ≤ 1 ∨ cols * w + skip = across := by
  unfold readAt
  constructor
  · intro h
    by_contra hne
    push Not at hne
    obtain ⟨hcols, hlines, hacross⟩ := hne
    have hone := h 0 1 (Nat.pos_of_ne_zero hcols) hlines
    apply hacross
    push_cast at hone
    linarith
  · rintro (rfl | hlines | rfl) c l hc hl
    · exact absurd hc (Nat.not_lt_zero c)
    · have hl0 : l = 0 := by omega
      subst hl0
      push_cast
      ring
    · ring

/-- A width of at least one leaves `width / w` columns. -/
theorem squeezed_cols_iff {width : Nat} {w : Int} (hw : 1 ≤ w) :
    ((width : Int).tdiv w).toNat = 0 ↔ width < w := by
  rw [Int.tdiv_eq_ediv_of_nonneg (by omega), Int.toNat_eq_zero]
  constructor
  · intro h
    by_contra hle
    have hone := (Int.le_ediv_iff_mul_le (by omega)).2
      (show 1 * w ≤ (width : Int) by omega)
    omega
  · intro h
    exact (Int.ediv_eq_zero_of_lt (by omega) h).le

theorem squeezed_cols_cast {width : Nat} {w : Int} (hw : 1 ≤ w) :
    ((((width : Int).tdiv w).toNat : Nat) : Int) = width / w := by
  rw [Int.tdiv_eq_ediv_of_nonneg (by omega), Int.toNat_of_nonneg]
  exact Int.ediv_nonneg (by omega) (by omega)

/-- The condition, in terms of the loop. -/
theorem squeezesEvenly_iff {width height : Nat} {w skip across : Int}
    (hw : 1 ≤ w) (hacross : width + skip = across) :
    SqueezesEvenly width height w
      ↔ ((width : Int).tdiv w).toNat = 0 ∨ height ≤ 1
        ∨ ((width : Int).tdiv w).toNat * w + skip = across := by
  have hdiv := Int.ediv_mul_add_emod (width : Int) w
  have hwhole : (width : Int) % w = 0 ↔ (width : Int) / w * w + skip = across := by
    omega
  unfold SqueezesEvenly
  rw [squeezed_cols_iff hw, squeezed_cols_cast hw, hwhole]
  tauto

/-- A sprite that is black but for one byte. -/
def spotted (width height : Nat) (hw : width < 2 ^ 16)
    (hh : height < 2 ^ 16) (spot : Int) : Sprite :=
  { width, height, bytes := fun o => if o = spot then 1 else 0
    width_lt := hw, height_lt := hh }

/-- Its colour where the spot comes first is that of no other place. -/
theorem spotted_color {width height : Nat} {hw : width < 2 ^ 16}
    {hh : height < 2 ^ 16} {spot o : Int}
    (h : (Source.sprite (spotted width height hw hh spot) spot).color 0
      = (Source.sprite (spotted width height hw hh spot) o).color 0) :
    o = spot := by
  by_contra hne
  have hnat := congrArg UInt32.toNat h
  unfold Source.color spotted at hnat
  dsimp only at hnat
  rw [if_pos rfl, if_neg (by omega), if_neg (by omega), if_neg hne] at hnat
  revert hnat
  split <;> split <;> decide

/-- Sprites of the given sizes, black but for one byte each. -/
def CardSizes.spottedSprites (z : CardSizes) (h : z.Valid) (spot : Int) :
    BoardSprites :=
  { deck := spotted z.deckWidth z.deckHeight h.1 h.2.1 spot
    cardBack := spotted z.backWidth z.backHeight h.2.2.1 h.2.2.2 spot
    background := spotted z.backWidth z.backHeight h.2.2.1 h.2.2.2 spot }

theorem CardSizes.spottedSprites_sized (z : CardSizes) (h : z.Valid)
    (spot : Int) : (z.spottedSprites h spot).Sized z := ⟨rfl, rfl, rfl, rfl⟩

-- =========================================================== both sides

section

variable {m : ModeInfo} {z : CardSizes} {cards : Cards} {i : Fin 16}
  {w : Int}

theorem showsPixel_of_offset {ds : List Dot} {x y px py o : Int}
    {s : Sprite} (h : shown ds (toUInt16 x, toUInt16 y)
      = some (.sprite s o)) (ho : o = s.offset px py) :
    ShowsPixel ds x y s px py :=
  ⟨_, h, fun junk => by rw [ho]⟩

/-- A spotted sprite shows the right pixel only where it is read. -/
theorem offset_of_showsPixel {ds : List Dot} {x y px py spot : Int}
    {width height : Nat} {hw : width < 2 ^ 16} {hh : height < 2 ^ 16}
    (h : shown ds (toUInt16 x, toUInt16 y)
      = some (.sprite (spotted width height hw hh spot) spot))
    (hs : ShowsPixel ds x y (spotted width height hw hh spot) px py) :
    spot = (spotted width height hw hh spot).offset px py := by
  obtain ⟨source, hsource, hcolor⟩ := hs
  cases h.symm.trans hsource
  exact (spotted_color (hcolor 0)).symm

/-- What the front shows, in terms of the pointer. -/
theorem front_shown (h24 : m.bitsPerPixel = 24) (hw : 1 ≤ w)
    (a : BoardSprites) {screenX screenY positionX positionY : Int}
    (ds : List Dot) {c l : Nat} (hc : c < (((69 : Nat) : Int).tdiv w).toNat)
    (hl : l < 93) :
    shown (ds ++ squeezedFront m a screenX screenY positionX positionY w)
        (toUInt16 (screenX + c), toUInt16 (screenY + l))
      = some (.sprite a.deck (readAt
        (3 * (positionX * 73 + a.deck.width * (positionY * 99)))
        (((69 : Nat) : Int).tdiv w).toNat w (a.deck.width - cardWidth) c
        l)) := by
  have hcols : (((69 : Nat) : Int).tdiv w).toNat ≤ 69 := by
    have hle := Int.ediv_le_self w (Int.natCast_nonneg 69)
    have hcast := @squeezed_cols_cast 69 w hw
    omega
  unfold squeezedFront deckStart readAt
  rw [spriteStep_24 h24, cardHeight_toNat, ← cardWidth_cast] at *
  rw [spriteLines_shown ds (by omega) (by omega) hc hl,
    mul_comm 3 (positionX * 73 + _)]

/-- What the back shows. -/
theorem back_shown (h24 : m.bitsPerPixel = 24) (hw : 1 ≤ w)
    (a : BoardSprites) {screenX screenY : Int} (ds : List Dot) {c l : Nat}
    (hc : c < ((a.cardBack.width : Int).tdiv w).toNat)
    (hl : l < a.cardBack.height) :
    shown (ds ++ squeezedBack m a screenX screenY w)
        (toUInt16 (screenX + c), toUInt16 (screenY + l))
      = some (.sprite a.cardBack
        (readAt 0 ((a.cardBack.width : Int).tdiv w).toNat w 0 c l)) := by
  have hcols : ((a.cardBack.width : Int).tdiv w).toNat ≤ a.cardBack.width := by
    have hle := Int.ediv_le_self w (Int.natCast_nonneg a.cardBack.width)
    have hcast := @squeezed_cols_cast a.cardBack.width w hw
    omega
  have hwidth := a.cardBack.width_lt
  unfold squeezedBack readAt
  rw [spriteStep_24 h24,
    spriteLines_shown ds (by omega) a.cardBack.height_lt.le hc hl, mul_zero]

/-- With a width of one the loops of the front are those of
`vg_draw_card`. -/
theorem squeezedFront_one (a : BoardSprites)
    {screenX screenY positionX positionY : Int} (hx : 0 ≤ positionX) :
    squeezedFront m a screenX screenY positionX positionY 1
      = vgDrawCard m a screenX screenY positionX positionY := by
  unfold vgDrawCard squeezedFront
  rw [if_neg (by omega), mul_one, Int.tdiv_one]

theorem squeezedBack_one (a : BoardSprites) {screenX screenY : Int} :
    squeezedBack m a screenX screenY 1
      = vgDrawCard m a screenX screenY (-1) (-1) := by
  unfold vgDrawCard squeezedBack drawPicture
  rw [if_pos ⟨rfl, rfl⟩, mul_one, Int.tdiv_one, Int.toNat_natCast]

theorem frontShows_iff (h24 : m.bitsPerPixel = 24) (hz : z.Valid)
    (hw : 1 ≤ w) (hx : 0 ≤ (cards.get i).x) :
    FrontShows m z cards i w ↔ SqueezesEvenly 69 93 w := by
  have hcast := @squeezed_cols_cast 69 w hw
  have h93 : cardHeight = 93 := rfl
  have hacross : ((69 : Nat) : Int) + (z.deckWidth - cardWidth)
      = z.deckWidth := by
    rw [cardWidth_cast]
    omega
  rw [squeezesEvenly_iff hw hacross, ← squeezed_offsets_iff
    (3 * ((cards.get i).x * 73 + z.deckWidth * ((cards.get i).y * 99)))]
  constructor
  · -- a deck whose only spot is where the pointer reads
    intro h c l hc hl
    obtain ⟨hshows, -⟩ := h _ (z.spottedSprites_sized hz (readAt _ _ w _ c l))
      c l (by rw [cardWidth_cast, ← hcast]; exact_mod_cast hc)
      (by rw [h93]; omega)
    refine (offset_of_showsPixel
      (front_shown h24 hw (z.spottedSprites hz _) _ hc hl) hshows).trans ?_
    show 3 * (_ + (z.deckWidth : Int) * _) = _
    ring
  · intro h a ha c l hc hl
    rw [cardWidth_cast, ← hcast] at hc
    have hc' := Int.ofNat_lt.1 hc
    have hl' : l < 93 := by omega
    have hread := h c l hc' hl'
    rw [← ha.deckWidth] at hread
    refine ⟨showsPixel_of_offset (front_shown h24 hw a _ hc' hl') ?_, ?_⟩
    · refine hread.trans ?_
      unfold Sprite.offset
      ring
    · rintro rfl
      rw [← squeezedFront_one a hx, ← List.nil_append (squeezedFront ..)]
      exact (front_shown h24 hw a _ hc' hl').trans
        (front_shown h24 hw a [] hc' hl').symm

theorem backShows_iff (h24 : m.bitsPerPixel = 24) (hz : z.Valid)
    (hw : 1 ≤ w) :
    BackShows m z cards i w
      ↔ SqueezesEvenly z.backWidth z.backHeight w := by
  have hcast := @squeezed_cols_cast z.backWidth w hw
  rw [squeezesEvenly_iff hw (add_zero (z.backWidth : Int)),
    ← squeezed_offsets_iff 0]
  constructor
  · intro h c l hc hl
    obtain ⟨hshows, -⟩ := h _ (z.spottedSprites_sized hz (readAt 0 _ w 0 c l))
      c l (by rw [← hcast]; exact_mod_cast hc) hl
    refine (offset_of_showsPixel (back_shown h24 hw (z.spottedSprites hz _) _
      hc hl) hshows).trans ?_
    exact (zero_add _).symm
  · intro h a ha c l hc hl
    have hc' : c < ((z.backWidth : Int).tdiv w).toNat := by omega
    have hread := h c l hc' hl
    rw [← ha.backWidth] at hc' hread
    rw [← ha.backHeight] at hl
    refine ⟨showsPixel_of_offset (back_shown h24 hw a _ hc' hl) ?_, ?_⟩
    · exact hread.trans (zero_add _)
    · rintro rfl
      rw [← squeezedBack_one a, ← List.nil_append (squeezedBack ..)]
      exact (back_shown h24 hw a _ hc' hl).trans
        (back_shown h24 hw a [] hc' hl).symm

end

-- =========================================================== the result

/-- A picture a flip function draws has the width of the board. -/
theorem flipDraws_width {facing front : Bool} {b : Board} {i : Fin 16}
    {w : Int} (h : .squeezed i front w ∈ flipDraws facing b) :
    w = b.increaseWidth := by
  obtain ⟨j, -, hj⟩ := List.mem_filterMap.1 h
  split at hj
  · cases hj
    rfl
  · cases hj

/-- In the 24-bit modes, for every picture `flipACardUp` or
`flipACardDown` draws and all sizes of the sprites: it shows the card, or
the back, exactly if the width divides that of the card, or of the back,
or leaves no column of it. -/
theorem squeezed_shows_iff (m : ModeInfo) (h24 : m.bitsPerPixel = 24)
    (z : CardSizes) (hz : z.Valid) (facing : Bool) (b : Board)
    (hw : 1 ≤ b.increaseWidth) (i : Fin 16) (hx : 0 ≤ (b.card i).x)
    (front : Bool) (w : Int)
    (hd : .squeezed i front w ∈ flipDraws facing b) :
    SqueezedShows m z b.cardArray i w front
      ↔ if front then SqueezesEvenly 69 93 w
        else SqueezesEvenly z.backWidth z.backHeight w := by
  have hw' : 1 ≤ w := by rw [flipDraws_width hd]; exact hw
  cases front with
  | true => exact frontShows_iff h24 hz hw' hx
  | false => exact backShows_iff h24 hz hw'

/-- The sizes of the game's sprites. -/
def gameSizes : CardSizes :=
  { deckWidth := 950, deckHeight := 392, backWidth := 75, backHeight := 109 }

theorem gameSizes_valid : gameSizes.Valid := by
  unfold CardSizes.Valid
  decide

/-- The dealt board with every card turning, at the given width. -/
def turningBoard (w : Int) : Board :=
  { cardArray := orderedCards.map Card.startFlipping, increaseWidth := w
    otherSide := List.Vector.replicate 16 0 }

/-- At width 3 the first card shows every third column of itself. -/
theorem squeezed_shows_third :
    SqueezedShows mode0x115 gameSizes (turningBoard 3).cardArray 0 3 true :=
  (squeezed_shows_iff mode0x115 rfl gameSizes gameSizes_valid false
    (turningBoard 3) (by decide) 0 (by decide) true 3 (by decide)).2
    (.inl (by decide))

/-- At width 2, the second of every turn, the first card does not show
itself. -/
theorem squeezed_slants :
    CardDraw.squeezed 0 true 2 ∈ flipDraws false (turningBoard 2)
      ∧ ¬SqueezedShows mode0x115 gameSizes (turningBoard 2).cardArray 0 2
        true := by
  refine ⟨by decide, fun h => ?_⟩
  have heven := (frontShows_iff rfl gameSizes_valid (by decide)
    (by decide)).1 h
  unfold SqueezesEvenly at heven
  revert heven
  decide

end Lcom.Proj
