/-
What the drawing functions paint (proj/src/game.c, proj/src/video.c):
every call of `my_draw_pixel`, with its coordinates and where its colour
comes from.

A drawing function is the list of its pixels in order. All pictures go
through one loop (`spriteLines`): a pointer into the sprite moves by a
fixed number of bytes after every column and by another after every
line. A plain picture moves by one pixel and skips nothing; a card of
the deck skips the rest of the deck's line; a turning card moves by
`increaseWidth` pixels.

`memcpy(&color, sprite, 3)` fills three bytes of a variable that was
never assigned; the fourth is whatever it held (`junk`), and reaches the
buffer in the 32-bit modes only.
-/
import Lcom.Proj.Game

namespace Lcom.Proj

-- ============================================================== sprites

/-- `xpm_image_t` as `xpm_load` fills it in, and the memory around the
pointer it returns. -/
structure Sprite where
  width : Nat
  height : Nat
  bytes : Int → UInt8
  width_lt : width < 2 ^ 16
  height_lt : height < 2 ^ 16

/-- `(modeinfo.BitsPerPixel + 7) / 8`. -/
def ModeInfo.spriteStep (m : ModeInfo) : Int :=
  ((m.bitsPerPixel + 7) / 8 : Nat)

/-- Where the colour of a pixel comes from: the three bytes at an offset
of a sprite, or the green of the table. -/
inductive Source
  | sprite (s : Sprite) (offset : Int)
  | green

/-- The colour `my_draw_pixel` is given. -/
def Source.color (junk : UInt8) : Source → UInt32
  | .sprite s offset =>
      UInt32.ofNat ((s.bytes offset).toNat
        + 256 * ((s.bytes (offset + 1)).toNat
          + 256 * ((s.bytes (offset + 2)).toNat + 256 * junk.toNat)))
  | .green => 0x22B14C

/-- A call of `my_draw_pixel`. -/
structure Dot where
  x : UInt16
  y : UInt16
  source : Source

/-- The buffer after the calls. -/
def paint (m : ModeInfo) (junk : UInt8) (buf : Buffer) (ds : List Dot) :
    Buffer :=
  ds.foldl
    (fun buf d => (myDrawPixel m buf d.x d.y (d.source.color junk)).2) buf

-- ================================================================ loops

/-- The inner loop over `n` columns from `col` on: its pixels, and the
pointer after them. -/
def spriteLine (s : Sprite) (advance line : Int) :
    Nat → Int → Int → List Dot × Int
  | 0, _, pointer => ([], pointer)
  | n + 1, col, pointer =>
      let rest := spriteLine s advance line n (col + 1) (pointer + advance)
      (⟨toUInt16 col, toUInt16 line, .sprite s pointer⟩ :: rest.1, rest.2)

/-- The outer loop over `n` lines from `line` on. -/
def spriteLines (s : Sprite) (advance skip : Int) (cols : Nat) (col : Int) :
    Nat → Int → Int → List Dot
  | 0, _, _ => []
  | n + 1, line, pointer =>
      let drawn := spriteLine s advance line cols col pointer
      drawn.1
        ++ spriteLines s advance skip cols col n (line + 1) (drawn.2 + skip)

/-- The loops of a plain picture at `(screenX, screenY)`. -/
def drawPicture (m : ModeInfo) (s : Sprite) (screenX screenY : Int) :
    List Dot :=
  spriteLines s m.spriteStep 0 s.width screenX s.height screenY 0

/-- `greenScreen`. -/
def greenScreen (m : ModeInfo) : List Dot :=
  (List.range m.yResolution).flatMap fun i =>
    (List.range m.xResolution).map fun j =>
      ⟨toUInt16 j, toUInt16 i, .green⟩

/-- `n` values from `start` on, up to a `break` at `stop`. -/
def untilEdge (start : Int) (n : Nat) (stop : Int) : List Int :=
  ((List.range n).map fun k => start + (k : Int)).takeWhile (· ≠ stop)

/-- `greenPartOfScreen`. -/
def greenPartOfScreen (m : ModeInfo) (x y width height : Int) : List Dot :=
  (untilEdge y height.toNat m.yResolution).flatMap fun i =>
    (untilEdge x width.toNat m.xResolution).map fun j =>
      ⟨toUInt16 j, toUInt16 i, .green⟩

-- ============================================================= the cards

/-- The pictures the board is drawn from. -/
structure BoardSprites where
  deck : Sprite
  cardBack : Sprite
  background : Sprite

/-- Where the picture of a card starts in the deck: column `positionX`
and row `positionY`, 73 and 99 pixels apart. -/
def deckStart (m : ModeInfo) (deck : Sprite) (positionX positionY : Int) :
    Int :=
  (positionX * 73 + deck.width * (positionY * 99)) * m.spriteStep

/-- `vg_draw_card`; position `(-1, -1)` is the back. -/
def vgDrawCard (m : ModeInfo) (a : BoardSprites)
    (screenX screenY positionX positionY : Int) : List Dot :=
  if positionX = -1 ∧ positionY = -1 then
    drawPicture m a.cardBack screenX screenY
  else
    spriteLines a.deck m.spriteStep
      (m.spriteStep * (a.deck.width - cardWidth)) cardWidth.toNat screenX
      cardHeight.toNat screenY (deckStart m a.deck positionX positionY)

/-- The front of a turning card, in the loops the flip functions share. -/
def squeezedFront (m : ModeInfo) (a : BoardSprites)
    (screenX screenY positionX positionY increaseWidth : Int) : List Dot :=
  spriteLines a.deck (m.spriteStep * increaseWidth)
    (m.spriteStep * (a.deck.width - cardWidth))
    (cardWidth.tdiv increaseWidth).toNat screenX cardHeight.toNat screenY
    (deckStart m a.deck positionX positionY)

/-- The back of a turning card. -/
def squeezedBack (m : ModeInfo) (a : BoardSprites)
    (screenX screenY increaseWidth : Int) : List Dot :=
  spriteLines a.cardBack (m.spriteStep * increaseWidth) 0
    ((a.cardBack.width : Int).tdiv increaseWidth).toNat screenX
    a.cardBack.height screenY 0

/-- The pixels of one picture of `draw_game_cards`. A turning card is
painted over in green first. -/
def CardDraw.dots (m : ModeInfo) (a : BoardSprites) (cards : Cards) :
    CardDraw → List Dot
  | .plain screenX screenY positionX positionY =>
      vgDrawCard m a screenX screenY positionX positionY
  | .squeezed i front increaseWidth =>
      let screen := getCardsScreenXY m (i.val % 4 : Nat) (i.val / 4 : Nat)
      greenPartOfScreen m screen.1 screen.2 cardWidth cardHeight
        ++ if front then
          squeezedFront m a screen.1 screen.2 (cards.get i).x (cards.get i).y
            increaseWidth
        else squeezedBack m a screen.1 screen.2 increaseWidth

/-- `drawBackground`. -/
def drawBackground (m : ModeInfo) (a : BoardSprites) : List Dot :=
  drawPicture m a.background 0 0

/-- What `draw_game_cards` paints. -/
def paintGameCards (m : ModeInfo) (a : BoardSprites) (b : Board) :
    List Dot :=
  drawBackground m a
    ++ (drawGameCards m b).draws.flatMap (CardDraw.dots m a b.cardArray)

end Lcom.Proj
