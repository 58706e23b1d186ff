/-
The game elements (proj/src/game.c): the deal, the cursor, the turning
animation and the click.

# The deal

`initialize_game_cards` draws from `rand()`; the values it will return
are the list the deal consumes. The selection loop rejects repeated
pairs and may reject forever, so a list that ends before eight pairs
are chosen leaves the deal unfinished, which is `none`.

# The animation

One global `increaseWidth` drives every turning card. `draw_game_cards`
walks the board and calls a flip function once for EACH turning card it
meets, and each call moves the width once per turning card on the
board. `flipACardUp` and `flipACardDown` are one loop with three
parameters (`flipCards`): the face they turn, the width at which they
stop, and which side shows the deck picture.

The divisions by `increaseWidth` happen while a turning card is drawn.
A zero width kills the process there, so a frame records every drawing
with its width and whether it was cut short (`Frame.trapped`).

# The click

`flipCardOnClick` reads `posInArray` after sixteen tests that may all
have failed. The model takes the unassigned read to leave the array as
it is: a click on no card does nothing. `flipCardOnClickChecked` has no
result there instead.
-/
import Lcom.Proj.Structs
import Lcom.Proj.Video

namespace Lcom.Proj

/-- `CARD_WIDTH`. -/
def cardWidth : Int := 69

/-- `CARD_HEIGHT`. -/
def cardHeight : Int := 93

-- ========================================================= the deal

/-- `RAND_MAX` (stdlib.h). -/
def randMax : Nat := 0x7fffffff

/-- A value `rand()` returns. -/
abbrev Rand := Fin (randMax + 1)

/-- The arrays `first` and `second` of the selection loop, side by
side: deck row and deck column of each chosen card. -/
abbrev Picks := List.Vector (Nat × Nat) 8

/-- The inner loop of the selection, over the entries `j < i`: the
candidate is stored at `i` until an equal entry is met, which the flag
reports. -/
def scanPicks (i : Fin 8) (cand : Nat × Nat) :
    List (Fin 8) → Picks → Picks × Bool
  | [], picks => (picks, false)
  | j :: js, picks =>
      if cand = picks.get j then (picks, true)
      else scanPicks i cand js (picks.set i cand)

/-- The selection loop from entry `i` on. A repeated pair steps `i`
back, so the next round fills the same entry again. -/
def selectCards : List Rand → Nat → Picks → Option (Picks × List Rand)
  | rands, i, picks =>
      if h : i < 8 then
        match rands with
        | rf :: rs :: rest =>
            let r := scanPicks ⟨i, h⟩ (rf.val % 4, rs.val % 13)
              ((List.finRange 8).filter fun j => j.val < i) picks
            selectCards rest (if r.2 then i else i + 1) r.1
        | _ => none
      else some (picks, rands)

/-- A freshly dealt card. -/
def dealCard (p : Nat × Nat) : Card :=
  { x := p.2, y := p.1, isFlipped := false, isFlipping := false
    flipSuccess := false, num := getCardNumber p.2
    suit := getCardSuit p.1 }

/-- The pick that lies at position `k`: pick `i` is laid at `i` and at
`15 - i`. -/
def pickAt (k : Fin 16) : Fin 8 :=
  if h : k.val < 8 then ⟨k.val, h⟩ else ⟨15 - k.val, by omega⟩

/-- Each chosen card is laid twice. -/
def layCards (picks : Picks) : Cards :=
  .ofFn fun k => dealCard (picks.get (pickAt k))

/-- The index the shuffle swaps with `i`. -/
def shuffleIndex (i r : Nat) : Nat := i + r / (randMax / (16 - i) + 1)

/-- One swap of the shuffle. An index outside the array would be
undefined behaviour; the model leaves the board alone there. -/
def swapCards (cards : Cards) (i j : Nat) : Cards :=
  if h : i < 16 ∧ j < 16 then
    .ofFn fun k => cards.get (Equiv.swap ⟨i, h.1⟩ ⟨j, h.2⟩ k)
  else cards

/-- The shuffle loop, from `i` for `n` more rounds. -/
def shuffleCards : Nat → Nat → List Rand → Cards → Option (Cards × List Rand)
  | 0, _, rands, cards => some (cards, rands)
  | n + 1, i, rands, cards =>
      match rands with
      | r :: rest =>
          shuffleCards n (i + 1) rest
            (swapCards cards i (shuffleIndex i r.val))
      | [] => none

/-- `initialize_game_cards`: choose eight cards, lay them twice,
shuffle. -/
def initializeGameCards (rands : List Rand) : Option Cards :=
  match rands with
  | rf :: rs :: rest =>
      match selectCards rest 1
          ((List.Vector.replicate 8 (0, 0)).set 0
            (rf.val % 4, rs.val % 13)) with
      | some (picks, rest) =>
          (shuffleCards 15 0 rest (layCards picks)).map Prod.fst
      | none => none
  | _ => none

/-- `initializePlayer`. -/
def initializePlayer : Player := { lives := 5, isAlive := true }

-- ======================================================= the cursor

/-- `create_mouse`. -/
def createMouse : Mouse := { x := 0, y := 0 }

/-- `update_mouse_position`. The guards test the whole displacement,
half of it is applied (C division truncates), and the vertical guards
use opposite signs. -/
def updateMousePosition (m : ModeInfo) (mouse : Mouse) (x y : Int) :
    Mouse :=
  { x :=
      if mouse.x + x < 0 then 0
      else if mouse.x + x ≥ m.xResolution then m.xResolution - 15
      else mouse.x + x.tdiv 2
    y :=
      if mouse.y - y < 0 then 0
      else if mouse.y + y ≥ m.yResolution then m.yResolution - 15
      else mouse.y - y.tdiv 2 }

/-- Width and height of the cursor picture (pixmap.h, `mouse_cursor`). -/
def mouseWidth : Nat := 50

def mouseHeight : Nat := 42

/-- The coordinates `draw_mouse` passes to `my_draw_pixel`, line by
line. The loops run over `int`; the call truncates. -/
def mousePixels (mouse : Mouse) : List (UInt16 × UInt16) :=
  (List.range mouseHeight).flatMap fun line =>
    (List.range mouseWidth).map fun col =>
      (toUInt16 (mouse.x + col), toUInt16 (mouse.y + line))

/-- `draw_mouse`, for a picture given by the colour of each of its
pixels in drawing order. -/
def drawMouse (m : ModeInfo) (sprite : Nat → UInt32) (buf : Buffer)
    (mouse : Mouse) : Buffer :=
  (mousePixels mouse).zipIdx.foldl
    (fun buf p => (myDrawPixel m buf p.1.1 p.1.2 (sprite p.2)).2) buf

-- ==================================================== the animation

/-- The board with its animation globals. -/
structure Board where
  cardArray : Cards
  increaseWidth : Int
  otherSide : List.Vector Int 16
  deriving DecidableEq

/-- `cardArray[i]`. -/
def Board.card (b : Board) (i : Fin 16) : Card := b.cardArray.get i

/-- The animation globals as the program starts. -/
def Board.ofCards (cards : Cards) : Board :=
  { cardArray := cards, increaseWidth := 1
    otherSide := List.Vector.replicate 16 0 }

/-- `otherSide` after the drawing loop of a flip function: past width
ten a turning card on face `facing` shows its other side. -/
def Board.markOtherSide (facing : Bool) (b : Board) :
    List.Vector Int 16 :=
  .zipWith (fun c o =>
    if c.isFlipping && decide (b.increaseWidth > 10)
        && c.isFlipped == facing then 1 else o)
    b.cardArray b.otherSide

/-- One round of the width loop: one step wider for a turning card
still on its first side, one narrower for one on its other side. -/
def widthStep (w : Int) (co : Card × Int) : Int :=
  if co.2 == 0 && co.1.isFlipping then w + 1
  else if co.1.isFlipping then w - 1
  else w

/-- The width loop. -/
def turnWidth (cards : Cards) (otherSide : List.Vector Int 16)
    (w : Int) : Int :=
  (cards.toList.zip otherSide.toList).foldl widthStep w

/-- Some card is turning. -/
def Board.anyFlipping (b : Board) : Bool :=
  b.cardArray.toList.any fun c => c.isFlipping

/-- The width a flip call moves to. -/
def Board.turned (facing : Bool) (b : Board) : Int :=
  turnWidth b.cardArray (b.markOtherSide facing) b.increaseWidth

/-- The common body of `flipACardUp` and `flipACardDown`: turn the
cards that show `facing`, stop at width `stop`. The flag is the return
value. -/
def flipCards (facing : Bool) (stop : Int) (b : Board) : Board × Bool :=
  if b.turned facing = stop then
    ({ cardArray := b.cardArray.map fun c =>
        if c.isFlipping then
          { c with isFlipping := false, isFlipped := !facing }
        else c
       increaseWidth := if b.anyFlipping then 1 else b.turned facing
       otherSide := .zipWith (fun c o => if c.isFlipping then 0 else o)
        b.cardArray (b.markOtherSide facing) }, true)
  else
    ({ b with increaseWidth := b.turned facing
              otherSide := b.markOtherSide facing }, false)

/-- `flipACardUp`: face-down cards, done at width 0. -/
def flipACardUp (b : Board) : Board × Bool := flipCards true 0 b

/-- `flipACardDown`: face-up cards, done at width 1. -/
def flipACardDown (b : Board) : Board × Bool := flipCards false 1 b

/-- A picture put on the screen by `draw_game_cards`: a resting card at
its offset, with the deck column and row `vg_draw_card` is given, or a
turning card with the side drawn and the width it is squeezed by. -/
inductive CardDraw
  | plain (screenX screenY positionX positionY : Int)
  | squeezed (i : Fin 16) (front : Bool) (increaseWidth : Int)
  deriving DecidableEq, Repr

/-- The pictures one call of a flip function draws. Turning down shows
the deck picture first, turning up shows it second. -/
def flipDraws (facing : Bool) (b : Board) : List CardDraw :=
  (List.finRange 16).filterMap fun i =>
    if (b.card i).isFlipping then
      some (.squeezed i
        (((b.markOtherSide facing).get i == 0) != facing) b.increaseWidth)
    else none

/-- The running offsets of `draw_game_cards`. -/
structure Pen where
  startX : Int
  startY : Int
  cardsPerLine : Nat
  deriving DecidableEq, Repr

/-- The offsets at the first card. -/
def Pen.home (m : ModeInfo) : Pen :=
  { startX := (m.xResolution / 2 : Nat) - 2 * (cardWidth + 30)
    startY := (m.yResolution / 2 : Nat) - 2 * (cardHeight + 20)
    cardsPerLine := 0 }

/-- The offsets after one card: next column, or the next line after
four. -/
def Pen.advance (m : ModeInfo) (p : Pen) : Pen :=
  if (p.cardsPerLine + 1) % 4 = 0 then
    { startX := (Pen.home m).startX
      startY := p.startY + (cardHeight + 20)
      cardsPerLine := p.cardsPerLine + 1 }
  else
    { startX := p.startX + (cardWidth + 30)
      startY := p.startY
      cardsPerLine := p.cardsPerLine + 1 }

/-- The `break` test at the end of the loop body. -/
def Pen.offScreen (m : ModeInfo) (p : Pen) : Bool :=
  p.startX + cardWidth + 20 > m.xResolution
    || p.startY + cardHeight + 10 > m.yResolution

/-- What one `draw_game_cards` leaves: the board, the pictures in
order, and whether a division by zero ended the process. -/
structure Frame where
  board : Board
  draws : List CardDraw
  trapped : Bool

/-- A frame as the loop goes on from it: the board, unless the process
died in it. -/
def Frame.result (f : Frame) : Option Board :=
  if f.trapped then none else some f.board

/-- One card of the loop: a flip call for a turning card, else the card
or its back. -/
def drawCard (p : Pen) (i : Fin 16) (b : Board) : Frame :=
  let c := b.card i
  if c.isFlipping then
    if b.increaseWidth = 0 then
      { board := b, draws := (flipDraws c.isFlipped b).take 1
        trapped := true }
    else
      { board := if c.isFlipped then (flipACardUp b).1
          else (flipACardDown b).1
        draws := flipDraws c.isFlipped b, trapped := false }
  else if c.isFlipped = false then
    { board := b, draws := [.plain p.startX p.startY c.x c.y]
      trapped := false }
  else
    { board := b, draws := [.plain p.startX p.startY (-1) (-1)]
      trapped := false }

/-- The loop of `draw_game_cards` over the remaining cards. -/
def drawCards (m : ModeInfo) : List (Fin 16) → Pen → Board → Frame
  | [], _, b => { board := b, draws := [], trapped := false }
  | i :: is, p, b =>
      let f := drawCard p i b
      if f.trapped then f
      else if (p.advance m).offScreen m then f
      else
        let g := drawCards m is (p.advance m) f.board
        { g with draws := f.draws ++ g.draws }

/-- `draw_game_cards`. -/
def drawGameCards (m : ModeInfo) (b : Board) : Frame :=
  drawCards m (List.finRange 16) (Pen.home m) b

-- ======================================================== the click

/-- `getCardsScreenXY` for column `x` and row `y`. -/
def getCardsScreenXY (m : ModeInfo) (x y : Int) : Int × Int :=
  ((m.xResolution / 2 : Nat) - 2 * (cardWidth + 30) + (cardWidth + 30) * x,
   (m.yResolution / 2 : Nat) - 2 * (cardHeight + 20)
    + (cardHeight + 20) * y)

/-- The hit test of one block of `flipCardOnClick`. -/
def hitsCell (m : ModeInfo) (mouse : Mouse) (x y : Int) : Bool :=
  let s := getCardsScreenXY m x y
  decide (mouse.x ≥ s.1) && decide (mouse.x ≤ s.1 + cardWidth)
    && decide (mouse.y ≥ s.2) && decide (mouse.y ≤ s.2 + cardHeight)

/-- The cursor lies on card `k`: the hit test of the block for column
`k % 4` and row `k / 4`. -/
def onCard (m : ModeInfo) (mouse : Mouse) (k : Fin 16) : Bool :=
  hitsCell m mouse (k.val % 4 : Nat) (k.val / 4 : Nat)

/-- The sixteen blocks in the order of the source, by the array index
`x + y * 4` each of them selects. -/
def clickBlocks : List (Fin 16) :=
  [0, 4, 2, 3, 1, 5, 6, 7, 8, 9, 10, 11, 12, 13, 14, 15]

/-- Set `isFlipping` of one card. -/
def setFlipping (cards : Cards) (k : Fin 16) (v : Bool) : Cards :=
  cards.set k { cards.get k with isFlipping := v }

/-- One block: a hit marks the card and remembers its index. -/
def clickBlock (m : ModeInfo) (mouse : Mouse)
    (st : Cards × Option (Fin 16)) (k : Fin 16) :
    Cards × Option (Fin 16) :=
  if onCard m mouse k then (setFlipping st.1 k true, some k) else st

/-- `flipCardOnClick`: the blocks, then the test that takes the mark
back from a face-up card. Where no block hits, the source tests a card
at an index that was never assigned; by convention nothing changes. -/
def flipCardOnClick (m : ModeInfo) (mouse : Mouse) (cards : Cards) :
    Cards :=
  match clickBlocks.foldl (clickBlock m mouse) (cards, none) with
  | (cards, none) => cards
  | (cards, some k) =>
      if (cards.get k).isFlipped = false then setFlipping cards k false
      else cards

end Lcom.Proj
