/-
The screen the main loop draws (proj/src/proj.c, proj/src/game.c): on
every tick the scene of the state, as far as the tick draws it, and the
cursor on top.

Beside the state runs a ghost, `Display`: for every byte of the buffer
who wrote it last, the scene or the cursor at some position, and where
the cursor was last drawn. It changes on ticks only; `sleep` and the
copies to video memory write nothing.

In `case Game` the board is redrawn while the preview runs and on even
ticks after it; on the other ticks the hearts alone are drawn, and the
cursor over what the buffer holds.
-/
import Lcom.Proj.Latches
import Lcom.Proj.Sprites
import Lcom.Machine.Overlay

namespace Lcom.Proj

open Machine

-- ============================================================== sprites

/-- The letters the menus are written in. -/
inductive Letter
  | a | c | e | i | l | m | n | o | p | r | s | t | u | x | y
  deriving DecidableEq, Repr

/-- The pictures `proj_main_loop` loads, and the letters. -/
structure GameSprites where
  board : BoardSprites
  mouse : Sprite
  heart : Sprite
  gameName : Sprite
  sun : Sprite
  moon : Sprite
  instructions : Sprite
  gameOver : Sprite
  victory : Sprite
  letter : Letter → Sprite

/-- `LETTER_WIDTH`. -/
def letterWidth : Int := 20

section

variable (m : ModeInfo) (g : GameSprites)

/-- A word, letter by letter. -/
def drawWord (startX startY : Int) (word : List Letter) : List Dot :=
  word.zipIdx.flatMap fun p =>
    drawPicture m (g.letter p.1) (startX + p.2 * (letterWidth + 5)) startY

/-- A word whose middle is that of the screen. -/
def drawCentered (startY : Int) (word : List Letter) : List Dot :=
  drawWord m g ((m.xResolution / 2 : Nat)
    - (word.length / 2 : Nat) * (letterWidth + 5)) startY word

/-- The last two lines of both menus. -/
def drawChoices : List Dot :=
  drawCentered m g 400 [.i, .n, .s, .t, .r, .u, .c, .t, .i, .o, .n, .s]
    ++ drawCentered m g 500 [.e, .x, .i, .t]

/-- `draw_menu`. -/
def drawMenu : List Dot :=
  drawPicture m g.gameName 268 50 ++ drawCentered m g 300 [.p, .l, .a, .y]
    ++ drawChoices m g

/-- `draw_pause`. -/
def drawPause : List Dot :=
  drawPicture m g.gameName 268 50
    ++ drawCentered m g 300 [.r, .e, .s, .u, .m, .e] ++ drawChoices m g

/-- `drawSun`. -/
def drawSun : List Dot := drawPicture m g.sun 0 10

/-- `drawMoon`. -/
def drawMoon : List Dot := drawPicture m g.moon 600 10

/-- `drawInstructions`. -/
def drawInstructions : List Dot := drawPicture m g.instructions 0 0

/-- A picture in the middle of the screen. -/
def drawInMiddle (s : Sprite) : List Dot :=
  drawPicture m s
    (((m.xResolution / 2 : Nat) : Int) - (s.width / 2 : Nat))
    (((m.yResolution / 2 : Nat) : Int) - (s.height / 2 : Nat))

/-- `draw_victory`. -/
def drawVictory : List Dot := drawInMiddle m g.victory

/-- `draw_game_over`. -/
def drawGameOver : List Dot := drawInMiddle m g.gameOver

/-- `drawHearts`. -/
def drawHearts (p1 : Player) : List Dot :=
  (List.range p1.lives).flatMap fun i =>
    drawPicture m g.heart (10 + i * (g.heart.width + 5)) 15

/-- What `draw_mouse` paints. -/
def paintMouse (mouse : Mouse) : List Dot :=
  drawPicture m g.mouse mouse.x mouse.y

-- =============================================================== scenes

/-- The tick draws the board anew. -/
def State.redraws (t : State) : Bool :=
  t.initGame || t.tmrTckCounter % 2 == 0

/-- What the `switch` paints, seeing state `t`; `hour` is `date.hour`. -/
def scene (hour : UInt32) (t : State) : List Dot :=
  match t.gs with
  | .menu =>
      greenScreen m ++ (if hour < 20 ∧ hour ≥ 6 then drawSun m g
        else drawMoon m g) ++ drawMenu m g
  | .game =>
      (if t.redraws then
        paintGameCards m g.board
          (if t.initGame then previewStart t else t).board
      else []) ++ drawHearts m g t.p1
  | .pause => greenScreen m ++ drawPause m g
  | .instructions => greenScreen m ++ drawInstructions m g
  | .exit =>
      greenScreen m ++ (if t.gameOver then drawGameOver m g
        else if t.victory then drawVictory m g else [])
  | .highScores => []
  | .wait => []

-- ============================================================ the ghost

/-- Who wrote a byte last. -/
inductive Writer
  | nobody
  | scene
  | cursor (position : Mouse)
  deriving DecidableEq, Repr

/-- A call of `my_draw_pixel`, as far as it matters who made it. -/
def Dot.stamp (who : Writer) (d : Dot) (a : Nat) : Option Writer :=
  match pixelRange m d.x.toNat d.y.toNat with
  | none => none
  | some r =>
      if r.start ≤ a ∧ a < r.start + r.len then some who else none

/-- The last writer of every byte, and where the cursor was drawn. -/
structure Display where
  writer : Nat → Writer
  drawn : Option Mouse

/-- Nothing has been drawn. -/
def Display.blank : Display := { writer := fun _ => .nobody, drawn := none }

/-- The display after a tick that sees state `t`. -/
def Display.tick (hour : UInt32) (d : Display) (t : State) : Display :=
  { writer := overlay d.writer
      ((scene m g hour t).map (Dot.stamp m .scene)
        ++ (paintMouse m g t.mouse).map (Dot.stamp m (.cursor t.mouse)))
    drawn := some t.mouse }

/-- The display after a notification. -/
def Display.update (hour : UInt32) (d : Display) (s : State)
    (n : Notification) : Display :=
  match tickState m s n with
  | some t => d.tick m g hour t
  | none => d

end

/-- The main loop beside its display, in mode 0x115. -/
def displayStep (g : GameSprites) (hour : UInt32) :
    State × Display → Notification → Option (State × Display) :=
  withLog (step mode0x115) (Display.update mode0x115 g hour)

/-- The loop with its display, from a blank one. -/
abbrev DisplayReach (g : GameSprites) (hour : UInt32)
    (ok : State × Display → Notification → Prop) : State × Display → Prop :=
  Reachable (displayStep g hour)
    (fun p => Starts p.1 ∧ p.2 = Display.blank) ok

-- ========================================================== properties

/-- Every byte of the buffer was last written by the scene, or by the
cursor where it is now. -/
def OneCursor (p : State × Display) : Prop :=
  ∀ a < mode0x115.vramSize,
    p.2.writer a = .scene ∨ p.2.writer a = .cursor p.1.mouse

/-- The pixels of the cursor's picture that reach the buffer: column 800
is still taken. -/
def Mouse.Occupies (q : Mouse) (x y : Int) : Prop :=
  (q.x ≤ x ∧ x < q.x + 50) ∧ (q.y ≤ y ∧ y < q.y + 42)
    ∧ x ≤ 800 ∧ 800 * y + x < 800 * 600

/-- A background of 799x599 has the pixel; column 800 is the first of the
next line. -/
def OnBackground (x y : Int) : Prop :=
  (x < 799 ∧ y < 599) ∨ (x = 800 ∧ y + 1 < 599)

/-- A tick of the game finds the cursor over every pixel of where it was
last drawn, except for pixels of the background in a tick that draws the
board anew. -/
def Repainted (p : State × Display) (n : Notification) : Prop :=
  ∀ t, TickState mode0x115 p.1 n t → t.gs = .game →
    ∀ q, p.2.drawn = some q → ∀ x y, q.Occupies x y →
      t.mouse.Occupies x y ∨ (t.redraws = true ∧ OnBackground x y)

end Lcom.Proj
