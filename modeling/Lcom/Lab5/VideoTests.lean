/-
The drawing functions of lab5 (lab5/video_gr.c) and the four tests that
show something (lab5/lab5.c), from the buffer `malloc` returned to the
frames they copy to video memory.

A drawing function takes the buffer and returns its result with the new
buffer; `vg_draw_hline` and `vg_draw_rectangle` stop at the first pixel
that is refused. A test is the list of frames its `double_buffer` calls
copy. What comes before the drawing (subscribing, setting the mode,
loading the picture) has succeeded, and the picture is given.

# Machine arithmetic

Coordinates are computed in `int` and passed as `uint16_t`, which is
addition modulo 2^16. The colours of the pattern are computed in `int`,
with the field positions and mask sizes of the mode.
-/
import Lcom.Lab5.Keyboard
import Lcom.Lab5.VideoGr

namespace Lcom.Lab5

open Proj

-- ============================================================= drawing

/-- A loop that returns 1 as soon as its body does not return 0. -/
def untilFails {ι : Type*} (body : Buffer → ι → Nat × Buffer) :
    List ι → Buffer → Nat × Buffer
  | [], buf => (0, buf)
  | i :: is, buf =>
      if (body buf i).1 ≠ 0 then (1, (body buf i).2)
      else untilFails body is (body buf i).2

/-- `vg_draw_hline`. -/
def vgDrawHline (m : ModeInfo) (buf : Buffer) (x y len : UInt16)
    (color : UInt32) : Nat × Buffer :=
  untilFails (fun buf i => vgDrawPixel m buf (x + UInt16.ofNat i) y color)
    (List.range len.toNat) buf

/-- `vg_draw_rectangle`. -/
def vgDrawRectangle (m : ModeInfo) (buf : Buffer)
    (x y width height : UInt16) (color : UInt32) : Nat × Buffer :=
  untilFails
    (fun buf i => vgDrawHline m buf x (y + UInt16.ofNat i) width color)
    (List.range height.toNat) buf

/-- `xpm_image_t` as `xpm_load` fills it in, with its pixels. -/
structure Image where
  width : UInt16
  height : UInt16
  pixel : Nat → UInt8

/-- `draw_sprite`: the pointer has advanced by one for each pixel drawn,
and what `vg_draw_pixel` returns is ignored. -/
def drawSprite (m : ModeInfo) (buf : Buffer) (img : Image) (x y : UInt16) :
    Buffer :=
  (List.range img.height.toNat).foldl (fun buf i =>
    (List.range img.width.toNat).foldl (fun buf j =>
      (vgDrawPixel m buf (x + UInt16.ofNat j) (UInt16.ofNat i + y)
        (img.pixel (i * img.width.toNat + j)).toUInt32).2) buf) buf

/-- What `double_buffer` copies. -/
abbrev Frame (m : ModeInfo) := Fin m.vramSize → UInt8

/-- `double_buffer`. -/
def doubleBuffer (m : ModeInfo) (buf : Buffer) : Frame m := fun a => buf a

-- =========================================== rectangle, sprite, pattern

/-- `video_test_rectangle`, which gives up before it shows anything if
the rectangle cannot be drawn. -/
def videoTestRectangle (m : ModeInfo) (x y width height : UInt16)
    (color : UInt32) (buf : Buffer) : List (Frame m) :=
  if (vgDrawRectangle m buf x y width height color).1 ≠ 0 then []
  else [doubleBuffer m (vgDrawRectangle m buf x y width height color).2]

/-- `video_test_xpm`. -/
def videoTestXpm (m : ModeInfo) (img : Image) (x y : UInt16)
    (buf : Buffer) : List (Frame m) :=
  [doubleBuffer m (drawSprite m buf img x y)]

/-- The colour fields of `vbe_mode_info_t`. -/
structure ColorInfo where
  redMaskSize : UInt8
  redFieldPosition : UInt8
  greenMaskSize : UInt8
  greenFieldPosition : UInt8
  blueMaskSize : UInt8
  blueFieldPosition : UInt8

/-- `R_first`, `G_first` and `B_first`. -/
structure FirstColor where
  red : UInt16
  green : UInt16
  blue : UInt16

/-- One component of `first`. -/
def component (first : UInt32) (mask : Nat) (position : UInt8) : UInt16 :=
  UInt16.ofNat ((first.toNat &&& mask) >>> position.toNat)

/-- The `switch` on the mode; the other modes leave the variables as they
are, with whatever they hold. -/
def firstColor (c : ColorInfo) (mode : UInt16) (first : UInt32)
    (junk : FirstColor) : FirstColor :=
  let components (red green blue : Nat) : FirstColor :=
    { red := component first red c.redFieldPosition
      green := component first green c.greenFieldPosition
      blue := component first blue c.blueFieldPosition }
  if mode = 0x110 then components 0x00007C00 0x000003E0 0x0000001F
  else if mode = 0x115 then components 0x00FF0000 0x0000FF00 0x000000FF
  else if mode = 0x11A then components 0x0000F800 0x000007E0 0x0000001F
  else if mode = 0x14c then components 0x00FF0000 0x0000FF00 0x000000FF
  else junk

/-- The colour of the rectangle in row `i` and column `j`. -/
def patternColor (m : ModeInfo) (c : ColorInfo) (mode : UInt16)
    (noRectangles : UInt8) (first : UInt32) (step : UInt8)
    (junk : FirstColor) (i j : Nat) : UInt32 :=
  if mode = 0x105 then
    (first + UInt32.ofNat ((i * noRectangles.toNat + j) * step.toNat))
      % UInt32.ofNat (1 <<< m.bitsPerPixel)
  else
    let f := firstColor c mode first junk
    let red := (f.red.toNat + j * step.toNat) % 1 <<< c.redMaskSize.toNat
    let green :=
      (f.green.toNat + i * step.toNat) % 1 <<< c.greenMaskSize.toNat
    let blue :=
      (f.blue.toNat + (j + i) * step.toNat) % 1 <<< c.blueMaskSize.toNat
    UInt32.ofNat (0 ||| red <<< c.redFieldPosition.toNat
      ||| green <<< c.greenFieldPosition.toNat
      ||| blue <<< c.blueFieldPosition.toNat)

/-- A row of the pattern, in the colours of its columns. -/
def patternRow (m : ModeInfo) (n : Nat) (color : Nat → UInt32) (i : Nat)
    (buf : Buffer) : Buffer :=
  (List.range n).foldl (fun buf j =>
    (vgDrawRectangle m buf (UInt16.ofNat (j * (m.xResolution / n)))
      (UInt16.ofNat (i * (m.yResolution / n)))
      (UInt16.ofNat (m.xResolution / n)) (UInt16.ofNat (m.yResolution / n))
      (color j)).2) buf

/-- The rows of the pattern, with the `break` after a row that starts
below the screen. -/
def patternRows (m : ModeInfo) (n : Nat) (color : Nat → Nat → UInt32) :
    List Nat → Buffer → Buffer
  | [], buf => buf
  | i :: is, buf =>
      if i * (m.yResolution / n) > m.yResolution then
        patternRow m n (color i) i buf
      else patternRows m n color is (patternRow m n (color i) i buf)

/-- `video_test_pattern`; `none` where it divides by zero. -/
def videoTestPattern (m : ModeInfo) (c : ColorInfo) (mode : UInt16)
    (noRectangles : UInt8) (first : UInt32) (step : UInt8)
    (junk : FirstColor) (buf : Buffer) : Option (List (Frame m)) :=
  if noRectangles = 0 then none
  else some [doubleBuffer m (patternRows m noRectangles.toNat
    (patternColor m c mode noRectangles first step junk)
    (List.range noRectangles.toNat) buf)]

-- ============================================================ the move

/-- The globals and locals of `video_test_move`. -/
structure MoveState where
  buf : Buffer
  scancode : UInt8
  counter : Nat
  xi : UInt16
  yi : UInt16
  doneMoving : Bool

/-- A message of the loop: the keyboard bit with what the handler reads,
and the timer bit. -/
structure Message where
  keyboard : Option (List PortReads)
  timer : Bool

section

variable (m : ModeInfo) (img : Image) (xf yf : UInt16)

/-- The sprite is painted over in black and drawn again at its new
place. -/
def MoveState.redraw (s : MoveState) (xi yi : UInt16) : MoveState :=
  { s with
    buf := drawSprite m
      (vgDrawRectangle m s.buf s.xi s.yi img.width img.height 0).2 img xi yi
    xi, yi }

/-- One more step of a coordinate towards its end. -/
def advance (c inc f : UInt16) : UInt16 := if c + inc > f then f else c + inc

/-- A move by `inc` along the axis that is left. -/
def MoveState.move (s : MoveState) (inc : UInt16) : MoveState :=
  if s.xi = xf then
    { s.redraw m img s.xi (advance s.yi inc yf) with
      doneMoving := s.doneMoving || advance s.yi inc yf == yf }
  else if s.yi = yf then
    { s.redraw m img (advance s.xi inc xf) s.yi with
      doneMoving := s.doneMoving || advance s.xi inc xf == xf }
  else s

/-- The move of one tick: by one on some ticks if the speed is negative,
by the speed if it is positive. -/
def MoveState.moved (speed : Int16) (s : MoveState) : MoveState :=
  if speed.toInt < 0 ∧ s.counter % speed.toInt.natAbs = 0 then
    s.move m img xf yf 1
  else if 0 < speed.toInt then
    s.move m img xf yf (UInt16.ofNat speed.toInt.toNat)
  else s

/-- `timer_int_handler`. -/
def MoveState.timerIntHandler (s : MoveState) : MoveState :=
  { s with counter := s.counter + 1 }

/-- The timer branch: the frame it copies, if the sprite still moves. -/
def MoveState.tick (speed : Int16) (s : MoveState) :
    MoveState × List (Frame m) :=
  let s := s.timerIntHandler
  if s.doneMoving then (s, [])
  else (s.moved m img xf yf speed,
    [doubleBuffer m (s.moved m img xf yf speed).buf])

/-- The keyboard branch. -/
def MoveState.key (s : MoveState) : Option (List PortReads) →
    Option MoveState
  | none => some s
  | some reads =>
      (kbcIh s.scancode reads).map fun scancode => { s with scancode }

/-- The frames of `while (scancode != ESCAPE)`, message by message. -/
def MoveState.frames (speed : Int16) (s : MoveState) :
    List Message → List (Frame m)
  | [] => []
  | n :: ns =>
      if s.scancode = escape then []
      else
        match s.key n.keyboard with
        | none => []
        | some s =>
            if n.timer then
              (s.tick m img xf yf speed).2
                ++ (s.tick m img xf yf speed).1.frames speed ns
            else s.frames speed ns

/-- `video_test_move`, from what `scancode` and `counter` hold. -/
def videoTestMove (xi yi : UInt16) (speed : Int16) (scancode : UInt8)
    (counter : Nat) (ns : List Message) (buf : Buffer) : List (Frame m) :=
  let s : MoveState :=
    { buf := drawSprite m buf img xi yi, scancode, counter, xi, yi
      doneMoving := false }
  doubleBuffer m s.buf :: s.frames m img xf yf speed ns

end

-- ========================================================= what is shown

/-- The frames are the same for any two initial contents of the
buffer. -/
def Determined {φ : Type*} (frames : Buffer → φ) : Prop :=
  ∀ buf buf', frames buf = frames buf'

/-- The bytes of a pixel, none if the pixel is refused. -/
def pixelBytes (m : ModeInfo) (x y : UInt16) : Set Nat :=
  {a | ∃ r, pixelRange m x.toNat y.toNat = some r ∧ a ∈ r.bytes}

/-- Every byte of the frame belongs to a pixel of the block of the given
size at `(x, y)`. -/
def BlockCovers (m : ModeInfo) (x y : UInt16) (width height : Nat) : Prop :=
  ∀ a < m.vramSize, ∃ i < height, ∃ j < width,
    a ∈ pixelBytes m (x + UInt16.ofNat j) (y + UInt16.ofNat i)

/-- A pixel of the block is refused. -/
def BlockRefused (m : ModeInfo) (x y : UInt16) (width height : Nat) : Prop :=
  ∃ i < height, ∃ j < width,
    m.xResolution < (x + UInt16.ofNat j).toNat
      ∨ m.yResolution < (y + UInt16.ofNat i).toNat

end Lcom.Lab5
