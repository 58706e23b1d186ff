/-
The runs of `video_test_move` (lab5/lab5.c), state by state.

`VideoTests` gives the frames of a whole run; here the loop is a machine
that takes one message per step, so that its laws can speak of every
state it reaches. It stops when `scancode` is the break code of Escape.

Two laws are stated of it: where the sprite is after a tick, and what the
buffer holds then.
-/
import Lcom.Lab5.VideoTests
import Lcom.Machine.Reach

namespace Lcom.Lab5

open Machine Proj

section

variable (m : ModeInfo) (img : Image) (xf yf : UInt16) (speed : Int16)

-- =========================================================== the machine

/-- A turn of `while (scancode != ESCAPE)`: the state after it, and the
frame it copies if there is one. -/
def MoveState.turn (s : MoveState) (n : Message) :
    Option (MoveState × List (Frame m)) :=
  if s.scancode = escape then none
  else (s.key n.keyboard).map fun s =>
    if n.timer then s.tick m img xf yf speed else (s, [])

/-- The state after a turn. -/
def MoveState.step (s : MoveState) (n : Message) : Option MoveState :=
  (s.turn m img xf yf speed n).map Prod.fst

/-- The state before the loop. -/
def MoveState.start (xi yi : UInt16) (buf : Buffer) (scancode : UInt8)
    (counter : Nat) : MoveState :=
  { buf := drawSprite m buf img xi yi, scancode, counter, xi, yi
    doneMoving := false }

/-- The states of all runs from a start, whatever the messages. -/
def MoveState.Reached (start s : MoveState) : Prop :=
  Reachable (MoveState.step m img xf yf speed) (· = start)
    (fun _ _ => True) s

end

-- ============================================================= the speed

/-- A coordinate that has gone `d` towards `f`, and not beyond it. -/
def towards (c f d : Nat) : Nat :=
  if c ≤ f then min (c + d) f else max (c - d) f

/-- The pixels a tick is to move the sprite by. -/
def pace (speed : Int16) (counter : Nat) : Nat :=
  if 0 < speed.toInt then speed.toInt.toNat
  else if counter % speed.toInt.natAbs = 0 then 1 else 0

/-- Every tick of every run takes each coordinate towards its end by the
pace of the speed, and nothing else moves the sprite. -/
def SpeedContract (m : ModeInfo) (img : Image) (xi yi xf yf : UInt16)
    (speed : Int16) : Prop :=
  ∀ buf scancode counter s n s',
    MoveState.Reached m img xf yf speed
      (MoveState.start m img xi yi buf scancode counter) s →
    s.step m img xf yf speed n = some s' →
      (n.timer = true →
        s'.xi.toNat = towards s.xi.toNat xf.toNat (pace speed s'.counter)
          ∧ s'.yi.toNat = towards s.yi.toNat yf.toNat (pace speed s'.counter))
      ∧ (n.timer = false → s'.xi = s.xi ∧ s'.yi = s.yi)

/-- The increment of the coordinate where the sprite moves. -/
def stride (speed : Int16) : Nat :=
  if 0 < speed.toInt then speed.toInt.toNat else 1

/-- The coordinate does not start more than one increment beyond its end,
and neither the first increment nor the one from the last place before
the end leaves 16 bits. -/
def StaysInRange (c f inc : Nat) : Prop :=
  c ≤ f + inc ∧ c + (f - c - 1) / inc * inc + inc < 2 ^ 16

-- ============================================================ the buffer

/-- The mode of the move, 0x105: 1024x768, 8 bits. -/
def mode0x105 : ModeInfo where
  xResolution := 1024
  yResolution := 768
  bitsPerPixel := 8
  x_lt := by decide
  y_lt := by decide
  depth := by decide

/-- The byte at `a` belongs to the picture at `(x, y)`, clipped to the
screen. -/
def InPicture (m : ModeInfo) (img : Image) (x y : UInt16) (a : Nat) : Prop :=
  x.toNat ≤ a % m.xResolution
    ∧ a % m.xResolution < x.toNat + img.width.toNat
    ∧ y.toNat ≤ a / m.xResolution
    ∧ a / m.xResolution < y.toNat + img.height.toNat

instance (m : ModeInfo) (img : Image) (x y : UInt16) (a : Nat) :
    Decidable (InPicture m img x y a) :=
  inferInstanceAs (Decidable (_ ∧ _ ∧ _ ∧ _))

/-- The byte of the picture there. -/
def pictureByte (m : ModeInfo) (img : Image) (x y : UInt16) (a : Nat) :
    UInt8 :=
  img.pixel ((a / m.xResolution - y.toNat) * img.width.toNat
    + (a % m.xResolution - x.toNat))

/-- The byte at `a` of a black screen with the picture at `(x, y)`, clipped
to the screen. -/
def clipped (m : ModeInfo) (img : Image) (x y : UInt16) (a : Nat) : UInt8 :=
  if InPicture m img x y a then pictureByte m img x y a else 0

/-- The buffer holds a black screen with the picture at `(x, y)`. -/
def Shows (m : ModeInfo) (img : Image) (x y : UInt16) (buf : Buffer) :
    Prop :=
  ∀ a < m.vramSize, buf a = clipped m img x y a

/-- After every tick of every run over a black buffer, the buffer shows
the picture where it is then. -/
def LeavesNoTrail (m : ModeInfo) (img : Image) (xi yi xf yf : UInt16)
    (speed : Int16) : Prop :=
  ∀ buf scancode counter s n s', (∀ a < m.vramSize, buf a = 0) →
    MoveState.Reached m img xf yf speed
      (MoveState.start m img xi yi buf scancode counter) s →
    s.step m img xf yf speed n = some s' → n.timer = true →
      Shows m img s'.xi s'.yi s'.buf

/-- Every pixel of the picture that reaches the buffer lies on the
screen, in the column and the row it belongs to. -/
def WellPlaced (m : ModeInfo) (img : Image) (x y : UInt16) : Prop :=
  ∀ i < img.height.toNat, ∀ j < img.width.toNat, ∀ r,
    pixelRange m (x + UInt16.ofNat j).toNat (y + UInt16.ofNat i).toNat
      = some r →
    r.start < m.vramSize →
      x.toNat + j < m.xResolution ∧ y.toNat + i < m.yResolution

/-- A tick moves the sprite, if it still moves. -/
def moves (speed : Int16) (counter : Nat) : Bool :=
  decide (0 < speed.toInt)
    || (decide (speed.toInt < 0) && counter % speed.toInt.natAbs == 0)

/-- If the message moves the sprite, the place it moves to is a good
one. -/
def MovesWell (m : ModeInfo) (img : Image) (xf yf : UInt16)
    (speed : Int16) (s : MoveState) (n : Message) : Prop :=
  n.timer = true → s.doneMoving = false →
    moves speed (s.counter + 1) = true →
      (s.xi = xf → WellPlaced m img s.xi
        (advance s.yi (UInt16.ofNat (stride speed)) yf))
      ∧ (s.xi ≠ xf → s.yi = yf → WellPlaced m img
        (advance s.xi (UInt16.ofNat (stride speed)) xf) s.yi)

end Lcom.Lab5
