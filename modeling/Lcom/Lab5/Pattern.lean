/-
The pattern `video_test_pattern` is to draw (lcom/lab5.h).

The documentation gives the colour of the rectangle in a row and a column
by a formula for indexed modes and one for each component in the others.
Here the formulas are written over natural numbers, with the components
put in their fields by multiplication, for the modes that lab5 knows and
the masks and positions VBE gives these modes.
-/
import Lcom.Lab5.VideoTests
import Lcom.Proj.Proofs.Pixels

namespace Lcom.Lab5

open Proj

-- ============================================================= the modes

/-- The modes of lab5, by their colour model. -/
inductive ColorMode
  | indexed | direct555 | direct888 | direct565 | direct8888
  deriving DecidableEq, Repr

/-- The number of the mode. -/
def ColorMode.number : ColorMode → UInt16
  | .indexed => 0x105
  | .direct555 => 0x110
  | .direct888 => 0x115
  | .direct565 => 0x11A
  | .direct8888 => 0x14c

/-- `BitsPerPixel`. -/
def ColorMode.bits : ColorMode → Nat
  | .indexed => 8
  | .direct555 => 15
  | .direct888 => 24
  | .direct565 => 16
  | .direct8888 => 32

/-- The mask sizes and field positions; an indexed mode has none. -/
def ColorMode.colors : ColorMode → ColorInfo
  | .indexed => ⟨0, 0, 0, 0, 0, 0⟩
  | .direct555 => ⟨5, 10, 5, 5, 5, 0⟩
  | .direct888 => ⟨8, 16, 8, 8, 8, 0⟩
  | .direct565 => ⟨5, 11, 6, 5, 5, 0⟩
  | .direct8888 => ⟨8, 16, 8, 8, 8, 0⟩

-- ============================================================ the colours

/-- The component of `first` in a field, `steps` further on. -/
def componentValue (first size position steps : Nat) : Nat :=
  (first / 2 ^ position % 2 ^ size + steps) % 2 ^ size

/-- The documented colour of the rectangle `(row, col)`. -/
def documentedColor (mode : ColorMode) (n first step row col : Nat) : Nat :=
  let direct (redSize greenSize blueSize : Nat) :=
    componentValue first redSize (greenSize + blueSize) (col * step)
        * 2 ^ (greenSize + blueSize)
      + componentValue first greenSize blueSize (row * step) * 2 ^ blueSize
      + componentValue first blueSize 0 ((col + row) * step)
  match mode with
  | .indexed => (first + (row * n + col) * step) % 2 ^ 8
  | .direct555 => direct 5 5 5
  | .direct888 => direct 8 8 8
  | .direct565 => direct 5 6 5
  | .direct8888 => direct 8 8 8

-- ============================================================== the pixels

/-- The pixel lies in one of the rectangles. -/
def InTiles (m : ModeInfo) (n px py : Nat) : Prop :=
  px / (m.xResolution / n) < n ∧ py / (m.yResolution / n) < n

/-- The colour of the rectangle the pixel lies in. -/
def tileColor (m : ModeInfo) (color : Nat → Nat → UInt32) (n px py : Nat) :
    UInt32 :=
  color (py / (m.yResolution / n)) (px / (m.xResolution / n))

/-- After the drawing loop the pixels of the rectangles hold their
colours, and the other pixels of the screen are as they were. -/
def PatternDrawn (m : ModeInfo) (n : Nat) (code color : Nat → Nat → UInt32) :
    Prop :=
  ∀ buf, ∀ px < m.xResolution, ∀ py < m.yResolution,
    (InTiles m n px py →
        HoldsColor m (patternRows m n code (List.range n) buf) px py
          (tileColor m color n px py))
      ∧ (¬InTiles m n px py → ∀ r, pixelRange m px py = some r →
        ∀ a ∈ r.bytes, patternRows m n code (List.range n) buf a = buf a)

end Lcom.Lab5
