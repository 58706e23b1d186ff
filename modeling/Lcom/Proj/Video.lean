/-
The frame buffer (proj/src/video.c): the mode information the VBE call
fills in, the size of the buffer `vg_start` allocates, and the pixel
writer every drawing function of the game goes through.

# Machine arithmetic

The resolutions are `uint16_t`, the depth is `uint8_t`, and both the
allocation size and the pixel offset are computed in 32 bits, so the
model reduces them modulo `2 ^ 32`. The offset is an `int`: from `2 ^ 31`
on it overflows, and the reduction is what the address arithmetic of the
32-bit target makes of it, not what the language promises. Coordinates reach `my_draw_pixel`
as `uint16_t`: callers that compute them in `int` truncate
(`toUInt16`).

The buffer is a function from byte offsets to bytes with no bound of
its own. Staying inside `vramSize` is a property of the code, not of
the model.
-/
import Mathlib

namespace Lcom.Proj

-- ======================================================= mode info

/-- The fields of `vbe_mode_info_t` the drawing code reads, with the
ranges their types and the supported modes give them. -/
structure ModeInfo where
  xResolution : Nat
  yResolution : Nat
  bitsPerPixel : Nat
  x_lt : xResolution < 2 ^ 16
  y_lt : yResolution < 2 ^ 16
  depth : bitsPerPixel = 15 ∨ bitsPerPixel = 8 ∨ bitsPerPixel = 16
    ∨ bitsPerPixel = 24 ∨ bitsPerPixel = 32

/-- Mode 0x115, the one `proj_main_loop` starts: 800x600, 24 bits. -/
def mode0x115 : ModeInfo where
  xResolution := 800
  yResolution := 600
  bitsPerPixel := 24
  x_lt := by decide
  y_lt := by decide
  depth := by decide

/-- Bytes a pixel occupies; 15 bits take two bytes. -/
def ModeInfo.bytesPerPixel (m : ModeInfo) : Nat :=
  if m.bitsPerPixel = 15 then 2 else m.bitsPerPixel / 8

/-- `vram_size` of `vg_start`: the bytes allocated for the buffer. -/
def ModeInfo.vramSize (m : ModeInfo) : Nat :=
  (m.xResolution * m.yResolution * m.bytesPerPixel) % 2 ^ 32

-- =================================================== the pixel writer

/-- A byte range of the buffer. -/
structure ByteRange where
  start : Nat
  len : Nat
  deriving DecidableEq, Repr

/-- The bytes of a range. -/
def ByteRange.bytes (r : ByteRange) : Set Nat :=
  {a | r.start ≤ a ∧ a < r.start + r.len}

/-- The frame buffer, indexed by byte offset. -/
abbrev Buffer := Nat → UInt8

/-- `memcpy(buffer + off, &color, len)` on a little-endian machine. -/
def memcpyColor (buf : Buffer) (r : ByteRange) (color : UInt32) :
    Buffer := fun a =>
  if r.start ≤ a ∧ a < r.start + r.len then
    UInt8.ofNat (color.toNat / 256 ^ (a - r.start))
  else buf a

/-- The shared body of `my_draw_pixel` and lab5's `vg_draw_pixel`: the
range written for pixel `(x, y)`, or `none` where the call returns 1.
The bounds test lets `x = XResolution` and `y = YResolution` through. The
`int` offset is taken modulo `2 ^ 32`, also where it overflows. -/
def pixelRange (m : ModeInfo) (x y : Nat) : Option ByteRange :=
  if m.xResolution < x ∨ m.yResolution < y then none
  else some
    { start := (m.xResolution * y * m.bytesPerPixel
        + x * m.bytesPerPixel) % 2 ^ 32
      len := m.bytesPerPixel }

/-- The pixel write itself: return value and new buffer. -/
def drawPixel (m : ModeInfo) (buf : Buffer) (x y : Nat)
    (color : UInt32) : Nat × Buffer :=
  match pixelRange m x y with
  | none => (1, buf)
  | some r => (0, memcpyColor buf r color)

/-- `my_draw_pixel`. -/
def myDrawPixel (m : ModeInfo) (buf : Buffer) (x y : UInt16)
    (color : UInt32) : Nat × Buffer :=
  drawPixel m buf x.toNat y.toNat color

/-- The `int` to `uint16_t` conversion at a call of `my_draw_pixel`. -/
def toUInt16 (z : Int) : UInt16 := UInt16.ofNat (z % 2 ^ 16).toNat

-- ============================================================ facts

/-- A pixel occupies one to four bytes. -/
theorem ModeInfo.bytesPerPixel_pos (m : ModeInfo) :
    1 ≤ m.bytesPerPixel ∧ m.bytesPerPixel ≤ 4 := by
  unfold ModeInfo.bytesPerPixel
  rcases m.depth with h | h | h | h | h <;> rw [h] <;> decide

/-- A pixel write returns 0 exactly when it has a range. -/
theorem drawPixel_accepts {m : ModeInfo} {buf : Buffer} {x y : Nat}
    {color : UInt32} :
    (drawPixel m buf x y color).1 = 0 ↔ ∃ r, pixelRange m x y = some r := by
  unfold drawPixel
  cases pixelRange m x y with
  | none => simp
  | some r => simp

/-- An accepted write leaves every byte outside its range alone. -/
theorem drawPixel_frame {m : ModeInfo} {buf : Buffer} {x y : Nat}
    {color : UInt32} {r : ByteRange} (hr : pixelRange m x y = some r)
    {a : Nat} (ha : a ∉ r.bytes) :
    (drawPixel m buf x y color).2 a = buf a := by
  unfold drawPixel
  rw [hr]
  exact if_neg ha

end Lcom.Proj
