/-
The graphics library of lab5 (lab5/video_gr.c): the buffer `vg_init`
allocates and its pixel writer. Both compute what their counterparts in
the project compute.
-/
import Lcom.Proj.Video

namespace Lcom.Lab5

open Proj

/-- `vram_size` of `vg_init`. -/
def vgInitVramSize (m : ModeInfo) : Nat := m.vramSize

/-- `vg_draw_pixel`. -/
def vgDrawPixel (m : ModeInfo) (buf : Buffer) (x y : UInt16)
    (color : UInt32) : Nat × Buffer :=
  drawPixel m buf x.toNat y.toNat color

end Lcom.Lab5
