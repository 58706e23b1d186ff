/-
`video_test_pattern` draws the documented pattern.

The colours are right for every first colour and step: a mask and a shift
take a component out of its field, and fields that do not overlap can be
put together by `or` or by addition (`patternColor_eq`). The rectangles
are right because no two pixels of the screen share a byte: a pixel is
written by the one rectangle it lies in, and a pixel outside the
rectangles by none (`pattern_drawn`).

That takes a frame of at most 2^32 bytes. `vg_init` maps the frame as a
whole, at an address of 32 bits, so the drawing loop never sees a larger
one.
-/
import Lcom.Lab5.Pattern
import Lcom.Lab5.Proofs.Rectangle
import Lcom.Machine.Loop

namespace Lcom.Lab5

open Machine Proj

-- ============================================================= the fields

/-- A mask and a shift take out a field. -/
theorem field_of_mask (value size position : Nat) :
    (value &&& (2 ^ size - 1) <<< position) >>> position
      = value / 2 ^ position % 2 ^ size := by
  rw [Nat.shiftRight_and_distrib, Nat.shiftLeft_shiftRight,
    Nat.and_two_pow_sub_one_eq_mod, Nat.shiftRight_eq_div_pow]

/-- Three fields next to each other, put together. -/
theorem or_fields {red green blue greenSize blueSize : Nat}
    (hgreen : green < 2 ^ greenSize) (hblue : blue < 2 ^ blueSize) :
    0 ||| red <<< (greenSize + blueSize) ||| green <<< blueSize
        ||| blue <<< 0
      = red * 2 ^ (greenSize + blueSize) + green * 2 ^ blueSize + blue := by
  have hupper : red <<< (greenSize + blueSize) ||| green <<< blueSize
      = (red <<< greenSize + green) <<< blueSize := by
    rw [Nat.shiftLeft_add, ← Nat.shiftLeft_or_distrib,
      Nat.shiftLeft_add_eq_or_of_lt hgreen]
  rw [Nat.zero_or, hupper, Nat.shiftLeft_zero,
    ← Nat.shiftLeft_add_eq_or_of_lt hblue]
  simp only [Nat.shiftLeft_eq]
  rw [Nat.add_mul, Nat.mul_assoc, ← Nat.pow_add]

/-- A component of `first`, as the code takes it out of its field. -/
theorem toNat_component (first : UInt32) {mask size : Nat}
    {position : UInt8}
    (hmask : mask = (2 ^ size - 1) <<< position.toNat) (hsize : size ≤ 16) :
    (component first mask position).toNat
      = first.toNat / 2 ^ position.toNat % 2 ^ size := by
  have hlt : first.toNat / 2 ^ position.toNat % 2 ^ size < 2 ^ 16 :=
    Nat.lt_of_lt_of_le (Nat.mod_lt _ (Nat.two_pow_pos size))
      (Nat.pow_le_pow_right (by decide) hsize)
  rw [component, hmask, field_of_mask]
  exact UInt16.toNat_ofNat_of_lt' hlt

theorem componentValue_lt (first size position steps : Nat) :
    componentValue first size position steps < 2 ^ size :=
  Nat.mod_lt _ (Nat.two_pow_pos size)

-- ============================================================ the colours

section

variable {m : ModeInfo} {n : UInt8} {first : UInt32} {step : UInt8}
  {junk : FirstColor}

/-- The colour of a direct mode, from its three first components. -/
theorem directColor_eq {f : FirstColor} {c : ColorInfo}
    (redSize greenSize blueSize i j : Nat)
    (hred : f.red.toNat
      = first.toNat / 2 ^ (greenSize + blueSize) % 2 ^ redSize)
    (hgreen : f.green.toNat = first.toNat / 2 ^ blueSize % 2 ^ greenSize)
    (hblue : f.blue.toNat = first.toNat / 2 ^ 0 % 2 ^ blueSize)
    (hc : c = ⟨UInt8.ofNat redSize, UInt8.ofNat (greenSize + blueSize),
      UInt8.ofNat greenSize, UInt8.ofNat blueSize, UInt8.ofNat blueSize, 0⟩)
    (hsize : redSize < 256) (hsize' : greenSize + blueSize < 256) :
    UInt32.ofNat (0
        ||| ((f.red.toNat + j * step.toNat) % 1 <<< c.redMaskSize.toNat)
          <<< c.redFieldPosition.toNat
        ||| ((f.green.toNat + i * step.toNat) % 1 <<< c.greenMaskSize.toNat)
          <<< c.greenFieldPosition.toNat
        ||| ((f.blue.toNat + (j + i) * step.toNat)
            % 1 <<< c.blueMaskSize.toNat)
          <<< c.blueFieldPosition.toNat)
      = UInt32.ofNat
        (componentValue first.toNat redSize (greenSize + blueSize)
            (j * step.toNat) * 2 ^ (greenSize + blueSize)
          + componentValue first.toNat greenSize blueSize (i * step.toNat)
            * 2 ^ blueSize
          + componentValue first.toNat blueSize 0 ((j + i) * step.toNat)) := by
  have hofNat : ∀ k < 256, (UInt8.ofNat k).toNat = k := fun k hk =>
    UInt8.toNat_ofNat_of_lt' hk
  subst hc
  dsimp only
  rw [hofNat redSize hsize, hofNat (greenSize + blueSize) hsize',
    hofNat greenSize (by omega), hofNat blueSize (by omega), hred, hgreen,
    hblue, Nat.one_shiftLeft, Nat.one_shiftLeft, Nat.one_shiftLeft]
  rw [← or_fields (componentValue_lt _ greenSize _ _)
    (componentValue_lt _ blueSize _ _)]
  rfl

/-- The code computes the documented colour. -/
theorem patternColor_eq (mode : ColorMode)
    (hbits : m.bitsPerPixel = mode.bits) (i j : Nat) :
    patternColor m mode.colors mode.number n first step junk i j
      = UInt32.ofNat
        (documentedColor mode n.toNat first.toNat step.toNat i j) := by
  have hcomponent := @toNat_component first
  cases mode with
  | indexed =>
      have hmodulus : (UInt32.ofNat (1 <<< m.bitsPerPixel)).toNat = 2 ^ 8 := by
        rw [hbits]
        rfl
      have hindex := Nat.mod_mod_of_dvd (first.toNat
        + (i * n.toNat + j) * step.toNat) (show 2 ^ 8 ∣ 2 ^ 32 by decide)
      refine UInt32.toNat_inj.1 ?_
      change ((first + UInt32.ofNat ((i * n.toNat + j) * step.toNat))
        % UInt32.ofNat (1 <<< m.bitsPerPixel)).toNat = _
      rw [UInt32.toNat_mod, hmodulus, UInt32.toNat_add, UInt32.toNat_ofNat',
        Nat.add_mod_mod, hindex, documentedColor, UInt32.toNat_ofNat']
      exact (Nat.mod_eq_of_lt ((Nat.mod_lt _ (by decide)).trans
        (by decide))).symm
  | direct555 =>
      exact directColor_eq 5 5 5 i j (hcomponent (by decide) (by decide))
        (hcomponent (by decide) (by decide))
        (hcomponent (by decide) (by decide)) rfl (by decide) (by decide)
  | direct888 =>
      exact directColor_eq 8 8 8 i j (hcomponent (by decide) (by decide))
        (hcomponent (by decide) (by decide))
        (hcomponent (by decide) (by decide)) rfl (by decide) (by decide)
  | direct565 =>
      exact directColor_eq 5 6 5 i j (hcomponent (by decide) (by decide))
        (hcomponent (by decide) (by decide))
        (hcomponent (by decide) (by decide)) rfl (by decide) (by decide)
  | direct8888 =>
      exact directColor_eq 8 8 8 i j (hcomponent (by decide) (by decide))
        (hcomponent (by decide) (by decide))
        (hcomponent (by decide) (by decide)) rfl (by decide) (by decide)

end

-- ============================================================== the tiles

section

variable {m : ModeInfo} {n : Nat} {color : Nat → Nat → UInt32}

/-- A rectangle of the pattern lies on the screen. -/
theorem cell_fits {i j : Nat} (hi : i < n) (hj : j < n) :
    RectangleFits m (UInt16.ofNat (j * (m.xResolution / n)))
      (UInt16.ofNat (i * (m.yResolution / n)))
      (UInt16.ofNat (m.xResolution / n))
      (UInt16.ofNat (m.yResolution / n)) := by
  have hpart : ∀ {k r : Nat}, k < n → r < 2 ^ 16 →
      (UInt16.ofNat (k * (r / n))).toNat + (UInt16.ofNat (r / n)).toNat
        ≤ r := by
    intro k r hk hr
    have hmul : (k + 1) * (r / n) ≤ n * (r / n) := Nat.mul_le_mul_right _ hk
    have hle := Nat.mul_div_le r n
    rw [Nat.succ_mul] at hmul
    have hend : k * (r / n) + r / n ≤ r := hmul.trans hle
    rw [toNat_ofNat_of_le (Nat.le_of_add_right_le hend) hr,
      toNat_ofNat_of_le (Nat.div_le_self r n) hr]
    exact hend
  exact ⟨hpart hj m.x_lt, hpart hi m.y_lt⟩

/-- The coordinates and the size of a rectangle of the pattern. -/
theorem cell_toNat {k r : Nat} (hk : k < n) (hr : r < 2 ^ 16) :
    (UInt16.ofNat (k * (r / n))).toNat = k * (r / n)
      ∧ (UInt16.ofNat (r / n)).toNat = r / n :=
  ⟨toNat_ofNat_of_le ((Nat.mul_le_mul_right _ hk.le).trans
      (Nat.mul_div_le r n)) hr,
    toNat_ofNat_of_le (Nat.div_le_self r n) hr⟩

/-- A pixel of the rectangle in row `i` and column `j`. -/
theorem cell_pixel {i j k l : Nat} (hi : i < n) (hj : j < n)
    (hk : k < m.yResolution / n) (hl : l < m.xResolution / n) :
    j * (m.xResolution / n) + l < m.xResolution
      ∧ i * (m.yResolution / n) + k < m.yResolution
      ∧ InTiles m n (j * (m.xResolution / n) + l)
        (i * (m.yResolution / n) + k)
      ∧ tileColor m color n (j * (m.xResolution / n) + l)
        (i * (m.yResolution / n) + k) = color i j := by
  have hquot : ∀ {c p q : Nat}, q < p → (c * p + q) / p = c := by
    intro c p q hq
    rw [Nat.mul_comm, Nat.mul_add_div (Nat.zero_lt_of_lt hq),
      Nat.div_eq_of_lt hq, Nat.add_zero]
  refine ⟨?_, ?_, ?_, ?_⟩
  · exact (lt_mul_iff_part.2 ⟨j, hj, l, hl, rfl⟩).trans_le
      (Nat.mul_div_le _ n)
  · exact (lt_mul_iff_part.2 ⟨i, hi, k, hk, rfl⟩).trans_le
      (Nat.mul_div_le _ n)
  · unfold InTiles
    rw [hquot hl, hquot hk]
    exact ⟨hj, hi⟩
  · unfold tileColor
    rw [hquot hl, hquot hk]

/-- The draw of a rectangle of the pattern. -/
def drawCell (m : ModeInfo) (n : Nat) (color : Nat → Nat → UInt32)
    (i j : Nat) (buf : Buffer) : Buffer :=
  (vgDrawRectangle m buf (UInt16.ofNat (j * (m.xResolution / n)))
    (UInt16.ofNat (i * (m.yResolution / n)))
    (UInt16.ofNat (m.xResolution / n)) (UInt16.ofNat (m.yResolution / n))
    (color i j)).2

/-- The drawing loop. -/
theorem patternRows_cells (buf : Buffer) :
    patternRows m n color (List.range n) buf
      = (List.range n).foldl (fun buf i => (List.range n).foldl
        (fun buf j => drawCell m n color i j buf) buf) buf :=
  patternRows_eq m n color _ (fun _ hi => List.mem_range.1 hi) buf

variable {px py a : Nat} {r : ByteRange}

section

variable (hsize : m.xResolution * m.yResolution * m.bytesPerPixel ≤ 2 ^ 32)

include hsize

/-- Drawing a rectangle keeps a byte of a pixel, or it is the rectangle
the pixel lies in and puts the pixel's colour there. -/
theorem drawCell_keeps (hx : px < m.xResolution) (hy : py < m.yResolution)
    (hr : pixelRange m px py = some r) (ha : a ∈ r.bytes) {i j : Nat}
    (hi : i < n) (hj : j < n) (buf : Buffer) :
    drawCell m n color i j buf a = colorByte (tileColor m color n px py) r a
      ∨ drawCell m n color i j buf a = buf a := by
  have hfits := @cell_fits m n i j hi hj
  refine untilFails_keeps _ (fun k hk => untilFails_keeps _ fun l hl => ?_) buf
  intro buf
  refine pixel_keeps (fun r' hr' ha' => ?_) buf
  obtain ⟨hcol, hrow, -, -⟩ :=
    hfits.coordinates (List.mem_range.1 hk) (List.mem_range.1 hl)
  rw [List.mem_range, (cell_toNat hi m.y_lt).2] at hk
  rw [List.mem_range, (cell_toNat hj m.x_lt).2] at hl
  rw [hcol, hrow, (cell_toNat hj m.x_lt).1, (cell_toNat hi m.y_lt).1] at hr'
  obtain ⟨hx', hy', -, hcolor⟩ := @cell_pixel m n color i j k l hi hj hk hl
  -- the pixel that is written is the one the byte belongs to
  obtain ⟨rfl, rfl⟩ := eq_of_shared_byte hsize hx hy hx' hy' hr hr' ha ha'
  cases hr.symm.trans hr'
  rw [← hcolor]

/-- The rectangle a pixel lies in puts its colour there. -/
theorem drawCell_holds (hn : 1 ≤ n) (hnx : n ≤ m.xResolution)
    (hny : n ≤ m.yResolution) (hin : InTiles m n px py)
    (hr : pixelRange m px py = some r) (ha : a ∈ r.bytes) (buf : Buffer) :
    drawCell m n color (py / (m.yResolution / n)) (px / (m.xResolution / n))
      buf a = colorByte (tileColor m color n px py) r a := by
  obtain ⟨hj, hi⟩ := hin
  obtain ⟨hy, hh⟩ := cell_toNat hi m.y_lt
  obtain ⟨hx, hw⟩ := cell_toNat hj m.x_lt
  have hpx := Nat.div_add_mod' px (m.xResolution / n)
  have hpy := Nat.div_add_mod' py (m.yResolution / n)
  have hrow : py % (m.yResolution / n)
      < (UInt16.ofNat (m.yResolution / n)).toNat := by
    rw [hh]
    exact Nat.mod_lt py (Nat.div_pos hny hn)
  have hcol : px % (m.xResolution / n)
      < (UInt16.ofNat (m.xResolution / n)).toNat := by
    rw [hw]
    exact Nat.mod_lt px (Nat.div_pos hnx hn)
  have hfits := @cell_fits m n _ _ hi hj
  obtain ⟨s, hs, hholds⟩ := rectangle_holds hfits
    (pixelsAgree_of_size hsize hfits) hrow hcol buf
  rw [hx, hy, hpx, hpy, hr] at hs
  cases hs
  exact hholds a ha

/-- The loop puts the colours of the rectangles there. -/
theorem patternRows_holds (hx : px < m.xResolution)
    (hy : py < m.yResolution) (hn : 1 ≤ n) (hnx : n ≤ m.xResolution)
    (hny : n ≤ m.yResolution) (hin : InTiles m n px py) (buf : Buffer) :
    HoldsColor m (patternRows m n color (List.range n) buf) px py
      (tileColor m color n px py) := by
  refine ⟨_, pixelRange_eq hx.le hy.le, fun a ha => ?_⟩
  have hkeeps := fun i (hi : i ∈ List.range n) j (hj : j ∈ List.range n) =>
    @drawCell_keeps m n color _ _ _ _ hsize hx hy (pixelRange_eq hx.le hy.le)
      ha i j (List.mem_range.1 hi) (List.mem_range.1 hj)
  rw [patternRows_cells]
  refine foldl_writes (fun buf : Buffer => buf a) _
    (fun i hi => foldl_keeps (fun buf : Buffer => buf a) _ (hkeeps i hi))
    ⟨py / (m.yResolution / n), List.mem_range.2 hin.2, ?_⟩ buf
  exact foldl_writes (fun buf : Buffer => buf a) _
    (hkeeps _ (List.mem_range.2 hin.2))
    ⟨px / (m.xResolution / n), List.mem_range.2 hin.1,
      drawCell_holds hsize hn hnx hny hin (pixelRange_eq hx.le hy.le) ha⟩

/-- And it leaves the other pixels of the screen alone. -/
theorem patternRows_keeps (hx : px < m.xResolution)
    (hy : py < m.yResolution) (hout : ¬InTiles m n px py)
    (hr : pixelRange m px py = some r) (ha : a ∈ r.bytes) (buf : Buffer) :
    patternRows m n color (List.range n) buf a = buf a := by
  refine (pattern_overwrites m n color).keeps a ?_ buf
  rintro ⟨row, hrow, col, hcol, s, hs, has⟩
  obtain ⟨i, hi, k, hk, rfl⟩ := lt_mul_iff_part.1 hrow
  obtain ⟨j, hj, l, hl, rfl⟩ := lt_mul_iff_part.1 hcol
  obtain ⟨hX, hY, htile, -⟩ := @cell_pixel m n color i j k l hi hj hk hl
  rw [zero_add, zero_add, toNat_ofNat_of_le hX.le m.x_lt,
    toNat_ofNat_of_le hY.le m.y_lt] at hs
  obtain ⟨rfl, rfl⟩ := eq_of_shared_byte hsize hX hY hx hy hs hr has ha
  exact hout htile

end

end

-- ============================================================ the result

/-- In each of the five modes, at every resolution whose frame fits in 32
bits of addresses, the drawing loop draws the documented pattern. -/
theorem pattern_drawn (mode : ColorMode) (m : ModeInfo)
    (n : UInt8) (first : UInt32) (step : UInt8) (junk : FirstColor)
    (hbits : m.bitsPerPixel = mode.bits) (hn : 1 ≤ n.toNat)
    (hx : n.toNat ≤ m.xResolution) (hy : n.toNat ≤ m.yResolution)
    (hsize : m.xResolution * m.yResolution * m.bytesPerPixel ≤ 2 ^ 32) :
    PatternDrawn m n.toNat
        (patternColor m mode.colors mode.number n first step junk)
        (fun i j => UInt32.ofNat
          (documentedColor mode n.toNat first.toNat step.toNat i j)) := by
  have hcolor : patternColor m mode.colors mode.number n first step junk
      = fun i j => UInt32.ofNat
        (documentedColor mode n.toNat first.toNat step.toNat i j) :=
    funext fun i => funext fun j => patternColor_eq mode hbits i j
  rw [hcolor]
  intro buf px hpx py hpy
  refine ⟨fun hin => ?_, fun hout r hr a ha => ?_⟩
  · exact patternRows_holds hsize hpx hpy hn hx hy hin buf
  · exact patternRows_keeps hsize hpx hpy hout hr ha buf

/-- Nine rectangles in the game's mode, for a red that wraps. -/
theorem pattern_drawn_nine :
    PatternDrawn mode0x115 3
      (patternColor mode0x115 ⟨8, 16, 8, 8, 8, 0⟩ 0x115 3 0xFE8010 7
        ⟨0, 0, 0⟩)
      (fun i j => UInt32.ofNat (documentedColor .direct888 3 0xFE8010 7 i j)) :=
  pattern_drawn .direct888 mode0x115 3 0xFE8010 7 ⟨0, 0, 0⟩ rfl
    (by decide) (by decide) (by decide) (by decide)

end Lcom.Lab5
