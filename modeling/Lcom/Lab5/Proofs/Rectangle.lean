/-
Whether `vg_draw_rectangle` draws all of its rectangle or nothing.

It draws pixel by pixel and stops at the first one refused, with the ones
before it drawn, and a pixel is refused only past column `XResolution` or
row `YResolution`. So nothing is drawn exactly if the first pixel is
refused, and a rectangle that reaches the column or the row past the
screen is either drawn there or left half done. A rectangle on the
screen is drawn in full, and holds its colour unless the mode is too
large for 32-bit offsets and two of its pixels fall on one byte.
-/
import Lcom.Lab5.Proofs.Shown
import Lcom.Proj.Proofs.Pixels

namespace Lcom.Lab5

open Machine Proj

-- ========================================================= the property

/-- The rectangle lies on the screen. -/
def RectangleFits (m : ModeInfo) (x y width height : UInt16) : Prop :=
  x.toNat + width.toNat ≤ m.xResolution
    ∧ y.toNat + height.toNat ≤ m.yResolution

/-- The bytes of the pixels of the rectangle. -/
def rectangleBytes (m : ModeInfo) (x y width height : UInt16) : Set Nat :=
  {a | ∃ i < height.toNat, ∃ j < width.toNat, ∃ r,
    pixelRange m (x.toNat + j) (y.toNat + i) = some r ∧ a ∈ r.bytes}

/-- The call returns 0 exactly if the rectangle lies on the screen; then
its pixels hold the colour and nothing else has changed, and otherwise
nothing has. -/
def AllOrNothing (m : ModeInfo) (x y width height : UInt16)
    (color : UInt32) : Prop :=
  ∀ buf,
    ((vgDrawRectangle m buf x y width height color).1 = 0
        ↔ RectangleFits m x y width height)
      ∧ ((vgDrawRectangle m buf x y width height color).1 = 0 →
        (∀ i < height.toNat, ∀ j < width.toNat,
          HoldsColor m (vgDrawRectangle m buf x y width height color).2
            (x.toNat + j) (y.toNat + i) color)
        ∧ ∀ a ∉ rectangleBytes m x y width height,
          (vgDrawRectangle m buf x y width height color).2 a = buf a)
      ∧ ((vgDrawRectangle m buf x y width height color).1 ≠ 0 →
        ∀ a, (vgDrawRectangle m buf x y width height color).2 a = buf a)

/-- No two pixels of the rectangle ask for different values of one
byte. -/
def PixelsAgree (m : ModeInfo) (x y width height : UInt16)
    (color : UInt32) : Prop :=
  ∀ i < height.toNat, ∀ j < width.toNat, ∀ i' < height.toNat,
    ∀ j' < width.toNat, ∀ r r',
    pixelRange m (x.toNat + j) (y.toNat + i) = some r →
    pixelRange m (x.toNat + j') (y.toNat + i') = some r' →
    ∀ a, a ∈ r.bytes → a ∈ r'.bytes →
      colorByte color r a = colorByte color r' a

-- ====================================================== values in a loop

section

variable {ι : Type*} {body : Buffer → ι → Nat × Buffer} {a : Nat}

/-- A loop whose bodies keep a byte or write `v` there leaves it kept or
`v`. -/
theorem untilFails_keeps {v : UInt8} (is : List ι)
    (h : ∀ i ∈ is, ∀ buf, (body buf i).2 a = v ∨ (body buf i).2 a = buf a)
    (buf : Buffer) :
    (untilFails body is buf).2 a = v ∨ (untilFails body is buf).2 a = buf a := by
  induction is generalizing buf with
  | nil => exact .inr rfl
  | cons i is ih =>
      unfold untilFails
      split
      · exact h i (by simp) buf
      · rcases ih (fun j hj => h j (by simp [hj])) (body buf i).2 with hv | hk
        · exact .inl hv
        · rw [hk]
          exact h i (by simp) buf

/-- If moreover one body writes `v`, and none fails, the byte is `v`. -/
theorem untilFails_holds {v : UInt8} (is : List ι)
    (hok : ∀ i ∈ is, ∀ buf, (body buf i).1 = 0)
    (h : ∀ i ∈ is, ∀ buf, (body buf i).2 a = v ∨ (body buf i).2 a = buf a)
    (hw : ∃ i ∈ is, ∀ buf, (body buf i).2 a = v) (buf : Buffer) :
    (untilFails body is buf).2 a = v := by
  induction is generalizing buf with
  | nil =>
      obtain ⟨i, hi, -⟩ := hw
      cases hi
  | cons i is ih =>
      have hrest := fun j hj => h j (List.mem_cons_of_mem i hj)
      unfold untilFails
      rw [if_neg (not_not.2 (hok i (by simp) buf))]
      obtain ⟨k, hk, hkv⟩ := hw
      rcases List.mem_cons.1 hk with rfl | hk
      · -- written by the first body, and kept or written again later
        rcases untilFails_keeps is hrest (body buf k).2 with hv | hkept
        · exact hv
        · rw [hkept]
          exact hkv buf
      · exact ih (fun j hj => hok j (List.mem_cons_of_mem i hj)) hrest
          ⟨k, hk, hkv⟩ _

/-- What the first body writes is overwritten, whatever fails later. -/
theorem untilFails_writes_first {ok : ι → Prop} {C : ι → Set Nat} (i : ι)
    (is : List ι)
    (h : ∀ j ∈ i :: is, Paints (fun buf => body buf j) (ok j) (C j))
    (ha : a ∈ C i) :
    ∃ v, ∀ buf, (untilFails body (i :: is) buf).2 a = v := by
  have hi := h i (by simp)
  by_cases hok : ok i
  · obtain ⟨D, hD, -⟩ := untilFails_paints is fun j hj => h j (by simp [hj])
    obtain ⟨v, hv⟩ := (hi.overwrites.comp hD.overwrites).writes a (.inl ha)
    refine ⟨v, fun buf => ?_⟩
    rw [← hv buf, untilFails, if_neg (not_not.2 ((hi.result buf).2 hok))]
  · obtain ⟨v, hv⟩ := hi.overwrites.writes a ha
    refine ⟨v, fun buf => ?_⟩
    rw [← hv buf, untilFails, if_pos fun h0 => hok ((hi.result buf).1 h0)]

end

-- ========================================================= on the screen

section

variable {m : ModeInfo} {x y width height : UInt16} {color : UInt32}

/-- A coordinate on the screen does not wrap. -/
theorem toNat_add_ofNat {x : UInt16} {j n : Nat} (h : x.toNat + j ≤ n)
    (hn : n < 2 ^ 16) : (x + UInt16.ofNat j).toNat = x.toNat + j := by
  rw [UInt16.toNat_add, UInt16.toNat_ofNat', Nat.add_mod_mod,
    Nat.mod_eq_of_lt (Nat.lt_of_le_of_lt h hn)]

/-- The coordinates of the pixels of a rectangle on the screen. -/
theorem RectangleFits.coordinates (h : RectangleFits m x y width height)
    {i j : Nat} (hi : i < height.toNat) (hj : j < width.toNat) :
    (x + UInt16.ofNat j).toNat = x.toNat + j
      ∧ (y + UInt16.ofNat i).toNat = y.toNat + i
      ∧ x.toNat + j < m.xResolution ∧ y.toNat + i < m.yResolution := by
  obtain ⟨hx, hy⟩ := h
  have hxj : x.toNat + j < m.xResolution := by omega
  have hyi : y.toNat + i < m.yResolution := by omega
  exact ⟨toNat_add_ofNat hxj.le m.x_lt, toNat_add_ofNat hyi.le m.y_lt, hxj,
    hyi⟩

theorem RectangleFits.accepted (h : RectangleFits m x y width height) :
    BlockAccepted m x y width.toNat height.toNat := by
  intro i hi j hj
  obtain ⟨hx, hy, hxj, hyi⟩ := h.coordinates hi hj
  rw [hx, hy]
  exact ⟨hxj.le, hyi.le⟩

theorem RectangleFits.bytes_eq (h : RectangleFits m x y width height) :
    blockBytes m x y width.toNat height.toNat
      = rectangleBytes m x y width height := by
  ext a
  refine exists_congr fun i => and_congr_right fun hi =>
    exists_congr fun j => and_congr_right fun hj => ?_
  obtain ⟨hx, hy, -, -⟩ := h.coordinates hi hj
  rw [← hx, ← hy]
  rfl

/-- One pixel keeps a byte or puts the colour there. -/
theorem pixel_keeps {v : UInt8} {a : Nat}
    (h : ∀ r, pixelRange m x.toNat y.toNat = some r → a ∈ r.bytes →
      colorByte color r a = v) (buf : Buffer) :
    (vgDrawPixel m buf x y color).2 a = v
      ∨ (vgDrawPixel m buf x y color).2 a = buf a := by
  unfold vgDrawPixel drawPixel
  cases hr : pixelRange m x.toNat y.toNat with
  | none => exact .inr rfl
  | some r =>
      by_cases ha : a ∈ r.bytes
      · left
        rw [← h r hr ha]
        exact if_pos ha
      · exact .inr (if_neg ha)

theorem pixel_holds {r : ByteRange} {a : Nat}
    (hr : pixelRange m x.toNat y.toNat = some r) (ha : a ∈ r.bytes)
    (buf : Buffer) :
    (vgDrawPixel m buf x y color).2 a = colorByte color r a := by
  unfold vgDrawPixel drawPixel
  rw [hr]
  exact if_pos ha

/-- A rectangle on the screen whose pixels agree holds its colour. -/
theorem rectangle_holds (hfits : RectangleFits m x y width height)
    (hagree : PixelsAgree m x y width height color) {i j : Nat}
    (hi : i < height.toNat) (hj : j < width.toNat) (buf : Buffer) :
    HoldsColor m (vgDrawRectangle m buf x y width height color).2
      (x.toNat + j) (y.toNat + i) color := by
  obtain ⟨-, -, hxj, hyi⟩ := hfits.coordinates hi hj
  obtain ⟨r, hrange⟩ : ∃ r, pixelRange m (x.toNat + j) (y.toNat + i) = some r :=
    ⟨_, pixelRange_eq hxj.le hyi.le⟩
  refine ⟨r, hrange, fun a ha => ?_⟩
  -- every pixel keeps the byte or puts the same value there
  have hpixel : ∀ i' < height.toNat, ∀ j' < width.toNat, ∀ buf,
      (vgDrawPixel m buf (x + UInt16.ofNat j') (y + UInt16.ofNat i')
          color).2 a = colorByte color r a
        ∨ (vgDrawPixel m buf (x + UInt16.ofNat j') (y + UInt16.ofNat i')
          color).2 a = buf a := by
    intro i' hi' j' hj' buf
    obtain ⟨hx', hy', -, -⟩ := hfits.coordinates hi' hj'
    refine pixel_keeps (fun r' hr' ha' => ?_) buf
    rw [hx', hy'] at hr'
    exact hagree i' hi' j' hj' i hi j hj r' r hr' hrange a ha' ha
  have haccept : ∀ i' < height.toNat, ∀ buf,
      (vgDrawHline m buf x (y + UInt16.ofNat i') width color).1 = 0 := by
    intro i' hi' buf
    obtain ⟨D, hD, -⟩ := hline_paints m x (y + UInt16.ofNat i') width color
    exact (hD.result buf).2 fun j' hj' =>
      hfits.accepted i' hi' j' (List.mem_range.1 hj')
  refine untilFails_holds _
    (fun i' hi' => haccept i' (List.mem_range.1 hi'))
    (fun i' hi' => untilFails_keeps _ fun j' hj' =>
      hpixel i' (List.mem_range.1 hi') j' (List.mem_range.1 hj'))
    ⟨i, List.mem_range.2 hi, ?_⟩ buf
  refine untilFails_holds _ (fun j' hj' buf => ?_)
    (fun j' hj' => hpixel i hi j' (List.mem_range.1 hj'))
    ⟨j, List.mem_range.2 hj, ?_⟩
  · exact ((pixel_paints m _ _ color).result buf).2
      (hfits.accepted i hi j' (List.mem_range.1 hj'))
  · obtain ⟨hx, hy, -, -⟩ := hfits.coordinates hi hj
    exact pixel_holds (by rw [hx, hy]; exact hrange) ha

/-- In a mode whose size needs no more than 32 bits two pixels of the
screen share no byte. -/
theorem pixelsAgree_of_size
    (hsize : m.xResolution * m.yResolution * m.bytesPerPixel ≤ 2 ^ 32)
    (hfits : RectangleFits m x y width height) :
    PixelsAgree m x y width height color := by
  intro i hi j hj i' hi' j' hj' r r' hr hr' a ha ha'
  obtain ⟨-, -, hxj, hyi⟩ := hfits.coordinates hi hj
  obtain ⟨-, -, hxj', hyi'⟩ := hfits.coordinates hi' hj'
  obtain ⟨hx, hy⟩ :=
    eq_of_shared_byte hsize hxj hyi hxj' hyi' hr hr' ha ha'
  rw [hx, hy, hr'] at hr
  cases hr
  rfl

end

-- =========================================================== the result

/-- A line overwrites its first pixel. -/
theorem hline_writes_first {m : ModeInfo} {x y len : UInt16}
    (color : UInt32) (hlen : 1 ≤ len.toNat) {a : Nat}
    (ha : a ∈ pixelBytes m x y) :
    ∃ v, ∀ buf, (vgDrawHline m buf x y len color).2 a = v := by
  obtain ⟨n, hn⟩ := Nat.exists_eq_add_of_le' hlen
  unfold vgDrawHline
  rw [hn, List.range_succ_eq_map]
  exact untilFails_writes_first 0 _
    (fun j _ => pixel_paints m (x + UInt16.ofNat j) y color)
    (by simpa using ha)

/-- So does a rectangle. -/
theorem rectangle_writes_first {m : ModeInfo} {x y width height : UInt16}
    (color : UInt32) (hw : 1 ≤ width.toNat) (hh : 1 ≤ height.toNat)
    {a : Nat} (ha : a ∈ pixelBytes m x y) :
    ∃ v, ∀ buf, (vgDrawRectangle m buf x y width height color).2 a = v := by
  obtain ⟨n, hn⟩ := Nat.exists_eq_add_of_le' hh
  choose C hC _ using fun i : Nat =>
    hline_paints m x (y + UInt16.ofNat i) width color
  have hline : a ∈ C 0 := by
    by_contra hnot
    obtain ⟨v, hv⟩ := hline_writes_first color hw ha
    have hkept := (hC 0).overwrites.keeps a hnot
    rw [show y + UInt16.ofNat 0 = y from UInt16.add_zero y] at hkept
    have h0 := (hv _).symm.trans (hkept fun _ => 0)
    have h1 := (hv _).symm.trans (hkept fun _ => 1)
    exact absurd (h0.symm.trans h1) (by decide)
  unfold vgDrawRectangle
  rw [hn, List.range_succ_eq_map]
  exact untilFails_writes_first 0 _ (fun i _ => hC i) hline

/-- A rectangle whose first pixel is refused draws nothing. -/
theorem rectangle_refused {m : ModeInfo} {x y width height : UInt16}
    {color : UInt32} (hw : 1 ≤ width.toNat) (hh : 1 ≤ height.toNat)
    (h : m.xResolution < x.toNat ∨ m.yResolution < y.toNat) (buf : Buffer) :
    vgDrawRectangle m buf x y width height color = (1, buf) := by
  have hpixel : vgDrawPixel m buf x y color = (1, buf) := by
    unfold vgDrawPixel drawPixel
    rw [pixelRange_none h]
  obtain ⟨w, hw⟩ := Nat.exists_eq_add_of_le' hw
  obtain ⟨h, hh⟩ := Nat.exists_eq_add_of_le' hh
  simp [vgDrawRectangle, vgDrawHline, hw, hh, List.range_succ_eq_map,
    untilFails, hpixel]

/-- A rectangle whose first pixel is accepted changes something. -/
theorem rectangle_changes {m : ModeInfo} {x y width height : UInt16}
    (color : UInt32) (hw : 1 ≤ width.toNat) (hh : 1 ≤ height.toNat)
    (hx : x.toNat ≤ m.xResolution) (hy : y.toNat ≤ m.yResolution) :
    ∃ buf a, (vgDrawRectangle m buf x y width height color).2 a ≠ buf a := by
  obtain ⟨v, hv⟩ := rectangle_writes_first color hw hh
    ⟨_, pixelRange_eq hx hy, Nat.le_refl _,
      Nat.lt_add_of_pos_right m.bytesPerPixel_pos.1⟩
  have hne : v ≠ v + 1 := fun h => absurd (left_eq_add.1 h) (by decide)
  exact ⟨fun _ => v + 1, _, fun hkept => hne ((hv _).symm.trans hkept)⟩

/-- If the pixels of the rectangle all hold the colour, they agree. -/
theorem pixelsAgree_of_holds {m : ModeInfo} {x y width height : UInt16}
    {color : UInt32} {buf : Buffer}
    (h : ∀ i < height.toNat, ∀ j < width.toNat,
      HoldsColor m buf (x.toNat + j) (y.toNat + i) color) :
    PixelsAgree m x y width height color := by
  intro i hi j hj i' hi' j' hj' r r' hr hr' a ha ha'
  obtain ⟨s, hs, hcolor⟩ := h i hi j hj
  obtain ⟨s', hs', hcolor'⟩ := h i' hi' j' hj'
  cases hr.symm.trans hs
  cases hr'.symm.trans hs'
  exact (hcolor a ha).symm.trans (hcolor' a ha')

/-- A rectangle is drawn in full or not at all exactly if it lies on the
screen, in a mode whose size needs no more than 32 bits or with pixels
that agree, or if its first pixel is refused. -/
theorem rectangle_all_or_nothing_iff (m : ModeInfo)
    (x y width height : UInt16) (color : UInt32) (hw : 1 ≤ width)
    (hh : 1 ≤ height) :
    AllOrNothing m x y width height color
      ↔ (RectangleFits m x y width height
          ∧ (m.xResolution * m.yResolution * m.bytesPerPixel ≤ 2 ^ 32
            ∨ PixelsAgree m x y width height color))
        ∨ m.xResolution < x.toNat ∨ m.yResolution < y.toNat := by
  have hw' : 1 ≤ width.toNat := UInt16.le_iff_toNat_le.1 hw
  have hh' : 1 ≤ height.toNat := UInt16.le_iff_toNat_le.1 hh
  obtain ⟨D, hD, hfull⟩ := rectangle_paints m x y width height color
  constructor
  · intro h
    by_cases hfirst : m.xResolution < x.toNat ∨ m.yResolution < y.toNat
    · exact .inr hfirst
    by_cases hret : BlockAccepted m x y width.toNat height.toNat
    · have h0 := (hD.result fun _ => 0).2 hret
      obtain ⟨hiff, hdone, -⟩ := h fun _ => 0
      exact .inl ⟨hiff.1 h0, .inr (pixelsAgree_of_holds (hdone h0).1)⟩
    · -- it returns 1, but the first pixel has been drawn
      obtain ⟨buf, a, hne⟩ := rectangle_changes color hw' hh'
        (Nat.le_of_not_lt fun hx => hfirst (.inl hx))
        (Nat.le_of_not_lt fun hy => hfirst (.inr hy))
      exact absurd ((h buf).2.2 (fun h0 => hret ((hD.result buf).1 h0)) a) hne
  · rintro (⟨hfits, hsize⟩ | hrefused) buf
    · have hagree : PixelsAgree m x y width height color :=
        hsize.elim (fun hs => pixelsAgree_of_size hs hfits) id
      have h0 := (hD.result buf).2 hfits.accepted
      rw [hfull hfits.accepted, hfits.bytes_eq] at hD
      refine ⟨iff_of_true h0 hfits, fun _ => ⟨fun i hi j hj => ?_,
        fun a ha => hD.overwrites.keeps a ha buf⟩, fun h1 => absurd h0 h1⟩
      exact rectangle_holds hfits hagree hi hj buf
    · rw [rectangle_refused hw' hh' hrefused]
      refine ⟨iff_of_false (by simp) fun hfits => ?_, by simp, fun _ _ => rfl⟩
      obtain ⟨hx, hy⟩ := hfits
      omega

/-- In the game's mode, the right half of the screen and a rectangle
right of it. -/
theorem rectangle_all_or_nothing_half :
    AllOrNothing mode0x115 400 0 400 600 0xFF
      ∧ AllOrNothing mode0x115 801 0 1 1 0xFF :=
  ⟨(rectangle_all_or_nothing_iff mode0x115 400 0 400 600 0xFF (by decide)
      (by decide)).2 (.inl ⟨by unfold RectangleFits; decide,
        .inl (by decide)⟩),
    (rectangle_all_or_nothing_iff mode0x115 801 0 1 1 0xFF (by decide)
      (by decide)).2 (.inr (.inl (by decide)))⟩

/-- One pixel in column 800 is accepted, and two pixels from there are
refused with the first one drawn. -/
theorem rectangle_over_the_edge :
    ¬AllOrNothing mode0x115 800 0 1 1 0xFF
      ∧ ¬AllOrNothing mode0x115 800 0 2 1 0xFF := by
  constructor
  · intro h
    have hret : (vgDrawRectangle mode0x115 (fun _ => 0) 800 0 1 1 0xFF).1
        = 0 := by decide
    have hfits := (h fun _ => 0).1.1 hret
    unfold RectangleFits at hfits
    revert hfits
    decide
  · intro h
    have hdrawn : (vgDrawRectangle mode0x115 (fun _ => 0) 800 0 2 1 0xFF).2
        2400 = 0xFF := by decide
    have hkept := (h fun _ => 0).2.2 (by decide) 2400
    rw [hdrawn] at hkept
    revert hkept
    decide

end Lcom.Lab5
