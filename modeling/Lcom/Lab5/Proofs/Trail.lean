/-
Where the sprite of `video_test_move` leaves no trail.

A pixel has one byte, and an accepted one in the column past the screen
has the first byte of the next row, so a picture that hangs over the
right edge is drawn beside itself. It is also not erased in full:
`vg_draw_rectangle` stops at the column after that. Where every pixel that
reaches the buffer is on the screen, neither happens: the sprite writes
its bytes and no others (`sprite_shows`), and every one of them is erased
before a pixel is refused (`rectangle_clears`), even if the picture hangs
over the bottom.
-/
import Lcom.Lab5.Proofs.Move
import Lcom.Lab5.Proofs.Rectangle
import Lcom.Machine.Loop

namespace Lcom.Lab5

open Machine Proj

section

variable {m : ModeInfo} {img : Image} {x y : UInt16} {a : Nat}

-- ============================================================= one byte

theorem vramSize_of_eight (h8 : m.bitsPerPixel = 8) :
    m.vramSize = m.xResolution * m.yResolution := by
  have hB : m.bytesPerPixel = 1 := by simp [ModeInfo.bytesPerPixel, h8]
  have hle := Nat.mul_le_mul m.x_lt.le m.y_lt.le
  have hx := m.x_lt
  have hy := m.y_lt
  have hlt : m.xResolution * m.yResolution < 2 ^ 32 := by
    calc m.xResolution * m.yResolution
        ≤ (2 ^ 16 - 1) * (2 ^ 16 - 1) := Nat.mul_le_mul (by omega) (by omega)
      _ < 2 ^ 32 := by decide
  unfold ModeInfo.vramSize
  rw [hB, Nat.mul_one, Nat.mod_eq_of_lt hlt]

/-- The byte of an accepted pixel. -/
theorem pixelRange_byte (h8 : m.bitsPerPixel = 8) {col row : Nat}
    (hcol : col ≤ m.xResolution) (hrow : row ≤ m.yResolution) :
    pixelRange m col row = some ⟨m.xResolution * row + col, 1⟩ := by
  have hB : m.bytesPerPixel = 1 := by simp [ModeInfo.bytesPerPixel, h8]
  have hx := m.x_lt
  have hy := m.y_lt
  have hle : m.xResolution * row ≤ (2 ^ 16 - 1) * (2 ^ 16 - 1) :=
    Nat.mul_le_mul (by omega) (by omega)
  unfold pixelRange
  rw [if_neg (by omega), hB, Nat.mul_one, Nat.mul_one,
    Nat.mod_eq_of_lt (by omega)]

theorem mem_bytes_one {start : Nat} :
    a ∈ (ByteRange.mk start 1).bytes ↔ a = start := by
  change start ≤ a ∧ a < start + 1 ↔ a = start
  omega

/-- What a pixel of the picture puts in its byte. -/
theorem colorByte_pixel (v : UInt8) :
    colorByte v.toUInt32 ⟨a, 1⟩ a = v := by
  simp [colorByte]

/-- Black is zero in every byte. -/
theorem colorByte_black (r : ByteRange) : colorByte 0 r a = 0 := by
  simp [colorByte]

-- ========================================================== in the picture

/-- A pixel of a well placed picture that has a byte of the screen is the
one that belongs there. -/
theorem WellPlaced.pixel (h8 : m.bitsPerPixel = 8)
    (h : WellPlaced m img x y) (ha : a < m.vramSize) {i j : Nat}
    (hi : i < img.height.toNat) (hj : j < img.width.toNat)
    (hmem : a ∈ pixelBytes m (x + UInt16.ofNat j) (y + UInt16.ofNat i)) :
    x.toNat + j = a % m.xResolution ∧ y.toNat + i = a / m.xResolution := by
  obtain ⟨r, hr, har⟩ := hmem
  have hcoords : (x + UInt16.ofNat j).toNat ≤ m.xResolution
      ∧ (y + UInt16.ofNat i).toNat ≤ m.yResolution := by
    unfold pixelRange at hr
    split at hr
    · cases hr
    · omega
  have hbyte := pixelRange_byte h8 hcoords.1 hcoords.2
  rw [hr] at hbyte
  cases hbyte
  rw [mem_bytes_one] at har
  obtain ⟨hx, hy⟩ := h i hi j hj _ hr (by rw [← har]; exact ha)
  rw [toNat_add_ofNat hx.le m.x_lt, toNat_add_ofNat hy.le m.y_lt] at har
  subst har
  have hX : 0 < m.xResolution := by omega
  constructor
  · rw [Nat.mul_add_mod, Nat.mod_eq_of_lt hx]
  · rw [Nat.mul_add_div hX, Nat.div_eq_of_lt hx, Nat.add_zero]

/-- The pixel a byte of the picture belongs to. -/
theorem InPicture.pixel (h8 : m.bitsPerPixel = 8)
    (h : InPicture m img x y a) (ha : a < m.vramSize) :
    ∃ i j, i < img.height.toNat ∧ j < img.width.toNat
      ∧ x.toNat + j = a % m.xResolution ∧ y.toNat + i = a / m.xResolution
      ∧ a % m.xResolution < m.xResolution
      ∧ a / m.xResolution < m.yResolution := by
  rw [vramSize_of_eight h8] at ha
  have hX : 0 < m.xResolution := Nat.pos_of_ne_zero fun h0 => by
    simp [h0] at ha
  obtain ⟨hcol, hcol', hrow, hrow'⟩ := h
  exact ⟨a / m.xResolution - y.toNat, a % m.xResolution - x.toNat, by omega,
    by omega, by omega, by omega, Nat.mod_lt a hX,
    Nat.div_lt_of_lt_mul ha⟩

/-- It is accepted, and has that byte. -/
theorem InPicture.accepted (h8 : m.bitsPerPixel = 8) {i j : Nat}
    (hx : x.toNat + j = a % m.xResolution)
    (hy : y.toNat + i = a / m.xResolution)
    (hcol : a % m.xResolution < m.xResolution)
    (hrow : a / m.xResolution < m.yResolution) :
    pixelRange m (x + UInt16.ofNat j).toNat (y + UInt16.ofNat i).toNat
      = some ⟨a, 1⟩ := by
  rw [toNat_add_ofNat (hx ▸ hcol.le) m.x_lt,
    toNat_add_ofNat (hy ▸ hrow.le) m.y_lt, hx, hy,
    pixelRange_byte h8 hcol.le hrow.le, Nat.div_add_mod]

-- ============================================================= the sprite

variable (m img x y) in
/-- The draw of one pixel of the sprite. -/
def drawSpritePixel (i j : Nat) (buf : Buffer) : Buffer :=
  (vgDrawPixel m buf (x + UInt16.ofNat j) (UInt16.ofNat i + y)
    (img.pixel (i * img.width.toNat + j)).toUInt32).2

theorem drawSprite_pixels (buf : Buffer) :
    drawSprite m buf img x y
      = (List.range img.height.toNat).foldl (fun buf i =>
        (List.range img.width.toNat).foldl (fun buf j =>
          drawSpritePixel m img x y i j buf) buf) buf := rfl

/-- The pixel of the sprite that belongs to a byte puts the byte of the
picture there. -/
theorem drawSpritePixel_holds (h8 : m.bitsPerPixel = 8) {i j : Nat}
    (hx : x.toNat + j = a % m.xResolution)
    (hy : y.toNat + i = a / m.xResolution)
    (hcol : a % m.xResolution < m.xResolution)
    (hrow : a / m.xResolution < m.yResolution) (buf : Buffer) :
    drawSpritePixel m img x y i j buf a = pictureByte m img x y a := by
  unfold drawSpritePixel pictureByte
  rw [add_comm (UInt16.ofNat i),
    pixel_holds (InPicture.accepted h8 hx hy hcol hrow)
      (mem_bytes_one.2 rfl),
    colorByte_pixel, ← hx, ← hy, Nat.add_sub_cancel_left,
    Nat.add_sub_cancel_left]

/-- In a well placed sprite the other pixels keep it. -/
theorem WellPlaced.drawSpritePixel (h8 : m.bitsPerPixel = 8)
    (h : WellPlaced m img x y) (ha : a < m.vramSize)
    (hin : InPicture m img x y a) {i j : Nat} (hi : i < img.height.toNat)
    (hj : j < img.width.toNat) (buf : Buffer) :
    drawSpritePixel m img x y i j buf a = pictureByte m img x y a
      ∨ drawSpritePixel m img x y i j buf a = buf a := by
  by_cases hmem :
      a ∈ pixelBytes m (x + UInt16.ofNat j) (y + UInt16.ofNat i)
  · left
    obtain ⟨hx, hy⟩ := h.pixel h8 ha hi hj hmem
    obtain ⟨-, -, -, -, -, -, hcol, hrow⟩ := hin.pixel h8 ha
    exact drawSpritePixel_holds h8 hx hy hcol hrow buf
  · right
    rw [add_comm y] at hmem
    exact (pixel_paints m _ _ _).overwrites.keeps a hmem buf

/-- A well placed sprite writes the bytes of its picture, and no others on
the screen. -/
theorem sprite_shows (h8 : m.bitsPerPixel = 8) (h : WellPlaced m img x y)
    (ha : a < m.vramSize) (buf : Buffer) :
    drawSprite m buf img x y a
      = if InPicture m img x y a then pictureByte m img x y a
        else buf a := by
  by_cases hin : InPicture m img x y a
  · obtain ⟨i, j, hi, hj, hx, hy, hcol, hrow⟩ := hin.pixel h8 ha
    have hkeeps := fun i (hi : i ∈ List.range img.height.toNat) j
        (hj : j ∈ List.range img.width.toNat) =>
      h.drawSpritePixel h8 ha hin (List.mem_range.1 hi) (List.mem_range.1 hj)
    rw [if_pos hin, drawSprite_pixels]
    refine foldl_writes (fun buf : Buffer => buf a) _
      (fun i hi => foldl_keeps (fun buf : Buffer => buf a) _ (hkeeps i hi))
      ⟨i, List.mem_range.2 hi, ?_⟩ buf
    exact foldl_writes (fun buf : Buffer => buf a) _
      (hkeeps i (List.mem_range.2 hi))
      ⟨j, List.mem_range.2 hj, drawSpritePixel_holds h8 hx hy hcol hrow⟩
  · rw [if_neg hin]
    refine (sprite_overwrites m img x y).keeps a ?_ buf
    rintro ⟨i, hi, j, hj, hmem⟩
    obtain ⟨hx, hy⟩ := h.pixel h8 ha hi hj hmem
    exact hin ⟨by omega, by omega, by omega, by omega⟩

-- ========================================================== the erasing

/-- A loop that stops at a failure does what a body does that it
reaches. -/
theorem untilFails_reaches {body : Buffer → Nat → Nat × Buffer} {v : UInt8}
    {n i : Nat} (hi : i < n)
    (hok : ∀ k < i, ∀ buf, (body buf k).1 = 0)
    (hkeeps : ∀ k < n, ∀ buf,
      (body buf k).2 a = v ∨ (body buf k).2 a = buf a)
    (hw : ∀ buf, (body buf i).2 a = v) (buf : Buffer) :
    (untilFails body (List.range n) buf).2 a = v := by
  obtain ⟨before, after, hsplit⟩ := List.append_of_mem (List.mem_range.2 hi)
  have hmem : ∀ k ∈ before ++ i :: after, k < n := fun k hk =>
    List.mem_range.1 (hsplit ▸ hk)
  have hbefore : ∀ k ∈ before, k < i := by
    have hsorted := List.pairwise_lt_range (n := n)
    rw [hsplit] at hsorted
    intro k hk
    exact (List.pairwise_append.1 hsorted).2.2 k hk i (List.mem_cons_self ..)
  rw [hsplit]
  clear hsplit
  induction before generalizing buf with
  | nil =>
      -- the body that writes, and then bodies that keep or write
      rw [List.nil_append, untilFails]
      split
      · exact hw buf
      · rcases untilFails_keeps after
          (fun k hk => hkeeps k (hmem k (by simp [hk]))) (body buf i).2
          with hv | hk
        · exact hv
        · rw [hk]
          exact hw buf
  | cons k before ih =>
      rw [List.cons_append, untilFails, if_neg (not_not.2 (hok k ?_ buf))]
      · exact ih _ (fun k' hk' => hmem k' (by simp [hk']))
          fun k' hk' => hbefore k' (by simp [hk'])
      · exact hbefore k (List.mem_cons_self ..)

/-- A black pixel keeps a byte or clears it. -/
theorem pixel_black (m : ModeInfo) (x y : UInt16) (a : Nat) (buf : Buffer) :
    (vgDrawPixel m buf x y 0).2 a = 0
      ∨ (vgDrawPixel m buf x y 0).2 a = buf a :=
  pixel_keeps (fun r _ _ => colorByte_black r) buf

/-- So do a black line and a black rectangle. -/
theorem hline_black (m : ModeInfo) (x y len : UInt16) (a : Nat)
    (buf : Buffer) :
    (vgDrawHline m buf x y len 0).2 a = 0
      ∨ (vgDrawHline m buf x y len 0).2 a = buf a :=
  untilFails_keeps _ (fun _ _ => pixel_black m _ y a) buf

theorem rectangle_black (m : ModeInfo) (x y width height : UInt16)
    (a : Nat) (buf : Buffer) :
    (vgDrawRectangle m buf x y width height 0).2 a = 0
      ∨ (vgDrawRectangle m buf x y width height 0).2 a = buf a :=
  untilFails_keeps _ (fun _ _ => hline_black m x _ width a) buf

/-- The rows of a well placed picture above one of its bytes are not
refused. -/
theorem WellPlaced.rows_accepted (h8 : m.bitsPerPixel = 8)
    (h : WellPlaced m img x y) {i k : Nat} (hi : i < img.height.toNat)
    (hk : k < i) (hrow : y.toNat + i < m.yResolution)
    (hcol : x.toNat < m.xResolution) {j : Nat} (hj : j < img.width.toNat) :
    (x + UInt16.ofNat j).toNat ≤ m.xResolution
      ∧ (y + UInt16.ofNat k).toNat ≤ m.yResolution := by
  have hrowk : y.toNat + k ≤ m.yResolution := by omega
  rw [toNat_add_ofNat hrowk m.y_lt]
  refine ⟨?_, hrowk⟩
  by_contra hout
  -- then the picture reaches the column past the screen, in a row above
  -- the last one
  have hwide : m.xResolution < x.toNat + j := by
    have hmod : (x + UInt16.ofNat j).toNat ≤ x.toNat + j := by
      rw [UInt16.toNat_add, UInt16.toNat_ofNat', Nat.add_mod_mod]
      exact Nat.mod_le _ _
    omega
  have hedge : x.toNat + (m.xResolution - x.toNat) = m.xResolution := by
    omega
  have hnext : m.xResolution * (y.toNat + k) + m.xResolution < m.vramSize := by
    rw [vramSize_of_eight h8]
    calc m.xResolution * (y.toNat + k) + m.xResolution
        = m.xResolution * (y.toNat + k + 1) := (Nat.mul_succ ..).symm
      _ < m.xResolution * m.yResolution :=
        Nat.mul_lt_mul_of_pos_left (by omega) (by omega)
  have hpast := h k (hk.trans hi) (m.xResolution - x.toNat) (by omega)
    ⟨m.xResolution * (y.toNat + k) + m.xResolution, 1⟩
    (by rw [toNat_add_ofNat hedge.le m.x_lt, toNat_add_ofNat hrowk m.y_lt,
      hedge, pixelRange_byte h8 (Nat.le_refl _) hrowk])
    hnext
  omega

/-- Painting a well placed picture over in black clears its bytes. -/
theorem rectangle_clears (h8 : m.bitsPerPixel = 8)
    (h : WellPlaced m img x y) (ha : a < m.vramSize)
    (hin : InPicture m img x y a) (buf : Buffer) :
    (vgDrawRectangle m buf x y img.width img.height 0).2 a = 0 := by
  obtain ⟨i, j, hi, hj, hx, hy, hcol, hrow⟩ := hin.pixel h8 ha
  refine untilFails_reaches hi (fun k hk buf => ?_)
    (fun k _ => hline_black m x _ img.width a) (fun buf => ?_) buf
  · obtain ⟨D, hD, -⟩ :=
      hline_paints m x (y + UInt16.ofNat k) img.width 0
    refine (hD.result buf).2 fun j' hj' => ?_
    exact h.rows_accepted h8 hi hk (by omega) (by omega)
      (List.mem_range.1 hj')
  · refine untilFails_reaches hj (fun k hk buf => ?_)
      (fun k _ => pixel_black m _ _ a) (fun buf => ?_) buf
    · refine ((pixel_paints m _ _ 0).result buf).2 ?_
      have hxk : x.toNat + k ≤ m.xResolution := by omega
      have hyi : y.toNat + i ≤ m.yResolution := by omega
      rw [toNat_add_ofNat hxk m.x_lt, toNat_add_ofNat hyi m.y_lt]
      exact ⟨hxk, hyi⟩
    · rw [pixel_holds (InPicture.accepted h8 hx hy hcol hrow)
        (mem_bytes_one.2 rfl), colorByte_black]

end

-- =============================================================== the runs

section

variable {m : ModeInfo} {img : Image} {xf yf : UInt16} {speed : Int16}
  {s s' : MoveState} {n : Message}

/-- The sprite is well placed and the buffer shows it and nothing
else. -/
structure Clean (m : ModeInfo) (img : Image) (s : MoveState) : Prop where
  placed : WellPlaced m img s.xi s.yi
  shows : Shows m img s.xi s.yi s.buf

/-- From there to the next good place. -/
theorem Clean.redraw (h8 : m.bitsPerPixel = 8) (h : Clean m img s)
    {x y : UInt16} (hplace : WellPlaced m img x y) :
    Clean m img (s.redraw m img x y) := by
  refine ⟨hplace, fun a ha => ?_⟩
  have herased :
      (vgDrawRectangle m s.buf s.xi s.yi img.width img.height 0).2 a = 0 := by
    by_cases hin : InPicture m img s.xi s.yi a
    · exact rectangle_clears h8 h.placed ha hin s.buf
    · rcases rectangle_black m s.xi s.yi img.width img.height a s.buf
        with h0 | hkept
      · exact h0
      · rw [hkept, h.shows a ha, clipped, if_neg hin]
  unfold MoveState.redraw clipped
  dsimp only
  rw [sprite_shows h8 hplace ha, herased]

/-- A move to a good place. -/
theorem Clean.move (h8 : m.bitsPerPixel = 8) (h : Clean m img s)
    {inc : UInt16}
    (hdown : s.xi = xf → WellPlaced m img s.xi (advance s.yi inc yf))
    (hacross : s.xi ≠ xf → s.yi = yf →
      WellPlaced m img (advance s.xi inc xf) s.yi) :
    Clean m img (s.move m img xf yf inc) := by
  unfold MoveState.move
  by_cases hx : s.xi = xf
  · rw [if_pos hx]
    exact ⟨(h.redraw h8 (hdown hx)).placed, (h.redraw h8 (hdown hx)).shows⟩
  · rw [if_neg hx]
    by_cases hy : s.yi = yf
    · rw [if_pos hy]
      have hclean := h.redraw h8 (hacross hx hy)
      exact ⟨hclean.placed, hclean.shows⟩
    · rw [if_neg hy]
      exact h

/-- A step that moves the sprite well, or not at all. -/
theorem Clean.step (h8 : m.bitsPerPixel = 8) (h : Clean m img s)
    (hwell : MovesWell m img xf yf speed s n)
    (hstep : s.step m img xf yf speed n = some s') : Clean m img s' := by
  obtain ⟨-, scancode, ⟨hn, rfl⟩ | ⟨-, rfl⟩⟩ := step_cases hstep
  · unfold MoveState.tick
    dsimp only
    split
    · exact ⟨h.placed, h.shows⟩
    · rename_i hdone
      rw [moved_eq]
      split
      · rename_i hmove
        obtain ⟨hdown, hacross⟩ :=
          hwell hn (Bool.not_eq_true _ ▸ hdone) hmove
        have hcounted : Clean m img
            { s with scancode, counter := s.counter + 1 } :=
          ⟨h.placed, h.shows⟩
        exact hcounted.move h8 hdown hacross
      · exact ⟨h.placed, h.shows⟩
  · exact ⟨h.placed, h.shows⟩

end

/-- In a mode of 8 bits and over a black buffer, a run that starts with
the sprite well placed and only moves it to good places leaves no
trail. -/
theorem no_trail_of_well_placed (m : ModeInfo) (h8 : m.bitsPerPixel = 8)
    (img : Image) (xi yi xf yf : UInt16) (speed : Int16) (buf : Buffer)
    (scancode : UInt8) (counter : Nat) (hblack : ∀ a < m.vramSize, buf a = 0)
    (hplaced : WellPlaced m img xi yi) (s : MoveState)
    (h : Reachable (MoveState.step m img xf yf speed)
      (· = MoveState.start m img xi yi buf scancode counter)
      (MovesWell m img xf yf speed) s) :
    Shows m img s.xi s.yi s.buf := by
  refine (Reachable.invariant (I := Clean m img) ?_ ?_ h).shows
  · rintro _ rfl
    refine ⟨hplaced, fun a ha => ?_⟩
    unfold MoveState.start clipped
    dsimp only
    rw [sprite_shows h8 hplaced ha, hblack a ha]
  · intro s n s' _ hs hwell hstep
    exact hs.step h8 hwell hstep

/-- A picture of one white pixel is well placed on the screen. -/
theorem white_wellPlaced {x y : UInt16} (hx : x.toNat < 1024)
    (hy : y.toNat < 768) :
    WellPlaced mode0x105 ⟨1, 1, fun _ => 0x3F⟩ x y := by
  intro i hi j hj _ _ _
  have hi' : i < 1 := hi
  have hj' : j < 1 := hj
  exact ⟨show x.toNat + j < 1024 by omega, show y.toNat + i < 768 by omega⟩

/-- One pixel, on its first tick from the corner down. -/
theorem no_trail_of_one_pixel :
    ∃ s, MoveState.step mode0x105 ⟨1, 1, fun _ => 0x3F⟩ 0 5 1
        (MoveState.start mode0x105 ⟨1, 1, fun _ => 0x3F⟩ 0 0 (fun _ => 0)
          0 0) timerOnly = some s
      ∧ Shows mode0x105 ⟨1, 1, fun _ => 0x3F⟩ s.xi s.yi s.buf := by
  refine ⟨_, step_timerOnly (by decide), ?_⟩
  refine no_trail_of_well_placed mode0x105 rfl ⟨1, 1, fun _ => 0x3F⟩ 0 0 0 5
    1 (fun _ => 0) 0 0 (fun _ _ => rfl)
    (white_wellPlaced (by decide) (by decide)) _ ?_
  refine .step (.start rfl) ?_ (step_timerOnly (by decide))
  exact fun _ _ _ => ⟨fun _ => white_wellPlaced (by decide) (by decide),
    fun hne => absurd rfl hne⟩

/-- A picture of three columns in the last column of the screen: the
second is drawn at the start of the next row, and the second row of the
picture is not erased. -/
theorem trail_at_the_edge :
    ¬LeavesNoTrail mode0x105 ⟨3, 2, fun _ => 1⟩ 1023 0 1023 2 2 := by
  intro h
  have hshows := h (fun _ => 0) 0 0 _ timerOnly _ (fun _ _ => rfl)
    (.start rfl) (step_timerOnly (by decide)) rfl 2047 (by decide)
  exact absurd hshows (by decide)

end Lcom.Lab5
