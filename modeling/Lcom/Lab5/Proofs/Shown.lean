/-
Whether the image shown depends on the buffer it was drawn into.

Every drawing function overwrites the pixels it draws and reads none,
and which pixels those are, and whether one is refused, is a matter of
the arguments (`Paints`). So a frame is the same for all initial
contents of the buffer exactly if the pixels drawn before it cover it;
later frames only add pixels. The pattern covers a multiple of its
number of rectangles in both directions, and no more.
-/
import Lcom.Lab5.VideoTests
import Lcom.Machine.Overwrite

namespace Lcom.Lab5

open Machine Proj

-- ============================================================= painting

/-- The operation returns 0 exactly if `ok`, and overwrites the bytes in
`C`. -/
structure Paints (op : Buffer → Nat × Buffer) (ok : Prop) (C : Set Nat) :
    Prop where
  result : ∀ buf, (op buf).1 = 0 ↔ ok
  overwrites : Overwrites (fun buf => (op buf).2) C

theorem pixel_paints (m : ModeInfo) (x y : UInt16) (color : UInt32) :
    Paints (fun buf => vgDrawPixel m buf x y color)
      (x.toNat ≤ m.xResolution ∧ y.toNat ≤ m.yResolution)
      (pixelBytes m x y) := by
  unfold vgDrawPixel drawPixel pixelBytes
  cases hr : pixelRange m x.toNat y.toNat with
  | none =>
      have hout : ¬(x.toNat ≤ m.xResolution ∧ y.toNat ≤ m.yResolution) := by
        unfold pixelRange at hr
        split at hr
        · omega
        · cases hr
      refine ⟨fun _ => by simp [hout], ⟨?_, fun _ _ _ => rfl⟩⟩
      rintro a ⟨r, hsome, -⟩
      cases hsome
  | some r =>
      have hin : x.toNat ≤ m.xResolution ∧ y.toNat ≤ m.yResolution := by
        unfold pixelRange at hr
        split at hr
        · cases hr
        · omega
      refine ⟨fun _ => by simp [hin], ⟨?_, ?_⟩⟩
      · rintro a ⟨r', hsome, ha⟩
        cases hsome
        exact ⟨_, fun _ => if_pos ha⟩
      · intro a ha _
        exact if_neg fun hmem => ha ⟨r, rfl, hmem⟩

/-- A loop that stops at a failure paints; if nothing fails it paints all
of it. -/
theorem untilFails_paints {ι : Type*} (is : List ι)
    {body : Buffer → ι → Nat × Buffer} {ok : ι → Prop} {C : ι → Set Nat}
    (h : ∀ i ∈ is, Paints (fun buf => body buf i) (ok i) (C i)) :
    ∃ D, Paints (untilFails body is) (∀ i ∈ is, ok i) D
      ∧ ((∀ i ∈ is, ok i) → D = {a | ∃ i ∈ is, a ∈ C i}) := by
  induction is with
  | nil =>
      refine ⟨∅, ⟨fun _ => by simp [untilFails], overwrites_id⟩, fun _ => ?_⟩
      simp
  | cons i is ih =>
      have hi := h i (by simp)
      obtain ⟨D, hD, hfull⟩ := ih fun j hj => h j (by simp [hj])
      by_cases hok : ok i
      · have hcons : untilFails body (i :: is)
            = fun buf => untilFails body is (body buf i).2 := by
          funext buf
          simp [untilFails, (hi.result buf).2 hok]
        refine ⟨C i ∪ D, ?_, fun hall => ?_⟩
        · rw [hcons]
          refine ⟨fun buf => ?_, hi.overwrites.comp hD.overwrites⟩
          rw [hD.result]
          simp [hok]
        · rw [hfull fun j hj => hall j (by simp [hj])]
          ext a
          simp
      · have hcons : untilFails body (i :: is)
            = fun buf => (1, (body buf i).2) := by
          funext buf
          have hne : (body buf i).1 ≠ 0 := fun h0 => hok ((hi.result buf).1 h0)
          simp [untilFails, hne]
        refine ⟨C i, ?_, fun hall => absurd (hall i (by simp)) hok⟩
        rw [hcons]
        exact ⟨fun _ => by simp [hok], hi.overwrites⟩

/-- A block of accepted pixels. -/
def BlockAccepted (m : ModeInfo) (x y : UInt16) (width height : Nat) :
    Prop :=
  ∀ i < height, ∀ j < width, (x + UInt16.ofNat j).toNat ≤ m.xResolution
    ∧ (y + UInt16.ofNat i).toNat ≤ m.yResolution

/-- The bytes of a block of pixels. -/
def blockBytes (m : ModeInfo) (x y : UInt16) (width height : Nat) :
    Set Nat :=
  {a | ∃ i < height, ∃ j < width,
    a ∈ pixelBytes m (x + UInt16.ofNat j) (y + UInt16.ofNat i)}

theorem blockAccepted_iff {m : ModeInfo} {x y : UInt16}
    {width height : Nat} :
    BlockAccepted m x y width height ↔ ¬BlockRefused m x y width height := by
  unfold BlockAccepted BlockRefused
  push Not
  rfl

/-- A line paints the pixels of a block of height one. -/
theorem hline_paints (m : ModeInfo) (x y len : UInt16) (color : UInt32) :
    ∃ D, Paints (fun buf => vgDrawHline m buf x y len color)
        (∀ j ∈ List.range len.toNat,
          (x + UInt16.ofNat j).toNat ≤ m.xResolution
            ∧ y.toNat ≤ m.yResolution) D
      ∧ ((∀ j ∈ List.range len.toNat,
          (x + UInt16.ofNat j).toNat ≤ m.xResolution
            ∧ y.toNat ≤ m.yResolution) →
        D = {a | ∃ j ∈ List.range len.toNat,
          a ∈ pixelBytes m (x + UInt16.ofNat j) y}) :=
  untilFails_paints _ fun j _ => pixel_paints m (x + UInt16.ofNat j) y color

/-- A rectangle fails exactly if one of its pixels is refused, and
otherwise paints its block. -/
theorem rectangle_paints (m : ModeInfo) (x y width height : UInt16)
    (color : UInt32) :
    ∃ D, Paints (fun buf => vgDrawRectangle m buf x y width height color)
        (BlockAccepted m x y width.toNat height.toNat) D
      ∧ (BlockAccepted m x y width.toNat height.toNat →
        D = blockBytes m x y width.toNat height.toNat) := by
  choose C hC hfull using fun i : Nat =>
    hline_paints m x (y + UInt16.ofNat i) width color
  obtain ⟨D, hD, hDfull⟩ :=
    untilFails_paints (List.range height.toNat) fun i _ => hC i
  have hok : (∀ i ∈ List.range height.toNat, ∀ j ∈ List.range width.toNat,
      (x + UInt16.ofNat j).toNat ≤ m.xResolution
        ∧ (y + UInt16.ofNat i).toNat ≤ m.yResolution)
      ↔ BlockAccepted m x y width.toNat height.toNat := by
    simp only [List.mem_range, BlockAccepted]
  refine ⟨D, ⟨fun buf => (hD.result buf).trans hok, hD.overwrites⟩, ?_⟩
  intro hall
  rw [hDfull (hok.2 hall)]
  ext a
  simp only [blockBytes, Set.mem_ofPred_eq, List.mem_range]
  refine exists_congr fun i => and_congr_right fun hi => ?_
  rw [hfull i fun j hj => hall i hi j (List.mem_range.1 hj)]
  simp

/-- A sprite paints its block, as far as its pixels are accepted. -/
theorem sprite_overwrites (m : ModeInfo) (img : Image) (x y : UInt16) :
    Overwrites (fun buf => drawSprite m buf img x y)
      (blockBytes m x y img.width.toNat img.height.toNat) := by
  have hrow : ∀ i : Nat, Overwrites (fun buf =>
      (List.range img.width.toNat).foldl (fun buf j =>
        (vgDrawPixel m buf (x + UInt16.ofNat j) (UInt16.ofNat i + y)
          (img.pixel (i * img.width.toNat + j)).toUInt32).2) buf)
      {a | ∃ j ∈ List.range img.width.toNat,
        a ∈ pixelBytes m (x + UInt16.ofNat j) (UInt16.ofNat i + y)} :=
    fun i => overwrites_foldl _ fun j _ => (pixel_paints m _ _ _).overwrites
  have hall := overwrites_foldl (List.range img.height.toNat) fun i _ =>
    hrow i
  have hblock : {a | ∃ i ∈ List.range img.height.toNat,
      a ∈ {a | ∃ j ∈ List.range img.width.toNat,
        a ∈ pixelBytes m (x + UInt16.ofNat j) (UInt16.ofNat i + y)}}
      = blockBytes m x y img.width.toNat img.height.toNat := by
    ext a
    simp [blockBytes, add_comm y]
  rw [← hblock]
  exact hall

-- ============================================================ one frame

/-- The addresses of a frame. -/
def onScreen (m : ModeInfo) : Set Nat := {a | a < m.vramSize}

theorem doubleBuffer_eq_iff {m : ModeInfo} {buf buf' : Buffer} :
    doubleBuffer m buf = doubleBuffer m buf'
      ↔ Set.EqOn buf buf' (onScreen m) := by
  constructor
  · intro h a ha
    exact congrFun h ⟨a, ha⟩
  · intro h
    funext a
    exact h a.isLt

/-- A frame is determined exactly if what was painted covers it. -/
theorem determined_frame_iff {m : ModeInfo} {f : Buffer → Buffer}
    {C : Set Nat} (h : Overwrites f C) :
    Determined (fun buf => doubleBuffer m (f buf)) ↔ onScreen m ⊆ C := by
  have hne : Nontrivial UInt8 := ⟨0, 1, by decide⟩
  unfold Determined
  simp only [doubleBuffer_eq_iff]
  exact h.eqOn_iff

theorem rectangle_determined_iff (m : ModeInfo)
    (x y width height : UInt16) (color : UInt32) :
    Determined (videoTestRectangle m x y width height color)
      ↔ BlockRefused m x y width.toNat height.toNat
        ∨ BlockCovers m x y width.toNat height.toNat := by
  obtain ⟨D, hD, hfull⟩ := rectangle_paints m x y width height color
  by_cases hacc : BlockAccepted m x y width.toNat height.toNat
  · have hframe : videoTestRectangle m x y width height color = fun buf =>
        [doubleBuffer m (vgDrawRectangle m buf x y width height color).2] := by
      funext buf
      exact if_neg (not_not.2 ((hD.result buf).2 hacc))
    rw [hfull hacc] at hD
    have hcover := determined_frame_iff (m := m) hD.overwrites
    rw [hframe, or_iff_right (blockAccepted_iff.1 hacc)]
    refine Iff.trans ?_ hcover
    simp only [Determined, List.cons.injEq, and_true]
  · have hframe : videoTestRectangle m x y width height color
        = fun _ => [] := by
      funext buf
      exact if_pos fun h => hacc ((hD.result buf).1 h)
    have hrefused : BlockRefused m x y width.toNat height.toNat :=
      not_not.1 fun h => hacc (blockAccepted_iff.2 h)
    rw [hframe]
    exact iff_of_true (fun _ _ => rfl) (.inl hrefused)

theorem xpm_determined_iff (m : ModeInfo) (img : Image) (x y : UInt16) :
    Determined (videoTestXpm m img x y)
      ↔ BlockCovers m x y img.width.toNat img.height.toNat := by
  refine Iff.trans ?_ (determined_frame_iff (sprite_overwrites m img x y))
  simp only [Determined, videoTestXpm, List.cons.injEq, and_true]

-- =========================================================== the pattern

/-- A block of pixels whose coordinates need no more than 16 bits. -/
theorem ofNat_add_ofNat (a b : Nat) :
    UInt16.ofNat a + UInt16.ofNat b = UInt16.ofNat (a + b) :=
  (UInt16.ofNat_add a b).symm

theorem toNat_ofNat_of_le {a b : Nat} (h : a ≤ b) (hb : b < 2 ^ 16) :
    (UInt16.ofNat a).toNat = a :=
  UInt16.toNat_ofNat_of_lt' (Nat.lt_of_le_of_lt h hb)

/-- `n` parts of length `p`, one after the other. -/
theorem lt_mul_iff_part {r n p : Nat} :
    r < n * p ↔ ∃ i < n, ∃ k < p, i * p + k = r := by
  constructor
  · intro h
    have hp : 0 < p := Nat.pos_of_ne_zero fun h0 => by simp [h0] at h
    exact ⟨r / p, (Nat.div_lt_iff_lt_mul hp).2 h, r % p, Nat.mod_lt r hp,
      Nat.div_add_mod' r p⟩
  · rintro ⟨i, hi, k, hk, rfl⟩
    have hsucc : (i + 1) * p ≤ n * p := Nat.mul_le_mul_right p hi
    rw [Nat.succ_mul] at hsucc
    omega

/-- Every part of a division into `n` lies within the whole. -/
theorem part_le (j k n r : Nat) (hj : j < n) (hk : k < r / n) :
    j * (r / n) + k ≤ r := by
  have hlt := lt_mul_iff_part.2 ⟨j, hj, k, hk, rfl⟩
  have hle := Nat.mul_div_le r n
  omega

/-- The rectangle in row `i` and column `j` is drawn in full. -/
theorem cell_overwrites (m : ModeInfo) {n i j : Nat} (hi : i < n)
    (hj : j < n) (color : UInt32) :
    Overwrites (fun buf => (vgDrawRectangle m buf
        (UInt16.ofNat (j * (m.xResolution / n)))
        (UInt16.ofNat (i * (m.yResolution / n)))
        (UInt16.ofNat (m.xResolution / n)) (UInt16.ofNat (m.yResolution / n))
        color).2)
      {a | ∃ k < m.yResolution / n, ∃ l < m.xResolution / n,
        a ∈ pixelBytes m (UInt16.ofNat (j * (m.xResolution / n) + l))
          (UInt16.ofNat (i * (m.yResolution / n) + k))} := by
  obtain ⟨D, hD, hfull⟩ := rectangle_paints m
    (UInt16.ofNat (j * (m.xResolution / n)))
    (UInt16.ofNat (i * (m.yResolution / n)))
    (UInt16.ofNat (m.xResolution / n)) (UInt16.ofNat (m.yResolution / n))
    color
  rw [toNat_ofNat_of_le (Nat.div_le_self _ n) m.x_lt,
    toNat_ofNat_of_le (Nat.div_le_self _ n) m.y_lt] at hfull
  have hacc : BlockAccepted m (UInt16.ofNat (j * (m.xResolution / n)))
      (UInt16.ofNat (i * (m.yResolution / n))) (m.xResolution / n)
      (m.yResolution / n) := by
    intro k hk l hl
    have hx := part_le j l n _ hj hl
    have hy := part_le i k n _ hi hk
    rw [ofNat_add_ofNat, ofNat_add_ofNat, toNat_ofNat_of_le hx m.x_lt,
      toNat_ofNat_of_le hy m.y_lt]
    exact ⟨hx, hy⟩
  have hbytes := hD.overwrites
  rw [hfull hacc] at hbytes
  simpa only [blockBytes, ofNat_add_ofNat] using hbytes

/-- No row of the pattern starts below the screen, so no `break`. -/
theorem patternRows_eq (m : ModeInfo) (n : Nat)
    (color : Nat → Nat → UInt32) (is : List Nat) (h : ∀ i ∈ is, i < n)
    (buf : Buffer) :
    patternRows m n color is buf
      = is.foldl (fun buf i => patternRow m n (color i) i buf) buf := by
  induction is generalizing buf with
  | nil => rfl
  | cons i is ih =>
      have hstart : i * (m.yResolution / n) ≤ m.yResolution :=
        (Nat.mul_le_mul_right _ (h i (by simp)).le).trans
          (Nat.mul_div_le _ n)
      rw [patternRows, if_neg (not_lt.2 hstart), List.foldl_cons]
      exact ih (fun j hj => h j (by simp [hj])) _

/-- The pattern paints the block of all its rectangles. -/
theorem pattern_overwrites (m : ModeInfo) (n : Nat)
    (color : Nat → Nat → UInt32) :
    Overwrites (patternRows m n color (List.range n))
      (blockBytes m 0 0 (n * (m.xResolution / n))
        (n * (m.yResolution / n))) := by
  have hrow : ∀ i ∈ List.range n, Overwrites
      (fun buf => patternRow m n (color i) i buf)
      {a | ∃ j ∈ List.range n, ∃ k < m.yResolution / n,
        ∃ l < m.xResolution / n,
        a ∈ pixelBytes m (UInt16.ofNat (j * (m.xResolution / n) + l))
          (UInt16.ofNat (i * (m.yResolution / n) + k))} :=
    fun i hi => overwrites_foldl _ fun j hj =>
      cell_overwrites m (List.mem_range.1 hi) (List.mem_range.1 hj) _
  have hall := overwrites_foldl (List.range n) hrow
  have hrows : patternRows m n color (List.range n) = fun buf =>
      (List.range n).foldl (fun buf i => patternRow m n (color i) i buf)
        buf :=
    funext (patternRows_eq m n color _ fun i hi => List.mem_range.1 hi)
  rw [hrows]
  convert hall using 1
  ext a
  simp only [blockBytes, Set.mem_ofPred_eq, List.mem_range, zero_add]
  constructor
  · -- a row and a column of the block, each in its part
    rintro ⟨r, hr, c, hc, ha⟩
    obtain ⟨i, hi, k, hk, rfl⟩ := lt_mul_iff_part.1 hr
    obtain ⟨j, hj, l, hl, rfl⟩ := lt_mul_iff_part.1 hc
    exact ⟨i, hi, j, hj, k, hk, l, hl, ha⟩
  · rintro ⟨i, hi, j, hj, k, hk, l, hl, ha⟩
    exact ⟨_, lt_mul_iff_part.2 ⟨i, hi, k, hk, rfl⟩, _,
      lt_mul_iff_part.2 ⟨j, hj, l, hl, rfl⟩, ha⟩

theorem pattern_determined_iff (m : ModeInfo) (c : ColorInfo)
    (mode : UInt16) (noRectangles : UInt8) (first : UInt32) (step : UInt8)
    (junk : FirstColor) :
    Determined (videoTestPattern m c mode noRectangles first step junk)
      ↔ noRectangles = 0 ∨ BlockCovers m 0 0
        (noRectangles.toNat * (m.xResolution / noRectangles.toNat))
        (noRectangles.toNat * (m.yResolution / noRectangles.toNat)) := by
  by_cases h0 : noRectangles = 0
  · refine iff_of_true ?_ (.inl h0)
    intro buf buf'
    simp only [videoTestPattern, if_pos h0]
  · rw [or_iff_right h0]
    refine Iff.trans ?_ (determined_frame_iff (pattern_overwrites m
      noRectangles.toNat (patternColor m c mode noRectangles first step junk)))
    simp only [Determined, videoTestPattern, if_neg h0, Option.some.injEq,
      List.cons.injEq, and_true]

/-- The bytes of a pixel of the screen, where the buffer does not exceed
32 bits. -/
theorem mem_pixelBytes_iff {m : ModeInfo} {x y a : Nat}
    (hfit : m.xResolution * m.yResolution * m.bytesPerPixel < 2 ^ 32)
    (hx : x < m.xResolution) (hy : y < m.yResolution) :
    a ∈ pixelBytes m (UInt16.ofNat x) (UInt16.ofNat y)
      ↔ a / m.bytesPerPixel = m.xResolution * y + x := by
  have hpos := m.bytesPerPixel_pos.1
  have hrow : m.xResolution * y + x < m.xResolution * m.yResolution := by
    have hsucc : m.xResolution * (y + 1) ≤ m.xResolution * m.yResolution :=
      Nat.mul_le_mul_left _ hy
    rw [Nat.mul_succ] at hsucc
    omega
  have hstart : m.xResolution * y * m.bytesPerPixel + x * m.bytesPerPixel
      < 2 ^ 32 := by
    rw [← Nat.add_mul]
    exact (Nat.mul_lt_mul_of_pos_right hrow hpos).trans hfit
  unfold pixelBytes pixelRange ByteRange.bytes
  rw [toNat_ofNat_of_le hx.le m.x_lt, toNat_ofNat_of_le hy.le m.y_lt,
    if_neg (by omega), Nat.mod_eq_of_lt hstart, ← Nat.add_mul]
  simp only [Set.mem_ofPred_eq, Option.some.injEq, exists_eq_left']
  rw [Nat.div_eq_iff hpos]
  omega

/-- The last pixel of a screen is in its last row and last column. -/
theorem last_pixel {w h i j : Nat} (hi : i < h) (hj : j < w)
    (hlast : w * h - 1 = w * i + j) : i = h - 1 ∧ j = w - 1 := by
  have hrow : i = h - 1 := by
    by_contra hne
    have hlow : w * (i + 2) ≤ w * h := Nat.mul_le_mul_left _ (by omega)
    rw [Nat.mul_add] at hlow
    omega
  have hrows : w * h = w * (h - 1) + w := by
    rw [← Nat.mul_succ]
    congr 1
    omega
  rw [hrow] at hlast
  omega

/-- The pattern covers the screen if and only if its number of rectangles
divides both resolutions; what is left over is the stripe. -/
theorem pattern_covers_iff {m : ModeInfo} (n : Nat)
    (hfit : m.xResolution * m.yResolution * m.bytesPerPixel < 2 ^ 32)
    (hx : 0 < m.xResolution) (hy : 0 < m.yResolution) :
    BlockCovers m 0 0 (n * (m.xResolution / n)) (n * (m.yResolution / n))
      ↔ n ∣ m.xResolution ∧ n ∣ m.yResolution := by
  have hpos := m.bytesPerPixel_pos.1
  have hw := Nat.mul_div_le m.xResolution n
  have hh := Nat.mul_div_le m.yResolution n
  have hsize : m.vramSize
      = m.xResolution * m.yResolution * m.bytesPerPixel :=
    Nat.mod_eq_of_lt hfit
  unfold BlockCovers
  simp only [zero_add]
  constructor
  · -- the last pixel of the screen must be one of the pattern's
    intro h
    have hlast : (m.xResolution * m.yResolution - 1) * m.bytesPerPixel
        < m.vramSize := by
      rw [hsize]
      refine Nat.mul_lt_mul_of_pos_right ?_ hpos
      have := Nat.mul_pos hx hy
      omega
    obtain ⟨i, hi, j, hj, ha⟩ := h _ hlast
    rw [mem_pixelBytes_iff hfit (by omega) (by omega),
      Nat.mul_div_cancel _ hpos] at ha
    obtain ⟨hrow, hcol⟩ := last_pixel (by omega) (by omega) ha
    have hfullx : n * (m.xResolution / n) = m.xResolution := by omega
    have hfully : n * (m.yResolution / n) = m.yResolution := by omega
    exact ⟨⟨_, hfullx.symm⟩, ⟨_, hfully.symm⟩⟩
  · rintro ⟨hdx, hdy⟩ a ha
    rw [Nat.mul_div_cancel' hdx, Nat.mul_div_cancel' hdy]
    rw [hsize] at ha
    have hp : a / m.bytesPerPixel < m.yResolution * m.xResolution := by
      rw [Nat.div_lt_iff_lt_mul hpos, Nat.mul_comm m.yResolution]
      exact ha
    obtain ⟨i, hi, j, hj, hp⟩ := lt_mul_iff_part.1 hp
    refine ⟨i, hi, j, hj, ?_⟩
    rw [mem_pixelBytes_iff hfit hj hi, ← hp, Nat.mul_comm]

-- ============================================================== the move

section

variable (m : ModeInfo) (img : Image) (xf yf : UInt16)

/-- The same state, but for what the buffer holds off the screen. -/
structure Alike (s s' : MoveState) : Prop where
  scancode : s'.scancode = s.scancode
  counter : s'.counter = s.counter
  xi : s'.xi = s.xi
  yi : s'.yi = s.yi
  doneMoving : s'.doneMoving = s.doneMoving
  buf : Set.EqOn s.buf s'.buf (onScreen m)

variable {m} {s s' : MoveState}

theorem Alike.redraw (h : Alike m s s') (xi yi : UInt16) :
    Alike m (s.redraw m img xi yi) (s'.redraw m img xi yi) := by
  obtain ⟨D, hD, -⟩ := rectangle_paints m s.xi s.yi img.width img.height 0
  refine ⟨h.scancode, h.counter, rfl, rfl, h.doneMoving, ?_⟩
  unfold MoveState.redraw
  rw [h.xi, h.yi]
  exact (sprite_overwrites m img xi yi).eqOn (hD.overwrites.eqOn h.buf)

theorem Alike.move (h : Alike m s s') (inc : UInt16) :
    Alike m (s.move m img xf yf inc) (s'.move m img xf yf inc) := by
  unfold MoveState.move
  rw [h.xi, h.yi, h.doneMoving]
  split
  · have hr := h.redraw img s.xi (advance s.yi inc yf)
    exact ⟨hr.scancode, hr.counter, hr.xi, hr.yi, rfl, hr.buf⟩
  · split
    · have hr := h.redraw img (advance s.xi inc xf) s.yi
      exact ⟨hr.scancode, hr.counter, hr.xi, hr.yi, rfl, hr.buf⟩
    · exact h

theorem Alike.moved (h : Alike m s s') (speed : Int16) :
    Alike m (s.moved m img xf yf speed) (s'.moved m img xf yf speed) := by
  unfold MoveState.moved
  rw [h.counter]
  split
  · exact h.move img xf yf 1
  · split
    · exact h.move img xf yf _
    · exact h

theorem Alike.timerIntHandler (h : Alike m s s') :
    Alike m s.timerIntHandler s'.timerIntHandler :=
  ⟨h.scancode, congrArg (· + 1) h.counter, h.xi, h.yi, h.doneMoving, h.buf⟩

/-- A tick shows the same and leaves the states alike. -/
theorem Alike.tick (h : Alike m s s') (speed : Int16) :
    Alike m (s.tick m img xf yf speed).1 (s'.tick m img xf yf speed).1
      ∧ (s.tick m img xf yf speed).2 = (s'.tick m img xf yf speed).2 := by
  have hcounted := h.timerIntHandler
  have hmoved := hcounted.moved img xf yf speed
  simp only [MoveState.tick, hcounted.doneMoving]
  split
  · exact ⟨hcounted, rfl⟩
  · exact ⟨hmoved, by rw [doubleBuffer_eq_iff.2 hmoved.buf]⟩

/-- The keyboard branch leaves the states alike. -/
theorem Alike.key (h : Alike m s s') (keyboard : Option (List PortReads)) :
    (s.key keyboard = none ∧ s'.key keyboard = none)
      ∨ ∃ t t', s.key keyboard = some t ∧ s'.key keyboard = some t'
        ∧ Alike m t t' := by
  cases keyboard with
  | none => exact .inr ⟨s, s', rfl, rfl, h⟩
  | some reads =>
      simp only [MoveState.key, h.scancode]
      cases kbcIh s.scancode reads with
      | none => exact .inl ⟨rfl, rfl⟩
      | some scancode =>
          exact .inr ⟨{ s with scancode }, { s' with scancode }, rfl, rfl,
            ⟨rfl, h.counter, h.xi, h.yi, h.doneMoving, h.buf⟩⟩

/-- Runs from states that are alike show the same frames. -/
theorem Alike.frames (h : Alike m s s') (speed : Int16)
    (ns : List Message) :
    s.frames m img xf yf speed ns = s'.frames m img xf yf speed ns := by
  induction ns generalizing s s' with
  | nil => rfl
  | cons n ns ih =>
      unfold MoveState.frames
      rw [h.scancode]
      split
      · rfl
      · rcases h.key n.keyboard with ⟨hk, hk'⟩ | ⟨t, t', hk, hk', ht⟩
        · rw [hk, hk']
        · rw [hk, hk']
          dsimp only
          split
          · obtain ⟨hnext, hframes⟩ := ht.tick img xf yf speed
            rw [hframes, ih hnext]
          · exact ih ht

end

/-- The first frame of the move decides. -/
theorem move_determined_iff (m : ModeInfo) (img : Image)
    (xf yf xi yi : UInt16) (speed : Int16) (scancode : UInt8)
    (counter : Nat) (ns : List Message) :
    Determined (videoTestMove m img xf yf xi yi speed scancode counter ns)
      ↔ BlockCovers m xi yi img.width.toNat img.height.toNat := by
  have hfirst := determined_frame_iff (m := m) (sprite_overwrites m img xi yi)
  refine Iff.trans ?_ hfirst
  constructor
  · intro h buf buf'
    exact (List.cons.inj (h buf buf')).1
  · intro h buf buf'
    have halike : Alike m
        { buf := drawSprite m buf img xi yi, scancode, counter, xi, yi
          doneMoving := false }
        { buf := drawSprite m buf' img xi yi, scancode, counter, xi, yi
          doneMoving := false } :=
      ⟨rfl, rfl, rfl, rfl, rfl, doubleBuffer_eq_iff.1 (h buf buf')⟩
    exact congrArg₂ List.cons (h buf buf') (halike.frames img xf yf speed ns)

/-- What the four tests show is independent of the buffer they draw into
if and only if they draw all of it before they first show it, or show
nothing. -/
theorem shown_determined_iff (m : ModeInfo) (x y width height : UInt16)
    (color : UInt32) (c : ColorInfo) (mode : UInt16) (noRectangles : UInt8)
    (first : UInt32) (step : UInt8) (junk : FirstColor) (img : Image)
    (xf yf : UInt16) (speed : Int16) (scancode : UInt8) (counter : Nat)
    (ns : List Message) :
    (Determined (videoTestRectangle m x y width height color)
        ↔ BlockRefused m x y width.toNat height.toNat
          ∨ BlockCovers m x y width.toNat height.toNat)
      ∧ (Determined (videoTestPattern m c mode noRectangles first step junk)
        ↔ noRectangles = 0 ∨ BlockCovers m 0 0
          (noRectangles.toNat * (m.xResolution / noRectangles.toNat))
          (noRectangles.toNat * (m.yResolution / noRectangles.toNat)))
      ∧ (Determined (videoTestXpm m img x y)
        ↔ BlockCovers m x y img.width.toNat img.height.toNat)
      ∧ (Determined (videoTestMove m img xf yf x y speed scancode counter ns)
        ↔ BlockCovers m x y img.width.toNat img.height.toNat) :=
  ⟨rectangle_determined_iff m x y width height color,
    pattern_determined_iff m c mode noRectangles first step junk,
    xpm_determined_iff m img x y,
    move_determined_iff m img xf yf x y speed scancode counter ns⟩

/-- Seven rectangles do not divide 800 by 600: the stripe shows what
`malloc` returned. -/
theorem stripe_shows_memory :
    ¬Determined (videoTestPattern mode0x115 ⟨8, 16, 8, 8, 8, 0⟩ 0x115 7 0 1
      ⟨0, 0, 0⟩) := by
  rw [pattern_determined_iff]
  rintro (hzero | hcovers)
  · exact absurd hzero (by decide)
  · have hdvd := (pattern_covers_iff 7 (by decide) (by decide)
      (by decide)).1 hcovers
    exact absurd hdvd.1 (by decide)

end Lcom.Lab5
