/-
Which pixel writes are safe.

The bounds test of `my_draw_pixel` and `vg_draw_pixel` lets column
`XResolution` and row `YResolution` through. Row `YResolution` starts
exactly where the buffer ends; column `XResolution` names the first
pixel of the next row a second time. `pixelSafe_iff` says which calls
are safe all the same, for every mode: those strictly inside the screen
that no accepted neighbour aliases, in a mode whose size fits in 32
bits, and not hit by an accepted offset of the last row that wraps.

`mouseInside_iff` carries the first half of that to `draw_mouse`.
-/
import Lcom.Machine.Grid
import Lcom.Machine.Reach
import Lcom.Proj.Game
import Lcom.Lab5.VideoGr

namespace Lcom.Proj

open Machine

-- ========================================================== properties

/-- A function that writes one pixel and returns 0 if it accepts. -/
abbrev PixelWriter :=
  ModeInfo → Buffer → UInt16 → UInt16 → UInt32 → Nat × Buffer

/-- The call returns 0. -/
def Accepts (draw : PixelWriter) (m : ModeInfo) (x y : UInt16) : Prop :=
  ∀ buf color, (draw m buf x y color).1 = 0

/-- The bytes the call can change. -/
def written (draw : PixelWriter) (m : ModeInfo) (x y : UInt16) :
    Set Nat :=
  {a | ∃ buf color, (draw m buf x y color).2 a ≠ buf a}

/-- An accepted call writes inside a buffer of the given size, and
shares no byte with any other accepted call. -/
def PixelSafe (draw : PixelWriter) (size : ModeInfo → Nat)
    (m : ModeInfo) (x y : UInt16) : Prop :=
  Accepts draw m x y →
    (∀ a ∈ written draw m x y, a < size m)
      ∧ ∀ x' y', (x', y') ≠ (x, y) → Accepts draw m x' y' →
        Disjoint (written draw m x y) (written draw m x' y')

/-- The cursor positions `update_mouse_position` leads to. -/
def CursorReach (m : ModeInfo) : Mouse → Prop :=
  Reachable (fun mouse (d : Int × Int) =>
    some (updateMousePosition m mouse d.1 d.2)) (· = createMouse)
    fun _ _ => True

/-- `draw_mouse` changes no byte outside the buffer. -/
def MouseInside (m : ModeInfo) (mouse : Mouse) : Prop :=
  ∀ sprite buf a, drawMouse m sprite buf mouse a ≠ buf a → a < m.vramSize

-- ====================================================== the condition

/-- The index of pixel `(x, y)` in row-major order. -/
def ModeInfo.index (m : ModeInfo) (x y : Nat) : Nat :=
  m.xResolution * y + x

/-- The largest index the bounds test lets through. -/
def ModeInfo.lastIndex (m : ModeInfo) : Nat :=
  m.xResolution * m.yResolution + m.xResolution

/-- The calls that are safe: rejected ones, and those strictly inside
the screen that are not the start of a later row, where the size does
not overflow and no offset of the last row wraps onto them. -/
def SafeWhen (m : ModeInfo) (x y : Nat) : Prop :=
  m.xResolution < x ∨ m.yResolution < y
    ∨ (m.xResolution * m.yResolution * m.bytesPerPixel < 2 ^ 32
      ∧ y < m.yResolution ∧ x < m.xResolution ∧ (0 < x ∨ y = 0)
      ∧ (m.lastIndex * m.bytesPerPixel < 2 ^ 32
        ∨ (m.lastIndex + 1) * m.bytesPerPixel
          ≤ m.index x y * m.bytesPerPixel + 2 ^ 32))

/-- The accepted pixels whose bytes lie in the buffer: above the last
row, and not at its end. Where offsets overflow 32 bits the reduced
offset decides. -/
def Fits (m : ModeInfo) (x y : Nat) : Prop :=
  if m.lastIndex * m.bytesPerPixel < 2 ^ 32 then
    0 < m.xResolution ∧ y < m.yResolution
      ∧ (x < m.xResolution ∨ y + 1 < m.yResolution)
  else m.index x y * m.bytesPerPixel % 2 ^ 32 + m.bytesPerPixel
    ≤ m.xResolution * m.yResolution * m.bytesPerPixel % 2 ^ 32

-- ==================================================== what is written

/-- An accepted pixel is a cell of the grid. -/
theorem pixelRange_eq {m : ModeInfo} {x y : Nat} (hx : x ≤ m.xResolution)
    (hy : y ≤ m.yResolution) :
    pixelRange m x y = some
      { start := cellStart (2 ^ 32) m.bytesPerPixel (m.index x y)
        len := m.bytesPerPixel } := by
  unfold pixelRange cellStart ModeInfo.index
  rw [if_neg (by omega), Nat.add_mul]

theorem pixelRange_none {m : ModeInfo} {x y : Nat}
    (h : m.xResolution < x ∨ m.yResolution < y) :
    pixelRange m x y = none := if_pos h

/-- The writer both programs share. -/
def drawPixel16 : PixelWriter := fun m buf x y color =>
  drawPixel m buf x.toNat y.toNat color

theorem accepts_iff {m : ModeInfo} {x y : UInt16} :
    Accepts drawPixel16 m x y
      ↔ x.toNat ≤ m.xResolution ∧ y.toNat ≤ m.yResolution := by
  have hiff : Accepts drawPixel16 m x y
      ↔ ∃ r, pixelRange m x.toNat y.toNat = some r := by
    constructor
    · intro h
      exact drawPixel_accepts.1 (h (fun _ => 0) 0)
    · intro h buf color
      exact drawPixel_accepts.2 h
  rw [hiff]
  constructor
  · intro hex
    obtain ⟨r, hr⟩ := hex
    by_contra hout
    rw [pixelRange_none (by omega)] at hr
    cases hr
  · intro hbounds
    obtain ⟨hx, hy⟩ := hbounds
    exact ⟨_, pixelRange_eq hx hy⟩

/-- The bytes an accepted call can change are its range: black over
ones changes every one of them. -/
theorem written_eq {m : ModeInfo} {x y : UInt16} {r : ByteRange}
    (hr : pixelRange m x.toNat y.toNat = some r) :
    written drawPixel16 m x y = r.bytes := by
  ext a
  constructor
  · intro hex
    obtain ⟨buf, color, hne⟩ := hex
    by_contra ha
    exact hne (drawPixel_frame hr ha)
  · intro ha
    refine ⟨fun _ => 1, 0, ?_⟩
    have hw : (drawPixel16 m (fun _ => 1) x y 0).2 a = 0 := by
      unfold drawPixel16 drawPixel
      rw [hr]
      show (if r.start ≤ a ∧ a < r.start + r.len then _ else _) = _
      rw [if_pos (show r.start ≤ a ∧ a < r.start + r.len from ha)]
      simp
    rw [hw]
    show (0 : UInt8) ≠ 1
    decide

/-- A range lies below a bound exactly when its end does. -/
theorem range_lt_iff {s b n : Nat} (hb : 0 < b) :
    (∀ a ∈ ByteRange.bytes ⟨s, b⟩, a < n) ↔ s + b ≤ n := by
  constructor
  · intro h
    have := h (s + b - 1) ⟨by show s ≤ s + b - 1; omega,
      by show s + b - 1 < s + b; omega⟩
    omega
  · intro h a hbounds
    obtain ⟨-, ha⟩ := hbounds
    have : a < s + b := ha
    omega

/-- Two cells share a byte exactly when they overlap. -/
theorem disjoint_iff {M B i j : Nat} (hB : 0 < B) :
    Disjoint (ByteRange.bytes ⟨cellStart M B i, B⟩)
        (ByteRange.bytes ⟨cellStart M B j, B⟩)
      ↔ ¬Overlap M B i j := by
  rw [Set.disjoint_left]
  constructor
  · intro h hbounds
    obtain ⟨h1, h2⟩ := hbounds
    rcases Nat.le_total (cellStart M B i) (cellStart M B j) with hle | hle
    · exact h (a := cellStart M B j) ⟨hle, h2⟩
        ⟨Nat.le_refl _, Nat.lt_add_of_pos_right hB⟩
    · exact h (a := cellStart M B i)
        ⟨Nat.le_refl _, Nat.lt_add_of_pos_right hB⟩ ⟨hle, h1⟩
  · intro h a hbounds hbounds'
    obtain ⟨h1, h2⟩ := hbounds
    obtain ⟨h3, h4⟩ := hbounds'
    refine h ⟨?_, ?_⟩
    · exact Nat.lt_of_le_of_lt h1 h4
    · exact Nat.lt_of_le_of_lt h3 h2

-- ===================================================== on the screen

/-- What a colour puts in a byte of a pixel. -/
def colorByte (color : UInt32) (r : ByteRange) (a : Nat) : UInt8 :=
  UInt8.ofNat (color.toNat / 256 ^ (a - r.start))

/-- The pixel is accepted, and its bytes are those of the colour. -/
def HoldsColor (m : ModeInfo) (buf : Buffer) (x y : Nat) (color : UInt32) :
    Prop :=
  ∃ r, pixelRange m x y = some r ∧ ∀ a ∈ r.bytes, buf a = colorByte color r a

/-- A pixel of the screen has one of the screen's indices. -/
theorem index_lt_of_onScreen {m : ModeInfo} {x y : Nat}
    (hx : x < m.xResolution) (hy : y < m.yResolution) :
    m.index x y < m.xResolution * m.yResolution := by
  have hrow := Nat.mul_le_mul_left m.xResolution hy
  rw [Nat.mul_succ] at hrow
  unfold ModeInfo.index
  omega

/-- In a mode whose size needs no more than 32 bits, pixels of the screen
that share a byte are the same. -/
theorem eq_of_shared_byte {m : ModeInfo}
    (hsize : m.xResolution * m.yResolution * m.bytesPerPixel ≤ 2 ^ 32)
    {x y x' y' : Nat} (hx : x < m.xResolution) (hy : y < m.yResolution)
    (hx' : x' < m.xResolution) (hy' : y' < m.yResolution)
    {r r' : ByteRange} (hr : pixelRange m x y = some r)
    (hr' : pixelRange m x' y' = some r') {a : Nat} (ha : a ∈ r.bytes)
    (ha' : a ∈ r'.bytes) : x = x' ∧ y = y' := by
  have hB := m.bytesPerPixel_pos.1
  have hbelow := Nat.lt_of_lt_of_le (Nat.mul_lt_mul_of_pos_right
    (index_lt_of_onScreen hx hy) hB) hsize
  have hbelow' := Nat.lt_of_lt_of_le (Nat.mul_lt_mul_of_pos_right
    (index_lt_of_onScreen hx' hy') hB) hsize
  rw [pixelRange_eq hx.le hy.le] at hr
  rw [pixelRange_eq hx'.le hy'.le] at hr'
  cases hr
  cases hr'
  have he : m.index x y = m.index x' y' := by
    by_contra hne
    have hno := Machine.not_overlap hbelow hbelow' hne
    rw [← disjoint_iff hB, Set.disjoint_left] at hno
    exact hno ha ha'
  have hX := Nat.zero_lt_of_lt hx
  unfold ModeInfo.index at he
  have hquot := congrArg (· / m.xResolution) he
  simp only [Nat.mul_add_div hX, Nat.div_eq_of_lt hx, Nat.div_eq_of_lt hx',
    Nat.add_zero] at hquot
  subst hquot
  exact ⟨by omega, rfl⟩

-- ======================================================= safe indices

/-- Safety of an accepted pixel, in terms of indices. -/
def SafeIndex (m : ModeInfo) (x y : Nat) : Prop :=
  cellStart (2 ^ 32) m.bytesPerPixel (m.index x y) + m.bytesPerPixel
      ≤ m.vramSize
    ∧ ∀ x' y', x' ≤ m.xResolution → y' ≤ m.yResolution →
      (x', y') ≠ (x, y) →
      ¬Overlap (2 ^ 32) m.bytesPerPixel (m.index x y) (m.index x' y')

/-- A pixel of another index is another pixel. -/
theorem SafeIndex.not_overlap {m : ModeInfo} {x y j : Nat}
    (h : SafeIndex m x y) (hX : 0 < m.xResolution)
    (hj : j ≤ m.lastIndex) (hne : j ≠ m.index x y) :
    ¬Overlap (2 ^ 32) m.bytesPerPixel (m.index x y) j := by
  obtain ⟨x', y', hx', hy', rfl⟩ := index_surj_last hX hj
  refine h.2 x' y' hx' hy' fun he => hne ?_
  cases he
  rfl

/-- The screen is at most 65535 wide and a pixel at most four bytes. -/
theorem row_lt (m : ModeInfo) :
    m.xResolution * m.bytesPerPixel < 2 ^ 18 := by
  have h := Nat.mul_le_mul (Nat.le_of_lt_succ m.x_lt) m.bytesPerPixel_pos.2
  omega

/-- A safe pixel lies in a mode whose size fits in 32 bits: past that
every byte of the buffer has a second pixel. -/
theorem SafeIndex.size_lt {m : ModeInfo} {x y : Nat}
    (h : SafeIndex m x y) (hX : 0 < m.xResolution) :
    m.xResolution * m.yResolution * m.bytesPerPixel < 2 ^ 32 := by
  obtain ⟨hB, hB4⟩ := m.bytesPerPixel_pos
  by_contra hge
  have hge := Nat.le_of_not_lt hge
  have hin := h.1
  unfold ModeInfo.vramSize at hin
  by_cases hi : m.index x y * m.bytesPerPixel < 2 ^ 32
  · have hS : m.xResolution * m.yResolution * m.bytesPerPixel % 2 ^ 32
        ≤ m.xResolution * m.yResolution * m.bytesPerPixel - 2 ^ 32 := by
      rw [Nat.mod_eq_sub_mod hge]
      exact Nat.mod_le _ _
    rw [cellStart_of_lt hi] at hin
    obtain ⟨j, hj, hjM, hover⟩ := overlap_wrapped
      (T := m.xResolution * m.yResolution) hB (by omega) hi hge
      (by rw [Nat.add_mul]; omega)
    refine h.not_overlap hX ?_ ?_ hover
    · unfold ModeInfo.lastIndex
      omega
    · intro he
      subst he
      omega
  · obtain ⟨j, hj, -, hne, hover⟩ := overlap_low
      (n := m.xResolution * m.yResolution) hB (Nat.le_of_not_lt hi)
      (Nat.le_trans hin (Nat.mod_le _ _)) (by decide)
    refine h.not_overlap hX ?_ hne hover
    unfold ModeInfo.lastIndex
    omega

/-- The index of a safe pixel is one of the screen's. -/
theorem SafeIndex.index_lt {m : ModeInfo} {x y : Nat}
    (h : SafeIndex m x y) (hX : 0 < m.xResolution) :
    m.index x y * m.bytesPerPixel < 2 ^ 32
      ∧ m.index x y < m.xResolution * m.yResolution := by
  obtain ⟨hB, -⟩ := m.bytesPerPixel_pos
  have hN := h.size_lt hX
  have hin := h.1
  unfold ModeInfo.vramSize at hin
  rw [Nat.mod_eq_of_lt hN] at hin
  have hi : m.index x y * m.bytesPerPixel < 2 ^ 32 := by
    by_contra hge
    obtain ⟨j, hj, -, hne, hover⟩ :=
      overlap_low hB (Nat.le_of_not_lt hge) hin (by decide)
    refine h.not_overlap hX ?_ hne hover
    unfold ModeInfo.lastIndex
    omega
  rw [cellStart_of_lt hi] at hin
  refine ⟨hi, Nat.lt_of_mul_lt_mul_right (a := m.bytesPerPixel) ?_⟩
  omega

/-- Column X of a row is the first pixel of the next one. -/
theorem index_next_row (m : ModeInfo) (y : Nat) :
    m.index m.xResolution y = m.index 0 (y + 1) := by
  unfold ModeInfo.index
  rw [Nat.mul_succ, Nat.add_zero]

/-- A safe pixel has its index to itself. -/
theorem SafeIndex.index_ne {m : ModeInfo} {x y x' y' : Nat}
    (h : SafeIndex m x y) (hx' : x' ≤ m.xResolution)
    (hy' : y' ≤ m.yResolution) (hne : x' ≠ x) :
    m.index x' y' ≠ m.index x y := by
  intro he
  refine h.2 x' y' hx' hy' (fun hp => hne (congrArg Prod.fst hp)) ?_
  rw [he]
  exact overlap_self m.bytesPerPixel_pos.1

/-- The screen of a safe pixel has columns. -/
theorem SafeIndex.xResolution_pos {m : ModeInfo} {x y : Nat}
    (h : SafeIndex m x y) : 0 < m.xResolution := by
  have hB := m.bytesPerPixel_pos.1
  by_contra h0
  have h0 : m.xResolution = 0 := by omega
  have hin := h.1
  unfold ModeInfo.vramSize at hin
  rw [h0, Nat.zero_mul, Nat.zero_mul, Nat.zero_mod] at hin
  omega

/-- The condition is necessary. -/
theorem SafeIndex.safeWhen {m : ModeInfo} {x y : Nat}
    (h : SafeIndex m x y) (hx : x ≤ m.xResolution) : SafeWhen m x y := by
  obtain ⟨hB, hB4⟩ := m.bytesPerPixel_pos
  have hX := h.xResolution_pos
  obtain ⟨hi, hlt⟩ := h.index_lt hX
  have hyY : y < m.yResolution := by
    refine Nat.lt_of_mul_lt_mul_left (a := m.xResolution) ?_
    unfold ModeInfo.index at hlt
    omega
  refine .inr (.inr ⟨h.size_lt hX, hyY, ?_, ?_, ?_⟩)
  · -- column X is shared with the row below
    rcases Nat.lt_or_eq_of_le hx with hlt | rfl
    · exact hlt
    · exact absurd (index_next_row m y).symm
        (h.index_ne (Nat.zero_le _) hyY (by omega))
  · -- and the first pixel of a row with the row above
    by_contra hstart
    obtain ⟨hx0, hy0⟩ := not_or.1 hstart
    have hx0 : x = 0 := by omega
    subst hx0
    obtain ⟨y, rfl⟩ : ∃ y', y = y' + 1 := ⟨y - 1, by omega⟩
    exact absurd (index_next_row m y)
      (h.index_ne (Nat.le_refl _) (by omega) (by omega))
  · by_contra hwrap
    obtain ⟨hT, hreach⟩ := not_or.1 hwrap
    obtain ⟨j, hj, hjM, hover⟩ := overlap_wrapped hB (by omega) hi
      (Nat.le_of_not_lt hT) (Nat.lt_of_not_le hreach)
    refine h.not_overlap hX hj ?_ hover
    intro he
    subst he
    omega

/-- The condition is sufficient. -/
theorem SafeWhen.safeIndex {m : ModeInfo} {x y : Nat}
    (h : SafeWhen m x y) (hx : x ≤ m.xResolution)
    (hy : y ≤ m.yResolution) : SafeIndex m x y := by
  rcases h with h | h | ⟨hN, hyY, hxX, hstart, hwrap⟩
  · omega
  · omega
  have hrow : m.index x y < m.xResolution * m.yResolution := by
    have := Nat.mul_le_mul_left m.xResolution hyY
    rw [Nat.mul_succ] at this
    unfold ModeInfo.index
    omega
  have hcell := Nat.mul_le_mul_right m.bytesPerPixel hrow
  rw [Nat.succ_mul] at hcell
  have hi : m.index x y * m.bytesPerPixel < 2 ^ 32 := by omega
  refine ⟨?_, fun x' y' hx' hy' hne hover => ?_⟩
  · unfold ModeInfo.vramSize
    rw [cellStart_of_lt hi, Nat.mod_eq_of_lt hN]
    exact hcell
  · have hle : m.index x' y' ≤ m.lastIndex := by
      have := Nat.mul_le_mul_left m.xResolution hy'
      unfold ModeInfo.index ModeInfo.lastIndex
      omega
    by_cases hi' : m.index x' y' * m.bytesPerPixel < 2 ^ 32
    · refine Machine.not_overlap hi hi' (fun he => hne ?_) hover
      obtain ⟨rfl, rfl⟩ := index_inj hxX hx' hstart he
      rfl
    · -- the other offset wraps, past the last one the screen can have
      have hlast := Nat.mul_le_mul_right m.bytesPerPixel hle
      have hwidth := row_lt m
      have hspan : m.index x' y' * m.bytesPerPixel
          < 2 * 2 ^ 32 := by
        unfold ModeInfo.lastIndex at hlast
        rw [Nat.add_mul] at hlast
        omega
      obtain ⟨hT, hreach⟩ := reach_of_overlap hi (Nat.le_of_not_lt hi')
        hspan hle hover
      omega

/-- Exactly the accepted pixels that are safe. -/
theorem safeIndex_iff {m : ModeInfo} {x y : Nat}
    (hx : x ≤ m.xResolution) (hy : y ≤ m.yResolution) :
    SafeIndex m x y ↔ SafeWhen m x y :=
  ⟨fun h => h.safeWhen hx, fun h => h.safeIndex hx hy⟩

/-- A call of the shared writer is safe exactly when `SafeWhen`
says so. -/
theorem pixelSafe_iff (m : ModeInfo) (x y : UInt16) :
    PixelSafe drawPixel16 ModeInfo.vramSize m x y
      ↔ SafeWhen m x.toNat y.toNat := by
  obtain ⟨hB, -⟩ := m.bytesPerPixel_pos
  by_cases hacc : Accepts drawPixel16 m x y
  · obtain ⟨hx, hy⟩ := accepts_iff.1 hacc
    rw [← safeIndex_iff hx hy]
    have hw := written_eq (pixelRange_eq hx hy)
    unfold PixelSafe SafeIndex
    rw [hw, range_lt_iff hB]
    refine ⟨fun h => ⟨(h hacc).1, fun x' y' hx' hy' hne hover => ?_⟩,
      fun h _ => ⟨h.1, fun x' y' hne hacc' => ?_⟩⟩
    · have hlt := m.x_lt
      have hlt' := m.y_lt
      have hX : (UInt16.ofNat x').toNat = x' :=
        UInt16.toNat_ofNat_of_lt (Nat.lt_of_le_of_lt hx' hlt)
      have hY : (UInt16.ofNat y').toNat = y' :=
        UInt16.toNat_ofNat_of_lt (Nat.lt_of_le_of_lt hy' hlt')
      have hdis := (h hacc).2 (UInt16.ofNat x') (UInt16.ofNat y')
        (fun he => hne (by cases he; rw [hX, hY]))
        (accepts_iff.2 (by rw [hX, hY]; exact ⟨hx', hy'⟩))
      rw [written_eq (pixelRange_eq (by rw [hX]; exact hx')
        (by rw [hY]; exact hy')), disjoint_iff hB, hX, hY] at hdis
      exact hdis hover
    · obtain ⟨hx', hy'⟩ := accepts_iff.1 hacc'
      rw [written_eq (pixelRange_eq hx' hy'), disjoint_iff hB]
      refine h.2 _ _ hx' hy' fun he => hne ?_
      obtain ⟨h1, h2⟩ := Prod.mk.inj he
      rw [UInt16.toNat_inj.1 h1, UInt16.toNat_inj.1 h2]
  · refine iff_of_true (fun h => absurd h hacc) ?_
    rw [accepts_iff] at hacc
    unfold SafeWhen
    omega

-- ======================================================= the cursor

/-- The drawing loop of a picture, over any list of pixels. -/
def drawPixels (m : ModeInfo) (sprite : Nat → UInt32) (buf : Buffer)
    (ps : List ((UInt16 × UInt16) × Nat)) : Buffer :=
  ps.foldl (fun buf p => (myDrawPixel m buf p.1.1 p.1.2 (sprite p.2)).2)
    buf

/-- A byte outside every range keeps its value. -/
theorem drawPixels_frame {m : ModeInfo} {sprite : Nat → UInt32} {a : Nat} :
    ∀ (ps : List ((UInt16 × UInt16) × Nat)) (buf : Buffer),
      (∀ p ∈ ps, ∀ r, pixelRange m p.1.1.toNat p.1.2.toNat = some r →
        a ∉ r.bytes) →
      drawPixels m sprite buf ps a = buf a := by
  intro ps
  induction ps with
  | nil => intro buf _; rfl
  | cons p ps ih =>
      intro buf h
      have hrest := ih (myDrawPixel m buf p.1.1 p.1.2 (sprite p.2)).2
        fun q hq => h q (List.mem_cons_of_mem _ hq)
      apply hrest.trans
      have hp := h p (List.mem_cons_self ..)
      cases hr : pixelRange m p.1.1.toNat p.1.2.toNat with
      | none =>
          unfold myDrawPixel drawPixel
          rw [hr]
      | some r => exact drawPixel_frame hr (hp r hr)

/-- Black drawn over anything: a byte is kept or cleared. -/
theorem drawPixel_black (m : ModeInfo) (buf : Buffer) (x y : Nat)
    (a : Nat) :
    (drawPixel m buf x y 0).2 a = buf a
      ∨ (drawPixel m buf x y 0).2 a = 0 := by
  unfold drawPixel
  cases pixelRange m x y with
  | none => exact .inl rfl
  | some r =>
      show memcpyColor buf r 0 a = _ ∨ memcpyColor buf r 0 a = _
      unfold memcpyColor
      split
      · exact .inr (by simp)
      · exact .inl rfl

/-- A byte of some range ends up cleared when everything drawn is
black. -/
theorem drawPixels_black {m : ModeInfo} {a : Nat} :
    ∀ (ps : List ((UInt16 × UInt16) × Nat)) (buf : Buffer),
      (buf a = 0 ∨ ∃ p ∈ ps, ∃ r,
        pixelRange m p.1.1.toNat p.1.2.toNat = some r ∧ a ∈ r.bytes) →
      drawPixels m (fun _ => 0) buf ps a = 0 := by
  intro ps
  induction ps with
  | nil =>
      intro buf h
      rcases h with h | ⟨p, hp, -⟩
      · exact h
      · cases hp
  | cons p ps ih =>
      intro buf h
      refine ih (myDrawPixel m buf p.1.1 p.1.2 0).2 ?_
      rcases h with h | ⟨q, hq, r, hr, ha⟩
      · left
        rcases drawPixel_black m buf p.1.1.toNat p.1.2.toNat a with hk | hk
        · exact hk.trans h
        · exact hk
      · rcases List.mem_cons.1 hq with rfl | hq
        · left
          show (drawPixel m buf q.1.1.toNat q.1.2.toNat 0).2 a = 0
          unfold drawPixel
          rw [hr]
          show (if r.start ≤ a ∧ a < r.start + r.len then _ else _) = _
          rw [if_pos (show r.start ≤ a ∧ a < r.start + r.len from ha)]
          simp
        · exact .inr ⟨q, hq, r, hr, ha⟩

/-- `draw_mouse` stays inside exactly when each of its pixels does. -/
theorem mouseInside_iff_pixels (m : ModeInfo) (mouse : Mouse) :
    MouseInside m mouse ↔ ∀ p ∈ mousePixels mouse, ∀ r,
      pixelRange m p.1.toNat p.2.toNat = some r →
        ∀ a ∈ r.bytes, a < m.vramSize := by
  have hmem : ∀ p k, (p, k) ∈ (mousePixels mouse).zipIdx →
      p ∈ mousePixels mouse := fun p k h =>
    (List.mem_zipIdx h).2.2 ▸ List.getElem_mem _
  constructor
  · intro h p hp r hr a ha
    obtain ⟨k, hk, rfl⟩ := List.getElem_of_mem hp
    refine h (fun _ => 0) (fun _ => 1) a ?_
    have hz := drawPixels_black (m := m) (a := a)
      (mousePixels mouse).zipIdx (fun _ => 1)
      (.inr ⟨((mousePixels mouse)[k], k),
        List.mk_mem_zipIdx_iff_getElem?.2 (List.getElem?_eq_getElem hk),
        r, hr, ha⟩)
    show drawPixels m (fun _ => 0) (fun _ => 1) _ a ≠ (1 : UInt8)
    rw [hz]
    decide
  · intro h sprite buf a hne
    by_contra hout
    refine hne (drawPixels_frame _ buf fun p hp r hr ha => hout ?_)
    exact h p.1 (hmem p.1 p.2 hp) r hr a ha

/-- An accepted pixel lies in the buffer exactly when it fits. -/
theorem fits_iff {m : ModeInfo} {x y : Nat} (hx : x ≤ m.xResolution)
    (hy : y ≤ m.yResolution) :
    cellStart (2 ^ 32) m.bytesPerPixel (m.index x y) + m.bytesPerPixel
      ≤ m.vramSize ↔ Fits m x y := by
  unfold Fits
  by_cases hT : m.lastIndex * m.bytesPerPixel < 2 ^ 32
  · rw [if_pos hT]
    have hcols := Nat.mul_le_mul_left m.xResolution hy
    have hile : m.index x y ≤ m.lastIndex := by
      unfold ModeInfo.index ModeInfo.lastIndex
      omega
    have hNle : m.xResolution * m.yResolution ≤ m.lastIndex := by
      unfold ModeInfo.lastIndex
      omega
    have hi := Nat.mul_le_mul_right m.bytesPerPixel hile
    have hN := Nat.mul_le_mul_right m.bytesPerPixel hNle
    unfold ModeInfo.vramSize
    rw [cellStart_of_lt (by omega), Nat.mod_eq_of_lt (by omega),
      ← Nat.succ_mul, Nat.mul_le_mul_right_iff m.bytesPerPixel_pos.1]
    unfold ModeInfo.index
    constructor
    · intro hlt
      have hyY : y < m.yResolution := by
        refine Nat.lt_of_mul_lt_mul_left (a := m.xResolution) ?_
        omega
      refine ⟨?_, hyY, ?_⟩
      · rcases Nat.eq_zero_or_pos m.xResolution with h0 | h0
        · rw [h0] at hlt
          omega
        · exact h0
      · rcases Nat.lt_or_eq_of_le hx with hxX | hxX
        · exact .inl hxX
        · right
          refine Nat.lt_of_mul_lt_mul_left (a := m.xResolution) ?_
          rw [Nat.mul_succ]
          omega
    · intro hbounds
      obtain ⟨hX, hyY, hxX | hyY'⟩ := hbounds
      · have := Nat.mul_le_mul_left m.xResolution hyY
        rw [Nat.mul_succ] at this
        omega
      · have := Nat.mul_lt_mul_of_pos_left hyY' hX
        rw [Nat.mul_succ] at this
        omega
  · rw [if_neg hT]
    exact Iff.rfl

/-- `draw_mouse` stays inside exactly when every pixel it passes is
rejected or fits. -/
theorem mouseInside_iff (m : ModeInfo) (mouse : Mouse) :
    MouseInside m mouse ↔ ∀ p ∈ mousePixels mouse,
      m.xResolution < p.1.toNat ∨ m.yResolution < p.2.toNat
        ∨ Fits m p.1.toNat p.2.toNat := by
  rw [mouseInside_iff_pixels]
  refine forall₂_congr fun p _ => ?_
  by_cases hacc : p.1.toNat ≤ m.xResolution ∧ p.2.toNat ≤ m.yResolution
  · obtain ⟨hx, hy⟩ := hacc
    rw [pixelRange_eq hx hy, ← fits_iff hx hy]
    simp only [Option.some.injEq, forall_eq']
    rw [range_lt_iff m.bytesPerPixel_pos.1]
    omega
  · rw [pixelRange_none (by omega)]
    refine iff_of_true (fun r hr => by cases hr) (by omega)

-- =========================================================== the result

/-- Every framebuffer write, in every mode. A call of `my_draw_pixel` or
`vg_draw_pixel` is safe exactly when `SafeWhen` says so, and `draw_mouse`
at a reachable cursor position stays inside exactly when every pixel it
passes is rejected or fits. -/
theorem framebuffer_writes (m : ModeInfo) :
    (∀ x y, PixelSafe myDrawPixel ModeInfo.vramSize m x y
        ↔ SafeWhen m x.toNat y.toNat)
      ∧ (∀ x y, PixelSafe Lab5.vgDrawPixel Lab5.vgInitVramSize m x y
        ↔ SafeWhen m x.toNat y.toNat)
      ∧ ∀ mouse, CursorReach m mouse →
        (MouseInside m mouse ↔ ∀ p ∈ mousePixels mouse,
          m.xResolution < p.1.toNat ∨ m.yResolution < p.2.toNat
            ∨ Fits m p.1.toNat p.2.toNat) :=
  ⟨pixelSafe_iff m, pixelSafe_iff m, fun mouse _ => mouseInside_iff m mouse⟩

/-- In the middle of the screen, three moves from the corner, the cursor
is drawn inside. -/
theorem framebuffer_writes_middle :
    CursorReach mode0x115 ⟨381, 315⟩ ∧ MouseInside mode0x115 ⟨381, 315⟩ := by
  have h1 : CursorReach mode0x115 ⟨127, 105⟩ :=
    .step (i := (255, -210)) (.start rfl) trivial (by decide)
  have h2 : CursorReach mode0x115 ⟨254, 210⟩ :=
    .step (i := (255, -210)) h1 trivial (by decide)
  have h3 : CursorReach mode0x115 ⟨381, 315⟩ :=
    .step (i := (255, -210)) h2 trivial (by decide)
  have hfits : ∀ line : Nat, line < mouseHeight → ∀ col : Nat,
      col < mouseWidth → Fits mode0x115 (toUInt16 (381 + col)).toNat
        (toUInt16 (315 + line)).toNat := by
    unfold Fits
    decide +kernel
  refine ⟨h3, ((framebuffer_writes mode0x115).2.2 _ h3).2 fun p hp => ?_⟩
  obtain ⟨z, hline, hp⟩ := List.mem_flatMap.1 hp
  obtain ⟨w, hcol, rfl⟩ := List.mem_map.1 hp
  -- the loops count in `int`
  simp only [List.bind_eq_flatMap, List.pure_def, List.mem_flatMap,
    List.mem_range, List.mem_singleton] at hline hcol
  obtain ⟨line, hline, rfl⟩ := hline
  obtain ⟨col, hcol, rfl⟩ := hcol
  exact .inr (.inr (hfits line hline col hcol))

/-- In the game's mode `(0, 600)` is accepted and writes past the
buffer, and a cursor near the lower edge does the same. -/
theorem framebuffer_writes_fail :
    ¬PixelSafe myDrawPixel ModeInfo.vramSize mode0x115 0 600
      ∧ ∃ mouse, CursorReach mode0x115 mouse
        ∧ ¬MouseInside mode0x115 mouse := by
  constructor
  · rw [show myDrawPixel = drawPixel16 from rfl, pixelSafe_iff]
    unfold SafeWhen
    decide
  · -- five downward moves take the cursor to row 587
    refine ⟨⟨0, 587⟩, ?_, ?_⟩
    · have h0 : CursorReach mode0x115 ⟨0, 0⟩ := .start rfl
      have h1 : CursorReach mode0x115 ⟨0, 128⟩ :=
        .step (i := (0, -256)) h0 trivial (by decide)
      have h2 : CursorReach mode0x115 ⟨0, 256⟩ :=
        .step (i := (0, -256)) h1 trivial (by decide)
      have h3 : CursorReach mode0x115 ⟨0, 384⟩ :=
        .step (i := (0, -256)) h2 trivial (by decide)
      have h4 : CursorReach mode0x115 ⟨0, 512⟩ :=
        .step (i := (0, -256)) h3 trivial (by decide)
      exact .step (i := (0, -150)) h4 trivial (by decide)
    · rw [mouseInside_iff]
      intro h
      have hp := h (0, 600) (by
        refine List.mem_flatMap.2 ⟨13, by decide, ?_⟩
        exact List.mem_map.2 ⟨0, by decide, by decide⟩)
      unfold Fits at hp
      revert hp
      decide

end Lcom.Proj
