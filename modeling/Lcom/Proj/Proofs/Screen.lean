/-
One cursor on the screen.

A tick outside the game paints every byte of the buffer green before
anything else, so the cursor of the last tick is gone. A tick of the game
paints over it only if it draws the board anew, and the background of the
board is one column and one row short of the screen. Where a tick of the
game does so, or the cursor has not moved, there is one cursor after it;
the invariant is that the bytes the cursor wrote last are bytes of its
picture where it was last drawn (`DisplayInv`).
-/
import Lcom.Proj.Screen
import Lcom.Proj.Proofs.Cursor
import Lcom.Proj.Proofs.Edges
import Lcom.Proj.Proofs.Replay
import Lcom.Proj.Proofs.ShownBoard
import Lcom.Proj.Proofs.Sprites

namespace Lcom.Proj

open Machine

-- ======================================================== bounded cursor

/-- A displacement of nine bits. -/
def NineBits (z : Int) : Prop := -256 ≤ z ∧ z ≤ 255

/-- The packet carries displacements of nine bits. -/
structure Packet.Bounded (p : Packet) : Prop where
  deltaX : NineBits p.deltaX
  deltaY : NineBits p.deltaY

/-- The cursor is not far from the screen. -/
structure Mouse.Bounded (c : Mouse) : Prop where
  left : 0 ≤ c.x
  right : c.x ≤ 799
  top : 0 ≤ c.y
  bottom : c.y ≤ 983

/-- Both. -/
structure Bounded (s : State) : Prop where
  packet : s.driver.packet1.Bounded
  mouse : s.mouse.Bounded

theorem Packet.decode_bounded (p : Packet) : p.decode.Bounded := by
  have hx := p.byte1.toNat_lt
  have hy := p.byte2.toNat_lt
  constructor
  · unfold NineBits Packet.decode
    dsimp only
    split <;> omega
  · unfold NineBits Packet.decode
    dsimp only
    split <;> omega

theorem storeByte_bounded {d : MouseDriver} (h : d.packet1.Bounded) :
    (storeByte d).packet1.Bounded := by
  unfold storeByte
  split
  · exact ⟨h.deltaX, h.deltaY⟩
  · split
    · exact ⟨h.deltaX, h.deltaY⟩
    · split
      · exact Packet.decode_bounded _
      · exact h

theorem dispatched_bounded {d : MouseDriver} (h : d.packet1.Bounded) :
    d.dispatched.packet1.Bounded := by
  unfold MouseDriver.dispatched
  cases d.dispatch with
  | skip => exact h
  | resync => exact h
  | byte =>
      exact printMousePacket_rule (P := fun d => d.packet1.Bounded) h
        fun sync => storeByte_bounded (d := { d with isSync := sync }) h

/-- A displacement of nine bits takes the cursor at most 128 pixels below
the last position it is not sent back from. -/
theorem updateMousePosition_bounded {c : Mouse} (h : c.Bounded) {x y : Int}
    (hx : NineBits x) (hy : NineBits y) :
    (updateMousePosition mode0x115 c x y).Bounded := by
  have hX : (mode0x115.xResolution : Int) = 800 := rfl
  have hY : (mode0x115.yResolution : Int) = 600 := rfl
  obtain ⟨hleft, hright, htop, hbottom⟩ := h
  have hhalfx := half_cases x
  have hhalfy := half_cases y
  unfold NineBits at hx hy
  unfold updateMousePosition
  rw [hX, hY]
  constructor <;> dsimp only <;> split <;> (try split) <;> omega

/-- The keyboard and mouse branches keep the bounds. -/
theorem Bounded.input {s s₁ : State} {n : Notification} {skip : Bool}
    (h : Bounded s) (hin : input mode0x115 s n = some (s₁, skip)) :
    Bounded s₁ := by
  rcases input_cases hin with ⟨-, -, rfl⟩ | ⟨reads, r, -, -, -, rfl⟩
  · exact ⟨h.packet, h.mouse⟩
  · have hafter : (s.driver.after r).packet1.Bounded := by
      rw [(after_packet s.driver r).1]
      exact h.packet
    have hdis := dispatched_bounded hafter
    refine ⟨hdis, ?_⟩
    dsimp only
    split
    · exact updateMousePosition_bounded h.mouse hdis.deltaX hdis.deltaY
    · exact h.mouse

/-- So does a tick. -/
theorem Bounded.tick {t s' : State} {rands : List Rand} (h : Bounded t)
    (hs : stateTick mode0x115 t rands = some s') : Bounded s' := by
  obtain ⟨hdriver, hmouse⟩ := (stateTick_moves hs).pointer
  have hx := congrArg (fun d => d.packet1.deltaX) hdriver
  have hy := congrArg (fun d => d.packet1.deltaY) hdriver
  dsimp only [MouseDriver.dropLb] at hx hy
  refine ⟨⟨?_, ?_⟩, ?_⟩
  · rw [hx]
    exact h.packet.deltaX
  · rw [hy]
    exact h.packet.deltaY
  · rw [hmouse]
    exact h.mouse

theorem createMouse_bounded : createMouse.Bounded :=
  ⟨by decide, by decide, by decide, by decide⟩

/-- At the start the cursor is in the corner. -/
theorem start_bounded (cards : Cards) : Bounded (start cards) := by
  have hpacket : MouseDriver.init.packet1.Bounded :=
    ⟨by unfold NineBits; decide, by unfold NineBits; decide⟩
  exact ⟨hpacket, createMouse_bounded⟩

/-- The state a tick sees. -/
theorem Bounded.tickState {s t : State} {n : Notification} (h : Bounded s)
    (ht : TickState mode0x115 s n t) : Bounded t := by
  obtain ⟨s₁, hin, -, rfl⟩ := ht
  exact ⟨(h.input hin).packet, (h.input hin).mouse⟩

/-- In every run the cursor is not far from the screen. -/
theorem bounded_reach {ok : State → Notification → Prop} {s : State}
    (h : Reach ok s) : Bounded s := by
  refine h.invariant (fun s hs => ?_) fun s n s' _ hb _ hs => ?_
  · obtain ⟨-, cards, -, rfl⟩ := hs
    exact start_bounded cards
  · rcases step_cases hs with ⟨t, ht, -, hst⟩ | ⟨-, skip, hin, -⟩
    · exact (hb.tickState ht).tick hst
    · exact hb.input hin

-- =========================================================== who writes

/-- A call of `my_draw_pixel` among these writes the byte. -/
def Covers (ds : List Dot) (a : Nat) : Prop :=
  ∃ d ∈ ds, ∃ r, pixelRange mode0x115 d.x.toNat d.y.toNat = some r
    ∧ a ∈ r.bytes

section

variable {ds ds' : List Dot} {a : Nat} {who : Writer} {writer : Nat → Writer}

theorem Dot.stamp_eq_some {d : Dot} {who' : Writer} :
    d.stamp mode0x115 who a = some who' ↔ who' = who
      ∧ ∃ r, pixelRange mode0x115 d.x.toNat d.y.toNat = some r
        ∧ a ∈ r.bytes := by
  unfold Dot.stamp
  cases pixelRange mode0x115 d.x.toNat d.y.toNat with
  | none => simp
  | some r =>
      dsimp only
      split
      · next hmem =>
          simp only [Option.some.injEq, exists_eq_left']
          exact ⟨fun he => ⟨he.symm, hmem⟩, fun he => he.1.symm⟩
      · next hmem =>
          simp only [reduceCtorEq, Option.some.injEq, exists_eq_left', false_iff]
          exact fun he => hmem he.2

/-- Bytes that are written have the new writer. -/
theorem stamp_covered (h : Covers ds a) :
    overlay writer (ds.map (Dot.stamp mode0x115 who)) a = who := by
  refine overlay_puts ?_ ?_
  · intro w hw u hu
    obtain ⟨d, -, rfl⟩ := List.mem_map.1 hw
    exact (Dot.stamp_eq_some.1 hu).1
  · obtain ⟨d, hd, hr⟩ := h
    refine ⟨_, List.mem_map.2 ⟨d, hd, rfl⟩, ?_⟩
    rw [Dot.stamp_eq_some.2 ⟨rfl, hr⟩]
    exact Option.some_ne_none _

/-- The others keep theirs. -/
theorem stamp_uncovered (h : ¬Covers ds a) :
    overlay writer (ds.map (Dot.stamp mode0x115 who)) a = writer a := by
  refine overlay_keeps fun w hw => ?_
  obtain ⟨d, hd, rfl⟩ := List.mem_map.1 hw
  rw [Option.eq_none_iff_forall_ne_some]
  intro who' hwho
  exact h ⟨d, hd, (Dot.stamp_eq_some.1 hwho).2⟩

theorem Covers.left (h : Covers ds a) : Covers (ds ++ ds') a := by
  obtain ⟨d, hd, hr⟩ := h
  exact ⟨d, List.mem_append_left _ hd, hr⟩

end

/-- A pixel of the screen has these bytes. -/
theorem pixelRange_screen {x y : Nat} (hx : x ≤ 800) (hy : y ≤ 600) :
    pixelRange mode0x115 x y = some ⟨3 * (800 * y + x), 3⟩ := by
  rw [pixelRange_eq hx hy, cellStart_of_lt ?_]
  · show some (ByteRange.mk ((800 * y + x) * 3) 3) = _
    rw [mul_comm]
  · show (800 * y + x) * 3 < 2 ^ 32
    omega

/-- No other pixel is written. -/
theorem pixelRange_screen_inv {x y : Nat} {r : ByteRange}
    (h : pixelRange mode0x115 x y = some r) :
    x ≤ 800 ∧ y ≤ 600 ∧ r = ⟨3 * (800 * y + x), 3⟩ := by
  by_cases hon : x ≤ 800 ∧ y ≤ 600
  · rw [pixelRange_screen hon.1 hon.2] at h
    cases h
    exact ⟨hon.1, hon.2, rfl⟩
  · rw [pixelRange_none] at h
    · cases h
    · show 800 < x ∨ 600 < y
      omega

/-- A call for a pixel of the screen writes the bytes of the pixel. -/
theorem covers_of_mem {ds : List Dot} {x y : Nat}
    (h : ∃ source, ⟨toUInt16 x, toUInt16 y, source⟩ ∈ ds) (hx : x ≤ 800)
    (hy : y ≤ 600) {a : Nat} (ha : 3 * (800 * y + x) ≤ a ∧ a < 3 * (800 * y + x) + 3) :
    Covers ds a := by
  obtain ⟨source, h⟩ := h
  refine ⟨_, h, ⟨3 * (800 * y + x), 3⟩, ?_, ha⟩
  dsimp only
  rw [toUInt16_natCast (by omega), toUInt16_natCast (by omega),
    pixelRange_screen hx hy]

theorem mem_greenScreen {m : ModeInfo} {d : Dot} :
    d ∈ greenScreen m ↔ ∃ y < m.yResolution, ∃ x < m.xResolution,
      d = ⟨toUInt16 (x : Nat), toUInt16 (y : Nat), .green⟩ := by
  simp [greenScreen, eq_comm]

/-- `greenScreen` writes the whole buffer. -/
theorem greenScreen_covers {a : Nat} (ha : a < mode0x115.vramSize) :
    Covers (greenScreen mode0x115) a := by
  have hsize : mode0x115.vramSize = 1440000 := rfl
  have hmem : ∃ source,
      (⟨toUInt16 (a / 3 % 800 : Nat), toUInt16 (a / 3 / 800 : Nat), source⟩
        : Dot) ∈ greenScreen mode0x115 := by
    refine ⟨.green, mem_greenScreen.2 ⟨a / 3 / 800, ?_, a / 3 % 800, ?_, rfl⟩⟩
    · show a / 3 / 800 < 600
      omega
    · show a / 3 % 800 < 800
      omega
  exact covers_of_mem hmem (by omega) (by omega) (by omega)

/-- The sizes of the background and the cursor. -/
structure GameSprites.Loaded (g : GameSprites) : Prop where
  backgroundWidth : g.board.background.width = 799
  backgroundHeight : g.board.background.height = 599
  mouseWidth : g.mouse.width = 50
  mouseHeight : g.mouse.height = 42

/-- The bytes of a pixel. -/
def PixelBytes (x y : Int) (a : Nat) : Prop :=
  3 * (800 * y + x) ≤ a ∧ (a : Int) < 3 * (800 * y + x) + 3

section

variable {g : GameSprites} {q : Mouse} {x y : Int} {a : Nat}

/-- A byte of the cursor's picture belongs to a pixel of it. -/
theorem paintMouse_covers (hg : g.Loaded) (hq : q.Bounded)
    (ha : a < mode0x115.vramSize)
    (h : Covers (paintMouse mode0x115 g q) a) :
    ∃ x y, q.Occupies x y ∧ PixelBytes x y a := by
  have hsize : mode0x115.vramSize = 1440000 := rfl
  obtain ⟨d, hd, r, hr, har⟩ := h
  obtain ⟨l, hl, c, hc, rfl⟩ := mem_spriteLines.1 hd
  obtain ⟨hleft, hright, htop, hbottom⟩ := hq
  rw [hg.mouseWidth] at hc
  rw [hg.mouseHeight] at hl
  have hx := @toUInt16_cast (q.x + c) (by omega) (by omega)
  have hy := @toUInt16_cast (q.y + l) (by omega) (by omega)
  obtain ⟨hx800, hy600, rfl⟩ := pixelRange_screen_inv hr
  obtain ⟨hlow, hhigh⟩ := har
  dsimp only at *
  refine ⟨q.x + c, q.y + l, ?_, ?_⟩
  · unfold Mouse.Occupies
    omega
  · unfold PixelBytes
    omega

/-- Every pixel of the cursor's picture is painted. -/
theorem covers_paintMouse (hg : g.Loaded) (hq : q.Bounded)
    (h : q.Occupies x y) (ha : PixelBytes x y a) :
    Covers (paintMouse mode0x115 g q) a := by
  obtain ⟨hleft, -, htop, -⟩ := hq
  unfold Mouse.Occupies at h
  unfold PixelBytes at ha
  obtain ⟨px, rfl⟩ := Int.eq_ofNat_of_zero_le (show 0 ≤ x by omega)
  obtain ⟨py, rfl⟩ := Int.eq_ofNat_of_zero_le (show 0 ≤ y by omega)
  have hmem : ∃ source, (⟨toUInt16 px, toUInt16 py, source⟩ : Dot)
      ∈ paintMouse mode0x115 g q := by
    refine ⟨.sprite g.mouse (g.mouse.offset (px - q.x).toNat
      (py - q.y).toNat), (mem_drawPicture rfl).2
        ⟨(py - q.y).toNat, ?_, (px - q.x).toNat, ?_, ?_⟩⟩
    · rw [hg.mouseHeight]
      omega
    · rw [hg.mouseWidth]
      omega
    · rw [Int.toNat_of_nonneg (by omega), Int.toNat_of_nonneg (by omega),
        add_sub_cancel, add_sub_cancel]
  exact covers_of_mem hmem (by omega) (by omega) (by omega)

/-- So is every pixel of the background. -/
theorem covers_background (hg : g.Loaded) {px py : Nat} (hx : px < 799)
    (hy : py < 599) (ha : PixelBytes px py a) :
    Covers (drawBackground mode0x115 g.board) a := by
  unfold PixelBytes at ha
  have hmem : ∃ source, (⟨toUInt16 px, toUInt16 py, source⟩ : Dot)
      ∈ drawBackground mode0x115 g.board := by
    refine ⟨.sprite g.board.background (g.board.background.offset px py),
      (mem_drawPicture rfl).2 ⟨py, ?_, px, ?_, ?_⟩⟩
    · rw [hg.backgroundHeight]
      exact hy
    · rw [hg.backgroundWidth]
      exact hx
    · rw [zero_add, zero_add]
  exact covers_of_mem hmem (by omega) (by omega) (by omega)

/-- The background covers the pixels on it. -/
theorem onBackground_covers (hg : g.Loaded) (hx : 0 ≤ x) (hy : 0 ≤ y)
    (hon : OnBackground x y) (ha : PixelBytes x y a) :
    Covers (drawBackground mode0x115 g.board) a := by
  obtain ⟨px, rfl⟩ := Int.eq_ofNat_of_zero_le hx
  obtain ⟨py, rfl⟩ := Int.eq_ofNat_of_zero_le hy
  rcases hon with ⟨hpx, hpy⟩ | ⟨hpx, hpy⟩
  · exact covers_background hg (by omega) (by omega) ha
  · -- column 800 has the bytes of the next line's first pixel
    refine @covers_background _ _ hg 0 (py + 1) (by omega) (by omega) ?_
    unfold PixelBytes at *
    omega

end

-- ============================================================ invariant

/-- The screens the loop shows. -/
def Screened (gs : GameState) : Prop := gs ≠ .highScores ∧ gs ≠ .wait

/-- No tick leaves them. -/
theorem TickMoves.screened {t s' : State} {ms : List Trigger}
    (hs : TickMoves mode0x115 t ms s') (h : Screened t.gs) :
    Screened s'.gs := by
  cases hs with
  | menu hgs hm => cases hm <;> simp [Screened, State.clearLb, hgs]
  | game hgs hs =>
      obtain ⟨-, hpre, hplay⟩ := gameTick_latches hs
      cases hinit : t.initGame with
      | true =>
          rw [hpre hinit]
          exact h
      | false =>
          rcases hplay hinit with hgs' | hgs'
          · rw [hgs']
            rcases (pauseKey_frame t).2.2.2.2 with hp | hp <;>
              simp [Screened, hp, hgs]
          · simp [Screened, hgs']
  | pause hgs hm => cases hm <;> simp [Screened, hgs]
  | instructions hgs hm => cases hm <;> simp [Screened, State.clearLb, hgs]
  | restart => simp [Screened, restarted]
  | outcome => exact h
  | unused hgs => exact h

/-- The bytes the cursor wrote last are bytes of its picture where it was
last drawn, and the others are the scene's. -/
def Display.Drawn (g : GameSprites) (d : Display) (q : Mouse) : Prop :=
  ∀ a < mode0x115.vramSize, d.writer a = .scene
    ∨ (d.writer a = .cursor q ∧ Covers (paintMouse mode0x115 g q) a)

/-- The display before anything is drawn, or after a tick. -/
def Display.Follows (g : GameSprites) (d : Display) (gs : GameState) :
    Prop :=
  (d.drawn = none ∧ gs = .menu)
    ∨ ∃ q, d.drawn = some q ∧ q.Bounded ∧ d.Drawn g q

/-- What holds between two notifications. -/
structure DisplayInv (g : GameSprites) (p : State × Display) : Prop where
  bounded : Bounded p.1
  screened : Screened p.1.gs
  display : p.2.Follows g p.1.gs

section

variable {g : GameSprites} {hour : UInt32} {p p' : State × Display}
  {n : Notification} {t : State} {a : Nat}

/-- Outside the game a tick writes every byte. -/
theorem scene_covers (hgs : Screened t.gs) (hgame : t.gs ≠ .game)
    (ha : a < mode0x115.vramSize) : Covers (scene mode0x115 g hour t) a := by
  have hgreen := greenScreen_covers ha
  unfold scene
  cases hcase : t.gs with
  | menu => exact hgreen.left.left
  | game => exact absurd hcase hgame
  | pause => exact hgreen.left
  | instructions => exact hgreen.left
  | exit => exact hgreen.left
  | highScores => exact absurd hcase hgs.1
  | wait => exact absurd hcase hgs.2

/-- A tick that draws the board anew writes the background. -/
theorem scene_covers_background (hgs : t.gs = .game)
    (hredraw : t.redraws = true)
    (h : Covers (drawBackground mode0x115 g.board) a) :
    Covers (scene mode0x115 g hour t) a := by
  unfold scene
  rw [hgs, if_pos hredraw]
  exact h.left.left

/-- A byte the old cursor wrote is written in the tick. -/
theorem Repainted.covers (hr : Repainted p n) (hg : g.Loaded)
    (ht : TickState mode0x115 p.1 n t) (hgs : t.gs = .game)
    (hb : t.mouse.Bounded) {q : Mouse} (hq : q.Bounded)
    (hdrawn : p.2.drawn = some q) (ha : a < mode0x115.vramSize)
    (hold : Covers (paintMouse mode0x115 g q) a) :
    Covers (scene mode0x115 g hour t) a
      ∨ Covers (paintMouse mode0x115 g t.mouse) a := by
  obtain ⟨x, y, hxy, hbytes⟩ := paintMouse_covers hg hq ha hold
  rcases hr t ht hgs q hdrawn x y hxy with hnew | ⟨hredraw, hon⟩
  · exact .inr (covers_paintMouse hg hb hnew hbytes)
  · have hx : 0 ≤ x := hq.left.trans hxy.1.1
    have hy : 0 ≤ y := hq.top.trans hxy.2.1.1
    exact .inl (scene_covers_background hgs hredraw
      (onBackground_covers hg hx hy hon hbytes))

/-- A tick draws the cursor last, and the scene before it. -/
theorem tick_writer (d : Display) (hour : UInt32) (t : State) :
    (d.tick mode0x115 g hour t).writer
      = overlay (overlay d.writer
          ((scene mode0x115 g hour t).map (Dot.stamp mode0x115 .scene)))
        ((paintMouse mode0x115 g t.mouse).map
          (Dot.stamp mode0x115 (.cursor t.mouse))) :=
  overlay_append _ _ _

/-- After a tick the display is that of the cursor where it is now. -/
theorem Display.Follows.tick (h : p.2.Follows g p.1.gs) (hg : g.Loaded)
    (hr : Repainted p n) (ht : TickState mode0x115 p.1 n t)
    (hgs : Screened t.gs) (hb : t.mouse.Bounded) :
    (p.2.tick mode0x115 g hour t).Drawn g t.mouse := by
  intro a ha
  rw [tick_writer]
  by_cases hcursor : Covers (paintMouse mode0x115 g t.mouse) a
  · exact .inr ⟨stamp_covered hcursor, hcursor⟩
  rw [stamp_uncovered hcursor]
  left
  by_cases hscene : Covers (scene mode0x115 g hour t) a
  · exact stamp_covered hscene
  -- neither painted the byte, so the tick is one of the game
  rw [stamp_uncovered hscene]
  have hgame : t.gs = .game := by
    by_contra hne
    exact hscene (scene_covers hgs hne ha)
  rcases h with ⟨-, hmenu⟩ | ⟨q, hdrawn, hq, hwriter⟩
  · rw [← ht.frame.2.1, hgame] at hmenu
    cases hmenu
  · rcases hwriter a ha with hold | ⟨-, hold⟩
    · exact hold
    · rcases hr.covers hg ht hgame hb hq hdrawn ha hold with hs | hc
      · exact absurd hs hscene
      · exact absurd hc hcursor

/-- A step of the loop, with its display. -/
theorem displayStep_of_step (g : GameSprites) (hour : UInt32)
    (d : Display) {s s' : State} (hs : step mode0x115 s n = some s') :
    ∃ d', displayStep g hour (s, d) n = some (s', d') :=
  ⟨_, withLog_eq_some.2 ⟨hs, rfl⟩⟩

/-- A notification that brings a tick. -/
theorem displayStep_tick (ht : TickState mode0x115 p.1 n t)
    (hs : displayStep g hour p n = some p') :
    stateTick mode0x115 t n.rands = some p'.1
      ∧ p'.2 = p.2.tick mode0x115 g hour t := by
  have htick := tickState_eq_some.2 ht
  obtain ⟨hstep, hlog⟩ := withLog_eq_some.1 hs
  unfold Display.update at hlog
  rw [htick] at hlog
  rcases step_cases hstep with ⟨t', -, ht', hst⟩ | ⟨hnone, -⟩
  · rw [htick] at ht'
    cases ht'
    exact ⟨hst, hlog⟩
  · rw [htick] at hnone
    cases hnone

/-- It draws the cursor where it is afterwards. -/
theorem displayStep_drawn (ht : TickState mode0x115 p.1 n t)
    (hs : displayStep g hour p n = some p') :
    p'.2.drawn = some p'.1.mouse := by
  obtain ⟨hst, hlog⟩ := displayStep_tick ht hs
  rw [(stateTick_moves hst).pointer.2, hlog]
  rfl

/-- After it the display is that of the cursor where it is now. -/
theorem DisplayInv.tick (h : DisplayInv g p) (hg : g.Loaded)
    (hr : Repainted p n) (ht : TickState mode0x115 p.1 n t)
    (hs : displayStep g hour p n = some p') :
    DisplayInv g p' ∧ p'.2.Drawn g p'.1.mouse := by
  obtain ⟨hst, hlog⟩ := displayStep_tick ht hs
  have hbt := h.bounded.tickState ht
  have hgs : Screened t.gs := by
    rw [ht.frame.2.1]
    exact h.screened
  have hdrawn : (p.2.tick mode0x115 g hour t).Drawn g t.mouse :=
    h.display.tick hg hr ht hgs hbt.mouse
  rw [(stateTick_moves hst).pointer.2, hlog]
  refine ⟨⟨hbt.tick hst, (stateTick_moves hst).screened hgs, .inr ?_⟩, hdrawn⟩
  rw [hlog]
  exact ⟨t.mouse, rfl, hbt.mouse, hdrawn⟩

/-- One notification. -/
theorem DisplayInv.step (h : DisplayInv g p) (hg : g.Loaded)
    (hr : Repainted p n) (hs : displayStep g hour p n = some p') :
    DisplayInv g p' := by
  obtain ⟨hstep, hlog⟩ := withLog_eq_some.1 hs
  rcases step_cases hstep with ⟨t, ht, -, -⟩ | ⟨hnone, skip, hin, -⟩
  · exact (h.tick hg hr ht hs).1
  · unfold Display.update at hlog
    rw [hnone] at hlog
    have hsame := (input_frame hin).2.1
    refine ⟨h.bounded.input hin, ?_, ?_⟩
    · rw [hsame]
      exact h.screened
    · rw [hlog, hsame]
      exact h.display

theorem DisplayInv.start (hp : Starts p.1) (hblank : p.2 = Display.blank) :
    DisplayInv g p := by
  obtain ⟨rands, cards, -, hstart⟩ := hp
  have hscreened : Screened .menu := ⟨by decide, by decide⟩
  rw [← Prod.mk.eta (p := p), hstart, hblank]
  exact ⟨start_bounded cards, hscreened, .inl ⟨rfl, rfl⟩⟩

theorem DisplayReach.inv (hg : g.Loaded)
    (h : DisplayReach g hour Repainted p) : DisplayInv g p :=
  h.invariant (fun _ hp => .start hp.1 hp.2)
    fun _ _ _ _ hinv hr hs => hinv.step hg hr hs

/-- In every run whose ticks of the game paint over the cursor of the tick
before, by drawing the board anew under it or by the cursor itself, there
is one cursor on the screen after every tick. -/
theorem one_cursor (hg : g.Loaded) (hp : DisplayReach g hour Repainted p)
    (hr : Repainted p n) (ht : TickState mode0x115 p.1 n t)
    (hs : displayStep g hour p n = some p') : OneCursor p' := by
  obtain ⟨-, hdrawn⟩ := (hp.inv hg).tick hg hr ht hs
  intro a ha
  exact (hdrawn a ha).imp_right And.left

end

-- ================================================================= runs

/-- Black sprites of the sizes in `pixmap.h`. -/
def blankGameSprites : GameSprites :=
  { board :=
      { deck := blankSprite 950 392, cardBack := blankSprite 75 109
        background := blankSprite 799 599 }
    mouse := blankSprite 50 42
    heart := blankSprite 30 22
    gameName := blankSprite 264 200
    sun := blankSprite 200 200
    moon := blankSprite 200 200
    instructions := blankSprite 799 599
    gameOver := blankSprite 422 182
    victory := blankSprite 700 500
    letter := fun which =>
      if which = .e then blankSprite 19 30 else blankSprite 20 30 }

theorem blankGameSprites_loaded : blankGameSprites.Loaded :=
  ⟨rfl, rfl, rfl, rfl⟩

/-- A run that has drawn nothing. -/
theorem display_start (hour : UInt32)
    (ok : State × Display → Notification → Prop) :
    DisplayReach blankGameSprites hour ok
      (start orderedCards, Display.blank) :=
  .start ⟨⟨orderedRands, orderedCards, orderedRands_deal, rfl⟩, rfl⟩

/-- A tick with nothing before it since the last one. -/
theorem repainted_tick {p : State × Display}
    (h : p.2.drawn = some p.1.mouse) : Repainted p tick := by
  intro t ht _ q hq x y hxy
  obtain ⟨s₁, hin, -, rfl⟩ := ht
  cases hin
  rw [h] at hq
  cases hq
  exact .inl hxy

/-- The tick that starts the game, and the first tick of the game. -/
theorem one_cursor_first : ∃ p t p',
    DisplayReach blankGameSprites 12 Repainted p
      ∧ TickState mode0x115 p.1 tick t ∧ t.gs = .game
      ∧ displayStep blankGameSprites 12 p tick = some p' ∧ OneCursor p' := by
  have hmenu : Repainted (start orderedCards, Display.blank)
      (keyTick pKeyBreakcode) := by
    intro t ht hgs
    have hsame := ht.frame.2.1
    rw [hgs] at hsame
    cases hsame
  have hruns : (step mode0x115 (start orderedCards)
      (keyTick pKeyBreakcode)).any (fun s => decide (s.gs = .game
        ∧ (step mode0x115 s tick).isSome = true)) = true := by decide
  obtain ⟨s, hs, hP⟩ := (Option.any_eq_true _ _).1 hruns
  obtain ⟨hgs, hsome⟩ := of_decide_eq_true hP
  obtain ⟨s', hs'⟩ := Option.isSome_iff_exists.1 hsome
  obtain ⟨t, ht⟩ : ∃ t, TickState mode0x115 (start orderedCards)
      (keyTick pKeyBreakcode) t := ⟨_, _, rfl, rfl, rfl⟩
  obtain ⟨d, hfirst⟩ :=
    displayStep_of_step blankGameSprites 12 Display.blank hs
  obtain ⟨d', hsecond⟩ := displayStep_of_step blankGameSprites 12 d hs'
  have hreach := (display_start 12 Repainted).step hmenu hfirst
  have hdrawn := displayStep_drawn ht hfirst
  exact ⟨_, _, _, hreach, tickState_tick s, hgs, hsecond,
    one_cursor blankGameSprites_loaded hreach (repainted_tick hdrawn)
      (tickState_tick s) hsecond⟩

/-- A byte of the mouse and a timer interrupt in one notification. -/
def byteTick (byte : UInt8) : Notification :=
  { mouseByte byte with timer := true }

/-- The preview is over and the cursor has not moved; the last byte of a
packet takes it 100 pixels to the right, in a tick that draws the hearts
alone. -/
def leftBehindRun : Script noTest (afterTick noTest fun s =>
    decide (s.gs = .game ∧ s.mouse = createMouse)
      && (tickState mode0x115 s (byteTick 0)).any (fun t =>
        decide (t.mouse = ⟨100, 0⟩ ∧ t.redraws = false))
      && (swiftStep s (byteTick 0)).isSome) where
  notifications := [key pKeyBreakcode, tick, mouseByte 0x08, mouseByte 200]
    ++ ticks 239
  shows := by decide +kernel

/-- Byte 0 belongs to the first pixel alone. -/
theorem covers_zero {ds : List Dot} (h : Covers ds 0) :
    ∃ d ∈ ds, d.x.toNat = 0 ∧ d.y.toNat = 0 := by
  obtain ⟨d, hd, r, hr, har⟩ := h
  obtain ⟨-, -, rfl⟩ := pixelRange_screen_inv hr
  have hlow := har.1
  dsimp only at hlow
  exact ⟨d, hd, by omega, by omega⟩

/-- The hearts start on line 15. -/
theorem drawHearts_uncovered (p1 : Player) :
    ¬Covers (drawHearts mode0x115 blankGameSprites p1) 0 := by
  intro h
  obtain ⟨d, hd, -, hy⟩ := covers_zero h
  obtain ⟨i, -, hd⟩ := List.mem_flatMap.1 hd
  obtain ⟨l, hl, c, -, rfl⟩ := mem_spriteLines.1 hd
  have hheight : blankGameSprites.heart.height = 22 := rfl
  have hcast := @toUInt16_cast (15 + (l : Nat)) (by omega) (by omega)
  dsimp only at hy
  omega

/-- A cursor in column 100 does not cover column 0. -/
theorem paintMouse_uncovered :
    ¬Covers (paintMouse mode0x115 blankGameSprites ⟨100, 0⟩) 0 := by
  intro h
  obtain ⟨d, hd, hx, -⟩ := covers_zero h
  obtain ⟨l, -, c, hc, rfl⟩ := mem_spriteLines.1 hd
  have hwidth : blankGameSprites.mouse.width = 50 := rfl
  have hcast := @toUInt16_cast (100 + (c : Nat)) (by omega) (by omega)
  dsimp only at hx
  omega

section

variable {hour : UInt32} {d : Display} {t : State}

/-- A cursor in the corner writes byte 0. -/
theorem tick_writes_corner (hmouse : t.mouse = createMouse) :
    (d.tick mode0x115 blankGameSprites hour t).writer 0
      = .cursor createMouse := by
  have hcovers : Covers (paintMouse mode0x115 blankGameSprites createMouse)
      0 := by
    refine @covers_paintMouse _ _ 0 0 _ blankGameSprites_loaded
      createMouse_bounded ?_ ?_
    · unfold Mouse.Occupies
      decide
    · unfold PixelBytes
      decide
  rw [tick_writer, hmouse]
  exact stamp_covered hcovers

/-- A tick that draws the hearts alone, and the cursor elsewhere, leaves
it alone. -/
theorem tick_leaves_corner (hgs : t.gs = .game) (hredraws : t.redraws = false)
    (hmouse : t.mouse = ⟨100, 0⟩) :
    (d.tick mode0x115 blankGameSprites hour t).writer 0 = d.writer 0 := by
  rw [tick_writer, hmouse, stamp_uncovered paintMouse_uncovered]
  unfold scene
  rw [hgs, hredraws]
  exact stamp_uncovered (drawHearts_uncovered t.p1)

end

/-- The cursor is drawn at `(0, 0)`, and on the next tick at `(100, 0)`;
byte 0 is still the one of the first. -/
theorem cursor_left_behind : ∃ p n t p',
    DisplayReach blankGameSprites 12 (fun _ _ => True) p
      ∧ TickState mode0x115 p.1 n t
      ∧ displayStep blankGameSprites 12 p n = some p'
      ∧ p'.1.mouse = ⟨100, 0⟩ ∧ p'.2.writer 0 = .cursor ⟨0, 0⟩
      ∧ ¬OneCursor p' := by
  obtain ⟨s', ⟨s, n, t, hs, -, ht, hstep⟩, hP⟩ :=
    leftBehindRun.endOfTick noTest_anyStep
  rw [Bool.and_eq_true, Bool.and_eq_true, swiftStep_eq] at hP
  obtain ⟨⟨hbefore, hslide⟩, hsome⟩ := hP
  obtain ⟨hgs, hmouse⟩ := of_decide_eq_true hbefore
  obtain ⟨u, hu, hafter⟩ := (Option.any_eq_true _ _).1 hslide
  obtain ⟨hmouse', hredraws⟩ := of_decide_eq_true hafter
  obtain ⟨s'', hs''⟩ := Option.isSome_iff_exists.1 hsome
  have htick := tickState_eq_some.1 hu
  -- the display of the run, and the two ticks at its end
  obtain ⟨d, hd⟩ : ∃ d, DisplayReach blankGameSprites 12
      (fun _ _ => True) (s, d) :=
    hs.logged fun s hs => ⟨Display.blank, hs, rfl⟩
  obtain ⟨d₁, hfirst⟩ := displayStep_of_step blankGameSprites 12 d hstep
  obtain ⟨d₂, hsecond⟩ := displayStep_of_step blankGameSprites 12 d₁ hs''
  obtain ⟨hst, hlog⟩ := displayStep_tick ht hfirst
  obtain ⟨hst', hlog'⟩ := displayStep_tick htick hsecond
  have hmouse₁ := (stateTick_moves hst).pointer.2.symm.trans hmouse
  have hmouse₂ := (stateTick_moves hst').pointer.2.trans hmouse'
  have hwriter : d₂.writer 0 = .cursor createMouse := by
    dsimp only at hlog hlog'
    rw [hlog', tick_leaves_corner (htick.frame.2.1.trans hgs) hredraws hmouse',
      hlog, tick_writes_corner hmouse₁]
  refine ⟨_, _, _, _, hd.step trivial hfirst, htick, hsecond, hmouse₂,
    hwriter, fun hone => ?_⟩
  rcases hone 0 (by decide) with hscene | hcursor
  · rw [hwriter] at hscene
    cases hscene
  · rw [hwriter, hmouse₂] at hcursor
    revert hcursor
    decide

end Lcom.Proj
