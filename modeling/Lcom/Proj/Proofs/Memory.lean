/-
What the drawing of a run reads and writes.

Every picture is drawn at a fixed place but for the cursor and the
hearts, and no picture is higher than what is left of the screen below
its first line; a line of the buffer is long enough for the column too
many that `my_draw_pixel` accepts, unless it is the last one
(`inBuffer_of_row`). A turning card reads less of a line than a resting
one, whatever the width (`squeezed_cols`). So in every run no read leaves
its image and no write leaves the buffer, but for the cursor's where it
lies across the lower edge (`drawn_inside`).
-/
import Lcom.Proj.Proofs.OnDeck
import Lcom.Proj.Proofs.Screen
import Lcom.Proj.Proofs.Squeezed

namespace Lcom.Proj

open Machine

-- ================================================================ sizes

/-- The sizes of the pictures in `pixmap.h`. -/
structure GameSprites.Pixmaps (g : GameSprites) : Prop extends
    g.Loaded where
  deckWidth : g.board.deck.width = 950
  deckHeight : g.board.deck.height = 392
  backWidth : g.board.cardBack.width = 75
  backHeight : g.board.cardBack.height = 109
  heartHeight : g.heart.height = 22
  gameNameHeight : g.gameName.height = 200
  sunHeight : g.sun.height = 200
  moonHeight : g.moon.height = 200
  instructionsHeight : g.instructions.height = 599
  gameOverHeight : g.gameOver.height = 182
  victoryHeight : g.victory.height = 500
  letterHeight : ∀ which, (g.letter which).height = 30

-- =============================================================== pixels

/-- What the call writes, if anything, lies in the buffer. -/
def Dot.InBuffer (m : ModeInfo) (d : Dot) : Prop :=
  ∀ r, pixelRange m d.x.toNat d.y.toNat = some r →
    r.start + r.len ≤ m.vramSize

/-- The call reads inside its image and writes inside the buffer. -/
structure Dot.Safe (d : Dot) : Prop where
  reads : d.source.Inside
  writes : d.InBuffer mode0x115

/-- Column 800 of any line but the last is a pixel of the next one. -/
theorem inBuffer_of_row {d : Dot} (h : d.y.toNat ≤ 598) :
    d.InBuffer mode0x115 := by
  have hsize : mode0x115.vramSize = 1440000 := rfl
  intro r hr
  obtain ⟨hx, -, rfl⟩ := pixelRange_screen_inv hr
  dsimp only
  omega

section

variable {s : Sprite} {advance skip col line pointer : Int} {cols n : Nat}

/-- A picture that ends above the last line. -/
theorem spriteLines_inBuffer (h0 : 0 ≤ line) (h : line + n ≤ 599) :
    ∀ d ∈ spriteLines s advance skip cols col n line pointer,
      d.InBuffer mode0x115 := by
  intro d hd
  obtain ⟨l, hl, c, -, rfl⟩ := mem_spriteLines.1 hd
  apply inBuffer_of_row
  have hcast := @toUInt16_cast (line + l) (by omega) (by omega)
  dsimp only
  omega

/-- A plain picture is read inside. -/
theorem drawPicture_inside {screenX screenY : Int} :
    ∀ d ∈ drawPicture mode0x115 s screenX screenY, d.source.Inside := by
  intro d hd
  obtain ⟨l, hl, c, hc, rfl⟩ := (mem_drawPicture rfl).1 hd
  exact offset_inside (by omega) (by omega) (by omega) (by omega)

theorem drawPicture_safe {screenX screenY : Int} (h0 : 0 ≤ screenY)
    (h : screenY + s.height ≤ 599) :
    ∀ d ∈ drawPicture mode0x115 s screenX screenY, d.Safe := fun d hd =>
  ⟨drawPicture_inside d hd, spriteLines_inBuffer h0 h d hd⟩

end

theorem greenScreen_safe : ∀ d ∈ greenScreen mode0x115, d.Safe := by
  intro d hd
  obtain ⟨y, hy, x, hx, rfl⟩ := mem_greenScreen.1 hd
  have hy600 : y < 600 := hy
  have hx800 : x < 800 := hx
  have hsize : mode0x115.vramSize = 1440000 := rfl
  refine ⟨trivial, fun r hr => ?_⟩
  dsimp only at hr
  rw [toUInt16_natCast (by omega), toUInt16_natCast (by omega)] at hr
  obtain ⟨-, -, rfl⟩ := pixelRange_screen_inv hr
  dsimp only
  omega

/-- A value of the loop, whether or not it meets the edge. -/
theorem mem_untilEdge {start stop z : Int} {n : Nat}
    (h : z ∈ untilEdge start n stop) : ∃ k < n, z = start + (k : Nat) := by
  have hrange := (List.takeWhile_sublist _).mem h
  simp only [List.mem_map, List.mem_range, bind_pure_comp, List.map_eq_map,
    exists_exists_and_eq_and] at hrange
  obtain ⟨k, hk, rfl⟩ := hrange
  exact ⟨k, hk, rfl⟩

/-- A pixel of a green rectangle. -/
theorem mem_greenPartOfScreen {x y width height : Int} {d : Dot}
    (h : d ∈ greenPartOfScreen mode0x115 x y width height) :
    ∃ l < height.toNat, ∃ c < width.toNat,
      d = ⟨toUInt16 (x + (c : Nat)), toUInt16 (y + (l : Nat)), .green⟩ := by
  obtain ⟨row, hrow, h⟩ := List.mem_flatMap.1 h
  obtain ⟨column, hcolumn, rfl⟩ := List.mem_map.1 h
  obtain ⟨l, hl, rfl⟩ := mem_untilEdge hrow
  obtain ⟨c, hc, rfl⟩ := mem_untilEdge hcolumn
  exact ⟨l, hl, c, hc, rfl⟩

-- ============================================================ the cards

/-- The columns of a squeezed picture: only a width of at least one
leaves any, and together they are no wider than the picture. -/
theorem squeezed_cols {width : Nat} {w : Int} {c : Nat}
    (hc : c < ((width : Int).tdiv w).toNat) :
    0 ≤ (((width : Int).tdiv w).toNat : Int) * w
      ∧ (((width : Int).tdiv w).toNat : Int) * w ≤ width
      ∧ (c : Int) ≤ c * w ∧ (c : Int) * w + 1 ≤ width := by
  have hw : 1 ≤ w := by
    by_contra hlt
    have hle := Int.tdiv_nonpos_of_nonneg_of_nonpos
      (Int.natCast_nonneg width) (show w ≤ 0 by omega)
    omega
  have hcols := @squeezed_cols_cast width w hw
  have hall := Int.ediv_mul_le (width : Int) (show w ≠ 0 by omega)
  rw [← hcols] at hall
  have hnext := Int.mul_le_mul_of_nonneg_right
    (show (c : Int) + 1 ≤ ((width : Int).tdiv w).toNat by omega)
    (show 0 ≤ w by omega)
  rw [add_mul, one_mul] at hnext
  refine ⟨?_, hall, ?_, by omega⟩
  · exact Int.mul_nonneg (Int.natCast_nonneg _) (by omega)
  · exact le_mul_of_one_le_right (Int.natCast_nonneg c) hw

section

variable {g : GameSprites} {b : Board} {w : Int}

/-- The front of a turning card: every line starts at most one line of
the deck further. -/
theorem squeezedFront_inside (hg : g.Pixmaps) {card : Card}
    (h : card.OnDeck) {screenX screenY : Int} :
    ∀ d ∈ squeezedFront mode0x115 g.board screenX screenY card.x card.y w,
      d.source.Inside := by
  intro d hd
  obtain ⟨l, hl, c, hc, rfl⟩ := mem_spriteLines.1 hd
  obtain ⟨hleft, hright, htop, hbottom⟩ := h
  rw [cardWidth_cast] at hc ⊢
  rw [cardHeight_toNat] at hl
  obtain ⟨hall0, hall, hcol0, hcol⟩ := squeezed_cols hc
  have hlines := Int.mul_le_mul_of_nonneg_left hall (Int.natCast_nonneg l)
  have hlines0 := Int.mul_nonneg (Int.natCast_nonneg l) hall0
  dsimp only [Source.Inside, deckStart]
  rw [spriteStep_24 rfl, hg.deckWidth, hg.deckHeight]
  have hoffset : (card.x * 73 + ((950 : Nat) : Int) * (card.y * 99)) * 3
        + (l : Int) * ((((69 : Nat) : Int).tdiv w).toNat * (3 * w)
          + 3 * (((950 : Nat) : Int) - ((69 : Nat) : Int))) + c * (3 * w)
      = 3 * (73 * card.x + 94050 * card.y
          + l * ((((69 : Nat) : Int).tdiv w).toNat * w) + 881 * l
          + c * w) := by
    push_cast
    ring
  rw [hoffset]
  omega

/-- The back skips nothing at the end of a line. -/
theorem squeezedBack_inside (hg : g.Pixmaps) {screenX screenY : Int} :
    ∀ d ∈ squeezedBack mode0x115 g.board screenX screenY w,
      d.source.Inside := by
  intro d hd
  obtain ⟨l, hl, c, hc, rfl⟩ := mem_spriteLines.1 hd
  rw [hg.backWidth] at hc ⊢
  rw [hg.backHeight] at hl
  obtain ⟨hall0, hall, hcol0, hcol⟩ := squeezed_cols hc
  have hlines := Int.mul_le_mul_of_nonneg_left hall (Int.natCast_nonneg l)
  have hlines0 := Int.mul_nonneg (Int.natCast_nonneg l) hall0
  dsimp only [Source.Inside]
  rw [spriteStep_24 rfl, hg.backWidth, hg.backHeight]
  have hoffset : 0 + (l : Int) * ((((75 : Nat) : Int).tdiv w).toNat * (3 * w)
          + 0) + c * (3 * w)
      = 3 * (l * ((((75 : Nat) : Int).tdiv w).toNat * w) + c * w) := by
    ring
  rw [hoffset]
  omega

/-- No pixel of a turning card is read outside its image. -/
theorem squeezed_inside (hg : g.Pixmaps) (hb : b.OnDeck) (i : Fin 16)
    (front : Bool) :
    ∀ d ∈ (CardDraw.squeezed i front w).dots mode0x115 g.board b.cardArray,
      d.source.Inside := by
  intro d hd
  rcases List.mem_append.1 hd with hd | hd
  · obtain ⟨l, -, c, -, rfl⟩ := mem_greenPartOfScreen hd
    trivial
  · cases front with
    | true => exact squeezedFront_inside hg (hb i) d hd
    | false => exact squeezedBack_inside hg d hd

/-- The pixels of a turning card lie in its cell, the cell of a back. -/
theorem squeezed_offsets (hg : g.Pixmaps) (i : Fin 16) {front : Bool}
    {cards : Cards} {d : Dot}
    (h : d ∈ (CardDraw.squeezed i front w).dots mode0x115 g.board cards) :
    ∃ c < 75, ∃ l < 109,
      d.x = toUInt16 ((cellXY mode0x115 i).1 + (c : Nat))
        ∧ d.y = toUInt16 ((cellXY mode0x115 i).2 + (l : Nat)) := by
  rcases List.mem_append.1 h with h | h
  · obtain ⟨l, hl, c, hc, rfl⟩ := mem_greenPartOfScreen h
    have hl93 : l < 93 := hl
    have hc69 : c < 69 := hc
    exact ⟨c, by omega, l, by omega, rfl, rfl⟩
  · cases front with
    | true =>
        obtain ⟨l, hl, c, hc, rfl⟩ := mem_spriteLines.1 h
        rw [cardWidth_cast] at hc
        rw [cardHeight_toNat] at hl
        obtain ⟨-, -, hcol, hcol'⟩ := squeezed_cols hc
        exact ⟨c, by omega, l, by omega, rfl, rfl⟩
    | false =>
        obtain ⟨l, hl, c, hc, rfl⟩ := mem_spriteLines.1 h
        rw [hg.backWidth] at hc
        rw [hg.backHeight] at hl
        obtain ⟨-, -, hcol, hcol'⟩ := squeezed_cols hc
        exact ⟨c, by omega, l, by omega, rfl, rfl⟩

/-- A resting card lies in one of the four rows and shows its back or a
picture of the deck; a turning card is drawn in its cell. -/
def CardDraw.OnTable : CardDraw → Prop
  | .plain _ screenY positionX positionY =>
      (0 ≤ screenY ∧ screenY ≤ 413)
        ∧ ((positionX = -1 ∧ positionY = -1)
          ∨ ((0 ≤ positionX ∧ positionX ≤ 12)
            ∧ 0 ≤ positionY ∧ positionY ≤ 3))
  | .squeezed _ _ _ => True

/-- What is painted for a card of the table. -/
theorem CardDraw.OnTable.safe (hg : g.Pixmaps) (hb : b.OnDeck)
    {draw : CardDraw} (h : draw.OnTable) :
    ∀ d ∈ draw.dots mode0x115 g.board b.cardArray, d.Safe := by
  have hbackHeight := hg.backHeight
  cases draw with
  | plain screenX screenY positionX positionY =>
      obtain ⟨⟨htop, hbottom⟩, ⟨rfl, rfl⟩ | ⟨⟨hx0, hx⟩, hy0, hy⟩⟩ := h
      · dsimp only [CardDraw.dots]
        rw [vgDrawCard_back]
        exact drawPicture_safe htop (by omega)
      · intro d hd
        obtain ⟨l, hl, c, hc, rfl⟩ := (mem_vgDrawCard rfl hx0).1 hd
        have hdw := hg.deckWidth
        have hdh := hg.deckHeight
        have hcast := @toUInt16_cast (screenY + l) (by omega) (by omega)
        refine ⟨offset_inside ?_ ?_ ?_ ?_, inBuffer_of_row ?_⟩
        · omega
        · omega
        · omega
        · omega
        · show (toUInt16 (screenY + l)).toNat ≤ 598
          omega
  | squeezed i front w =>
      intro d hd
      refine ⟨squeezed_inside hg hb i front d hd, inBuffer_of_row ?_⟩
      obtain ⟨c, -, l, hl, -, hy⟩ := squeezed_offsets hg i hd
      have hi := i.isLt
      rw [hy, @cellXY_eq mode0x115 rfl rfl]
      have hcast := @toUInt16_cast (74 + 113 * ((i.val / 4 : Nat) : Int) + l)
        (by omega) (by omega)
      dsimp only
      omega

/-- Turning cards are drawn in their cells. -/
theorem flipDraws_onTable (facing : Bool) (b : Board) :
    ∀ draw ∈ flipDraws facing b, draw.OnTable := by
  intro draw hdraw
  obtain ⟨i, -, hi⟩ := List.mem_filterMap.1 hdraw
  split at hi
  · cases hi
    trivial
  · cases hi

/-- One card of the loop. -/
theorem drawCard_onTable (hb : b.OnDeck) {p : Pen} (i : Fin 16)
    (hp : 0 ≤ p.startY ∧ p.startY ≤ 413) :
    (∀ draw ∈ (drawCard p i b).draws, draw.OnTable)
      ∧ (drawCard p i b).board.OnDeck := by
  obtain ⟨hleft, hright, htop, hbottom⟩ := hb i
  unfold drawCard
  dsimp only
  split
  · split
    · exact ⟨fun draw hdraw => flipDraws_onTable _ b draw
        (List.mem_of_mem_take hdraw), hb⟩
    · refine ⟨flipDraws_onTable _ b, ?_⟩
      dsimp only
      split
      · exact hb.same (flipCards_samePictures _ _ _)
      · exact hb.same (flipCards_samePictures _ _ _)
  · split
    · refine ⟨fun draw hdraw => ?_, hb⟩
      cases List.mem_singleton.1 hdraw
      exact ⟨hp, .inr ⟨⟨hleft, hright⟩, htop, hbottom⟩⟩
    · refine ⟨fun draw hdraw => ?_, hb⟩
      cases List.mem_singleton.1 hdraw
      exact ⟨hp, .inl ⟨rfl, rfl⟩⟩

/-- The loop over the cards, with the offsets in the four rows. -/
theorem drawCards_onTable {is : List (Fin 16)} {p : Pen} (hb : b.OnDeck)
    (hpen : ∀ k < is.length,
      0 ≤ ((Pen.advance mode0x115)^[k] p).startY
        ∧ ((Pen.advance mode0x115)^[k] p).startY ≤ 413) :
    ∀ draw ∈ (drawCards mode0x115 is p b).draws, draw.OnTable := by
  induction is generalizing p b with
  | nil =>
      intro draw hdraw
      cases hdraw
  | cons i is ih =>
      obtain ⟨hfirst, hboard⟩ :=
        drawCard_onTable hb i (hpen 0 (Nat.succ_pos _))
      have hrest := ih hboard (p := p.advance mode0x115) fun k hk => by
        have hnext := hpen (k + 1) (Nat.succ_lt_succ hk)
        rwa [Function.iterate_succ_apply] at hnext
      unfold drawCards
      dsimp only
      split
      · exact hfirst
      · split
        · exact hfirst
        · intro draw hdraw
          rcases List.mem_append.1 hdraw with hdraw | hdraw
          · exact hfirst draw hdraw
          · exact hrest draw hdraw

/-- The rows of the offsets. -/
theorem pen_rows : ∀ k < 16,
    0 ≤ ((Pen.advance mode0x115)^[k] (Pen.home mode0x115)).startY
      ∧ ((Pen.advance mode0x115)^[k] (Pen.home mode0x115)).startY
        ≤ 413 := by
  decide

/-- `draw_game_cards`, on any board of the deck. -/
theorem paintGameCards_safe (hg : g.Pixmaps) (hb : b.OnDeck) :
    ∀ d ∈ paintGameCards mode0x115 g.board b, d.Safe := by
  have hheight := hg.backgroundHeight
  intro d hd
  rcases List.mem_append.1 hd with hd | hd
  · exact drawPicture_safe (by omega) (by omega) d hd
  · obtain ⟨draw, hdraw, hd⟩ := List.mem_flatMap.1 hd
    refine CardDraw.OnTable.safe hg hb ?_ d hd
    exact drawCards_onTable hb
      (fun k hk => pen_rows k (by simpa using hk)) draw hdraw

-- =========================================================== the scenes

theorem drawCentered_safe (hg : g.Pixmaps) {startY : Int}
    (h0 : 0 ≤ startY) (h : startY + 30 ≤ 599) (word : List Letter) :
    ∀ d ∈ drawCentered mode0x115 g startY word, d.Safe := by
  intro d hd
  obtain ⟨p, -, hd⟩ := List.mem_flatMap.1 hd
  have hheight := hg.letterHeight p.1
  exact drawPicture_safe h0 (by omega) d hd

/-- A title and the lines of a menu. -/
theorem drawTitled_safe (hg : g.Pixmaps) (word : List Letter) :
    ∀ d ∈ drawPicture mode0x115 g.gameName 268 50
        ++ drawCentered mode0x115 g 300 word ++ drawChoices mode0x115 g,
      d.Safe := by
  have hheight := hg.gameNameHeight
  intro d hd
  rcases List.mem_append.1 hd with hd | hd
  · rcases List.mem_append.1 hd with hd | hd
    · exact drawPicture_safe (by omega) (by omega) d hd
    · exact drawCentered_safe hg (by omega) (by omega) _ d hd
  · rcases List.mem_append.1 hd with hd | hd
    · exact drawCentered_safe hg (by omega) (by omega) _ d hd
    · exact drawCentered_safe hg (by omega) (by omega) _ d hd

theorem drawHearts_safe (hg : g.Pixmaps) (p1 : Player) :
    ∀ d ∈ drawHearts mode0x115 g p1, d.Safe := by
  have hheight := hg.heartHeight
  intro d hd
  obtain ⟨i, -, hd⟩ := List.mem_flatMap.1 hd
  exact drawPicture_safe (by omega) (by omega) d hd

/-- A picture in the middle that leaves a line below. -/
theorem drawInMiddle_safe {s : Sprite} (h : s.height ≤ 596) :
    ∀ d ∈ drawInMiddle mode0x115 s, d.Safe := by
  have hmiddle : ((mode0x115.yResolution / 2 : Nat) : Int) = 300 := rfl
  apply drawPicture_safe
  · rw [hmiddle]
    omega
  · rw [hmiddle]
    omega

/-- Every scene but the cursor. -/
theorem scene_safe (hg : g.Pixmaps) {t : State} (hb : t.board.OnDeck)
    (hour : UInt32) : ∀ d ∈ scene mode0x115 g hour t, d.Safe := by
  have hsun := hg.sunHeight
  have hmoon := hg.moonHeight
  have hinstructions := hg.instructionsHeight
  have hgameOver := hg.gameOverHeight
  have hvictory := hg.victoryHeight
  intro d hd
  unfold scene at hd
  split at hd
  · -- the menu
    rcases List.mem_append.1 hd with hd | hd
    · rcases List.mem_append.1 hd with hd | hd
      · exact greenScreen_safe d hd
      · split at hd
        · exact drawPicture_safe (by omega) (by omega) d hd
        · exact drawPicture_safe (by omega) (by omega) d hd
    · exact drawTitled_safe hg _ d hd
  · -- the game
    rcases List.mem_append.1 hd with hd | hd
    · split at hd
      · refine paintGameCards_safe hg ?_ d hd
        split
        · exact hb.same (previewStart_samePictures t)
        · exact hb
      · cases hd
    · exact drawHearts_safe hg t.p1 d hd
  · -- the pause
    rcases List.mem_append.1 hd with hd | hd
    · exact greenScreen_safe d hd
    · exact drawTitled_safe hg _ d hd
  · -- the instructions
    rcases List.mem_append.1 hd with hd | hd
    · exact greenScreen_safe d hd
    · exact drawPicture_safe (by omega) (by omega) d hd
  · -- the end
    rcases List.mem_append.1 hd with hd | hd
    · exact greenScreen_safe d hd
    · split at hd
      · exact drawInMiddle_safe (by omega) d hd
      · split at hd
        · exact drawInMiddle_safe (by omega) d hd
        · cases hd
  · cases hd
  · cases hd

-- =========================================================== the cursor

/-- The cursor's picture reaches line 600, or column 800 of line 599. -/
def Mouse.Overhangs (q : Mouse) : Prop :=
  (q.y ≤ 600 ∧ 600 < q.y + 42)
    ∨ ((q.y ≤ 599 ∧ 599 < q.y + 42) ∧ 800 < q.x + 50)

/-- The cursor is drawn into the buffer unless it lies across the lower
edge. -/
theorem paintMouse_inBuffer_iff (hg : g.Loaded) {q : Mouse}
    (hq : q.Bounded) :
    (∀ d ∈ paintMouse mode0x115 g q, d.InBuffer mode0x115)
      ↔ ¬q.Overhangs := by
  have hsize : mode0x115.vramSize = 1440000 := rfl
  obtain ⟨hleft, hright, htop, hbottom⟩ := hq
  constructor
  · intro h hover
    -- the first pixel that does not fit
    obtain ⟨l, c, hl, hc, hx, hy, hout⟩ : ∃ l c : Nat, l < 42 ∧ c < 50
        ∧ q.x + c ≤ 800 ∧ q.y + l ≤ 600
        ∧ 480000 ≤ 800 * (q.y + l) + (q.x + c) := by
      rcases hover with ⟨hon, hbelow⟩ | ⟨⟨hon, hbelow⟩, hright'⟩
      · exact ⟨(600 - q.y).toNat, 0, by omega, by omega, by omega, by omega,
          by omega⟩
      · exact ⟨(599 - q.y).toNat, (800 - q.x).toNat, by omega, by omega,
          by omega, by omega, by omega⟩
    have hmem : _ ∈ paintMouse mode0x115 g q := (mem_drawPicture rfl).2
      ⟨l, by rw [hg.mouseHeight]; exact hl, c,
        by rw [hg.mouseWidth]; exact hc, rfl⟩
    have hcx := @toUInt16_cast (q.x + c) (by omega) (by omega)
    have hcy := @toUInt16_cast (q.y + l) (by omega) (by omega)
    have hfits := h _ hmem _ (pixelRange_screen (by dsimp only; omega)
      (by dsimp only; omega))
    dsimp only at hfits
    omega
  · intro hover d hd r hr
    obtain ⟨l, hl, c, hc, rfl⟩ := mem_spriteLines.1 hd
    rw [hg.mouseWidth] at hc
    rw [hg.mouseHeight] at hl
    have hcx := @toUInt16_cast (q.x + c) (by omega) (by omega)
    have hcy := @toUInt16_cast (q.y + l) (by omega) (by omega)
    obtain ⟨hx, hy, rfl⟩ := pixelRange_screen_inv hr
    unfold Mouse.Overhangs at hover
    dsimp only at *
    omega

end

-- ============================================================= the runs

/-- In every run, whatever a tick draws, no read leaves its image and no
write of the scene leaves the buffer; the cursor's stay inside if and
only if it does not lie across the lower edge of the screen. -/
theorem drawn_inside {g : GameSprites} (hg : g.Pixmaps) {s t : State}
    {n : Notification} (h : Reach anyStep s)
    (ht : TickState mode0x115 s n t) (hour : UInt32) :
    (∀ d ∈ scene mode0x115 g hour t ++ paintMouse mode0x115 g t.mouse,
        d.source.Inside)
      ∧ (∀ d ∈ scene mode0x115 g hour t, d.InBuffer mode0x115)
      ∧ ((∀ d ∈ paintMouse mode0x115 g t.mouse, d.InBuffer mode0x115)
        ↔ ¬t.mouse.Overhangs) := by
  have hdeck : t.board.OnDeck := by
    rw [ht.frame.1.board]
    exact reach_onDeck h
  have hscene := scene_safe hg hdeck hour
  refine ⟨fun d hd => ?_, fun d hd => (hscene d hd).writes,
    paintMouse_inBuffer_iff hg.toLoaded ((bounded_reach h).tickState ht).mouse⟩
  rcases List.mem_append.1 hd with hd | hd
  · exact (hscene d hd).reads
  · exact drawPicture_inside d hd

theorem blankGameSprites_pixmaps : blankGameSprites.Pixmaps where
  toLoaded := blankGameSprites_loaded
  deckWidth := rfl
  deckHeight := rfl
  backWidth := rfl
  backHeight := rfl
  heartHeight := rfl
  gameNameHeight := rfl
  sunHeight := rfl
  moonHeight := rfl
  instructionsHeight := rfl
  gameOverHeight := rfl
  victoryHeight := rfl
  letterHeight := by
    intro which
    cases which <;> rfl

/-- Packets that pull the cursor down, one byte at a time: it comes to
lie across the lower edge. -/
def pulledDown : Script noTest fun s => decide (s.mouse = ⟨0, 576⟩) where
  notifications := [0x28, 0, 0x80, 0x28, 0, 0x80, 0x28, 0, 0x80, 0x28, 0].map
    mouseByte
  shows := by decide +kernel

/-- The tick after it draws the cursor out of the buffer, and nothing
else. -/
theorem drawn_inside_overhang : ∃ s t, Reach anyStep s
    ∧ TickState mode0x115 s tick t ∧ t.mouse = ⟨0, 576⟩
    ∧ (∀ d ∈ scene mode0x115 blankGameSprites 12 t, d.InBuffer mode0x115)
    ∧ ¬∀ d ∈ paintMouse mode0x115 blankGameSprites t.mouse,
      d.InBuffer mode0x115 := by
  obtain ⟨s, hs, hP⟩ := pulledDown.reach noTest_anyStep
  have hmouse : s.mouse = ⟨0, 576⟩ := of_decide_eq_true hP
  obtain ⟨-, hscene, hcursor⟩ := drawn_inside blankGameSprites_pixmaps hs
    (tickState_tick s) 12
  refine ⟨s, _, hs, tickState_tick s, hmouse, hscene, fun hall => ?_⟩
  apply hcursor.1 hall
  show s.mouse.Overhangs
  rw [hmouse]
  unfold Mouse.Overhangs
  decide

end Lcom.Proj
