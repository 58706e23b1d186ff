/-
What a picture shows.

The loop that all pictures go through reads the sprite at an offset that
is linear in line and column (`spriteLines_eq`). A picture shows at a
pixel what the last call of `my_draw_pixel` there was given (`shown`);
on the screen, in a mode whose size needs no more than 32 bits, that is
what the buffer holds afterwards, and pixels that were not drawn keep
what they held (`paint_holds`, `paint_keeps`).
-/
import Lcom.Machine.Overlay
import Lcom.Proj.Proofs.Pixels
import Lcom.Proj.Sprites

namespace Lcom.Proj

open Machine

-- ================================================================ loops

/-- The inner loop, with its pointer in closed form. -/
theorem spriteLine_eq (s : Sprite) (advance line : Int) (n : Nat)
    (col pointer : Int) :
    spriteLine s advance line n col pointer
      = ((List.range n).map fun c : Nat =>
          ⟨toUInt16 (col + c), toUInt16 line,
            .sprite s (pointer + c * advance)⟩,
        pointer + n * advance) := by
  induction n generalizing col pointer with
  | zero => simp [spriteLine]
  | succ n ih =>
      rw [spriteLine, ih, List.range_succ_eq_map]
      have hcol : ∀ c : Nat, col + 1 + c = col + ((c + 1 : Nat) : Int) := by
        intro c
        omega
      have hpointer : ∀ c : Nat, pointer + advance + c * advance
          = pointer + ((c + 1 : Nat) : Int) * advance := by
        intro c
        push_cast
        ring
      simp [hcol, hpointer]

/-- Both loops. -/
theorem spriteLines_eq (s : Sprite) (advance skip : Int) (cols : Nat)
    (col : Int) (n : Nat) (line pointer : Int) :
    spriteLines s advance skip cols col n line pointer
      = (List.range n).flatMap fun l : Nat =>
        (List.range cols).map fun c : Nat =>
          ⟨toUInt16 (col + c), toUInt16 (line + l),
            .sprite s (pointer + l * (cols * advance + skip)
              + c * advance)⟩ := by
  induction n generalizing line pointer with
  | zero => rfl
  | succ n ih =>
      rw [spriteLines, spriteLine_eq, ih, List.range_succ_eq_map,
        List.flatMap_cons, List.flatMap_map]
      have hline : ∀ l : Nat, line + 1 + l
          = line + ((l + 1 : Nat) : Int) := by
        intro l
        omega
      have hpointer : ∀ l : Nat, pointer + cols * advance + skip
            + l * (cols * advance + skip)
          = pointer + ((l + 1 : Nat) : Int) * (cols * advance + skip) := by
        intro l
        push_cast
        ring
      simp [hline, hpointer]

theorem mem_spriteLines {s : Sprite} {advance skip : Int} {cols : Nat}
    {col : Int} {n : Nat} {line pointer : Int} {d : Dot} :
    d ∈ spriteLines s advance skip cols col n line pointer
      ↔ ∃ l < n, ∃ c < cols, d = ⟨toUInt16 (col + c), toUInt16 (line + l),
        .sprite s (pointer + l * (cols * advance + skip)
          + c * advance)⟩ := by
  rw [spriteLines_eq]
  simp [eq_comm]

theorem spriteStep_24 {m : ModeInfo} (h : m.bitsPerPixel = 24) :
    m.spriteStep = 3 := by
  unfold ModeInfo.spriteStep
  rw [h]
  rfl

theorem cardWidth_cast : cardWidth = ((69 : Nat) : Int) := rfl

theorem cardHeight_toNat : cardHeight.toNat = 93 := rfl

/-- Where pixel `(px, py)` of a sprite starts; `XPM_8_8_8` has three
bytes a pixel. -/
def Sprite.offset (s : Sprite) (px py : Int) : Int :=
  3 * (px + s.width * py)

/-- A plain picture, pixel by pixel. -/
theorem mem_drawPicture {m : ModeInfo} (h24 : m.bitsPerPixel = 24)
    {s : Sprite} {screenX screenY : Int} {d : Dot} :
    d ∈ drawPicture m s screenX screenY
      ↔ ∃ l < s.height, ∃ c < s.width,
        d = ⟨toUInt16 (screenX + c), toUInt16 (screenY + l),
          .sprite s (s.offset c l)⟩ := by
  unfold drawPicture
  rw [spriteStep_24 h24, mem_spriteLines]
  have hoffset : ∀ c l : Nat, 0 + (l : Int) * (s.width * 3 + 0) + c * 3
      = s.offset c l := by
    intro c l
    unfold Sprite.offset
    ring
  simp only [hoffset]

theorem vgDrawCard_back (m : ModeInfo) (a : BoardSprites)
    (screenX screenY : Int) :
    vgDrawCard m a screenX screenY (-1) (-1)
      = drawPicture m a.cardBack screenX screenY :=
  if_pos ⟨rfl, rfl⟩

/-- A card of the deck, pixel by pixel. -/
theorem mem_vgDrawCard {m : ModeInfo} (h24 : m.bitsPerPixel = 24)
    {a : BoardSprites} {screenX screenY positionX positionY : Int}
    (hx : 0 ≤ positionX) {d : Dot} :
    d ∈ vgDrawCard m a screenX screenY positionX positionY
      ↔ ∃ l < 93, ∃ c < 69,
        d = ⟨toUInt16 (screenX + (c : Nat)), toUInt16 (screenY + (l : Nat)),
          .sprite a.deck
            (a.deck.offset (73 * positionX + c) (99 * positionY + l))⟩ := by
  unfold vgDrawCard deckStart
  rw [if_neg (by omega), spriteStep_24 h24, mem_spriteLines,
    cardHeight_toNat]
  have hoffset : ∀ c l : Nat,
      (positionX * 73 + a.deck.width * (positionY * 99)) * 3
          + (l : Int) * (cardWidth.toNat * 3
            + 3 * (a.deck.width - cardWidth)) + c * 3
        = a.deck.offset (73 * positionX + c) (99 * positionY + l) := by
    intro c l
    rw [cardWidth_cast, Int.toNat_natCast]
    unfold Sprite.offset
    push_cast
    ring
  simp only [hoffset]
  rfl

-- ============================================================ what shows

/-- What the last call at a pixel was given. -/
def shown (ds : List Dot) : UInt16 × UInt16 → Option Source :=
  overlay (fun _ => none) (ds.map fun d p =>
    if p = (d.x, d.y) then some (some d.source) else none)

section

variable {ds ds' : List Dot} {p : UInt16 × UInt16} {source : Source}

/-- The later calls at a pixel decide, if there are any; if they have one
source, it shows. -/
theorem shown_append (hex : ∃ d ∈ ds', (d.x, d.y) = p)
    (h : ∀ d ∈ ds', (d.x, d.y) = p → d.source = source) :
    shown (ds ++ ds') p = some source := by
  unfold shown
  rw [List.map_append, overlay_append]
  refine overlay_puts ?_ ?_
  · intro w hw u hu
    obtain ⟨d, hd, rfl⟩ := List.mem_map.1 hw
    dsimp only at hu
    split at hu
    · next hp =>
        cases hu
        rw [h d hd hp.symm]
    · cases hu
  · obtain ⟨d, hd, hp⟩ := hex
    refine ⟨_, List.mem_map.2 ⟨d, hd, rfl⟩, ?_⟩
    simp [hp]

end

/-- Coordinates less than 2^16 apart stay apart. -/
theorem toUInt16_inj {z : Int} {c c' : Nat} (hc : c < 2 ^ 16)
    (hc' : c' < 2 ^ 16) (h : toUInt16 (z + c) = toUInt16 (z + c')) :
    c = c' := by
  have hnat := congrArg UInt16.toNat h
  unfold toUInt16 at hnat
  rw [UInt16.toNat_ofNat_of_lt' (by show _ < 2 ^ 16; omega),
    UInt16.toNat_ofNat_of_lt' (by show _ < 2 ^ 16; omega)] at hnat
  omega

/-- A picture shows at line `l` and column `c` what the loop read
there, whatever was drawn before. -/
theorem spriteLines_shown (ds : List Dot) {s : Sprite} {advance skip : Int}
    {cols : Nat} {col : Int} {n : Nat} {line pointer : Int}
    (hcols : cols ≤ 2 ^ 16) (hn : n ≤ 2 ^ 16) {c l : Nat} (hc : c < cols)
    (hl : l < n) :
    shown (ds ++ spriteLines s advance skip cols col n line pointer)
        (toUInt16 (col + c), toUInt16 (line + l))
      = some (.sprite s (pointer + l * (cols * advance + skip)
        + c * advance)) := by
  refine shown_append ⟨_, mem_spriteLines.2 ⟨l, hl, c, hc, rfl⟩, rfl⟩ ?_
  intro d hd hp
  obtain ⟨l', hl', c', hc', rfl⟩ := mem_spriteLines.1 hd
  obtain ⟨hx, hy⟩ := Prod.mk.inj hp
  rw [toUInt16_inj (by omega) (by omega) hx,
    toUInt16_inj (by omega) (by omega) hy]

/-- A coordinate of 16 bits is passed on as it is. -/
theorem toUInt16_cast {z : Int} (h0 : 0 ≤ z) (h : z < 2 ^ 16) :
    ((toUInt16 z).toNat : Int) = z := by
  unfold toUInt16
  rw [UInt16.toNat_ofNat_of_lt' (by show _ < 2 ^ 16; omega)]
  omega

theorem toUInt16_natCast {n : Nat} (h : n < 2 ^ 16) :
    (toUInt16 n).toNat = n := by
  have hcast := @toUInt16_cast n (by omega) (by omega)
  omega

-- ============================================================ the buffer

/-- A call as a write to the buffer. -/
def Dot.write (m : ModeInfo) (junk : UInt8) (d : Dot) (a : Nat) :
    Option UInt8 :=
  match pixelRange m d.x.toNat d.y.toNat with
  | none => none
  | some r =>
      if r.start ≤ a ∧ a < r.start + r.len then
        some (colorByte (d.source.color junk) r a)
      else none

theorem paint_eq_overlay (m : ModeInfo) (junk : UInt8) (buf : Buffer)
    (ds : List Dot) :
    paint m junk buf ds = overlay buf (ds.map (Dot.write m junk)) := by
  unfold paint overlay
  rw [List.foldl_map]
  congr 1
  funext buf d a
  unfold myDrawPixel drawPixel Dot.write
  cases pixelRange m d.x.toNat d.y.toNat with
  | none => rfl
  | some r =>
      dsimp only
      unfold memcpyColor colorByte
      split <;> rfl

theorem Dot.write_eq_some {m : ModeInfo} {junk : UInt8} {d : Dot} {a : Nat}
    {v : UInt8} : d.write m junk a = some v ↔ ∃ r,
      pixelRange m d.x.toNat d.y.toNat = some r ∧ a ∈ r.bytes
        ∧ colorByte (d.source.color junk) r a = v := by
  unfold Dot.write
  cases pixelRange m d.x.toNat d.y.toNat with
  | none => simp
  | some r => simp [ByteRange.bytes, and_assoc]

/-- The call is for a pixel of the screen. -/
def Dot.OnScreen (m : ModeInfo) (d : Dot) : Prop :=
  d.x.toNat < m.xResolution ∧ d.y.toNat < m.yResolution

section

variable {m : ModeInfo} {junk : UInt8} {buf : Buffer} {ds : List Dot}
  {x y : Nat}

/-- A pixel of the screen whose calls all have one source holds its
colour. -/
theorem paint_holds
    (hsize : m.xResolution * m.yResolution * m.bytesPerPixel ≤ 2 ^ 32)
    (hon : ∀ d ∈ ds, d.OnScreen m) {source : Source}
    (hex : ∃ d ∈ ds, d.x.toNat = x ∧ d.y.toNat = y)
    (h : ∀ d ∈ ds, d.x.toNat = x → d.y.toNat = y → d.source = source) :
    HoldsColor m (paint m junk buf ds) x y (source.color junk) := by
  obtain ⟨d, hd, rfl, rfl⟩ := hex
  obtain ⟨hx, hy⟩ := hon d hd
  obtain ⟨r, hr⟩ : ∃ r, pixelRange m d.x.toNat d.y.toNat = some r :=
    ⟨_, pixelRange_eq hx.le hy.le⟩
  refine ⟨r, hr, fun a ha => ?_⟩
  rw [paint_eq_overlay]
  refine overlay_puts ?_ ?_
  · intro w hw u hu
    obtain ⟨d', hd', rfl⟩ := List.mem_map.1 hw
    obtain ⟨r', hr', ha', rfl⟩ := Dot.write_eq_some.1 hu
    obtain ⟨hx', hy'⟩ := hon d' hd'
    obtain ⟨hxx, hyy⟩ :=
      eq_of_shared_byte hsize hx' hy' hx hy hr' hr ha' ha
    rw [h d' hd' hxx hyy]
    rw [hxx, hyy, hr] at hr'
    cases hr'
    rfl
  · refine ⟨_, List.mem_map.2 ⟨d, hd, rfl⟩, ?_⟩
    rw [Dot.write_eq_some.2 ⟨r, hr, ha, rfl⟩]
    exact Option.some_ne_none _

/-- A pixel of the screen that no call is for keeps its colour. -/
theorem paint_keeps
    (hsize : m.xResolution * m.yResolution * m.bytesPerPixel ≤ 2 ^ 32)
    (hon : ∀ d ∈ ds, d.OnScreen m) (hx : x < m.xResolution)
    (hy : y < m.yResolution)
    (hno : ∀ d ∈ ds, ¬(d.x.toNat = x ∧ d.y.toNat = y)) {color : UInt32}
    (h : HoldsColor m buf x y color) :
    HoldsColor m (paint m junk buf ds) x y color := by
  obtain ⟨r, hr, hcolor⟩ := h
  refine ⟨r, hr, fun a ha => ?_⟩
  rw [paint_eq_overlay, overlay_keeps, hcolor a ha]
  intro w hw
  obtain ⟨d, hd, rfl⟩ := List.mem_map.1 hw
  obtain ⟨hx', hy'⟩ := hon d hd
  rw [Option.eq_none_iff_forall_ne_some]
  intro v hv
  obtain ⟨r', hr', ha', -⟩ := Dot.write_eq_some.1 hv
  exact hno d hd (eq_of_shared_byte hsize hx' hy' hx hy hr' hr ha' ha)

theorem paint_append (ds' : List Dot) :
    paint m junk buf (ds ++ ds')
      = paint m junk (paint m junk buf ds) ds' :=
  List.foldl_append

end

end Lcom.Proj
