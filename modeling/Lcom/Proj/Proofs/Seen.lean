/-
What the player sees of the board, in any run.

A card that is not turning when a tick draws the board is drawn in its
cell as it lies, whatever the other cards do: a turning card is painted
inside its own cell, and the flip calls of a frame change turning cards
only (`drawCards_around`). The hearts are above the cells. So in the
frame of that tick every such card shows wherever the cursor is not over
it (`cards_seen`). A card that lands in the frame was turning when it was
drawn: the frame shows it squeezed, and only the next one as it lies.
-/
import Lcom.Proj.Proofs.Memory

namespace Lcom.Proj

open Machine

-- ============================================================ the frame

/-- What a frame draws while card `i` lies as in `b`: cards at rest in
their cells, `i` as it is, and other cards turning in theirs. -/
inductive Around (b : Board) (i : Fin 16) : CardDraw → Prop
  | rest {b' : Board} (j : Fin 16) (hb : b'.OnDeck)
      (hsame : j = i → b'.card j = b.card i) :
      Around b i (restingAt (cellXY mode0x115 j).1 (cellXY mode0x115 j).2
        (b'.card j))
  | turning (j : Fin 16) (front : Bool) (w : Int) (hne : j ≠ i) :
      Around b i (.squeezed j front w)

/-- The offsets meet the cells of the cards that follow. -/
def Pen.Meets (p : Pen) (is : List (Fin 16)) : Prop :=
  ∀ k (hk : k < is.length),
    ((Pen.advance mode0x115)^[k] p).startX = (cellXY mode0x115 is[k]).1
      ∧ ((Pen.advance mode0x115)^[k] p).startY = (cellXY mode0x115 is[k]).2

theorem Pen.Meets.head {p : Pen} {j : Fin 16} {is : List (Fin 16)}
    (h : p.Meets (j :: is)) :
    p.startX = (cellXY mode0x115 j).1 ∧ p.startY = (cellXY mode0x115 j).2 :=
  h 0 (Nat.succ_pos _)

theorem Pen.Meets.tail {p : Pen} {j : Fin 16} {is : List (Fin 16)}
    (h : p.Meets (j :: is)) : (p.advance mode0x115).Meets is := by
  intro k hk
  have hnext := h (k + 1) (Nat.succ_lt_succ hk)
  rwa [Function.iterate_succ_apply] at hnext

/-- The offsets of the sixteen cards are the corners of their cells. -/
theorem Pen.home_meets : (Pen.home mode0x115).Meets (List.finRange 16) := by
  intro k hk
  have hk16 : k < 16 := by simpa using hk
  simpa using pen_cellXY ⟨k, hk16⟩

section

variable {b b' : Board} {i : Fin 16}

/-- A flip call leaves a card that is not turning alone. -/
theorem flipCards_still {facing : Bool} {stop : Int}
    (h : (b.card i).isFlipping = false) :
    (flipCards facing stop b).1.card i = b.card i := by
  by_cases hstop : b.turned facing = stop
  · rw [flipCards_done_card hstop, if_neg (by simp [h])]
  · rw [flipCards_going hstop]
    rfl

/-- A flip call draws turning cards. -/
theorem flipDraws_around (h : (b'.card i).isFlipping = false)
    (facing : Bool) : ∀ draw ∈ flipDraws facing b', Around b i draw := by
  intro draw hdraw
  obtain ⟨j, -, hj⟩ := List.mem_filterMap.1 hdraw
  split at hj
  · next hturn =>
      cases hj
      refine .turning j _ _ ?_
      rintro rfl
      rw [h] at hturn
      cases hturn
  · cases hj

/-- One card of the loop. -/
theorem drawCard_around {p : Pen} {j : Fin 16} (hb : b'.OnDeck)
    (hcard : b'.card i = b.card i) (hrest : (b.card i).isFlipping = false)
    (hp : p.startX = (cellXY mode0x115 j).1
      ∧ p.startY = (cellXY mode0x115 j).2) :
    (∀ draw ∈ (drawCard p j b').draws, Around b i draw)
      ∧ (drawCard p j b').board.OnDeck
      ∧ (drawCard p j b').board.card i = b.card i := by
  have hstill : (b'.card i).isFlipping = false := by rw [hcard, hrest]
  refine ⟨?_, (drawCard_onTable hb j (by
    have hj := j.isLt
    rw [hp.2, @cellXY_eq mode0x115 rfl rfl]
    dsimp only
    omega)).2, ?_⟩
  · cases hturn : (b'.card j).isFlipping with
    | true =>
        unfold drawCard
        dsimp only
        rw [if_pos hturn]
        split
        · exact fun draw hdraw =>
            flipDraws_around hstill _ draw (List.mem_of_mem_take hdraw)
        · exact flipDraws_around hstill _
    | false =>
        rw [drawCard_still p hturn]
        intro draw hdraw
        cases List.mem_singleton.1 hdraw
        rw [hp.1, hp.2]
        refine .rest j hb ?_
        rintro rfl
        exact hcard
  · unfold drawCard
    dsimp only
    split
    · split
      · exact hcard
      · dsimp only
        split
        · exact (flipCards_still hstill).trans hcard
        · exact (flipCards_still hstill).trans hcard
    · split
      · exact hcard
      · exact hcard

/-- The loop, with the offsets at the cells. -/
theorem drawCards_around {is : List (Fin 16)} {p : Pen} (hb : b'.OnDeck)
    (hcard : b'.card i = b.card i) (hrest : (b.card i).isFlipping = false)
    (hpen : p.Meets is) :
    ∀ draw ∈ (drawCards mode0x115 is p b').draws, Around b i draw := by
  induction is generalizing p b' with
  | nil =>
      intro draw hdraw
      cases hdraw
  | cons j is ih =>
      obtain ⟨hfirst, hdeck, hkept⟩ :=
        drawCard_around hb hcard hrest hpen.head
      have hrest' := ih hdeck hkept hpen.tail
      unfold drawCards
      dsimp only
      split
      · exact hfirst
      · split
        · exact hfirst
        · intro draw hdraw
          rcases List.mem_append.1 hdraw with hdraw | hdraw
          · exact hfirst draw hdraw
          · exact hrest' draw hdraw

/-- If the process survives the frame, card `i` is drawn. -/
theorem drawCards_draws {is : List (Fin 16)} {p : Pen} (hb : b'.OnDeck)
    (hcard : b'.card i = b.card i) (hrest : (b.card i).isFlipping = false)
    (hpen : p.Meets is)
    (hon : ∀ k, 1 ≤ k → k < is.length →
      ((Pen.advance mode0x115)^[k] p).offScreen mode0x115 = false)
    (halive : (drawCards mode0x115 is p b').trapped = false) (hi : i ∈ is) :
    restingAt (cellXY mode0x115 i).1 (cellXY mode0x115 i).2 (b.card i)
      ∈ (drawCards mode0x115 is p b').draws := by
  induction is generalizing p b' with
  | nil => cases hi
  | cons j is ih =>
      obtain ⟨-, hdeck, hkept⟩ :=
        drawCard_around hb hcard hrest hpen.head
      have hcorner := hpen.head
      unfold drawCards at halive ⊢
      dsimp only at halive ⊢
      by_cases hij : i = j
      · -- drawn first, whatever follows
        subst hij
        have hstill : (b'.card i).isFlipping = false := by rw [hcard, hrest]
        have hmem : restingAt (cellXY mode0x115 i).1 (cellXY mode0x115 i).2
            (b.card i) ∈ (drawCard p i b').draws := by
          rw [drawCard_still p hstill, hcard]
          rw [← hcorner.1, ← hcorner.2]
          exact List.mem_singleton_self _
        split
        · exact hmem
        · split
          · exact hmem
          · exact List.mem_append_left _ hmem
      · have hi' : i ∈ is := (List.mem_cons.1 hi).resolve_left hij
        have hlen := List.length_pos_of_mem hi'
        have hon' : (p.advance mode0x115).offScreen mode0x115 = false :=
          hon 1 (Nat.le_refl 1) (Nat.succ_lt_succ hlen)
        split at halive
        · next htrap => rw [htrap] at halive; cases halive
        · next htrap =>
            rw [hon', if_neg (by decide)] at halive
            rw [if_neg htrap, hon', if_neg (by decide)]
            refine List.mem_append_right _
              (ih hdeck hkept hpen.tail (fun k hk hlt => ?_) halive hi')
            have hnext := hon (k + 1) (by omega) (Nat.succ_lt_succ hlt)
            rwa [Function.iterate_succ_apply] at hnext

end

-- ============================================================= the cells

section

variable {g : GameSprites} {b : Board} {i j : Fin 16} {junk : UInt8}
  {buf : Buffer}

/-- The sprites of the board, with a background of the size the drawing
of a board alone is meant for. -/
def GameSprites.meant (g : GameSprites) : BoardSprites :=
  { g.board with background := blankSprite 800 600 }

theorem GameSprites.Pixmaps.meant (hg : g.Pixmaps) : g.meant.Meant :=
  ⟨rfl, rfl, hg.deckWidth, hg.deckHeight, hg.backWidth, hg.backHeight⟩

/-- A pixel painted inside cell `j`, and for cell `i` the right one. -/
def InCells (g : GameSprites) (b : Board) (i : Fin 16) (d : Dot) : Prop :=
  ∃ j c l, c < 75 ∧ l < 109 ∧ (d.x.toNat, d.y.toNat) = cellPixel j c l
    ∧ (j = i → d.source = (b.card i).restingSource g.meant c l)

/-- A resting card is painted the same whatever the other cards are. -/
theorem restingAt_dots (x y : Int) (card : Card) (cards cards' : Cards) :
    (restingAt x y card).dots mode0x115 g.board cards
      = (restingAt x y card).dots mode0x115 g.meant cards' := by
  unfold restingAt
  split <;> rfl

/-- All of a frame is painted inside the cells, and cell `i` shows the
card. -/
theorem Around.inCells (hg : g.Pixmaps) {draw : CardDraw}
    (h : Around b i draw) (cards : Cards) :
    ∀ d ∈ draw.dots mode0x115 g.board cards, InCells g b i d := by
  cases h with
  | @rest b' j hb hsame =>
      intro d hd
      rw [restingAt_dots _ _ _ _ b'.cardArray] at hd
      obtain ⟨c, hc, l, hl, hpixel, hsource⟩ :=
        restingDots_pixel hg.meant (hb j).left hd
      obtain ⟨hw, hh⟩ := (b'.card j).restingSize_le
      refine ⟨j, c, l, by omega, by omega, hpixel, fun h => ?_⟩
      rw [hsource, hsame h]
  | turning j front w hne =>
      intro d hd
      obtain ⟨c, hc, l, hl, hx, hy⟩ := squeezed_offsets hg j hd
      obtain ⟨hcx, hcy⟩ := @cellPixel_cast j c l hc hl
      rw [← hx] at hcx
      rw [← hy] at hcy
      exact ⟨j, c, l, hc, hl, Prod.ext hcx hcy, fun h => absurd h hne⟩

/-- After the frame every pixel of card `i` shows it. -/
theorem frame_shows (hg : g.Pixmaps) (hb : b.OnDeck)
    (hrest : (b.card i).isFlipping = false)
    (halive : (drawGameCards mode0x115 b).trapped = false) {c l : Nat}
    (hc : c < (b.card i).restingSize.1) (hl : l < (b.card i).restingSize.2) :
    HoldsColor mode0x115
      (paint mode0x115 junk buf (paintGameCards mode0x115 g.board b))
      (cellPixel i c l).1 (cellPixel i c l).2
      (((b.card i).restingSource g.meant c l).color junk) := by
  obtain ⟨hw, hh⟩ := (b.card i).restingSize_le
  have hcells : ∀ d ∈ (drawGameCards mode0x115 b).draws.flatMap
      (CardDraw.dots mode0x115 g.board b.cardArray), InCells g b i d := by
    intro d hd
    obtain ⟨draw, hdraw, hd⟩ := List.mem_flatMap.1 hd
    exact (drawCards_around hb rfl hrest Pen.home_meets draw hdraw).inCells
      hg _ d hd
  unfold paintGameCards
  rw [paint_append]
  refine paint_holds (by decide) (fun d hd => ?_) ?_ fun d hd hx hy => ?_
  · obtain ⟨j, c', l', hc', hl', hpixel, -⟩ := hcells d hd
    obtain ⟨hon, hon'⟩ := @cellPixel_onScreen j c' l' hc' hl'
    rw [← hpixel] at hon hon'
    exact ⟨hon, hon'⟩
  · obtain ⟨hcx, hcy⟩ := @cellPixel_cast i c l (by omega) (by omega)
    have hdrawn := drawCards_draws hb rfl hrest Pen.home_meets
      (fun k hk hlt => pen_onScreen k hk (by simpa using hlt)) halive
      (List.mem_finRange i)
    have hmem := (mem_restingDots hg.meant (hb i).left).2
      ⟨l, hl, c, hc, rfl⟩
    unfold restingDots at hmem
    rw [← restingAt_dots _ _ _ b.cardArray] at hmem
    exact ⟨_, List.mem_flatMap.2 ⟨_, hdrawn, hmem⟩, hcx, hcy⟩
  · obtain ⟨j, c', l', hc', hl', hpixel, hsource⟩ := hcells d hd
    rw [hx, hy] at hpixel
    obtain ⟨rfl, rfl, rfl⟩ := cellPixel_inj (by omega) (by omega) hc' hl'
      hpixel
    exact hsource rfl

-- ======================================================= what lies on top

/-- A pixel that no call writes to keeps its colour. -/
theorem holds_uncovered {ds : List Dot} {x y : Nat} {color : UInt32}
    (hno : ∀ a, PixelBytes x y a → ¬Covers ds a)
    (h : HoldsColor mode0x115 buf x y color) :
    HoldsColor mode0x115 (paint mode0x115 junk buf ds) x y color := by
  obtain ⟨r, hr, hcolor⟩ := h
  obtain ⟨-, -, rfl⟩ := pixelRange_screen_inv hr
  refine ⟨_, hr, fun a ha => ?_⟩
  obtain ⟨hlow, hhigh⟩ := ha
  rw [paint_eq_overlay, overlay_keeps, hcolor a ⟨hlow, hhigh⟩]
  intro w hw
  obtain ⟨d, hd, rfl⟩ := List.mem_map.1 hw
  rw [Option.eq_none_iff_forall_ne_some]
  intro v hv
  obtain ⟨r', hr', ha', -⟩ := Dot.write_eq_some.1 hv
  refine hno a ?_ ⟨d, hd, r', hr', ha'⟩
  dsimp only at hlow hhigh
  unfold PixelBytes
  omega

/-- The hearts end above line 37. -/
theorem drawHearts_above (hg : g.Pixmaps) (p1 : Player) {x y a : Nat}
    (hy : 38 ≤ y) (ha : PixelBytes x y a) :
    ¬Covers (drawHearts mode0x115 g p1) a := by
  rintro ⟨d, hd, r, hr, har⟩
  obtain ⟨k, -, hd⟩ := List.mem_flatMap.1 hd
  obtain ⟨l, hl, c, -, rfl⟩ := mem_spriteLines.1 hd
  have hheight := hg.heartHeight
  have hcast := @toUInt16_cast (15 + (l : Nat)) (by omega) (by omega)
  obtain ⟨hx800, -, rfl⟩ := pixelRange_screen_inv hr
  obtain ⟨hlow, hhigh⟩ := har
  unfold PixelBytes at ha
  dsimp only at *
  omega

/-- The cursor covers no pixel of a cell but those it lies over. -/
theorem paintMouse_beside (hg : g.Loaded) {q : Mouse} (hq : q.Bounded)
    {c l a : Nat} (hc : c < 75) (hl : l < 109)
    (hout : ¬q.Occupies (cellPixel i c l).1 (cellPixel i c l).2)
    (ha : PixelBytes (cellPixel i c l).1 (cellPixel i c l).2 a) :
    ¬Covers (paintMouse mode0x115 g q) a := by
  have hsize : mode0x115.vramSize = 1440000 := rfl
  have hleft : 202 ≤ (cellPixel i c l).1 := by
    unfold cellPixel
    rw [@cellXY_eq mode0x115 rfl rfl]
    dsimp only
    omega
  obtain ⟨hx800, hy600⟩ := @cellPixel_onScreen i c l hc hl
  intro hcovers
  obtain ⟨x, y, hon, hbytes⟩ := paintMouse_covers hg hq (by
    unfold PixelBytes at ha
    omega) hcovers
  obtain ⟨hqleft, -, hqtop, -⟩ := hq
  have hon' := hon
  unfold Mouse.Occupies at hon'
  unfold PixelBytes at ha hbytes
  -- column 800 is the first of the next line, where no cell is
  have hx : x = (cellPixel i c l).1 := by omega
  have hy : y = (cellPixel i c l).2 := by omega
  rw [hx, hy] at hon
  exact hout hon

end

-- ============================================================= the runs

/-- The board a tick of the game draws. -/
def State.drawnBoard (t : State) : Board :=
  (if t.initGame then previewStart t else t).board

/-- A tick that draws the board and goes on has survived the frame. -/
theorem gameTick_alive {t s' : State} (h : gameTick mode0x115 t = some s')
    (hredraws : t.redraws = true) :
    (drawGameCards mode0x115 t.drawnBoard).trapped = false := by
  have halive : ∀ {u v : State}, draw mode0x115 u = some v →
      (drawGameCards mode0x115 u.board).trapped = false := by
    intro u v hu
    unfold draw Frame.result at hu
    split at hu
    · cases hu
    · next hno => exact Bool.eq_false_iff.2 hno
  unfold State.drawnBoard
  unfold gameTick at h
  split at h
  · next hinit =>
      rw [if_pos hinit]
      exact halive h
  · next hinit =>
      rw [if_neg hinit]
      unfold playUntilMatch at h
      have heven : t.tmrTckCounter % 2 = 0 := by
        unfold State.redraws at hredraws
        simpa [hinit] using hredraws
      rw [if_pos heven] at h
      obtain ⟨u, hu, -⟩ := Option.map_eq_some_iff.1 h
      obtain ⟨v, hv, -⟩ := Option.map_eq_some_iff.1 hu
      exact halive hv

/-- In every run, in the frame of a tick of the game that draws the board
anew and goes on, every card that is not turning when the tick draws
shows as it lies wherever the cursor is not over it, whatever the buffer
held and whatever the other cards do. -/
theorem cards_seen {g : GameSprites} (hg : g.Pixmaps) {s t s' : State}
    {n : Notification} (h : Reach anyStep s)
    (ht : TickState mode0x115 s n t) (hgs : t.gs = .game)
    (hredraws : t.redraws = true) (hs : step mode0x115 s n = some s')
    (hour : UInt32) (junk : UInt8) (buf : Buffer) (i : Fin 16)
    (hrest : (t.drawnBoard.card i).isFlipping = false) {c l : Nat}
    (hc : c < (t.drawnBoard.card i).restingSize.1)
    (hl : l < (t.drawnBoard.card i).restingSize.2)
    (hout : ¬t.mouse.Occupies (cellPixel i c l).1 (cellPixel i c l).2) :
    HoldsColor mode0x115
      (paint mode0x115 junk buf
        (scene mode0x115 g hour t ++ paintMouse mode0x115 g t.mouse))
      (cellPixel i c l).1 (cellPixel i c l).2
      (((t.drawnBoard.card i).restingSource g.board c l).color junk) := by
  obtain ⟨hw, hh⟩ := (t.drawnBoard.card i).restingSize_le
  have hdeck : t.drawnBoard.OnDeck := by
    have hboard : t.board.OnDeck := by
      rw [ht.frame.1.board]
      exact reach_onDeck h
    unfold State.drawnBoard
    split
    · exact hboard.same (previewStart_samePictures t)
    · exact hboard
  have hst : stateTick mode0x115 t n.rands = some s' := by
    rcases step_cases hs with ⟨t', ht', -, hst⟩ | ⟨hnone, -⟩
    · cases (tickState_eq_some.2 ht).symm.trans (tickState_eq_some.2 ht')
      exact hst
    · rw [tickState_eq_some.2 ht] at hnone
      cases hnone
  unfold stateTick at hst
  rw [hgs] at hst
  have hscene : scene mode0x115 g hour t
      = paintGameCards mode0x115 g.board t.drawnBoard
        ++ drawHearts mode0x115 g t.p1 := by
    unfold scene
    rw [hgs, hredraws]
    rfl
  have htop : 38 ≤ (cellPixel i c l).2 := by
    unfold cellPixel
    rw [@cellXY_eq mode0x115 rfl rfl]
    dsimp only
    omega
  rw [hscene, paint_append, paint_append]
  refine holds_uncovered (fun a ha => paintMouse_beside hg.toLoaded
    ((bounded_reach h).tickState ht).mouse (by omega) (by omega) hout ha) ?_
  refine holds_uncovered (fun a ha => drawHearts_above hg t.p1 htop ha) ?_
  exact frame_shows hg hdeck hrest (gameTick_alive hst hredraws) hc hl

/-- The preview is over, and card 0 is turning under the cursor. -/
def turningBeside : Script noTest fun s =>
    decide ((s.gs = .game ∧ s.initGame = false ∧ s.tmrTckCounter % 2 = 1)
      ∧ (∀ i, (s.board.card i).isFlipping = decide (i.val = 0)
        ∧ (s.board.card i).isFlipped = true) ∧ s.mouse = ⟨237, 120⟩)
    && (swiftStep s tick).isSome where
  notifications := opening ++ ticks 261
  shows := by decide +kernel

/-- The tick after it draws card 0 turning, and the whole back of every
other card. -/
theorem cards_seen_beside : ∃ s t, Reach anyStep s
    ∧ TickState mode0x115 s tick t ∧ (t.board.card 0).isFlipping = true
    ∧ ∀ buf i, i ≠ 0 → ∀ c < 75, ∀ l < 109, HoldsColor mode0x115
      (paint mode0x115 0 buf (scene mode0x115 blankGameSprites 12 t
        ++ paintMouse mode0x115 blankGameSprites t.mouse))
      (cellPixel i c l).1 (cellPixel i c l).2
      ((Source.sprite blankGameSprites.board.cardBack
        (blankGameSprites.board.cardBack.offset c l)).color 0) := by
  obtain ⟨s, hs, hP⟩ := turningBeside.reach noTest_anyStep
  rw [Bool.and_eq_true, swiftStep_eq] at hP
  obtain ⟨⟨hgs, hinit, hodd⟩, hcards, hmouse⟩ := of_decide_eq_true hP.1
  obtain ⟨s', hs'⟩ := Option.isSome_iff_exists.1 hP.2
  have hboard : (timerIntHandler s).drawnBoard = s.board := by
    unfold State.drawnBoard
    rw [if_neg (by show ¬s.initGame = true; simp [hinit])]
    rfl
  have hredraws : (timerIntHandler s).redraws = true := by
    unfold State.redraws timerIntHandler
    simp only [Bool.or_eq_true, beq_iff_eq]
    omega
  refine ⟨s, _, hs, tickState_tick s, (hcards 0).1, ?_⟩
  intro buf i hi c hc l hl
  have hne : i.val ≠ 0 := fun h => hi (Fin.ext h)
  have hlt := i.isLt
  obtain ⟨hflipping, hdown⟩ := hcards i
  have hsize : (s.board.card i).restingSize = (75, 109) := by
    unfold Card.restingSize
    rw [hdown]
    rfl
  have hout : ¬s.mouse.Occupies (cellPixel i c l).1 (cellPixel i c l).2 := by
    rw [hmouse]
    unfold Mouse.Occupies cellPixel
    rw [@cellXY_eq mode0x115 rfl rfl]
    dsimp only
    omega
  have hseen := @cards_seen _ blankGameSprites_pixmaps _ _ _ _ hs
    (tickState_tick s) hgs hredraws hs' 12 0 buf i
    (by rw [hboard, hflipping, decide_eq_false hne]) c l
    (by rw [hboard, hsize]; exact hc) (by rw [hboard, hsize]; exact hl) hout
  rw [hboard] at hseen
  unfold Card.restingSource at hseen
  rwa [if_neg (by simp [hdown])] at hseen

end Lcom.Proj
