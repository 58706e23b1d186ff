/-
What a click does to the board.

The sixteen hit boxes are 69 by 93 pixels on a grid of 99 by 113, so at
every resolution the cursor lies on at most one card (`onCard_unique`)
and the order of the sixteen blocks does not matter. With no card
turning, a click marks the face-down card under the cursor or changes
nothing (`flipCardOnClick_cases`).
-/
import Lcom.Proj.Proofs.Steps

namespace Lcom.Proj

/-- The hit test, as inequalities. -/
theorem onCard_iff {m : ModeInfo} {mouse : Mouse} {k : Fin 16} :
    onCard m mouse k = true ↔
      let s := getCardsScreenXY m (k.val % 4 : Nat) (k.val / 4 : Nat)
      s.1 ≤ mouse.x ∧ mouse.x ≤ s.1 + cardWidth
        ∧ s.2 ≤ mouse.y ∧ mouse.y ≤ s.2 + cardHeight := by
  unfold onCard hitsCell
  simp [and_assoc]

/-- The cursor lies on at most one card. -/
theorem onCard_unique {m : ModeInfo} {mouse : Mouse} {k k' : Fin 16}
    (h : onCard m mouse k = true) (h' : onCard m mouse k' = true) :
    k = k' := by
  rw [onCard_iff] at h h'
  simp only [getCardsScreenXY, cardWidth, cardHeight] at h h'
  apply Fin.ext
  omega

/-- One card's flag, read back. -/
theorem setFlipping_get (cards : Cards) (k i : Fin 16) (v : Bool) :
    (setFlipping cards k v).get i
      = if i = k then { cards.get i with isFlipping := v }
        else cards.get i := by
  unfold setFlipping
  by_cases h : i = k
  · subst h
    rw [List.Vector.get_set_same, if_pos rfl]
  · rw [List.Vector.get_set_of_ne (Ne.symm h), if_neg h]

/-- Every card has its block. -/
theorem mem_clickBlocks : ∀ k : Fin 16, k ∈ clickBlocks := by decide

/-- Off every card, no block runs. -/
theorem foldl_clickBlock_off {m : ModeInfo} {mouse : Mouse} {cards : Cards}
    (h : ∀ k, onCard m mouse k = false) :
    clickBlocks.foldl (clickBlock m mouse) (cards, none) = (cards, none) := by
  rw [Machine.foldl_eq_self fun k _ => by
    unfold clickBlock
    rw [h k, if_neg (by decide)]]

/-- On card `k`, its block alone runs. -/
theorem foldl_clickBlock_on {m : ModeInfo} {mouse : Mouse} {cards : Cards}
    {k : Fin 16} (h : onCard m mouse k = true) :
    clickBlocks.foldl (clickBlock m mouse) (cards, none)
      = (setFlipping cards k true, some k) := by
  have hother : ∀ st j, j ≠ k → clickBlock m mouse st j = st := by
    intro st j hj
    unfold clickBlock
    rw [if_neg fun hon => hj (onCard_unique hon h)]
  rw [Machine.foldl_eq_single (i := k)
    (mem_clickBlocks k) (by decide)
    (fun j _ hj => hother _ j hj) (fun j _ hj => hother _ j hj)]
  unfold clickBlock
  rw [if_pos h]

/-- A click off every card leaves the array alone. -/
theorem flipCardOnClick_off {m : ModeInfo} {mouse : Mouse} {cards : Cards}
    (h : ∀ k, onCard m mouse k = false) :
    flipCardOnClick m mouse cards = cards := by
  unfold flipCardOnClick
  rw [foldl_clickBlock_off h]

/-- A click on card `k`: the mark, taken back if the card is face
up. -/
theorem flipCardOnClick_on {m : ModeInfo} {mouse : Mouse} {cards : Cards}
    {k : Fin 16} (h : onCard m mouse k = true) :
    flipCardOnClick m mouse cards
      = if (cards.get k).isFlipped = false then
          setFlipping (setFlipping cards k true) k false
        else setFlipping cards k true := by
  unfold flipCardOnClick
  rw [foldl_clickBlock_on h]
  dsimp only
  rw [setFlipping_get, if_pos rfl]

/-- With no card turning, a click marks the face-down card under the
cursor, or changes nothing. -/
theorem flipCardOnClick_cases (m : ModeInfo) (mouse : Mouse)
    {cards : Cards} (hstill : ∀ i, (cards.get i).isFlipping = false) :
    (∃ k, onCard m mouse k = true ∧ (cards.get k).isFlipped = true
        ∧ flipCardOnClick m mouse cards = setFlipping cards k true)
      ∨ ((∀ k, onCard m mouse k = true → (cards.get k).isFlipped = false)
        ∧ flipCardOnClick m mouse cards = cards) := by
  by_cases hon : ∃ k, onCard m mouse k = true
  · obtain ⟨k, hk⟩ := hon
    cases hd : (cards.get k).isFlipped with
    | true =>
        refine .inl ⟨k, hk, hd, ?_⟩
        rw [flipCardOnClick_on hk, if_neg (by simp [hd])]
    | false =>
        refine .inr ⟨fun k' hk' => by rw [onCard_unique hk' hk, hd], ?_⟩
        rw [flipCardOnClick_on hk, if_pos hd]
        refine List.Vector.ext fun i => ?_
        rw [setFlipping_get, setFlipping_get]
        by_cases hi : i = k
        · subst hi
          rw [if_pos rfl, if_pos rfl, ← hstill i]
        · rw [if_neg hi, if_neg hi]
  · have hoff : ∀ k, onCard m mouse k = false := fun k =>
      Bool.eq_false_iff.2 fun hk => hon ⟨k, hk⟩
    exact .inr ⟨fun k hk => absurd hk (by simp [hoff k]),
      flipCardOnClick_off hoff⟩

/-- Whatever it hits, a click changes no field but `isFlipping`. -/
theorem flipCardOnClick_frame (m : ModeInfo) (mouse : Mouse)
    (cards : Cards) (i : Fin 16) :
    ∃ v, (flipCardOnClick m mouse cards).get i
      = { cards.get i with isFlipping := v } := by
  have hset : ∀ (cards : Cards) k v,
      ∃ w, (setFlipping cards k v).get i
        = { cards.get i with isFlipping := w } := by
    intro cards k v
    rw [setFlipping_get]
    split
    · exact ⟨v, rfl⟩
    · exact ⟨(cards.get i).isFlipping, rfl⟩
  by_cases hon : ∃ k, onCard m mouse k = true
  · obtain ⟨k, hk⟩ := hon
    rw [flipCardOnClick_on hk]
    split
    · obtain ⟨v, hv⟩ := hset cards k true
      obtain ⟨w, hw⟩ := hset (setFlipping cards k true) k false
      refine ⟨w, ?_⟩
      rw [hw, hv]
    · exact hset cards k true
  · rw [flipCardOnClick_off fun k =>
      Bool.eq_false_iff.2 fun hk => hon ⟨k, hk⟩]
    exact ⟨(cards.get i).isFlipping, rfl⟩

/-- A click keeps values and matches. -/
theorem flipCardOnClick_sameMarks (m : ModeInfo) (mouse : Mouse)
    (b : Board) :
    SameMarks b
      { b with cardArray := flipCardOnClick m mouse b.cardArray } := by
  intro i
  show ((flipCardOnClick m mouse b.cardArray).get i).value = _
    ∧ ((flipCardOnClick m mouse b.cardArray).get i).flipSuccess = _
  obtain ⟨v, hv⟩ := flipCardOnClick_frame m mouse b.cardArray i
  rw [hv]
  exact ⟨rfl, rfl⟩

/-- The click turns no card over. -/
theorem clickPhase_isFlipped (m : ModeInfo) (s : State) (i : Fin 16) :
    ((clickPhase m s).board.card i).isFlipped
      = (s.board.card i).isFlipped := by
  unfold clickPhase
  split
  · split
    · rfl
    · show ((flipCardOnClick m s.mouse s.board.cardArray).get i).isFlipped = _
      obtain ⟨v, hv⟩ := flipCardOnClick_frame m s.mouse s.board.cardArray i
      rw [hv]
      rfl
  · rfl

-- ============================================ up to the match check

/-- The tick up to the match check: the animation, the pause key and
the click, in that order. -/
theorem playUntilMatch_eq_some {t u : State}
    (h : playUntilMatch mode0x115 t = some u) :
    ∃ b, (if t.tmrTckCounter % 2 = 0 then
        turnCards (List.finRange 16) t.board else some t.board) = some b
      ∧ u = clickPhase mode0x115 (pauseKey { t with board := b }) := by
  unfold playUntilMatch at h
  rw [draw_eq] at h
  by_cases hev : t.tmrTckCounter % 2 = 0
  · rw [if_pos hev, Option.map_map] at h
    obtain ⟨b, hb, rfl⟩ := Option.map_eq_some_iff.1 h
    exact ⟨b, by rw [if_pos hev]; exact hb, rfl⟩
  · rw [if_neg hev] at h
    cases h
    exact ⟨t.board, if_neg hev, rfl⟩

/-- The pause key changes the screen, nothing else. -/
theorem pauseKey_frame (s : State) :
    SameGame s (pauseKey s) ∧ (pauseKey s).tmrTckCounter = s.tmrTckCounter
      ∧ (pauseKey s).driver = s.driver ∧ (pauseKey s).mouse = s.mouse
      ∧ ((pauseKey s).gs = s.gs ∨ (pauseKey s).gs = .pause) := by
  unfold pauseKey
  split
  · exact ⟨⟨rfl, rfl, rfl, rfl, rfl⟩, rfl, rfl, rfl, .inr rfl⟩
  · exact ⟨SameGame.refl s, rfl, rfl, rfl, .inl rfl⟩

/-- Everything but cards and the guard survives the click. -/
theorem clickPhase_frame (m : ModeInfo) (s : State) :
    (clickPhase m s).p1 = s.p1 ∧ (clickPhase m s).gs = s.gs
      ∧ (clickPhase m s).initGame = s.initGame
      ∧ (clickPhase m s).gameOver = s.gameOver
      ∧ (clickPhase m s).victory = s.victory
      ∧ (clickPhase m s).tmrTckCounter = s.tmrTckCounter
      ∧ SameMarks s.board (clickPhase m s).board := by
  unfold clickPhase
  split
  · split
    · exact ⟨rfl, rfl, rfl, rfl, rfl, rfl, SameMarks.refl _⟩
    · exact ⟨rfl, rfl, rfl, rfl, rfl, rfl,
        flipCardOnClick_sameMarks m s.mouse s.board⟩
  · exact ⟨rfl, rfl, rfl, rfl, rfl, rfl, SameMarks.refl _⟩

/-- What the match check finds: the player and the outcome of the tick
before it, values and matches as they were, and a screen that is still
the game or the pause menu. -/
theorem playUntilMatch_frame {t u : State}
    (h : playUntilMatch mode0x115 t = some u) :
    u.p1 = t.p1 ∧ u.initGame = t.initGame ∧ u.gameOver = t.gameOver
      ∧ u.victory = t.victory ∧ u.tmrTckCounter = t.tmrTckCounter
      ∧ (u.gs = t.gs ∨ u.gs = .pause) ∧ SameMarks t.board u.board := by
  obtain ⟨b, hb, rfl⟩ := playUntilMatch_eq_some h
  have hmarks : SameMarks t.board b := by
    split at hb
    · exact turnCards_sameMarks hb
    · cases hb
      exact SameMarks.refl _
  obtain ⟨hsame, htmr, -, -, hgs⟩ := pauseKey_frame { t with board := b }
  obtain ⟨h1, h2, h3, h4, h5, h6, h7⟩ :=
    clickPhase_frame mode0x115 (pauseKey { t with board := b })
  refine ⟨h1.trans hsame.p1, h3.trans hsame.initGame,
    h4.trans hsame.gameOver, h5.trans hsame.victory, h6.trans htmr, ?_, ?_⟩
  · rw [h2]
    exact hgs
  · rw [hsame.board] at h7
    exact hmarks.trans h7

end Lcom.Proj
