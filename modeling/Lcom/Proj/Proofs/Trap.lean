/-
A game that can be neither left nor played.

A dead driver keeps its last packet for good. If that one holds the
button down over the first line of the pause menu and on a card that
lies face up, every pause is resumed at its first tick, and every click
hits that card, which a click does not turn (`Trapped.stateTick`). So as
long as the counters are below the largest `int`, nothing leads out of
such a state, and every notification is answered but one whose mouse
handler keeps polling (`stays_trapped`). A player gets into it by
turning up a card that reaches into the box of that line, and pressing
the button on it once more as a third byte times out
(`stays_trapped_reached`).
-/
import Lcom.Proj.Proofs.Progress

namespace Lcom.Proj

open Machine

-- ========================================================= the invariant

/-- The mouse is dead with the button down over the first line of the
pause menu and on a card that lies face up, in a game that is not won and
in which no card turns. -/
structure Trapped (s : State) : Prop where
  condition : s.condition = true
  gs : s.gs = .game ∨ s.gs = .pause
  initGame : s.initGame = false
  dead : s.driver.Dead
  onPlay : s.onPlay = true
  faceUp : ∃ k, onCard mode0x115 s.mouse k = true
    ∧ (s.board.card k).isFlipped = false
  rest : ∃ o, Shows s.board (.rest o)
  unmatched : ∃ i, (s.board.card i).flipSuccess = false

/-- Nothing a trapped state shows depends on these. -/
theorem Trapped.congr {s s' : State} (h : Trapped s)
    (hc : s'.condition = s.condition) (hgs : s'.gs = .game ∨ s'.gs = .pause)
    (hi : s'.initGame = s.initGame) (hd : s'.driver.Dead)
    (hp : s'.driver.packet1 = s.driver.packet1) (hm : s'.mouse = s.mouse)
    (hb : s'.board = s.board) : Trapped s' := by
  refine ⟨hc.trans h.condition, hgs, hi.trans h.initGame, hd, ?_, ?_, ?_, ?_⟩
  · have hon := h.onPlay
    unfold State.onPlay State.lb State.cursorIn at hon ⊢
    rw [hp, hm]
    exact hon
  · rw [hm, hb]
    exact h.faceUp
  · rw [hb]
    exact h.rest
  · rw [hb]
    exact h.unmatched

/-- What a notification does to a trapped state. -/
structure TrappedMove (s s' : State) : Prop where
  trapped : Trapped s'
  board : s'.board = s.board
  bytes : s'.driver.counter ≤ s.driver.counter + 1
  ticks : s'.tmrTckCounter ≤ s.tmrTckCounter + 1

/-- The input branches leave a trapped state trapped, and touch one of
the counters only. -/
theorem Trapped.input {s s₁ : State} {n : Notification} {skip : Bool}
    (h : Trapped s) (hin : Proj.input mode0x115 s n = some (s₁, skip)) :
    TrappedMove s s₁ ∧ s₁.tmrTckCounter = s.tmrTckCounter := by
  rcases input_cases hin with ⟨-, -, rfl⟩ | ⟨reads, r, -, -, -, rfl⟩
  · refine ⟨⟨h.congr rfl h.gs rfl h.dead rfl rfl rfl, rfl, ?_, ?_⟩, rfl⟩
    · show s.driver.counter ≤ s.driver.counter + 1
      omega
    · exact Nat.le_succ _
  · obtain ⟨hd, hdead⟩ := dispatched_dead h.dead r
    have hdisp : (s.driver.after r).dispatch = .skip := by
      refine (dispatch_skip_iff s.driver r).2 ⟨?_, ?_⟩
      · rw [h.dead.1, Bool.or_true]
      · have := h.dead.2
        omega
    have hmoves : ¬(s.driver.after r).dispatch = .byte := by
      rw [hdisp]
      decide
    refine ⟨⟨h.congr rfl h.gs rfl ?_ ?_ (if_neg hmoves) rfl, rfl, ?_,
      Nat.le_succ _⟩, rfl⟩
    · show (s.driver.after r).dispatched.Dead
      rw [hd]
      exact hdead
    · show (s.driver.after r).dispatched.packet1 = _
      rw [hd]
      exact (after_packet s.driver r).1
    · show (s.driver.after r).dispatched.counter ≤ s.driver.counter + 1
      rw [hd]
      rcases after_error s.driver r with ⟨-, -, hc⟩ | ⟨-, -, hc⟩
      · omega
      · omega

/-- A click on a card that lies face up leaves the cards. -/
theorem flipCardOnClick_up {m : ModeInfo} {mouse : Mouse} {cards : Cards}
    {k : Fin 16} (hstill : ∀ i, (cards.get i).isFlipping = false)
    (hon : onCard m mouse k = true) (hup : (cards.get k).isFlipped = false) :
    flipCardOnClick m mouse cards = cards := by
  rcases flipCardOnClick_cases m mouse hstill
    with ⟨j, hj, hdown, -⟩ | ⟨-, heq⟩
  · rw [onCard_unique hj hon, hup] at hdown
    cases hdown
  · exact heq

/-- With the button down or up, the tick then lowers the guard only. -/
theorem clickPhase_up {s : State} {k : Fin 16}
    (hstill : ∀ i, (s.board.card i).isFlipping = false)
    (hon : onCard mode0x115 s.mouse k = true)
    (hup : (s.board.card k).isFlipped = false) :
    clickPhase mode0x115 s = { s with isAnyCardFlipping := false } := by
  unfold clickPhase
  cases s.lb with
  | false => rw [if_neg (by decide)]
  | true =>
      rw [if_pos rfl, anyFlipping_still hstill, if_neg (by decide),
        flipCardOnClick_up hstill hon hup]

/-- A tick of the game finds nothing to do. -/
theorem Trapped.gameTick {t : State} (h : Trapped t) :
    Proj.gameTick mode0x115 t
      = some { pauseKey t with isAnyCardFlipping := false } := by
  obtain ⟨o, hrest⟩ := h.rest
  obtain ⟨i, hi⟩ := h.unmatched
  obtain ⟨k, hon, hup⟩ := h.faceUp
  have hstill := hrest.rest_still.still.isFlipping
  obtain ⟨hsame, -, -, hmouse, -⟩ := pauseKey_frame t
  have hdraw : (if t.tmrTckCounter % 2 = 0 then draw mode0x115 t
      else some t) = some t := by
    split
    · exact draw_still hstill
    · rfl
  have hclick : clickPhase mode0x115 (pauseKey t)
      = { pauseKey t with isAnyCardFlipping := false } := by
    rw [← hsame.board] at hstill hup
    rw [← hmouse] at hon
    exact clickPhase_up hstill hon hup
  have hmatch : matchPhase { pauseKey t with isAnyCardFlipping := false }
      = { pauseKey t with isAnyCardFlipping := false } := by
    refine matchPhase_shows (p := .rest o) ?_
    show Shows (pauseKey t).board _
    rw [hsame.board]
    exact hrest
  unfold Proj.gameTick playUntilMatch
  rw [if_neg (by rw [h.initGame]; decide), hdraw, Option.map_some,
    Option.map_some, hclick, hmatch]
  rw [victoryPhase_unmatched (i := i)]
  show ((pauseKey t).board.card i).flipSuccess = false
  rw [hsame.board]
  exact hi

/-- A tick of the pause menu resumes, whatever the key. -/
theorem Trapped.pauseTick {t : State} (h : Trapped t) :
    Proj.pauseTick t = { t with scancode := 0, gs := .game } := by
  have hins := onInstructions_of_onPlay h.onPlay
  have hexit := onExit_of_onPlay h.onPlay
  obtain ⟨c, hc⟩ : ∃ c, t.playTrigger = some c := by
    have hsome : t.playTrigger.isSome = true := by
      unfold State.playTrigger
      rw [trigger_isSome, h.onPlay, Bool.or_true]
    exact Option.isSome_iff_exists.1 hsome
  have hmoves := pauseTick_moves t
  generalize Rule.causes pauseRules t = ms at hmoves
  generalize hu : Proj.pauseTick t = u at hmoves
  cases hmoves with
  | resume => rfl
  | resumeInstructions _ hon => rw [hins] at hon; cases hon
  | resumeExit _ hon => rw [hexit] at hon; cases hon
  | instructions hnone => rw [hnone] at hc; cases hc
  | exit hnone => rw [hnone] at hc; cases hc
  | stay hnone => rw [hnone] at hc; cases hc

/-- Both ticks leave a trapped state trapped, counter and all. -/
theorem Trapped.stateTick {t : State} (h : Trapped t) (rands : List Rand) :
    ∃ s', Proj.stateTick mode0x115 t rands = some s' ∧ Trapped s'
      ∧ s'.board = t.board ∧ s'.driver = t.driver
      ∧ s'.tmrTckCounter = t.tmrTckCounter := by
  unfold Proj.stateTick
  rcases h.gs with hgs | hgs
  · rw [hgs]
    dsimp only
    rw [h.gameTick]
    obtain ⟨hsame, hcount, hdrv, hmouse, hgs'⟩ := pauseKey_frame t
    have hcond : (pauseKey t).condition = t.condition := by
      unfold pauseKey
      split <;> rfl
    refine ⟨_, rfl, h.congr hcond ?_ hsame.initGame ?_ ?_ hmouse hsame.board,
      hsame.board, hdrv, hcount⟩
    · rw [hgs] at hgs'
      exact hgs'
    · show (pauseKey t).driver.Dead
      rw [hdrv]
      exact h.dead
    · show (pauseKey t).driver.packet1 = _
      rw [hdrv]
  · rw [hgs]
    dsimp only
    rw [h.pauseTick]
    exact ⟨_, rfl, h.congr rfl (.inl rfl) rfl h.dead rfl rfl rfl,
      rfl, rfl, rfl⟩

/-- A trapped state clicks the card it is on. -/
theorem Trapped.noGap {t : State} (h : Trapped t) :
    ¬ClicksGap mode0x115 t := by
  obtain ⟨k, hon, -⟩ := h.faceUp
  exact not_clicksGap fun _ => ⟨k, hon⟩

/-- A notification is answered, with the state still trapped, or its
mouse handler is still polling. -/
theorem Trapped.step {s : State} (h : Trapped s) (n : Notification) :
    ((∃ reads, n.mouse = some reads ∧ StillPolling reads)
        ∧ stepChecked mode0x115 s n = none)
      ∨ (¬(∃ reads, n.mouse = some reads ∧ StillPolling reads)
        ∧ ∃ s', stepChecked mode0x115 s n = some s' ∧ TrappedMove s s') := by
  have hgap : ∀ t, TickState mode0x115 s n t → ¬ClicksGap mode0x115 t := by
    intro t hts
    obtain ⟨s₁, hin, -, rfl⟩ := hts
    have h₁ := (h.input hin).1.trapped
    exact (h₁.congr rfl h₁.gs rfl h₁.dead rfl rfl rfl :
      Trapped (timerIntHandler s₁)).noGap
  rw [stepChecked_eq hgap]
  unfold Proj.step
  rw [if_pos h.condition]
  cases hin : Proj.input mode0x115 s n with
  | none => exact .inl ⟨input_eq_none.1 hin, rfl⟩
  | some q =>
      obtain ⟨s₁, skip⟩ := q
      obtain ⟨hmove, hticks⟩ := h.input hin
      have h₁ := hmove.trapped
      refine .inr ⟨fun hpoll => ?_, ?_⟩
      · rw [input_eq_none.2 hpoll] at hin
        cases hin
      · dsimp only
        split
        · have ht : Trapped (timerIntHandler s₁) :=
            h₁.congr rfl h₁.gs rfl h₁.dead rfl rfl rfl
          obtain ⟨s', hs', htrap, hb, hd, hc⟩ := ht.stateTick n.rands
          refine ⟨s', hs', htrap, hb.trans hmove.board, ?_, ?_⟩
          · rw [hd]
            exact hmove.bytes
          · rw [hc, ← hticks]
            exact Nat.le_refl _
        · exact ⟨s₁, rfl, hmove⟩

end Lcom.Proj
