/-
What one turn of the main loop can do, said once.

`StepKind` lists the four ways a step can touch the game: not at all
(`quiet`: no tick, a menu, the pause or instructions screen, the wait
in the exit screen), a preview tick, a playing tick, and the restart.
`step_kind` is the inversion; every invariant below is four small
cases.

`SameGame` is the frame of the quiet steps. It holds of every
notification handled outside `Game` that does not restart, so the
screens around the game cannot disturb it.
-/
import Lcom.Proj.Proofs.Animation
import Lcom.Proj.Proofs.Dispatch

namespace Lcom.Proj

-- ======================================================== the frame

/-- The part of the state that belongs to the game being played. -/
structure SameGame (s s' : State) : Prop where
  board : s'.board = s.board
  p1 : s'.p1 = s.p1
  initGame : s'.initGame = s.initGame
  gameOver : s'.gameOver = s.gameOver
  victory : s'.victory = s.victory

theorem SameGame.refl (s : State) : SameGame s s := ⟨rfl, rfl, rfl, rfl, rfl⟩

theorem SameGame.trans {s₁ s₂ s₃ : State} (h : SameGame s₁ s₂)
    (h' : SameGame s₂ s₃) : SameGame s₁ s₃ :=
  ⟨h'.board.trans h.board, h'.p1.trans h.p1,
    h'.initGame.trans h.initGame, h'.gameOver.trans h.gameOver,
    h'.victory.trans h.victory⟩

/-- The keyboard and mouse branches leave the game alone. -/
theorem input_frame {m : ModeInfo} {s s₁ : State} {n : Notification}
    {skip : Bool} (h : input m s n = some (s₁, skip)) :
    SameGame s s₁ ∧ s₁.gs = s.gs ∧ s₁.tmrTckCounter = s.tmrTckCounter := by
  rcases input_cases h with ⟨-, -, rfl⟩ | ⟨reads, r, -, -, -, rfl⟩
  · exact ⟨⟨rfl, rfl, rfl, rfl, rfl⟩, rfl, rfl⟩
  · exact ⟨⟨rfl, rfl, rfl, rfl, rfl⟩, rfl, rfl⟩

/-- The switch sees the game the notification found. -/
theorem TickState.frame {m : ModeInfo} {s t : State} {n : Notification}
    (h : TickState m s n t) :
    SameGame s t ∧ t.gs = s.gs ∧ t.tmrTckCounter = s.tmrTckCounter + 1 := by
  obtain ⟨s₁, hin, -, rfl⟩ := h
  obtain ⟨hsame, hgs, htmr⟩ := input_frame hin
  refine ⟨⟨hsame.board, hsame.p1, hsame.initGame, hsame.gameOver,
    hsame.victory⟩, hgs, ?_⟩
  show s₁.tmrTckCounter + 1 = _
  rw [htmr]

theorem menuTick_sameGame (s : State) : SameGame s (menuTick s) := by
  unfold menuTick
  dsimp only
  split <;> split <;> split <;> exact ⟨rfl, rfl, rfl, rfl, rfl⟩

theorem pauseTick_sameGame (s : State) : SameGame s (pauseTick s) := by
  unfold pauseTick
  dsimp only
  split <;> split <;> split <;> exact ⟨rfl, rfl, rfl, rfl, rfl⟩

theorem instructionsTick_sameGame (s : State) :
    SameGame s (instructionsTick s) := by
  unfold instructionsTick
  split
  · split <;> exact ⟨rfl, rfl, rfl, rfl, rfl⟩
  · split <;> exact ⟨rfl, rfl, rfl, rfl, rfl⟩

-- ==================================================== the inversion

/-- The ways a step can touch the game. -/
inductive StepKind (m : ModeInfo) (s : State) (n : Notification) :
    State → Prop
  | quiet {s' : State} : SameGame s s' →
      s'.gs = s.gs ∨ (s.gs ≠ .game ∧ s.gs ≠ .exit) →
      s.gs ≠ .game ∨ (∀ t, ¬TickState m s n t) → StepKind m s n s'
  | preview {t s' : State} : TickState m s n t → t.gs = .game →
      t.initGame = true → draw m (previewStart t) = some s' →
      StepKind m s n s'
  | play {t u : State} : TickState m s n t → t.gs = .game →
      t.initGame = false → playUntilMatch m t = some u →
      StepKind m s n (victoryPhase (matchPhase u))
  | restart {t : State} {cards : Cards} : TickState m s n t →
      t.gs = .exit → t.gameOver = true ∨ t.victory = true →
      initializeGameCards n.rands = some cards →
      StepKind m s n (restarted t cards)

/-- The exit screen waits, ends the loop, or restarts. -/
theorem exitTick_cases {s s' : State} {rands : List Rand}
    (h : exitTick s rands = some s') :
    (SameGame s s' ∧ s'.gs = s.gs)
      ∨ ((s.gameOver = true ∨ s.victory = true)
        ∧ ∃ cards, initializeGameCards rands = some cards
          ∧ s' = restarted s cards) := by
  have hreset : restart s rands = some s' →
      ∃ cards, initializeGameCards rands = some cards
        ∧ s' = restarted s cards := by
    intro hr
    obtain ⟨cards, hc, rfl⟩ := Option.map_eq_some_iff.1 hr
    exact ⟨cards, hc, rfl⟩
  unfold exitTick at h
  by_cases hg : s.gameOver = true
  · rw [if_pos hg] at h
    split at h
    · exact .inr ⟨.inl hg, hreset h⟩
    · cases h
      exact .inl ⟨SameGame.refl s, rfl⟩
  · rw [if_neg hg] at h
    by_cases hv : s.victory = true
    · rw [if_pos hv] at h
      split at h
      · exact .inr ⟨.inr hv, hreset h⟩
      · cases h
        exact .inl ⟨SameGame.refl s, rfl⟩
    · rw [if_neg hv] at h
      cases h
      exact .inl ⟨⟨rfl, rfl, rfl, rfl, rfl⟩, rfl⟩

/-- A screen other than the game that keeps the game as it is. -/
theorem StepKind.screen {m : ModeInfo} {s t s' : State} {n : Notification}
    (hts : TickState m s n t) (hsame : SameGame t s')
    (hgame : t.gs ≠ .game) (hgs : s'.gs = t.gs ∨ t.gs ≠ .exit) :
    StepKind m s n s' := by
  obtain ⟨hsame', hgs', -⟩ := hts.frame
  rw [hgs'] at hgame hgs
  exact .quiet (hsame'.trans hsame) (hgs.imp_right fun h => ⟨hgame, h⟩)
    (.inl hgame)

/-- The timer branch, one screen at a time. -/
theorem stateTick_kind {m : ModeInfo} {s t s' : State} {n : Notification}
    (hts : TickState m s n t) (h : stateTick m t n.rands = some s') :
    StepKind m s n s' := by
  unfold stateTick at h
  cases hgs : t.gs with
  | menu =>
      rw [hgs] at h
      cases h
      refine .screen hts (menuTick_sameGame t) ?_ (.inr ?_) <;> simp [hgs]
  | game =>
      rw [hgs] at h
      dsimp only at h
      unfold gameTick at h
      cases hinit : t.initGame with
      | true =>
          rw [hinit, if_pos rfl] at h
          exact .preview hts hgs hinit h
      | false =>
          rw [hinit, if_neg (by decide)] at h
          obtain ⟨u, hu, rfl⟩ := Option.map_eq_some_iff.1 h
          exact .play hts hgs hinit hu
  | pause =>
      rw [hgs] at h
      cases h
      refine .screen hts (pauseTick_sameGame t) ?_ (.inr ?_) <;> simp [hgs]
  | highScores =>
      rw [hgs] at h
      cases h
      refine .screen hts (SameGame.refl t) ?_ (.inl rfl)
      simp [hgs]
  | instructions =>
      rw [hgs] at h
      cases h
      refine .screen hts (instructionsTick_sameGame t) ?_ (.inr ?_) <;>
        simp [hgs]
  | exit =>
      rw [hgs] at h
      rcases exitTick_cases h with ⟨hq, hqs⟩ | ⟨ho, cards, hd, rfl⟩
      · refine .screen hts hq ?_ (.inl hqs)
        simp [hgs]
      · exact .restart hts hgs ho hd
  | wait =>
      rw [hgs] at h
      cases h
      refine .screen hts (SameGame.refl t) ?_ (.inl rfl)
      simp [hgs]

/-- Every step is of one of the four kinds. -/
theorem step_kind {m : ModeInfo} {s s' : State} {n : Notification}
    (h : step m s n = some s') : StepKind m s n s' := by
  rcases step_cases h with ⟨t, hts, -, htick⟩ | ⟨hnone, skip, hin, -⟩
  · exact stateTick_kind hts htick
  · -- no timer bit, or the mouse branch left through `continue`
    obtain ⟨hsame, hgs, -⟩ := input_frame hin
    refine .quiet hsame (.inl hgs) (.inr fun t hts => ?_)
    rw [tickState_eq_some.2 hts] at hnone
    cases hnone

end Lcom.Proj
