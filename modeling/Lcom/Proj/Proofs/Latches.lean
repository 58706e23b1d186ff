/-
What one tick does to the two latches, said once per screen.

`MenuMoves`, `PauseMoves` and `InstructionsMoves` list what the tests of
a screen can do, each with its triggers and the state it leaves. Later
tests see what earlier ones cleared: choosing Play in the menu clears
both latches, choosing Instructions there clears only the button, and
resuming clears only the key.

`SameLatches` is the frame of everything else: the drawing, the click,
the match check and the restart touch neither latch.
-/
import Lcom.Proj.Proofs.Dispatch
import Lcom.Proj.Proofs.Outcome

namespace Lcom.Proj

open Machine

-- ============================================================ the frame

/-- The latches, the way back from `Instructions`, and the cursor. -/
structure SameLatches (s s' : State) : Prop where
  scancode : s'.scancode = s.scancode
  prevState : s'.prevState = s.prevState
  driver : s'.driver = s.driver
  mouse : s'.mouse = s.mouse

theorem SameLatches.refl (s : State) : SameLatches s s :=
  ⟨rfl, rfl, rfl, rfl⟩

theorem SameLatches.trans {s₁ s₂ s₃ : State} (h : SameLatches s₁ s₂)
    (h' : SameLatches s₂ s₃) : SameLatches s₁ s₃ :=
  ⟨h'.scancode.trans h.scancode, h'.prevState.trans h.prevState,
    h'.driver.trans h.driver, h'.mouse.trans h.mouse⟩

theorem SameLatches.lb {s s' : State} (h : SameLatches s s') :
    s'.lb = s.lb := by
  unfold State.lb
  rw [h.driver]

theorem draw_latches {m : ModeInfo} {s s' : State}
    (h : draw m s = some s') : SameLatches s s' ∧ s'.gs = s.gs := by
  obtain ⟨b, -, rfl⟩ := Option.map_eq_some_iff.1 h
  exact ⟨⟨rfl, rfl, rfl, rfl⟩, rfl⟩

theorem previewStart_latches (s : State) :
    SameLatches s (previewStart s) ∧ (previewStart s).gs = s.gs := by
  unfold previewStart
  split <;> exact ⟨⟨rfl, rfl, rfl, rfl⟩, rfl⟩

theorem pauseKey_latches (s : State) : SameLatches s (pauseKey s) := by
  unfold pauseKey
  split <;> exact ⟨rfl, rfl, rfl, rfl⟩

theorem clickPhase_latches (m : ModeInfo) (s : State) :
    SameLatches s (clickPhase m s) := by
  unfold clickPhase
  split
  · split <;> exact ⟨rfl, rfl, rfl, rfl⟩
  · exact ⟨rfl, rfl, rfl, rfl⟩

/-- A round of the match check can end the game and touches no latch. -/
theorem matchStep_latches (acc : State × Option (Fin 16)) (i : Fin 16) :
    SameLatches acc.1 (matchStep acc i).1
      ∧ ((matchStep acc i).1.gs = acc.1.gs
        ∨ (matchStep acc i).1.gs = .exit) := by
  have hcharged : SameLatches acc.1 (acc.1.charged i)
      ∧ ((acc.1.charged i).gs = acc.1.gs ∨ (acc.1.charged i).gs = .exit) := by
    unfold State.charged State.chargeLife
    split
    · split
      · exact ⟨⟨rfl, rfl, rfl, rfl⟩, .inr rfl⟩
      · exact ⟨⟨rfl, rfl, rfl, rfl⟩, .inl rfl⟩
    · exact ⟨SameLatches.refl _, .inl rfl⟩
  rcases matchStep_cases acc i with ⟨-, h⟩ | ⟨-, -, h⟩ | ⟨k, -, -, h⟩
  · rw [h]
    exact ⟨SameLatches.refl _, .inl rfl⟩
  · rw [h]
    exact ⟨SameLatches.refl _, .inl rfl⟩
  · rcases h with ⟨-, h⟩ | ⟨-, h⟩
    · rw [h]
      exact ⟨⟨rfl, rfl, rfl, rfl⟩, .inl rfl⟩
    · rw [h]
      exact ⟨⟨hcharged.1.scancode, hcharged.1.prevState, hcharged.1.driver,
        hcharged.1.mouse⟩, hcharged.2⟩

theorem matchPhase_latches (s : State) :
    SameLatches s (matchPhase s)
      ∧ ((matchPhase s).gs = s.gs ∨ (matchPhase s).gs = .exit) := by
  unfold matchPhase
  split
  · exact ⟨SameLatches.refl s, .inl rfl⟩
  · unfold matchRounds
    refine rounds_induction
      (P := fun _ (acc : State × Option (Fin 16)) => SameLatches s acc.1
        ∧ (acc.1.gs = s.gs ∨ acc.1.gs = .exit))
      ⟨SameLatches.refl s, .inl rfl⟩ ?_ 16 (Nat.le_refl _)
    intro k hk h
    obtain ⟨hsame, hgs⟩ := matchStep_latches
      (rounds matchStep k (s, none)) ⟨k, hk⟩
    refine ⟨h.1.trans hsame, ?_⟩
    rcases hgs with hgs | hgs
    · rw [hgs]
      exact h.2
    · exact .inr hgs

theorem victoryPhase_latches (s : State) :
    SameLatches s (victoryPhase s)
      ∧ ((victoryPhase s).gs = s.gs ∨ (victoryPhase s).gs = .exit) := by
  unfold victoryPhase
  split
  · exact ⟨⟨rfl, rfl, rfl, rfl⟩, .inr rfl⟩
  · exact ⟨SameLatches.refl s, .inl rfl⟩

/-- A tick of the game touches no latch. The preview stays in the game;
a playing tick opens the pause menu on escape, and may end the game. -/
theorem gameTick_latches {m : ModeInfo} {s s' : State}
    (h : gameTick m s = some s') :
    SameLatches s s'
      ∧ (s.initGame = true → s'.gs = s.gs)
      ∧ (s.initGame = false → s'.gs = (pauseKey s).gs ∨ s'.gs = .exit) := by
  unfold gameTick at h
  cases hinit : s.initGame with
  | true =>
      rw [hinit, if_pos rfl] at h
      obtain ⟨hsame, hgs⟩ := draw_latches h
      obtain ⟨hsame₀, hgs₀⟩ := previewStart_latches s
      exact ⟨hsame₀.trans hsame, fun _ => hgs.trans hgs₀,
        fun h => by cases h⟩
  | false =>
      rw [hinit, if_neg (by decide)] at h
      obtain ⟨u, hu, rfl⟩ := Option.map_eq_some_iff.1 h
      obtain ⟨s₁, hdraw, rfl⟩ := Option.map_eq_some_iff.1 hu
      have hdrawn : SameLatches s s₁ ∧ s₁.gs = s.gs := by
        split at hdraw
        · exact draw_latches hdraw
        · cases hdraw
          exact ⟨SameLatches.refl s, rfl⟩
      have hpause : (pauseKey s₁).gs = (pauseKey s).gs := by
        unfold pauseKey
        rw [hdrawn.1.scancode]
        split
        · rfl
        · exact hdrawn.2
      have hclick : (clickPhase m (pauseKey s₁)).gs = (pauseKey s).gs :=
        (clickPhase_frame m (pauseKey s₁)).2.1.trans hpause
      obtain ⟨hmatch, hmgs⟩ := matchPhase_latches (clickPhase m (pauseKey s₁))
      obtain ⟨hvic, hvgs⟩ :=
        victoryPhase_latches (matchPhase (clickPhase m (pauseKey s₁)))
      refine ⟨(((hdrawn.1.trans (pauseKey_latches s₁)).trans
        (clickPhase_latches m _)).trans hmatch).trans hvic,
        (fun h => by cases h), fun _ => ?_⟩
      rcases hvgs with hvgs | hvgs
      · rcases hmgs with hmgs | hmgs
        · exact .inl (hvgs.trans (hmgs.trans hclick))
        · exact .inr (hvgs.trans hmgs)
      · exact .inr hvgs

-- ========================================================= the triggers

section

variable {s : State} {code : UInt8} {pressed : Bool} {c : Trigger}

theorem trigger_eq_none :
    s.trigger code pressed = none ↔ s.scancode ≠ code ∧ pressed = false := by
  unfold State.trigger
  by_cases h : s.scancode = code <;> simp [h]

theorem trigger_eq_some :
    s.trigger code pressed = some c
      ↔ (c = .key ∧ s.scancode = code)
        ∨ (c = .button ∧ s.scancode ≠ code ∧ pressed = true) := by
  unfold State.trigger
  by_cases h : s.scancode = code
  · cases c <;> simp [h]
  · cases c <;> simp [h]

theorem trigger_isSome :
    (s.trigger code pressed).isSome = (s.scancode == code || pressed) := by
  unfold State.trigger
  cases s.scancode == code <;> cases pressed <;> rfl

end

/-- The lines of the menus lie apart. -/
theorem cursorIn_apart {s : State} {x₀ x₁ y₀ y₁ x₀' x₁' y₀' y₁' : Int}
    (h : s.cursorIn x₀ x₁ y₀ y₁ = true) (hy : y₁ < y₀') :
    s.cursorIn x₀' x₁' y₀' y₁' = false := by
  unfold State.cursorIn at h ⊢
  simp only [Bool.and_eq_true, decide_eq_true_eq] at h
  simp only [Bool.and_eq_false_iff, decide_eq_false_iff_not]
  omega

theorem onInstructions_of_onPlay {s : State} (h : s.onPlay = true) :
    s.onInstructions = false := by
  unfold State.onPlay at h
  unfold State.onInstructions
  rw [Bool.and_eq_true] at h
  rw [cursorIn_apart h.2 (by decide), Bool.and_false]

theorem onExit_of_onPlay {s : State} (h : s.onPlay = true) :
    s.onExit = false := by
  unfold State.onPlay at h
  unfold State.onExit
  rw [Bool.and_eq_true] at h
  rw [cursorIn_apart h.2 (by decide), Bool.and_false]

-- ========================================================== the screens

/-- What the tests of the menu do. -/
inductive MenuMoves (s : State) : List Trigger → State → Prop
  | play {c : Trigger} : s.playTrigger = some c →
      MenuMoves s [c] (State.clearLb
        { s with scancode := 0, tmrTckCounter := 0, gs := .game })
  | instructions {c : Trigger} : s.playTrigger = none →
      s.instructionsTrigger = some c → s.scancode ≠ eKeyBreakcode →
      MenuMoves s [c] (State.clearLb { s with gs := .instructions })
  | instructionsExit : s.onInstructions = true →
      s.scancode = eKeyBreakcode →
      MenuMoves s [.button, .key] (State.clearLb { s with gs := .exit })
  | exit {c : Trigger} : s.playTrigger = none →
      s.instructionsTrigger = none → s.exitTrigger = some c →
      MenuMoves s [c] { s with gs := .exit }
  | stay : s.playTrigger = none → s.instructionsTrigger = none →
      s.exitTrigger = none → MenuMoves s [] s

/-- The menu is its rules, tried in order. -/
theorem menuTick_eq_run (s : State) :
    menuTick s = Rule.run menuRules s := by
  unfold menuTick State.chosePlay State.choseInstructions State.choseExit
  simp only [menuRules, Rule.run, State.playTrigger,
    State.instructionsTrigger, State.exitTrigger, trigger_isSome]
  rfl

theorem menuTick_moves (s : State) :
    MenuMoves s (Rule.causes menuRules s) (menuTick s) := by
  rw [menuTick_eq_run]
  unfold menuRules
  cases hplay : s.playTrigger with
  | some c =>
      rw [Rule.run_fired hplay, Rule.causes_fired hplay,
        Rule.run_silent rfl, Rule.causes_silent rfl,
        Rule.run_silent rfl, Rule.causes_silent rfl]
      exact .play hplay
  | none =>
      rw [Rule.run_silent hplay, Rule.causes_silent hplay]
      cases hins : s.instructionsTrigger with
      | some c =>
          rw [Rule.run_fired hins, Rule.causes_fired hins]
          -- the button is down no more, but the key is still there
          by_cases hcode : s.scancode = eKeyBreakcode
          · have hexit : (State.clearLb
                { s with gs := .instructions }).exitTrigger = some .key :=
              trigger_eq_some.2 (.inl ⟨rfl, hcode⟩)
            rw [Rule.run_fired hexit, Rule.causes_fired hexit]
            rcases trigger_eq_some.1 hins with ⟨-, hkey⟩ | ⟨rfl, -, hon⟩
            · rw [hcode] at hkey
              cases hkey
            · exact .instructionsExit hon hcode
          · have hexit : (State.clearLb
                { s with gs := .instructions }).exitTrigger = none :=
              trigger_eq_none.2 ⟨hcode, rfl⟩
            rw [Rule.run_silent hexit, Rule.causes_silent hexit]
            exact .instructions hplay hins hcode
      | none =>
          rw [Rule.run_silent hins, Rule.causes_silent hins]
          cases hexit : s.exitTrigger with
          | some c =>
              rw [Rule.run_fired hexit, Rule.causes_fired hexit]
              exact .exit hplay hins hexit
          | none =>
              rw [Rule.run_silent hexit, Rule.causes_silent hexit]
              exact .stay hplay hins hexit

/-- What the tests of the pause menu do. Resuming by the key leaves the
button to the tests after it. -/
inductive PauseMoves (s : State) : List Trigger → State → Prop
  | resume {c : Trigger} : s.playTrigger = some c →
      PauseMoves s [c] { s with scancode := 0, gs := .game }
  | resumeInstructions : s.playTrigger = some .key →
      s.onInstructions = true →
      PauseMoves s [.key, .button] { s.clearLb with
        gs := .instructions, prevState := .game, scancode := 0 }
  | resumeExit : s.playTrigger = some .key → s.onExit = true →
      PauseMoves s [.key, .button] { s with gs := .exit, scancode := 0 }
  | instructions {c : Trigger} : s.playTrigger = none →
      s.instructionsTrigger = some c →
      PauseMoves s [c] { s.clearLb with
        gs := .instructions, prevState := .game, scancode := 0 }
  | exit {c : Trigger} : s.playTrigger = none →
      s.instructionsTrigger = none → s.exitTrigger = some c →
      PauseMoves s [c] { s with gs := .exit, scancode := 0 }
  | stay : s.playTrigger = none → s.instructionsTrigger = none →
      s.exitTrigger = none → PauseMoves s [] s

/-- A cleared key triggers nothing. -/
theorem trigger_cleared {s : State} {code : UInt8} {pressed : Bool}
    (h : s.scancode = 0) (hcode : code ≠ 0) :
    s.trigger code pressed = if pressed then some .button else none := by
  unfold State.trigger
  rw [if_neg]
  rw [h, beq_iff_eq]
  exact fun h => hcode h.symm

/-- So is the pause menu. -/
theorem pauseTick_eq_run (s : State) :
    pauseTick s = Rule.run pauseRules s := by
  unfold pauseTick State.chosePlay State.choseInstructions State.choseExit
  simp only [pauseRules, Rule.run, State.playTrigger,
    State.instructionsTrigger, State.exitTrigger, trigger_isSome]
  rfl

/-- Play is chosen: the code has been cleared before the other tests, so
these can fire by the button alone, which is not over play then. -/
theorem pauseTick_resumes {s : State} {c : Trigger}
    (hplay : s.playTrigger = some c) :
    PauseMoves s (Rule.causes pauseRules s) (pauseTick s) := by
  rw [pauseTick_eq_run]
  unfold pauseRules
  rw [Rule.run_fired hplay, Rule.causes_fired hplay]
  have hkey : s.onInstructions = true ∨ s.onExit = true → c = .key := by
    intro hon
    rcases trigger_eq_some.1 hplay with ⟨hc, -⟩ | ⟨-, -, hbox⟩
    · exact hc
    · rw [onInstructions_of_onPlay hbox, onExit_of_onPlay hbox] at hon
      simp at hon
  have hins : State.instructionsTrigger { s with scancode := 0, gs := .game }
      = if s.onInstructions then some .button else none :=
    trigger_cleared rfl (by decide)
  have hexit : State.exitTrigger { s with scancode := 0, gs := .game }
      = if s.onExit then some .button else none :=
    trigger_cleared rfl (by decide)
  cases hon : s.onInstructions with
  | true =>
      rw [hon, if_pos rfl] at hins
      rw [Rule.run_fired hins, Rule.causes_fired hins,
        Rule.run_silent rfl, Rule.causes_silent rfl]
      cases hkey (.inl hon)
      exact .resumeInstructions hplay hon
  | false =>
      rw [hon, if_neg (by decide)] at hins
      rw [Rule.run_silent hins, Rule.causes_silent hins]
      cases hex : s.onExit with
      | true =>
          rw [hex, if_pos rfl] at hexit
          rw [Rule.run_fired hexit, Rule.causes_fired hexit]
          cases hkey (.inr hex)
          exact .resumeExit hplay hex
      | false =>
          rw [hex, if_neg (by decide)] at hexit
          rw [Rule.run_silent hexit, Rule.causes_silent hexit]
          exact .resume hplay

theorem pauseTick_moves (s : State) :
    PauseMoves s (Rule.causes pauseRules s) (pauseTick s) := by
  cases hplay : s.playTrigger with
  | some c => exact pauseTick_resumes hplay
  | none =>
      rw [pauseTick_eq_run]
      unfold pauseRules
      rw [Rule.run_silent hplay, Rule.causes_silent hplay]
      cases hins : s.instructionsTrigger with
      | some c =>
          rw [Rule.run_fired hins, Rule.causes_fired hins,
            Rule.run_silent rfl, Rule.causes_silent rfl]
          exact .instructions hplay hins
      | none =>
          rw [Rule.run_silent hins, Rule.causes_silent hins]
          cases hexit : s.exitTrigger with
          | some c =>
              rw [Rule.run_fired hexit, Rule.causes_fired hexit]
              exact .exit hplay hins hexit
          | none =>
              rw [Rule.run_silent hexit, Rule.causes_silent hexit]
              exact .stay hplay hins hexit

/-- What the test of the instructions does. -/
inductive InstructionsMoves (s : State) : List Trigger → State → Prop
  | resume {c : Trigger} : s.prevState = .game →
      s.trigger escape s.lb = some c →
      InstructionsMoves s [c] (State.clearLb
        { s with gs := .game, prevState := .instructions })
  | menu : s.prevState ≠ .game → s.scancode = escape →
      InstructionsMoves s [.key] (State.clearLb { s with gs := .menu })
  | stay : InstructionsMoves s [] s
  | clear : s.prevState ≠ .game → InstructionsMoves s [] s.clearLb

theorem instructionsTick_moves (s : State) :
    InstructionsMoves s (Rule.causes (instructionsRules s.prevState) s)
      (instructionsTick s) := by
  unfold instructionsRules instructionsTick
  by_cases hprev : s.prevState = .game
  · rw [if_pos hprev, if_pos hprev, ← trigger_isSome]
    cases hleave : s.trigger escape s.lb with
    | some c =>
        rw [Rule.causes_fired hleave]
        exact .resume hprev hleave
    | none =>
        rw [Rule.causes_silent hleave]
        exact .stay
  · rw [if_neg hprev, if_neg hprev]
    by_cases hcode : s.scancode = escape
    · have hleave : s.trigger escape false = some .key :=
        trigger_eq_some.2 (.inl ⟨rfl, hcode⟩)
      rw [Rule.causes_fired hleave, if_pos (by simp [hcode])]
      exact .menu hprev hcode
    · have hstay : s.trigger escape false = none :=
        trigger_eq_none.2 ⟨hcode, rfl⟩
      rw [Rule.causes_silent hstay, if_neg (by simp [hcode])]
      exact .clear hprev

/-- The exit screen restarts, or shows the outcome, or ends the loop. -/
theorem exitTick_eq (s : State) (rands : List Rand) :
    exitTick s rands
      = if s.restarts then restart s rands
        else some { s with
          condition := s.condition && (s.gameOver || s.victory) } := by
  obtain ⟨gs, prevState, scancode, driver, mouse, counter, board, p1,
    flipping, initGame, gameOver, victory, condition⟩ := s
  unfold exitTick State.restarts
  dsimp only
  by_cases htick : counter % 240 = 0
  · cases gameOver <;> cases victory <;> simp [htick]
  · cases gameOver <;> cases victory <;> simp [htick]

/-- What a tick can do, screen by screen, with its moves. -/
inductive TickMoves (m : ModeInfo) (t : State) : List Trigger → State → Prop
  | menu {ms : List Trigger} {s' : State} : t.gs = .menu →
      MenuMoves t ms s' → TickMoves m t ms s'
  | game {s' : State} : t.gs = .game → gameTick m t = some s' →
      TickMoves m t (gameMoves m t) s'
  | pause {ms : List Trigger} {s' : State} : t.gs = .pause →
      PauseMoves t ms s' → TickMoves m t ms s'
  | instructions {ms : List Trigger} {s' : State} : t.gs = .instructions →
      InstructionsMoves t ms s' → TickMoves m t ms s'
  | restart {cards : Cards} : t.gs = .exit → t.restarts = true →
      TickMoves m t [.outcome] (restarted t cards)
  | outcome : t.gs = .exit → t.restarts = false →
      TickMoves m t [] { t with
        condition := t.condition && (t.gameOver || t.victory) }
  | unused : t.gs = .highScores ∨ t.gs = .wait → TickMoves m t [] t

theorem stateTick_moves {m : ModeInfo} {t s' : State} {rands : List Rand}
    (hs : stateTick m t rands = some s') :
    TickMoves m t (tickMoves m t) s' := by
  unfold stateTick at hs
  unfold tickMoves
  cases hgs : t.gs with
  | menu =>
      rw [hgs] at hs
      cases hs
      exact .menu hgs (menuTick_moves t)
  | game =>
      rw [hgs] at hs
      exact .game hgs hs
  | pause =>
      rw [hgs] at hs
      cases hs
      exact .pause hgs (pauseTick_moves t)
  | instructions =>
      rw [hgs] at hs
      cases hs
      exact .instructions hgs (instructionsTick_moves t)
  | exit =>
      rw [hgs] at hs
      dsimp only at hs ⊢
      rw [exitTick_eq] at hs
      cases hr : t.restarts with
      | true =>
          rw [hr, if_pos rfl] at hs
          obtain ⟨cards, -, rfl⟩ := Option.map_eq_some_iff.1 hs
          exact .restart hgs hr
      | false =>
          rw [hr, if_neg (by decide)] at hs
          cases hs
          exact .outcome hgs hr
  | highScores =>
      rw [hgs] at hs
      cases hs
      exact .unused (.inl hgs)
  | wait =>
      rw [hgs] at hs
      cases hs
      exact .unused (.inr hgs)

end Lcom.Proj
