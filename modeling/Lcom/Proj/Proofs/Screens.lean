/-
The screens around the game: pausing keeps it, and the instructions
lead back to where they were opened.

`prevState` is the way back. Only `case Pause` sets it to `Game`, in the
branch that opens the instructions, and `case Instructions` takes it
back as it leaves; so it says `Game` exactly while a paused game waits
behind the instructions (`VisitInv`). The ghost of a run is the screen
from which the instructions were last opened.

A visit is a stretch of notifications that find `gs` at `Instructions`.
The menu tick that sets `Instructions` and then `Exit`, and the pause
tick that resumes and then opens the instructions, are one step each.
-/
import Lcom.Proj.Proofs.Latches
import Lcom.Proj.Proofs.Replay

namespace Lcom.Proj

open Machine

-- =========================================================== the visits

/-- The screen from which `Instructions` was last entered. -/
def enteredFrom (origin : GameState) (s s' : State) : GameState :=
  if s.gs ≠ .instructions ∧ s'.gs = .instructions then s.gs else origin

/-- The loop with the origin of its visits to `Instructions`. -/
abbrev VisitReach : State × GameState → Prop :=
  Reachable (withHistory (step mode0x115) enteredFrom)
    (fun p => Starts p.1) (fun _ _ => True)

/-- `prevState` is `Game` while a paused game waits behind the
instructions, and only then. -/
structure VisitInv (s : State) (origin : GameState) : Prop where
  prevState : s.prevState = .game → s.gs = .instructions
  origin : s.gs = .instructions →
    (origin = .pause ∧ s.prevState = .game)
      ∨ (origin = .menu ∧ s.prevState ≠ .game)

/-- What a tick does to the screen and the way back. -/
structure VisitTick (t s' : State) : Prop where
  prevState : s'.prevState = .game → s'.gs = .instructions
  enters : t.gs ≠ .instructions → s'.gs = .instructions →
    (t.gs = .pause ∧ s'.prevState = .game)
      ∨ (t.gs = .menu ∧ s'.prevState ≠ .game)
  leaves : t.gs = .instructions →
    (s'.gs = .instructions ∧ s'.prevState = t.prevState)
      ∨ (s'.gs = .game ∧ t.prevState = .game)
      ∨ (s'.gs = .menu ∧ t.prevState ≠ .game)

section

variable {t s' : State}

/-- A screen that opens no instructions and sets no way back. -/
theorem VisitTick.elsewhere (hprev : t.prevState ≠ .game)
    (hsame : s'.prevState = t.prevState) (hgs : t.gs ≠ .instructions)
    (hgs' : s'.gs ≠ .instructions) : VisitTick t s' :=
  ⟨fun h => absurd (hsame ▸ h) hprev, fun _ h => absurd h hgs',
    fun h => absurd h hgs⟩

theorem menu_visit (hgs : t.gs = .menu) (hprev : t.prevState ≠ .game)
    {ms : List Trigger} (hm : MenuMoves t ms s') : VisitTick t s' := by
  have hne : t.gs ≠ .instructions := by simp [hgs]
  cases hm with
  | play => exact .elsewhere hprev rfl hne (by simp [State.clearLb])
  | instructions =>
      exact ⟨fun h => absurd h hprev, fun _ _ => .inr ⟨hgs, hprev⟩,
        fun h => absurd h hne⟩
  | instructionsExit =>
      exact .elsewhere hprev rfl hne (by simp [State.clearLb])
  | exit => exact .elsewhere hprev rfl hne (by simp)
  | stay => exact .elsewhere hprev rfl hne hne

theorem pause_visit (hgs : t.gs = .pause) (hprev : t.prevState ≠ .game)
    {ms : List Trigger} (hm : PauseMoves t ms s') : VisitTick t s' := by
  have hne : t.gs ≠ .instructions := by simp [hgs]
  cases hm with
  | resume => exact .elsewhere hprev rfl hne (by simp)
  | resumeInstructions =>
      exact ⟨fun _ => rfl, fun _ _ => .inl ⟨hgs, rfl⟩,
        fun h => absurd h hne⟩
  | resumeExit => exact .elsewhere hprev rfl hne (by simp)
  | instructions =>
      exact ⟨fun _ => rfl, fun _ _ => .inl ⟨hgs, rfl⟩,
        fun h => absurd h hne⟩
  | exit => exact .elsewhere hprev rfl hne (by simp)
  | stay => exact .elsewhere hprev rfl hne hne

theorem instructions_visit (hgs : t.gs = .instructions)
    {ms : List Trigger} (hm : InstructionsMoves t ms s') :
    VisitTick t s' := by
  have hin : ∀ {P : Prop}, t.gs ≠ .instructions → P :=
    fun hne => absurd hgs hne
  cases hm with
  | resume hprev =>
      exact ⟨fun h => (by cases h), hin,
        fun _ => .inr (.inl ⟨rfl, hprev⟩)⟩
  | menu hprev =>
      exact ⟨fun h => absurd h hprev, hin,
        fun _ => .inr (.inr ⟨rfl, hprev⟩)⟩
  | stay => exact ⟨fun _ => hgs, hin, fun _ => .inl ⟨hgs, rfl⟩⟩
  | clear => exact ⟨fun _ => hgs, hin, fun _ => .inl ⟨hgs, rfl⟩⟩

theorem game_visit (hgs : t.gs = .game) (hprev : t.prevState ≠ .game)
    (hs : gameTick mode0x115 t = some s') : VisitTick t s' := by
  obtain ⟨hsame, hpre, hplay⟩ := gameTick_latches hs
  refine .elsewhere hprev hsame.prevState (by simp [hgs]) ?_
  cases hinit : t.initGame with
  | true => simp [hpre hinit, hgs]
  | false =>
      rcases hplay hinit with h | h
      · rw [h]
        rcases (pauseKey_frame t).2.2.2.2 with hp | hp <;> simp [hp, hgs]
      · simp [h]

theorem TickMoves.visit {ms : List Trigger}
    (hprev : t.prevState = .game → t.gs = .instructions)
    (hs : TickMoves mode0x115 t ms s') : VisitTick t s' := by
  have hnot : t.gs ≠ .instructions → t.prevState ≠ .game :=
    fun hne hgame => hne (hprev hgame)
  cases hs with
  | menu hgs hm => exact menu_visit hgs (hnot (by simp [hgs])) hm
  | game hgs hs => exact game_visit hgs (hnot (by simp [hgs])) hs
  | pause hgs hm => exact pause_visit hgs (hnot (by simp [hgs])) hm
  | instructions hgs hm => exact instructions_visit hgs hm
  | restart hgs =>
      have hne : t.gs ≠ .instructions := by simp [hgs]
      exact .elsewhere (hnot hne) rfl hne (by simp [restarted])
  | outcome hgs =>
      have hne : t.gs ≠ .instructions := by simp [hgs]
      exact .elsewhere (hnot hne) rfl hne hne
  | unused hgs =>
      have hne : t.gs ≠ .instructions := by
        rcases hgs with h | h <;> simp [h]
      exact .elsewhere (hnot hne) rfl hne hne

/-- One turn of the loop, whether it ticks or not. -/
theorem visitTick_of_step {s : State} {n : Notification}
    (hprev : s.prevState = .game → s.gs = .instructions)
    (hs : step mode0x115 s n = some s') : VisitTick s s' := by
  rcases step_cases hs with ⟨t, hts, -, htick⟩ | ⟨-, skip, hin, -⟩
  · obtain ⟨s₁, hin, -, rfl⟩ := hts
    have hp : (timerIntHandler s₁).prevState = s.prevState :=
      (input_latches hin).1
    have hg : (timerIntHandler s₁).gs = s.gs := (input_frame hin).2.1
    have hv := (stateTick_moves htick).visit (by rw [hp, hg]; exact hprev)
    refine ⟨hv.prevState, ?_, ?_⟩
    · rw [← hg]
      exact hv.enters
    · rw [← hg, ← hp]
      exact hv.leaves
  · have hp := (input_latches hin).1
    have hg := (input_frame hin).2.1
    refine ⟨by rw [hp, hg]; exact hprev, fun hne h => ?_, fun h => ?_⟩
    · exact absurd (hg ▸ h) hne
    · exact .inl ⟨hg.trans h, hp⟩

end

-- ====================================================== over whole runs

theorem visitInv_reach {p : State × GameState} (h : VisitReach p) :
    VisitInv p.1 p.2 := by
  refine h.invariant (I := fun p => VisitInv p.1 p.2) ?_ ?_
  · intro p hp
    obtain ⟨rands, cards, -, hs⟩ := hp
    rw [hs]
    exact ⟨fun h => (by cases h), fun h => by cases h⟩
  · intro p n p' _ hinv _ hstep
    obtain ⟨hs, hg⟩ := withHistory_eq_some hstep
    have hv := visitTick_of_step hinv.prevState hs
    refine ⟨hv.prevState, fun hin => ?_⟩
    rw [hg]
    unfold enteredFrom
    by_cases hne : p.1.gs = .instructions
    · -- the visit goes on
      rw [if_neg fun h => h.1 hne]
      rcases hv.leaves hne with ⟨-, hsame⟩ | ⟨h, -⟩ | ⟨h, -⟩
      · rw [hsame]
        exact hinv.origin hne
      · rw [hin] at h
        cases h
      · rw [hin] at h
        cases h
    · rw [if_pos ⟨hne, hin⟩]
      exact hv.enters hne hin

/-- The pause menu and the instructions keep the game. -/
theorem screens_sameGame {s s' : State} {n : Notification}
    (hgs : s.gs = .pause ∨ s.gs = .instructions)
    (hs : step mode0x115 s n = some s') : SameGame s s' := by
  have hgame : s.gs ≠ .game := by
    rcases hgs with h | h <;> simp [h]
  have hexit : s.gs ≠ .exit := by
    rcases hgs with h | h <;> simp [h]
  cases step_kind hs with
  | quiet hsame => exact hsame
  | preview hts hg => exact absurd (hts.frame.2.1 ▸ hg) hgame
  | play hts hg => exact absurd (hts.frame.2.1 ▸ hg) hgame
  | restart hts hg => exact absurd (hts.frame.2.1 ▸ hg) hexit

/-- Pausing preserves the game and the instructions return where they
came from. -/
theorem paused_game_kept {p : State × GameState} {n : Notification}
    {s' : State} (h : VisitReach p)
    (hs : step mode0x115 p.1 n = some s') :
    ((p.1.gs = .pause ∨ p.1.gs = .instructions) →
        s'.board.cardArray = p.1.board.cardArray
        ∧ s'.board.increaseWidth = p.1.board.increaseWidth
        ∧ s'.board.otherSide = p.1.board.otherSide
        ∧ s'.p1 = p.1.p1 ∧ s'.initGame = p.1.initGame)
      ∧ (p.1.gs = .instructions → s'.gs ≠ .instructions →
        (s'.gs = .game ∨ s'.gs = .menu)
        ∧ (s'.gs = .game ↔ p.2 = .pause)
        ∧ (s'.gs = .menu ↔ p.2 = .menu))
      ∧ (p.1.prevState = .game → p.1.gs = .instructions) := by
  have hinv := visitInv_reach h
  refine ⟨fun hgs => ?_, fun hin hout => ?_, hinv.prevState⟩
  · have hsame := screens_sameGame hgs hs
    rw [hsame.board]
    exact ⟨rfl, rfl, rfl, hsame.p1, hsame.initGame⟩
  · have hleave := ((visitTick_of_step hinv.prevState hs).leaves hin)
    rcases hleave with ⟨hstay, -⟩ | ⟨hgs, hprev⟩ | ⟨hgs, hprev⟩
    · exact absurd hstay hout
    · rcases hinv.origin hin with ⟨ho, -⟩ | ⟨-, hne⟩
      · simp [hgs, ho]
      · exact absurd hprev hne
    · rcases hinv.origin hin with ⟨-, hgame⟩ | ⟨ho, -⟩
      · exact absurd hgame hprev
      · simp [hgs, ho]

/-- Opened from the menu, the instructions lead back to the menu. -/
theorem paused_game_kept_menu :
    ∃ p n s', VisitReach p ∧ p.1.gs = .instructions
      ∧ step mode0x115 p.1 n = some s' ∧ s'.gs ≠ .instructions
      ∧ p.2 = .menu ∧ s'.gs = .menu := by
  have hreach : VisitReach (State.clearLb { timerIntHandler
      (start orderedCards) with
        gs := .instructions, scancode := iKeyBreakcode }, .menu) :=
    .step (i := keyTick iKeyBreakcode) (s := (start orderedCards, .menu))
      (.start ⟨orderedRands, orderedCards, orderedRands_deal, rfl⟩)
      trivial rfl
  refine ⟨_, keyTick escape, _, hreach, rfl, rfl, by decide, rfl, ?_⟩
  exact ((paused_game_kept (n := keyTick escape) hreach rfl).2.1 rfl
    (by decide)).2.2.2 rfl

end Lcom.Proj
