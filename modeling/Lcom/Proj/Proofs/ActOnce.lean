/-
A key and a click act once, where the code clears its latches.

For the keys the invariant is `KeyInv`: as long as nothing was
delivered since `gs` was entered, the code in the latch is one no test
of the screen looks for. Three branches break it, and `noStaleKey` is
their absence; every other branch either clears the latch or leaves a
code the next screen ignores.

For the button the invariant is `ClickInv`: after a move by the button
the latch is down until the next packet, or the loop is about to end.
Resuming by the button is the one branch that breaks it.
-/
import Lcom.Proj.Proofs.Latches
import Lcom.Proj.Proofs.Replay

namespace Lcom.Proj

open Machine

-- ============================================================= the keys

/-- The screen has no test for the code. -/
def Inert : GameState → UInt8 → Prop
  | .menu, code => code ≠ pKeyBreakcode ∧ code ≠ iKeyBreakcode
      ∧ code ≠ eKeyBreakcode
  | .pause, code => code ≠ pKeyBreakcode ∧ code ≠ iKeyBreakcode
      ∧ code ≠ eKeyBreakcode
  | .game, code => code ≠ escape
  | .instructions, code => code ≠ escape
  | .exit, _ => True
  | .highScores, _ => True
  | .wait, _ => True

/-- A code that was not delivered to this screen does nothing in it. -/
structure KeyInv (s : State) (l : KeyLog) : Prop where
  inert : l.fresh = false → Inert s.gs s.scancode
  unspent : l.fresh = true → l.spent = false

/-- After a move only the screen and the code matter. -/
theorem KeyInv.moved {s : State} (l : KeyLog) (c : Trigger)
    (h : Inert s.gs s.scancode) : KeyInv s (l.move c) := by
  cases c <;> exact ⟨fun _ => h, fun hf => by cases hf⟩

/-- A test of the screen that fires is allowed. -/
theorem KeyInv.allows {s : State} {l : KeyLog} (h : KeyInv s l)
    {code : UInt8} {pressed : Bool} {c : Trigger}
    (hc : s.trigger code pressed = some c) (hact : ¬Inert s.gs code) :
    l.Allows c := by
  intro hkey
  rcases trigger_eq_some.1 hc with ⟨-, hcode⟩ | ⟨hb, -, -⟩
  · have hfresh : l.fresh = true := by
      cases hf : l.fresh with
      | true => rfl
      | false => exact absurd (hcode ▸ h.inert hf) hact
    exact ⟨hfresh, h.unspent hfresh⟩
  · rw [hb] at hkey
    cases hkey

/-- The menu and the pause menu have tests for the same three keys. -/
theorem menuKey_active {gs : GameState} {code : UInt8}
    (hgs : gs = .menu ∨ gs = .pause)
    (hcode : code = pKeyBreakcode ∨ code = iKeyBreakcode
      ∨ code = eKeyBreakcode) : ¬Inert gs code := by
  intro hinert
  rcases hgs with rfl | rfl <;>
    (obtain ⟨h1, h2, h3⟩ := hinert; tauto)

/-- A test of either menu that fires is allowed. -/
theorem KeyInv.allows_menu {s : State} {l : KeyLog} (h : KeyInv s l)
    (hgs : s.gs = .menu ∨ s.gs = .pause) {c : Trigger}
    (hc : s.playTrigger = some c ∨ s.instructionsTrigger = some c
      ∨ s.exitTrigger = some c) : l.Allows c := by
  rcases hc with hc | hc | hc
  · exact h.allows hc (menuKey_active hgs (.inl rfl))
  · exact h.allows hc (menuKey_active hgs (.inr (.inl rfl)))
  · exact h.allows hc (menuKey_active hgs (.inr (.inr rfl)))

theorem allows_button (l : KeyLog) : l.Allows .button := fun h => by cases h

theorem allows_outcome (l : KeyLog) : l.Allows .outcome :=
  fun h => by cases h

section

variable {t s' : State} {l : KeyLog}

/-- What a tick has to keep. -/
def KeyTick (l : KeyLog) (moves : List Trigger) (s' : State) : Prop :=
  Through KeyLog.move KeyLog.Allows l moves
    ∧ KeyInv s' (moves.foldl KeyLog.move l)

theorem KeyTick.one {c : Trigger} (hc : l.Allows c)
    (h : Inert s'.gs s'.scancode) : KeyTick l [c] s' :=
  ⟨⟨hc, trivial⟩, .moved l c h⟩

theorem KeyTick.two {c c' : Trigger} (hc : l.Allows c)
    (hc' : ∀ l : KeyLog, l.Allows c') (h : Inert s'.gs s'.scancode) :
    KeyTick l [c, c'] s' :=
  ⟨⟨hc, hc' _, trivial⟩, .moved (l.move c) c' h⟩

theorem menu_keys (hgs : t.gs = .menu) (h : KeyInv t l)
    (hstale : ¬KeepsStaleKey t) {ms : List Trigger}
    (hm : MenuMoves t ms s') : KeyTick l ms s' := by
  cases hm with
  | play hc =>
      refine .one (h.allows_menu (.inl hgs) (.inl hc)) ?_
      show (0 : UInt8) ≠ escape
      decide
  | instructions hplay hc hcode =>
      refine .one (h.allows_menu (.inl hgs) (.inr (.inl hc))) ?_
      show t.scancode ≠ escape
      rcases trigger_eq_some.1 hc with ⟨-, hkey⟩ | ⟨-, -, hon⟩
      · rw [hkey]
        decide
      · exact fun hesc => hstale (.inr (.inr ⟨hgs, hon, .inr hesc⟩))
  | instructionsExit hon hcode =>
      exact absurd (.inr (.inr ⟨hgs, hon, .inl hcode⟩)) hstale
  | exit hplay hins hc =>
      exact .one (h.allows_menu (.inl hgs) (.inr (.inr hc))) trivial
  | stay => exact ⟨trivial, h⟩

theorem pause_keys (hgs : t.gs = .pause) (h : KeyInv t l)
    {ms : List Trigger} (hm : PauseMoves t ms s') : KeyTick l ms s' := by
  have hzero : (0 : UInt8) ≠ escape := by decide
  have hallow := fun {c : Trigger} => h.allows_menu (c := c) (.inr hgs)
  cases hm with
  | resume hc => exact .one (hallow (.inl hc)) hzero
  | resumeInstructions hc _ =>
      exact .two (hallow (.inl hc)) allows_button hzero
  | resumeExit hc _ => exact .two (hallow (.inl hc)) allows_button trivial
  | instructions _ hc => exact .one (hallow (.inr (.inl hc))) hzero
  | exit _ _ hc => exact .one (hallow (.inr (.inr hc))) trivial
  | stay => exact ⟨trivial, h⟩

theorem instructions_keys (hgs : t.gs = .instructions) (h : KeyInv t l)
    (hstale : ¬KeepsStaleKey t) {ms : List Trigger}
    (hm : InstructionsMoves t ms s') : KeyTick l ms s' := by
  have hact : ¬Inert t.gs escape := by
    rw [hgs]
    exact fun hne => hne rfl
  cases hm with
  | resume hprev hc =>
      refine .one (h.allows hc hact) ?_
      exact fun hesc => hstale (.inl ⟨hgs, hprev, hesc⟩)
  | menu hprev hcode =>
      have hkey : t.trigger escape false = some .key :=
        trigger_eq_some.2 (.inl ⟨rfl, hcode⟩)
      refine .one (h.allows hkey hact) ?_
      show Inert .menu t.scancode
      rw [hcode]
      refine ⟨?_, ?_, ?_⟩ <;> decide
  | stay => exact ⟨trivial, h⟩
  | clear => exact ⟨trivial, ⟨h.inert, h.unspent⟩⟩

theorem game_keys (hgs : t.gs = .game) (h : KeyInv t l)
    (hs : gameTick mode0x115 t = some s') :
    KeyTick l (gameMoves mode0x115 t) s' := by
  obtain ⟨hsame, hpre, hplay⟩ := gameTick_latches hs
  unfold gameMoves
  rw [hs]
  cases hinit : t.initGame with
  | true =>
      refine ⟨trivial, ⟨fun hf => ?_, h.unspent⟩⟩
      rw [hpre hinit, hsame.scancode]
      exact h.inert hf
  | false =>
      have hgs' := hplay hinit
      -- the key first, then the end of the game
      by_cases hesc : t.scancode = escape
      · have hkey : t.trigger escape false = some .key :=
          trigger_eq_some.2 (.inl ⟨rfl, hesc⟩)
        have hallow : l.Allows .key :=
          h.allows hkey (by rw [hgs]; exact fun hne => hne rfl)
        by_cases hexit : s'.gs = .exit
        · simp [hesc, hexit]
          exact .two hallow allows_outcome (by rw [hexit]; trivial)
        · have hpause : s'.gs = .pause := by
            unfold pauseKey at hgs'
            simpa [hesc, hexit] using hgs'
          simp [hesc, hpause]
          refine .one hallow ?_
          rw [hpause, hsame.scancode, hesc]
          refine ⟨?_, ?_, ?_⟩ <;> decide
      · by_cases hexit : s'.gs = .exit
        · simp [hesc, hexit]
          exact .one (allows_outcome l) (by rw [hexit]; trivial)
        · have hstay : s'.gs = t.gs := by
            unfold pauseKey at hgs'
            simpa [hesc, hexit] using hgs'
          have hne : t.gs ≠ .exit := hstay ▸ hexit
          simp [hesc, hstay, hne]
          refine ⟨trivial, ⟨fun hf => ?_, h.unspent⟩⟩
          rw [hstay, hsame.scancode]
          exact h.inert hf

theorem restart_keys {cards : Cards} (hgs : t.gs = .exit)
    (hr : t.restarts = true) (hstale : ¬KeepsStaleKey t) :
    KeyTick l [.outcome] (restarted t cards) := by
  refine .one (allows_outcome l) ?_
  have hkeys : ¬(t.scancode = pKeyBreakcode
      ∨ t.scancode = iKeyBreakcode ∨ t.scancode = eKeyBreakcode) :=
    fun hcode => hstale (.inr (.inl ⟨hgs, hr, hcode⟩))
  exact ⟨fun h => hkeys (.inl h), fun h => hkeys (.inr (.inl h)),
    fun h => hkeys (.inr (.inr h))⟩

/-- A tick that keeps no stale key allows its moves and keeps the
invariant. -/
theorem KeyInv.tick (h : KeyInv t l) (hstale : ¬KeepsStaleKey t)
    {ms : List Trigger} (hs : TickMoves mode0x115 t ms s') :
    KeyTick l ms s' := by
  cases hs with
  | menu hgs hm => exact menu_keys hgs h hstale hm
  | game hgs hs => exact game_keys hgs h hs
  | pause hgs hm => exact pause_keys hgs h hm
  | instructions hgs hm => exact instructions_keys hgs h hstale hm
  | restart hgs hr => exact restart_keys hgs hr hstale
  | outcome => exact ⟨trivial, ⟨h.inert, h.unspent⟩⟩
  | unused => exact ⟨trivial, h⟩

/-- The input branches deliver a code or leave the latch. -/
theorem KeyInv.receive {s : State} {n : Notification} {skip : Bool}
    (h : KeyInv s l) (hin : input mode0x115 s n = some (t, skip)) :
    KeyInv t (l.receive n) := by
  unfold KeyLog.receive
  cases hd : n.deliversKey with
  | true => exact ⟨fun hf => (by cases hf), fun _ => rfl⟩
  | false =>
      refine ⟨fun hf => ?_, h.unspent⟩
      rw [(input_frame hin).2.1, (input_latches hin).2.1 hd]
      exact h.inert hf

theorem KeyInv.tickState {s : State} {n : Notification} (h : KeyInv s l)
    (ht : TickState mode0x115 s n t) : KeyInv t (l.receive n) := by
  obtain ⟨s₁, hin, -, rfl⟩ := ht
  have hrec := h.receive hin
  exact ⟨hrec.inert, hrec.unspent⟩

end

/-- The invariant holds along every run that keeps no stale key. -/
theorem keyInv_reach {p : State × KeyLog} (h : KeyReach noStaleKey p) :
    KeyInv p.1 p.2 := by
  refine h.invariant (I := fun p => KeyInv p.1 p.2) ?_ ?_
  · intro p hp
    obtain ⟨⟨rands, cards, -, hs⟩, hl⟩ := hp
    rw [hs, hl]
    refine ⟨fun _ => ?_, fun hf => by cases hf⟩
    show Inert .menu 0
    refine ⟨?_, ?_, ?_⟩ <;> decide
  · intro p n p' _ hinv hok hstep
    obtain ⟨hs, hl⟩ := withLog_eq_some.1 hstep
    rw [hl]
    unfold KeyLog.update
    rcases step_cases hs with ⟨t, hts, ht, htick⟩ | ⟨ht, skip, hin, -⟩
    · rw [ht]
      exact ((hinv.tickState hts).tick (hok t hts)
        (stateTick_moves htick)).2
    · rw [ht]
      exact hinv.receive hin

/-- A key acts once, in the state where it was received: in every run
that keeps no stale key, each move by the key uses a code delivered
since `gs` was entered, and one that has triggered nothing yet. -/
theorem key_acts_once {p : State × KeyLog} {n : Notification} {t s' : State}
    (h : KeyReach noStaleKey p) (hok : noStaleKey p.1 n)
    (ht : TickState mode0x115 p.1 n t)
    (hs : step mode0x115 p.1 n = some s') :
    KeysActOnce (p.2.receive n) t := by
  rcases step_cases hs with ⟨u, hu, -, htick⟩ | ⟨hnone, -⟩
  · cases ht.unique hu
    exact (((keyInv_reach h).tickState ht).tick (hok t ht)
      (stateTick_moves htick)).1
  · rw [tickState_eq_some.2 ht] at hnone
    cases hnone

theorem key_acts_once_play :
    KeysActOnce { fresh := true, spent := false }
      (timerIntHandler { start orderedCards with scancode := pKeyBreakcode })
    := by
  have ht : TickState mode0x115 (start orderedCards)
      (keyTick pKeyBreakcode) (timerIntHandler
        { start orderedCards with scancode := pKeyBreakcode }) :=
    ⟨_, rfl, rfl, rfl⟩
  refine key_acts_once (p := (start orderedCards, KeyLog.init))
    (n := keyTick pKeyBreakcode) (.start ⟨?_, rfl⟩) ?_ ht rfl
  · exact ⟨orderedRands, orderedCards, orderedRands_deal, rfl⟩
  · intro t ht'
    cases ht.unique ht'
    intro hstale
    rcases hstale with ⟨h, -⟩ | ⟨h, -⟩ | ⟨-, h, -⟩ <;> cases h

/-- A game is paused, the instructions are opened from there, and escape
is delivered. -/
def bounceRun : Script noTest fun s =>
    decide (s.gs = .instructions) && decide (s.prevState = .game)
      && decide (s.scancode = escape) && !s.initGame && s.condition
      && ((swiftStep s tick).bind fun s' => swiftStep s' tick).isSome where
  notifications := [key pKeyBreakcode, tick] ++ ticks 240
    ++ [key escape, tick, key iKeyBreakcode, tick, key escape]
  shows := by decide +kernel

/-- Escape moves first in a playing tick. -/
theorem tickMoves_escape {m : ModeInfo} {t : State} (hgs : t.gs = .game)
    (hinit : t.initGame = false) (hesc : t.scancode = escape) :
    ∃ ms, tickMoves m t = .key :: ms := by
  unfold tickMoves gameMoves
  rw [hgs, hinit, hesc]
  exact ⟨_, rfl⟩

/-- Escape leaves the instructions for the game and, in the next tick,
opens the pause menu again. -/
theorem key_acts_twice :
    ∃ p n t s', KeyReach anyStep p ∧ TickState mode0x115 p.1 n t
      ∧ step mode0x115 p.1 n = some s'
      ∧ ¬KeysActOnce (p.2.receive n) t := by
  obtain ⟨s, hs, hP⟩ := bounceRun.reach noTest_anyStep
  simp only [Bool.and_eq_true, decide_eq_true_eq, Bool.not_eq_true'] at hP
  obtain ⟨⟨⟨⟨⟨hgs, hprev⟩, hesc⟩, hinit⟩, hcond⟩, hsteps⟩ := hP
  obtain ⟨l, hl⟩ : ∃ l, KeyReach anyStep (s, l) :=
    hs.logged fun s h => ⟨KeyLog.init, h, rfl⟩
  have hleave : (timerIntHandler s).trigger escape s.lb = some .key :=
    trigger_eq_some.2 (.inl ⟨rfl, hesc⟩)
  -- the tick that leaves the instructions
  obtain ⟨s₁, hs₁⟩ : ∃ s₁, s₁ = State.clearLb { timerIntHandler s with
      gs := .game, prevState := .instructions } := ⟨_, rfl⟩
  have hgs' : (timerIntHandler s).gs = .instructions := hgs
  have hprev' : (timerIntHandler s).prevState = .game := hprev
  have hstep₁ : step mode0x115 s tick = some s₁ := by
    rw [step_tick hcond, hs₁]
    unfold stateTick instructionsTick
    rw [hgs']
    simp [hprev', show (timerIntHandler s).scancode = escape from hesc]
  have hmoves : tickMoves mode0x115 (timerIntHandler s) = [.key] := by
    unfold tickMoves instructionsRules
    rw [hgs', hprev', if_pos rfl]
    exact Rule.causes_fired hleave
  have hlog : KeyLog.update l s tick = { fresh := false, spent := true } := by
    unfold KeyLog.update
    rw [tickState_eq_some.2 (tickState_tick s)]
    dsimp only
    rw [hmoves]
    rfl
  have hreach : KeyReach anyStep
      (s₁, { fresh := false, spent := true }) :=
    .step hl trivial (withLog_eq_some.2 ⟨hstep₁, hlog.symm⟩)
  -- the tick after it
  rw [swiftStep_eq, hstep₁, Option.bind_some, swiftStep_eq] at hsteps
  obtain ⟨s₂, hs₂⟩ := Option.isSome_iff_exists.1 hsteps
  refine ⟨_, tick, _, s₂, hreach, tickState_tick s₁, hs₂, ?_⟩
  have hmoves₁ : ∃ ms, tickMoves mode0x115 (timerIntHandler s₁)
      = .key :: ms := by
    subst hs₁
    exact tickMoves_escape rfl hinit hesc
  obtain ⟨ms, hms⟩ := hmoves₁
  intro honce
  unfold KeysActOnce at honce
  rw [hms] at honce
  cases (honce.1 rfl).1

-- =========================================================== the button

/-- After a move by the button the latch is down, or the loop is about
to end. -/
def ClickInv (s : State) (clicked : Bool) : Prop :=
  clicked = true → s.lb = false
    ∨ (s.gs = .exit ∧ s.gameOver = false ∧ s.victory = false)

/-- What a tick does with the button: a move by it needs it down and
releases it, unless it leaves for the exit screen; no tick presses it. -/
structure ClickTick (t : State) (moves : List Trigger) (s' : State) :
    Prop where
  down : .button ∈ moves → t.lb = true
  presses : s'.lb = true → t.lb = true
  releases : .button ∈ moves → s'.lb = false
    ∨ (s'.gs = .exit ∧ s'.gameOver = t.gameOver ∧ s'.victory = t.victory)

section

variable {t s' : State}

/-- Choosing a line of a menu by the button needs the button. -/
theorem lb_of_line {box : Bool} (h : (t.lb && box) = true) :
    t.lb = true :=
  (Bool.and_eq_true_iff.1 h).1

/-- The button triggers only when it is down. -/
theorem trigger_button {code : UInt8} {pressed : Bool} {c : Trigger}
    (hc : t.trigger code pressed = some c) (hb : .button ∈ [c]) :
    t.scancode ≠ code ∧ pressed = true := by
  rw [List.mem_singleton] at hb
  rw [← hb] at hc
  rcases trigger_eq_some.1 hc with ⟨h, -⟩ | ⟨-, h⟩
  · cases h
  · exact h

/-- A tick without a move by the button. -/
theorem ClickTick.idle {ms : List Trigger} (hb : .button ∉ ms)
    (hlb : s'.lb = true → t.lb = true) : ClickTick t ms s' :=
  ⟨fun h => absurd h hb, hlb, fun h => absurd h hb⟩

/-- A tick that releases the button. -/
theorem ClickTick.cleared {ms : List Trigger}
    (hdown : .button ∈ ms → t.lb = true) (hlb : s'.lb = false) :
    ClickTick t ms s' := by
  refine ⟨hdown, fun h => ?_, fun _ => .inl hlb⟩
  rw [hlb] at h
  cases h

theorem menu_clicks {ms : List Trigger} (hm : MenuMoves t ms s') :
    ClickTick t ms s' := by
  cases hm with
  | play hc =>
      exact .cleared (fun hb => lb_of_line (trigger_button hc hb).2) rfl
  | instructions _ hc _ =>
      exact .cleared
        (fun hb => lb_of_line (trigger_button hc hb).2) rfl
  | instructionsExit hon _ =>
      exact .cleared (fun _ => lb_of_line hon) rfl
  | exit _ _ hc =>
      exact ⟨fun hb => lb_of_line (trigger_button hc hb).2, id,
        fun _ => .inr ⟨rfl, rfl, rfl⟩⟩
  | stay => exact .idle (by simp) id

theorem pause_clicks (hgs : t.gs = .pause) (hno : ¬ResumesByButton t)
    {ms : List Trigger} (hm : PauseMoves t ms s') : ClickTick t ms s' := by
  cases hm with
  | resume hc =>
      exact .idle (fun hb => hno ⟨hgs, trigger_button hc hb⟩) id
  | resumeInstructions _ hon =>
      exact .cleared (fun _ => lb_of_line hon) rfl
  | resumeExit _ hon =>
      exact ⟨fun _ => lb_of_line hon, id, fun _ => .inr ⟨rfl, rfl, rfl⟩⟩
  | instructions _ hc =>
      exact .cleared
        (fun hb => lb_of_line (trigger_button hc hb).2) rfl
  | exit _ _ hc =>
      exact ⟨fun hb => lb_of_line (trigger_button hc hb).2, id,
        fun _ => .inr ⟨rfl, rfl, rfl⟩⟩
  | stay => exact .idle (by simp) id

theorem instructions_clicks {ms : List Trigger}
    (hm : InstructionsMoves t ms s') : ClickTick t ms s' := by
  cases hm with
  | resume _ hc =>
      exact .cleared (fun hb => (trigger_button hc hb).2) rfl
  | menu => exact .cleared (by simp) rfl
  | stay => exact .idle (by simp) id
  | clear => exact .cleared (by simp) rfl

/-- No move of the game is by the button. -/
theorem gameMoves_button (m : ModeInfo) (t : State) :
    .button ∉ gameMoves m t := by
  unfold gameMoves
  split
  · simp
  · split <;> split <;> simp

/-- Every tick but the one that resumes by the button. -/
theorem TickMoves.click {ms : List Trigger} (hno : ¬ResumesByButton t)
    (hs : TickMoves mode0x115 t ms s') : ClickTick t ms s' := by
  cases hs with
  | menu _ hm => exact menu_clicks hm
  | game _ hs =>
      have hlb := (gameTick_latches hs).1.lb
      exact .idle (gameMoves_button mode0x115 t) fun h => hlb ▸ h
  | pause hgs hm => exact pause_clicks hgs hno hm
  | instructions _ hm => exact instructions_clicks hm
  | restart => exact .idle (by simp) id
  | outcome => exact .idle (by simp) id
  | unused => exact .idle (by simp) id

/-- A selected card needs the button. -/
theorem SelectsCard.lb {m : ModeInfo} (h : SelectsCard m t) :
    t.lb = true := by
  obtain ⟨-, -, b, hb, hlb, -⟩ := h
  split at hb
  · rw [← (draw_latches hb).1.lb]
    exact hlb
  · cases hb
    exact hlb

/-- Without an outcome the exit screen does not restart. -/
theorem restarts_eq_false (hg : t.gameOver = false)
    (hv : t.victory = false) : t.restarts = false := by
  unfold State.restarts
  rw [hg, hv]
  rfl

/-- A clicked log forbids the button. -/
theorem ClickInv.unused {clicked : Bool} (h : ClickInv t clicked)
    (htick : ClickTick t (tickMoves mode0x115 t) s')
    (hclicked : clicked = true) : ¬UsesButton mode0x115 t := by
  rcases h hclicked with hlb | ⟨hgs, hg, hv⟩
  · intro huses
    have hdown : t.lb = true := huses.elim htick.down SelectsCard.lb
    rw [hlb] at hdown
    cases hdown
  · intro huses
    rcases huses with hb | hsel
    · unfold tickMoves at hb
      rw [hgs, restarts_eq_false hg hv] at hb
      cases hb
    · have hgame := hsel.1
      rw [hgs] at hgame
      cases hgame

/-- The tick keeps the invariant of the click log. -/
theorem ClickInv.tick {clicked : Bool} {ms : List Trigger}
    (h : ClickInv t clicked) (hout : OutcomeInv t)
    (htick : ClickTick t ms s') (hs : TickMoves mode0x115 t ms s') :
    ClickInv s' (clicked || decide (.button ∈ ms)) := by
  intro hor
  rw [Bool.or_eq_true, decide_eq_true_eq] at hor
  by_cases hexit : t.gs = .exit
  · -- nothing moves by the button here, and without an outcome nothing
    -- moves at all
    cases hs with
    | menu hgs => rw [hexit] at hgs; cases hgs
    | game hgs => rw [hexit] at hgs; cases hgs
    | pause hgs => rw [hexit] at hgs; cases hgs
    | instructions hgs => rw [hexit] at hgs; cases hgs
    | restart _ hr =>
        rcases h (by simpa using hor) with hlb | ⟨-, hg, hv⟩
        · exact .inl hlb
        · rw [restarts_eq_false hg hv] at hr
          cases hr
    | outcome => exact h (by simpa using hor)
    | unused => exact h (by simpa using hor)
  · rcases hor with hclicked | hb
    · rcases h hclicked with hlb | ⟨hgs, -⟩
      · refine .inl ?_
        cases hlb' : s'.lb with
        | false => rfl
        | true =>
            rw [htick.presses hlb'] at hlb
            cases hlb
      · exact absurd hgs hexit
    · refine (htick.releases hb).imp_right fun hleft => ?_
      obtain ⟨hgs', hg', hv'⟩ := hleft
      obtain ⟨hg, hv, -⟩ := hout.playing hexit
      exact ⟨hgs', hg'.trans hg, hv'.trans hv⟩

/-- The input branches complete a packet or leave the button. -/
theorem ClickInv.receive {s : State} {n : Notification} {skip : Bool}
    {clicked : Bool} (h : ClickInv s clicked)
    (hin : input mode0x115 s n = some (t, skip)) :
    ClickInv t (receiveClick clicked s n) := by
  intro hrec
  unfold receiveClick at hrec
  rw [Bool.and_eq_true, Bool.not_eq_true'] at hrec
  obtain ⟨hsame, hgs, -⟩ := input_frame hin
  rw [(input_latches hin).2.2 hrec.2, hgs, hsame.gameOver, hsame.victory]
  exact h hrec.1

theorem ClickInv.tickState {s : State} {n : Notification} {clicked : Bool}
    (h : ClickInv s clicked) (ht : TickState mode0x115 s n t) :
    ClickInv t (receiveClick clicked s n) := by
  obtain ⟨s₁, hin, -, rfl⟩ := ht
  have hrec : ClickInv s₁ (receiveClick clicked s n) := h.receive hin
  exact hrec

end

/-- The switch sees the outcome the notification found. -/
theorem OutcomeInv.tickState {s t : State} {n : Notification}
    (h : OutcomeInv s) (ht : TickState mode0x115 s n t) : OutcomeInv t := by
  obtain ⟨hsame, hgs, -⟩ := ht.frame
  refine ⟨?_, fun hne => ?_⟩
  · rw [hsame.gameOver, hsame.victory]
    exact h.notBoth
  · rw [hsame.gameOver, hsame.victory, hsame.p1]
    exact h.playing (hgs ▸ hne)

theorem clickInv_reach {p : State × Bool} (h : ClickReach noResumeClick p) :
    OutcomeInv p.1 ∧ ClickInv p.1 p.2 := by
  have hrun : ∀ p, ClickReach noResumeClick p → OutcomeInv p.1 :=
    fun p hp => outcomeInv_reach (hp.unlogged fun q hq => hq.1)
  refine ⟨hrun p h, ?_⟩
  refine h.invariant (I := fun p => ClickInv p.1 p.2) ?_ ?_
  · intro p hp hclicked
    rw [hp.2] at hclicked
    cases hclicked
  · intro p n p' hp hinv hok hstep
    obtain ⟨hs, hl⟩ := withLog_eq_some.1 hstep
    rw [hl]
    unfold updateClick
    rcases step_cases hs with ⟨t, hts, ht, htick⟩ | ⟨ht, skip, hin, -⟩
    · rw [ht]
      exact (hinv.tickState hts).tick ((hrun p hp).tickState hts)
        ((stateTick_moves htick).click (hok t hts)) (stateTick_moves htick)
    · rw [ht]
      exact hinv.receive hin

/-- A click acts once: in every run that does not resume by the button,
once a tick has used the button for a move, no tick uses it again before
a further packet is completed. -/
theorem click_acts_once {p : State × Bool} {n : Notification} {t s' : State}
    (h : ClickReach noResumeClick p) (hok : noResumeClick p.1 n)
    (ht : TickState mode0x115 p.1 n t)
    (hs : step mode0x115 p.1 n = some s')
    (hclicked : receiveClick p.2 p.1 n = true) :
    ¬UsesButton mode0x115 t := by
  rcases step_cases hs with ⟨u, hu, -, htick⟩ | ⟨hnone, -⟩
  · cases ht.unique hu
    exact ((clickInv_reach h).2.tickState ht).unused
      ((stateTick_moves htick).click (hok t ht)) hclicked
  · rw [tickState_eq_some.2 ht] at hnone
    cases hnone

/-- The test for runs that never see the pause menu. -/
def unpaused (s : State) (_ : Notification) : Bool :=
  decide (s.gs ≠ .pause)

theorem unpaused_noResumeClick (s : State) (n : Notification)
    (h : unpaused s n = true) : noResumeClick s n := by
  intro t ht hres
  have hgs : t.gs = .pause := hres.1
  rw [ht.frame.2.1] at hgs
  exact of_decide_eq_true h hgs

/-- A run has a click log, and a tick that moves by the button sets
it. -/
theorem clickReach_tick {ok : State → Notification → Prop} {s s' : State}
    (hs : Reach ok s) (hok : ok s tick)
    (hstep : step mode0x115 s tick = some s')
    (hb : .button ∈ tickMoves mode0x115 (timerIntHandler s)) :
    ClickReach ok (s', true) := by
  obtain ⟨clicked, hl⟩ : ∃ clicked, ClickReach ok (s, clicked) :=
    hs.logged fun s h => ⟨false, h, rfl⟩
  refine .step hl hok (withLog_eq_some.2 ⟨hstep, ?_⟩)
  unfold updateClick
  rw [tickState_eq_some.2 (tickState_tick s)]
  simp [hb]

/-- The button on the first line of a menu moves. -/
theorem button_chooses_play {m : ModeInfo} {s : State}
    (hgs : s.gs = .menu ∨ s.gs = .pause)
    (hcode : s.scancode ≠ pKeyBreakcode) (hon : s.onPlay = true) :
    .button ∈ tickMoves m (timerIntHandler s) := by
  have hplay : (timerIntHandler s).playTrigger = some .button :=
    trigger_eq_some.2 (.inr ⟨rfl, hcode, hon⟩)
  unfold tickMoves
  rcases hgs with hgs | hgs
  · rw [show (timerIntHandler s).gs = .menu from hgs]
    unfold menuRules
    dsimp only
    rw [Rule.causes_fired hplay]
    exact List.mem_cons_self
  · rw [show (timerIntHandler s).gs = .pause from hgs]
    unfold pauseRules
    dsimp only
    rw [Rule.causes_fired hplay]
    exact List.mem_cons_self

/-- A tick completes no packet. -/
theorem receiveClick_tick (s : State) : receiveClick true s tick = true := by
  unfold receiveClick completesPacket
  simp [input, keyboardBranch, tick]

/-- Play is chosen by the button. -/
def playClickRun : Script unpaused fun s =>
    decide (s.gs = .menu) && decide (s.scancode = 0) && s.onPlay
      && unpaused s tick && ((swiftStep s tick).any fun s' =>
        unpaused s' tick && (swiftStep s' tick).isSome) where
  notifications := drag 254 (-210)
  shows := by decide +kernel

theorem click_acts_once_play :
    ∃ p n t, ClickReach noResumeClick p ∧ noResumeClick p.1 n
      ∧ TickState mode0x115 p.1 n t ∧ receiveClick p.2 p.1 n = true
      ∧ ¬UsesButton mode0x115 t := by
  obtain ⟨s, hs, hP⟩ := playClickRun.reach unpaused_noResumeClick
  simp only [Bool.and_eq_true, decide_eq_true_eq] at hP
  obtain ⟨⟨⟨⟨hgs, hcode⟩, hon⟩, hun⟩, hnext⟩ := hP
  rw [swiftStep_eq] at hnext
  obtain ⟨s₁, hs₁, hP₁⟩ := (Option.any_eq_true _ _).1 hnext
  rw [Bool.and_eq_true, swiftStep_eq] at hP₁
  obtain ⟨hun₁, hsome⟩ := hP₁
  obtain ⟨s₂, hs₂⟩ := Option.isSome_iff_exists.1 hsome
  have hb : .button ∈ tickMoves mode0x115 (timerIntHandler s) :=
    button_chooses_play (.inl hgs) (by rw [hcode]; decide) hon
  have hok := unpaused_noResumeClick s tick hun
  have hok₁ := unpaused_noResumeClick s₁ tick hun₁
  have hreach := clickReach_tick hs hok hs₁ hb
  exact ⟨_, tick, _, hreach, hok₁, tickState_tick s₁, receiveClick_tick s₁,
    click_acts_once hreach hok₁ (tickState_tick s₁) hs₂
      (receiveClick_tick s₁)⟩

/-- A game is paused, and Resume is chosen by the button over the place
of card 10. -/
def resumeClickRun : Script noTest fun s =>
    decide (s.gs = .pause) && decide (s.scancode = escape) && s.onPlay
      && ((swiftStep s tick).any fun s' =>
        decide (s'.gs = .game) && !s'.initGame
          && decide ((s'.tmrTckCounter + 1) % 2 ≠ 0) && s'.lb
          && !s'.board.anyFlipping && (swiftStep s' tick).isSome
          && (List.finRange 16).any fun k => !(s'.board.card k).isFlipping
            && ((flipCardOnClick mode0x115 s'.mouse
              s'.board.cardArray).get k).isFlipping) where
  notifications := [key pKeyBreakcode, tick] ++ ticks 282
    ++ [key escape, tick] ++ drag 254 (-210) ++ drag 30 0
  shows := by decide +kernel

/-- The click that resumes the game also selects the card that lies
under the button. -/
theorem click_acts_twice :
    ∃ p n t s', ClickReach anyStep p ∧ TickState mode0x115 p.1 n t
      ∧ step mode0x115 p.1 n = some s'
      ∧ receiveClick p.2 p.1 n = true ∧ UsesButton mode0x115 t := by
  obtain ⟨s, hs, hP⟩ := resumeClickRun.reach noTest_anyStep
  simp only [Bool.and_eq_true, decide_eq_true_eq] at hP
  obtain ⟨⟨⟨hgs, hcode⟩, hon⟩, hnext⟩ := hP
  rw [swiftStep_eq] at hnext
  obtain ⟨s₁, hs₁, hP₁⟩ := (Option.any_eq_true _ _).1 hnext
  simp only [Bool.and_eq_true, decide_eq_true_eq, Bool.not_eq_true'] at hP₁
  obtain ⟨⟨⟨⟨⟨⟨hgs₁, hinit⟩, hodd⟩, hlb⟩, hany⟩, hsome⟩, hcard⟩ := hP₁
  obtain ⟨k, -, hk⟩ := List.any_eq_true.1 hcard
  rw [Bool.and_eq_true, Bool.not_eq_true'] at hk
  rw [swiftStep_eq] at hsome
  obtain ⟨s₂, hs₂⟩ := Option.isSome_iff_exists.1 hsome
  have hb : .button ∈ tickMoves mode0x115 (timerIntHandler s) :=
    button_chooses_play (.inr hgs) (by rw [hcode]; decide) hon
  refine ⟨_, tick, _, s₂, clickReach_tick hs trivial hs₁ hb,
    tickState_tick s₁, hs₂, receiveClick_tick s₁, .inr ⟨hgs₁, hinit,
      timerIntHandler s₁, ?_, hlb, hany, k, hk⟩⟩
  exact if_neg hodd

end Lcom.Proj
