/-
What the loop can wait for, and whether the player can leave it.

In a run without a slip a notification is not answered for one of four
reasons: the loop has ended, the mouse handler is still polling, the
restart is still drawing random numbers, or the tick handles a click on
no card, for which the source does not say what happens
(`step_stuck_iff`).

From nearly every state the player can quit (`can_quit`). The way is
priced screen by screen, from the exit screen backwards: `Quits n s`
says that at most `n` more notifications end the loop from `s`. The
longest way leads through the instructions and the preview, which no
key interrupts, and through an outcome, which stays for up to 240 ticks.
The way needs the button up, which a driver that is not dead can be told
in five bytes.
-/
import Lcom.Proj.Proofs.Complete
import Lcom.Proj.Proofs.Counter
import Lcom.Proj.Proofs.Screen

namespace Lcom.Proj

open Machine

-- ============================================================ one tick

/-- A tick of the game comes back, in a run without a slip. -/
theorem PhaseInv.gameTick {t : State} (h : PhaseInv t) :
    ∃ s', gameTick mode0x115 t = some s' := by
  unfold Proj.gameTick
  cases hinit : t.initGame with
  | true =>
      have hd := h.preview hinit
      rw [if_pos rfl, draw_eq]
      unfold previewStart
      split
      · obtain ⟨b, hb, -⟩ := preview_lands hd
        exact ⟨_, by rw [hb]; rfl⟩
      · exact ⟨_, by rw [turnCards_still hd.still.isFlipping]; rfl⟩
  | false =>
      obtain ⟨p, hp⟩ := h.play hinit
      obtain ⟨b, hb, -⟩ := draw_shows hp
      rw [if_neg (by decide)]
      unfold playUntilMatch
      rw [draw_eq, hb]
      split <;> exact ⟨_, rfl⟩

/-- Only the exit screen can keep a tick from coming back: by a deal
that does not complete. -/
theorem PhaseInv.stateTick {t : State} (h : PhaseInv t)
    (rands : List Rand) :
    stateTick mode0x115 t rands = none
      ↔ t.gs = .exit ∧ t.restarts = true
        ∧ initializeGameCards rands = none := by
  unfold Proj.stateTick
  cases hgs : t.gs with
  | game =>
      obtain ⟨s', hs'⟩ := h.gameTick
      simp [hs']
  | exit =>
      dsimp only
      rw [exitTick_eq]
      unfold restart
      cases hr : t.restarts with
      | true => simp
      | false => simp
  | menu => simp
  | pause => simp
  | instructions => simp
  | highScores => simp
  | wait => simp

/-- The loop without its checks stops at what the input or the tick
does not return from. -/
theorem step_eq_none_iff {s : State} {n : Notification}
    (h : Reach noSlip s) :
    step mode0x115 s n = none
      ↔ s.condition = false
        ∨ (∃ reads, n.mouse = some reads ∧ StillPolling reads)
        ∨ ∃ t, TickState mode0x115 s n t ∧ t.gs = .exit
          ∧ t.restarts = true ∧ initializeGameCards n.rands = none := by
  rw [← input_eq_none (m := mode0x115) (s := s)]
  constructor
  · intro hs
    unfold step at hs
    cases hc : s.condition with
    | false => exact .inl rfl
    | true =>
        rw [hc, if_pos rfl] at hs
        cases hin : input mode0x115 s n with
        | none => exact .inr (.inl rfl)
        | some q =>
            obtain ⟨s₁, skip⟩ := q
            rw [hin] at hs
            dsimp only at hs
            split at hs
            · next hrun =>
                rw [Bool.and_eq_true, Bool.not_eq_true'] at hrun
                obtain ⟨htim, rfl⟩ := hrun
                have hts : TickState mode0x115 s n (timerIntHandler s₁) :=
                  ⟨s₁, hin, htim, rfl⟩
                have hph := (phaseInv_reach h).sameGame hts.frame.1
                exact .inr (.inr ⟨_, hts, (hph.stateTick n.rands).1 hs⟩)
            · cases hs
  · intro hex
    rcases hex with hc | hin | ⟨t, hts, hstuck⟩
    · unfold step
      rw [hc]
      rfl
    · unfold step
      rw [hin]
      split <;> rfl
    · have hph := (phaseInv_reach h).sameGame hts.frame.1
      have htick := (hph.stateTick n.rands).2 hstuck
      obtain ⟨s₁, hin, htim, rfl⟩ := hts
      unfold step
      rw [hin, htim]
      split
      · exact htick
      · rfl

/-- In a run without a slip a notification is not answered in four cases
only: the loop has ended, the mouse handler is still polling, the restart
at the end of an outcome is still dealing, or a tick of the game handles
a click on no card. -/
theorem step_stuck_iff {s : State} {n : Notification}
    (h : Reach noSlip s) :
    stepChecked mode0x115 s n = none
      ↔ s.condition = false
        ∨ (∃ reads, n.mouse = some reads ∧ StillPolling reads)
        ∨ (∃ t, TickState mode0x115 s n t ∧ t.gs = .exit
          ∧ t.restarts = true ∧ initializeGameCards n.rands = none)
        ∨ ∃ t, TickState mode0x115 s n t ∧ ClicksGap mode0x115 t := by
  rw [stepChecked_eq_none, step_eq_none_iff h, or_assoc, or_assoc]

theorem gap_right_range : -256 ≤ (255 : Int) ∧ (255 : Int) ≤ 255 := by
  decide

theorem gap_down_range : -256 ≤ (-210 : Int) ∧ (-210 : Int) ≤ 255 := by
  decide

/-- From the corner to a gap between two cards. -/
def toGap : MousePacket :=
  plainPacket 255 (-210) gap_right_range gap_down_range

/-- The button goes down there, after the preview. -/
def gapRun : Script admits fun s =>
    decide (s.gs = .game ∧ s.initGame = false ∧ s.lb = true
      ∧ s.tmrTckCounter = 300 ∧ s.board.anyFlipping = false
      ∧ ∀ k, onCard mode0x115 s.mouse k = false) where
  notifications := key pKeyBreakcode :: ticks 301
    ++ (toGap.encode ++ (restPacket false).encode
      ++ (restPacket true).encode).map mouseByte
  shows := by decide +kernel

/-- A tick with the button down in a gap is not answered. -/
theorem step_stuck_gap :
    ∃ s, Reach noSlip s ∧ stepChecked mode0x115 s tick = none := by
  obtain ⟨s, hs, hP⟩ := gapRun.reach admits_noSlip
  obtain ⟨hgs, hinit, hlb, hcount, hany, hoff⟩ := of_decide_eq_true hP
  refine ⟨s, hs, (step_stuck_iff hs).2 (.inr (.inr (.inr ?_)))⟩
  have hodd : drawnTick mode0x115 (timerIntHandler s)
      = some (timerIntHandler s) := by
    refine if_neg ?_
    rw [show (timerIntHandler s).tmrTckCounter = 301 from
      congrArg (· + 1) hcount]
    decide
  exact ⟨_, tickState_tick s, hgs, hinit, _, hodd, hlb, hany, hoff⟩

-- ============================================================= quitting

/-- At most `n` more notifications end the loop. -/
def Quits (n : Nat) (s : State) : Prop :=
  ∃ ns : List Notification, ns.length ≤ n
    ∧ ∃ s', exec (stepChecked mode0x115) s ns = some s'
      ∧ s'.condition = false

theorem Quits.step {n : Nat} {s s' : State} {i : Notification}
    (h : Quits n s') (hs : stepChecked mode0x115 s i = some s') :
    Quits (n + 1) s := by
  obtain ⟨ns, hlen, s'', hrun, hc⟩ := h
  refine ⟨i :: ns, ?_, s'', ?_, hc⟩
  · rw [List.length_cons]
    omega
  · unfold exec
    rw [hs]
    exact hrun

theorem Quits.mono {n k : Nat} {s : State} (h : Quits n s) (hk : n ≤ k) :
    Quits k s := by
  obtain ⟨ns, hlen, hrun⟩ := h
  exact ⟨ns, by omega, hrun⟩

/-- A running loop with the button up, in a run without a slip. -/
structure Free (s : State) : Prop where
  reach : Reach noSlip s
  condition : s.condition = true
  lb : s.lb = false

/-- No tick puts the button down. -/
theorem TickMoves.lb {m : ModeInfo} {t s' : State} {ms : List Trigger}
    (hs : TickMoves m t ms s') (h : t.lb = false) : s'.lb = false := by
  cases hs with
  | menu _ hm => cases hm <;> first | exact h | rfl
  | game _ hs => exact (gameTick_latches hs).1.lb.trans h
  | pause _ hm => cases hm <;> first | exact h | rfl
  | instructions _ hm => cases hm <;> first | exact h | rfl
  | restart => exact h
  | outcome => exact h
  | unused => exact h

/-- A notification without a mouse interrupt leaves the button up. -/
theorem Free.input_lb {s s₁ : State} {n : Notification} {skip : Bool}
    (h : Free s) (hm : n.mouse = none)
    (hin : input mode0x115 s n = some (s₁, skip)) : s₁.lb = false := by
  rcases input_cases hin with ⟨-, -, rfl⟩ | ⟨reads, r, hmouse, -⟩
  · exact h.lb
  · rw [hm] at hmouse
    cases hmouse

/-- So its tick clicks nothing, -/
theorem Free.checked {s : State} {n : Notification} (h : Free s)
    (hm : n.mouse = none) :
    stepChecked mode0x115 s n = step mode0x115 s n := by
  refine stepChecked_eq fun t hts => not_clicksGap fun hlb => ?_
  obtain ⟨s₁, hin, -, rfl⟩ := hts
  have hdown : s₁.lb = true := hlb
  rw [h.input_lb hm hin] at hdown
  cases hdown

/-- and the loop stays free. -/
theorem Free.next {s s' : State} {n : Notification} (h : Free s)
    (hm : n.mouse = none) (hs : step mode0x115 s n = some s')
    (hc : s'.condition = true) : Free s' := by
  have hok : noSlip s n := by
    intro t hts _ _ hslip
    obtain ⟨s₁, hin₁, -, rfl⟩ := hts
    obtain ⟨-, hlb, -⟩ := hslip
    have hup : s₁.lb = true := hlb
    rw [h.input_lb hm hin₁] at hup
    cases hup
  refine ⟨.step h.reach hok hs, hc, ?_⟩
  rcases step_cases hs with ⟨t, hts, -, htick⟩ | ⟨-, skip, hin', -⟩
  · obtain ⟨s₁, hin₁, -, rfl⟩ := hts
    have hfree : s₁.lb = false := h.input_lb hm hin₁
    exact (stateTick_moves htick).lb hfree
  · exact h.input_lb hm hin'

/-- One notification on the way out, without a mouse interrupt. -/
theorem Free.quits_step {s s' : State} {i : Notification} {n : Nat}
    (h : Free s) (hm : i.mouse = none) (hs : step mode0x115 s i = some s')
    (hq : Quits n s') : Quits (n + 1) s :=
  hq.step ((h.checked hm).trans hs)

/-- A key is latched. -/
theorem keyboardBranch_key (s : State) (code : UInt8) :
    keyboardBranch s (key code).keyboard = { s with scancode := code } := by
  have hfull : (0x01 : UInt8) &&& outBuff ≠ 0 := by decide
  have hcode : kbcIh s.scancode
      { reads := ⟨some 0x01, some code⟩, junk := 0 } = code := if_pos hfull
  exact congrArg (fun c => { s with scancode := c }) hcode

/-- A key between two ticks. -/
theorem step_key {s : State} (h : s.condition = true) (code : UInt8) :
    step mode0x115 s (key code) = some { s with scancode := code } := by
  have hin : input mode0x115 s (key code)
      = some ({ s with scancode := code }, false) :=
    congrArg (fun s => some (s, false)) (keyboardBranch_key s code)
  unfold step
  rw [if_pos h, hin]
  rfl

/-- A key and a tick, in a running loop. -/
theorem step_keyTick {s : State} (h : s.condition = true) (code : UInt8) :
    step mode0x115 s (keyTick code)
      = stateTick mode0x115 (timerIntHandler { s with scancode := code })
        [] := by
  have hin : input mode0x115 s (keyTick code)
      = some ({ s with scancode := code }, false) :=
    congrArg (fun s => some (s, false)) (keyboardBranch_key s code)
  unfold step
  rw [if_pos h, hin]
  rfl

/-- The exit screen without an outcome is left at once. -/
theorem Free.quits_exit {s : State} (h : Free s) (hgs : s.gs = .exit)
    (hout : s.gameOver = false ∧ s.victory = false) : Quits 1 s := by
  refine ⟨[tick], Nat.le_refl 1, { timerIntHandler s with
    condition := false }, ?_, rfl⟩
  unfold exec
  rw [h.checked rfl, step_tick h.condition]
  unfold stateTick
  rw [show (timerIntHandler s).gs = .exit from hgs]
  dsimp only
  unfold exitTick
  rw [if_neg (by rw [show (timerIntHandler s).gameOver = false
      from hout.1]; decide),
    if_neg (by rw [show (timerIntHandler s).victory = false
      from hout.2]; decide)]
  rfl

/-- A tick that leads to the exit screen without an outcome. -/
theorem Free.quits_to_exit {s s' : State} {n : Notification} (h : Free s)
    (hm : n.mouse = none) (hs : step mode0x115 s n = some s')
    (hc : s'.condition = true) (hgs : s'.gs = .exit)
    (hout : s'.gameOver = false ∧ s'.victory = false) : Quits 2 s :=
  h.quits_step hm hs ((h.next hm hs hc).quits_exit hgs hout)

/-- The key of the third line, in the menu. -/
theorem Free.quits_menu {s : State} (h : Free s) (hgs : s.gs = .menu) :
    Quits 2 s := by
  obtain ⟨ho, hv, -⟩ := (outcomeInv_reach h.reach).playing
    (by rw [hgs]; decide)
  have hlb : s.driver.packet1.lb = false := h.lb
  have hs : step mode0x115 s (keyTick eKeyBreakcode)
      = some { timerIntHandler { s with scancode := eKeyBreakcode } with
          gs := .exit } := by
    rw [step_keyTick h.condition]
    unfold stateTick
    rw [show (timerIntHandler { s with scancode := eKeyBreakcode }).gs
      = .menu from hgs]
    simp [menuTick, State.chosePlay, State.choseInstructions,
      State.choseExit, State.lb, timerIntHandler, hlb,
      show (eKeyBreakcode == pKeyBreakcode) = false by decide,
      show (eKeyBreakcode == iKeyBreakcode) = false by decide]
  exact h.quits_to_exit rfl hs h.condition rfl ⟨ho, hv⟩

/-- The same key, in the pause menu. -/
theorem Free.quits_pause {s : State} (h : Free s) (hgs : s.gs = .pause) :
    Quits 2 s := by
  obtain ⟨ho, hv, -⟩ := (outcomeInv_reach h.reach).playing
    (by rw [hgs]; decide)
  have hlb : s.driver.packet1.lb = false := h.lb
  have hs : step mode0x115 s (keyTick eKeyBreakcode)
      = some { timerIntHandler { s with scancode := eKeyBreakcode } with
          gs := .exit, scancode := 0 } := by
    rw [step_keyTick h.condition]
    unfold stateTick
    rw [show (timerIntHandler { s with scancode := eKeyBreakcode }).gs
      = .pause from hgs]
    simp [pauseTick, State.chosePlay, State.choseInstructions,
      State.choseExit, State.lb, timerIntHandler, hlb,
      show (eKeyBreakcode == pKeyBreakcode) = false by decide,
      show (eKeyBreakcode == iKeyBreakcode) = false by decide]
  exact h.quits_to_exit rfl hs h.condition rfl ⟨ho, hv⟩

/-- A tick of the exit screen, with a deal ready. -/
theorem step_exit {s : State} (h : s.condition = true)
    (hgs : s.gs = .exit) :
    step mode0x115 s dealTick
      = some (if (timerIntHandler s).restarts then
          restarted (timerIntHandler s) orderedCards
        else { timerIntHandler s with
          condition := s.condition && (s.gameOver || s.victory) }) := by
  have hin : input mode0x115 s dealTick = some (s, false) := rfl
  unfold step
  rw [if_pos h, hin]
  show stateTick mode0x115 (timerIntHandler s) orderedRands = _
  unfold stateTick
  rw [show (timerIntHandler s).gs = .exit from hgs]
  dsimp only
  rw [exitTick_eq]
  unfold restart
  rw [orderedRands_deal]
  split <;> rfl

/-- An outcome is waited for, and the menu after it left. -/
theorem Free.quits_outcome : ∀ (k : Nat) {s : State}, Free s →
    s.gs = .exit → (s.tmrTckCounter + (k + 1)) % 240 = 0 →
    Quits (k + 3) s := by
  intro k
  induction k with
  | zero =>
      intro s h hgs hk
      have hs := step_exit h.condition hgs
      cases hr : (timerIntHandler s).restarts with
      | true =>
          rw [hr, if_pos rfl] at hs
          exact h.quits_step rfl hs
            ((h.next rfl hs h.condition).quits_menu rfl)
      | false =>
          -- the counter is there, so there is no outcome to show
          have hout : s.gameOver = false ∧ s.victory = false := by
            unfold State.restarts at hr
            rw [show (timerIntHandler s).tmrTckCounter % 240 = 0 from hk]
              at hr
            simpa [timerIntHandler] using hr
          exact (h.quits_exit hgs hout).mono (by omega)
  | succ k ih =>
      intro s h hgs hk
      by_cases hout : s.gameOver = false ∧ s.victory = false
      · exact (h.quits_exit hgs hout).mono (by omega)
      · have hs := step_exit h.condition hgs
        cases hr : (timerIntHandler s).restarts with
        | true =>
            rw [hr, if_pos rfl] at hs
            exact (h.quits_step rfl hs
              ((h.next rfl hs h.condition).quits_menu rfl)).mono (by omega)
        | false =>
            rw [hr, if_neg (by decide)] at hs
            have hc : (s.condition && (s.gameOver || s.victory)) = true := by
              rw [h.condition]
              cases hg : s.gameOver <;> cases hv : s.victory <;>
                simp_all
            have hk' : (s.tmrTckCounter + 1 + (k + 1)) % 240 = 0 := by
              rw [← hk]
              congr 1
              omega
            exact h.quits_step rfl hs (ih (h.next rfl hs hc) hgs hk')

/-- From the exit screen, with or without an outcome. -/
theorem Free.quits_exit_any {s : State} (h : Free s) (hgs : s.gs = .exit) :
    Quits 242 s := by
  have hk : (s.tmrTckCounter
      + ((239 - s.tmrTckCounter % 240) + 1)) % 240 = 0 := by omega
  exact (h.quits_outcome _ hgs hk).mono (by omega)

/-- A tick of the game does not stop the loop. -/
theorem gameTick_condition {t s' : State}
    (h : gameTick mode0x115 t = some s') :
    s'.condition = t.condition := by
  unfold gameTick at h
  rw [draw_eq] at h
  split at h
  · obtain ⟨b, -, rfl⟩ := Option.map_eq_some_iff.1 h
    show (previewStart t).condition = t.condition
    unfold previewStart
    split <;> rfl
  · obtain ⟨u, hu, rfl⟩ := Option.map_eq_some_iff.1 h
    obtain ⟨b, -, rfl⟩ := playUntilMatch_eq_some hu
    have hv : ∀ s, (victoryPhase s).condition = s.condition := by
      intro s
      rcases victoryPhase_cases s with he | ⟨-, he⟩ <;> rw [he]
    have hclick : ∀ s,
        (clickPhase mode0x115 s).condition = s.condition := by
      intro s
      unfold clickPhase
      split
      · split <;> rfl
      · rfl
    rw [hv, matchPhase_condition, hclick]
    unfold pauseKey
    split <;> rfl

/-- A key and a tick of the game. -/
theorem Free.gameKey {s : State} (h : Free s) (hgs : s.gs = .game)
    (code : UInt8) :
    ∃ s', step mode0x115 s (keyTick code) = some s' ∧ Free s'
      ∧ gameTick mode0x115 (timerIntHandler { s with scancode := code })
        = some s' := by
  have hph : PhaseInv (timerIntHandler { s with scancode := code }) :=
    (phaseInv_reach h.reach).sameGame ⟨rfl, rfl, rfl, rfl, rfl⟩
  obtain ⟨s', hs'⟩ := hph.gameTick
  have hs : step mode0x115 s (keyTick code) = some s' := by
    rw [step_keyTick h.condition]
    unfold stateTick
    rw [show (timerIntHandler { s with scancode := code }).gs = .game
      from hgs]
    exact hs'
  have hc : s'.condition = true :=
    (gameTick_condition hs').trans h.condition
  exact ⟨s', hs, h.next rfl hs hc, hs'⟩

/-- The pause key, after the preview. -/
theorem Free.quits_playing {s : State} (h : Free s) (hgs : s.gs = .game)
    (hinit : s.initGame = false) : Quits 243 s := by
  obtain ⟨s', hs, hfree, hgame⟩ := h.gameKey hgs escape
  have hgs' := (gameTick_latches hgame).2.2 hinit
  have hpause : (pauseKey (timerIntHandler
      { s with scancode := escape })).gs = .pause := by
    simp [pauseKey, timerIntHandler]
  rw [hpause] at hgs'
  rcases hgs' with hp | he
  · exact (h.quits_step rfl hs (hfree.quits_pause hp)).mono (by omega)
  · exact h.quits_step rfl hs (hfree.quits_exit_any he)

/-- A tick of the preview goes on with it until the counter is a multiple
of 240. -/
theorem gameTick_preview {t s' : State}
    (h : gameTick mode0x115 t = some s') (hinit : t.initGame = true) :
    s'.gs = t.gs ∧ s'.tmrTckCounter = t.tmrTckCounter
      ∧ s'.initGame = decide (t.tmrTckCounter % 240 ≠ 0) := by
  refine ⟨(gameTick_latches h).2.1 hinit, gameTick_counter h, ?_⟩
  unfold gameTick at h
  rw [if_pos hinit, draw_eq] at h
  obtain ⟨b, -, rfl⟩ := Option.map_eq_some_iff.1 h
  show (previewStart t).initGame = _
  unfold previewStart
  split
  · next hz => simp [hz]
  · next hz => simp [hz, hinit]

/-- The preview is waited for. -/
theorem Free.quits_preview : ∀ (k : Nat) {s : State}, Free s →
    s.gs = .game → (s.tmrTckCounter + (k + 1)) % 240 = 0 →
    Quits (k + 244) s := by
  intro k
  induction k with
  | zero =>
      intro s h hgs hk
      cases hinit : s.initGame with
      | false => exact (h.quits_playing hgs hinit).mono (by omega)
      | true =>
          obtain ⟨s', hs, hfree, hgame⟩ := h.gameKey hgs 0
          obtain ⟨hgs', -, hinit'⟩ := gameTick_preview hgame hinit
          have hz : (timerIntHandler { s with scancode := 0 }).tmrTckCounter
              % 240 = 0 := hk
          rw [hz] at hinit'
          exact h.quits_step rfl hs
            (hfree.quits_playing (hgs'.trans hgs) hinit')
  | succ k ih =>
      intro s h hgs hk
      cases hinit : s.initGame with
      | false => exact (h.quits_playing hgs hinit).mono (by omega)
      | true =>
          obtain ⟨s', hs, hfree, hgame⟩ := h.gameKey hgs 0
          obtain ⟨hgs', hcount, -⟩ := gameTick_preview hgame hinit
          refine h.quits_step rfl hs (ih hfree (hgs'.trans hgs) ?_)
          rw [hcount, ← hk]
          show (s.tmrTckCounter + 1 + (k + 1)) % 240 = _
          congr 1
          omega

/-- From the game, in its preview or past it. -/
theorem Free.quits_game {s : State} (h : Free s) (hgs : s.gs = .game) :
    Quits 483 s := by
  have hk : (s.tmrTckCounter
      + ((239 - s.tmrTckCounter % 240) + 1)) % 240 = 0 := by omega
  exact (h.quits_preview _ hgs hk).mono (by omega)

/-- The instructions are left for the game or the menu. -/
theorem Free.quits_instructions {s : State} (h : Free s)
    (hgs : s.gs = .instructions) : Quits 484 s := by
  have hs : step mode0x115 s (keyTick escape) = some (instructionsTick
      (timerIntHandler { s with scancode := escape })) := by
    rw [step_keyTick h.condition]
    unfold stateTick
    rw [show (timerIntHandler { s with scancode := escape }).gs
      = .instructions from hgs]
  by_cases hprev : s.prevState = .game
  · have he : instructionsTick (timerIntHandler { s with scancode := escape })
        = State.clearLb { timerIntHandler { s with scancode := escape } with
            gs := .game, prevState := .instructions } := by
      unfold instructionsTick
      rw [if_pos (show (timerIntHandler
        { s with scancode := escape }).prevState = .game from hprev)]
      exact if_pos rfl
    rw [he] at hs
    exact h.quits_step rfl hs ((h.next rfl hs h.condition).quits_game rfl)
  · have he : instructionsTick (timerIntHandler { s with scancode := escape })
        = State.clearLb { timerIntHandler { s with scancode := escape } with
            gs := .menu } := by
      unfold instructionsTick
      rw [if_neg (show ¬(timerIntHandler
        { s with scancode := escape }).prevState = .game from hprev)]
      exact congrArg State.clearLb (if_pos rfl)
    rw [he] at hs
    exact (h.quits_step rfl hs
      ((h.next rfl hs h.condition).quits_menu rfl)).mono (by omega)

/-- The loop only shows the screens it has. -/
theorem screened_reach {ok : State → Notification → Prop} {s : State}
    (h : Reach ok s) : Screened s.gs := by
  refine h.invariant (I := fun s => Screened s.gs) ?_ ?_
  · intro s hs
    obtain ⟨-, cards, -, rfl⟩ := hs
    exact ⟨show GameState.menu ≠ .highScores by decide,
      show GameState.menu ≠ .wait by decide⟩
  · intro s n s' _ hinv _ hs
    rcases step_cases hs with ⟨t, hts, -, htick⟩ | ⟨-, skip, hin, -⟩
    · have ht : Screened t.gs := by
        rw [hts.frame.2.1]
        exact hinv
      exact (stateTick_moves htick).screened ht
    · rw [(input_frame hin).2.1]
      exact hinv

/-- With the button up. -/
theorem Free.quits {s : State} (h : Free s) : Quits 484 s := by
  obtain ⟨hscores, hwait⟩ := screened_reach h.reach
  cases hgs : s.gs with
  | menu => exact (h.quits_menu hgs).mono (by omega)
  | game => exact (h.quits_game hgs).mono (by omega)
  | pause => exact (h.quits_pause hgs).mono (by omega)
  | instructions => exact h.quits_instructions hgs
  | exit => exact (h.quits_exit_any hgs).mono (by omega)
  | highScores => exact absurd hgs hscores
  | wait => exact absurd hgs hwait

/-- A byte alone changes the driver and the cursor. -/
theorem step_takes {s : State} (hc : s.condition = true) (byte : UInt8) :
    ∃ c, step mode0x115 s (mouseByte byte)
      = some (s.pointing (s.driver.takes byte, c)) := by
  have hread : mouseRead [⟨some 0x21, some byte⟩] = some (.good byte) := by
    unfold mouseRead
    dsimp only
    rw [if_pos (by decide), if_pos (by decide)]
  obtain ⟨⟨s₁, skip⟩, hin⟩ := input_returns (m := mode0x115) (s := s)
    (n := mouseByte byte) rfl hread
  have hs : step mode0x115 s (mouseByte byte) = some s₁ := by
    unfold step
    rw [if_pos hc, hin]
    rfl
  rcases input_cases hin with ⟨hm, -⟩ | ⟨reads, r, hm, hr, -, rfl⟩
  · cases hm
  · cases hm
    rw [hread] at hr
    cases hr
    exact ⟨_, hs⟩

/-- Bytes before a way out. -/
theorem quits_bytes : ∀ (bytes : List UInt8) {s : State}, Reach noSlip s →
    s.condition = true →
    ∃ q, Reach noSlip (s.pointing q)
      ∧ q.1 = bytes.foldl MouseDriver.takes s.driver
      ∧ ∀ n, Quits n (s.pointing q) → Quits (n + bytes.length) s := by
  intro bytes
  induction bytes with
  | nil => intro s h _; exact ⟨(s.driver, s.mouse), h, rfl, fun n hq => hq⟩
  | cons byte bytes ih =>
      intro s h hc
      obtain ⟨c, hs⟩ := step_takes hc byte
      obtain ⟨q, hreach, hq, hquits⟩ :=
        ih (.step h (noSlip_of_no_timer rfl) hs) hc
      have hchecked : stepChecked mode0x115 s (mouseByte byte)
          = some (s.pointing (s.driver.takes byte, c)) := by
        rw [stepChecked_eq (noGap_of_no_timer rfl)]
        exact hs
      exact ⟨q, hreach, hq, fun n hn => (hquits n hn).step hchecked⟩

/-- The player can quit: from every state of a running loop, in a run
without a slip, at most 489 notifications end it, unless the mouse
driver is dead with the button down. -/
theorem can_quit {s : State} (h : Reach noSlip s)
    (hc : s.condition = true) (hlive : s.driver.Dead → s.lb = false) :
    ∃ ns : List Notification, ns.length ≤ 489
      ∧ ∃ s', exec (stepChecked mode0x115) s ns = some s'
        ∧ s'.condition = false := by
  show Quits 489 s
  cases hlb : s.lb with
  | false =>
      have hfree : Free s := ⟨h, hc, hlb⟩
      exact hfree.quits.mono (by omega)
  | true =>
      have hdead : ¬s.driver.Dead := by
        intro hd
        rw [hlive hd] at hlb
        cases hlb
      obtain ⟨n, hn, -, hlb'⟩ := up_bytes (counts_reach h) hdead
      obtain ⟨q, hreach, hq, hquits⟩ :=
        quits_bytes (List.replicate n upByte) h hc
      have hup : (s.pointing q).lb = false := by
        show q.1.packet1.lb = false
        rw [hq]
        exact hlb'
      have hfree : Free (s.pointing q) := ⟨hreach, hc, hup⟩
      refine (hquits 484 hfree.quits).mono ?_
      rw [List.length_replicate]
      omega

/-- A game in play, with the button held and a card turning. -/
def turningRun : Script admits fun s =>
    decide (s.gs = .game ∧ s.initGame = false ∧ s.condition = true
      ∧ s.driver.readingError = false ∧ s.lb = true
      ∧ s.board.anyFlipping = true) where
  notifications := opening ++ ticks 250
  shows := by decide +kernel

/-- There the player quits too. -/
theorem can_quit_turning :
    ∃ s, Reach noSlip s ∧ s.gs = .game ∧ s.lb = true
      ∧ s.board.anyFlipping = true
      ∧ ∃ ns : List Notification, ns.length ≤ 489
        ∧ ∃ s', exec (stepChecked mode0x115) s ns = some s'
          ∧ s'.condition = false := by
  obtain ⟨s, hs, hP⟩ := turningRun.reach admits_noSlip
  obtain ⟨hgs, -, hc, herr, hlb, hany⟩ := of_decide_eq_true hP
  refine ⟨s, hs, hgs, hlb, hany, can_quit hs hc fun hdead => ?_⟩
  rw [hdead.1] at herr
  cases herr

end Lcom.Proj
