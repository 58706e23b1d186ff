/-
A game in play can be won.

From any state of a game past its preview, in which no card is turning
and the mouse driver is not dead, some continuation of the run wins
without losing another life (`winnable`).

The way goes through `Ready`, the state every turn of `exists_turn`
begins in: the packet the driver is in is finished with the button up
(`up_bytes`), and the cursor is driven home to the corner. The guards of
the move up test the displacement with the wrong sign near the lower
edge, so the way up goes in short steps (`Mouse.Within`). Then a line
that takes the rest of the cards at no cost is played, and the victory
test is waited for.
-/
import Lcom.Proj.Proofs.Progress
import Lcom.Proj.Proofs.Twins

namespace Lcom.Proj

open Machine

-- ============================================================== the way home

theorem short_range : -256 ≤ (14 : Int) ∧ (14 : Int) ≤ 255 := by decide

/-- Up and to the left, in steps short enough for both guards. -/
def homeward : MousePacket := plainPacket (-256) 14 left_range short_range

/-- The corner is at most `n` such moves away. -/
structure Mouse.Within (n : Nat) (c : Mouse) : Prop where
  left : 0 ≤ c.x
  right : c.x ≤ 128 * n
  top : 0 ≤ c.y
  bottom : c.y ≤ 7 * n
  guard : c.y ≤ 585

theorem movedBy_homeward (c : Mouse) :
    movedBy c homeward
      = { x := if c.x - 256 < 0 then 0
            else if c.x - 256 ≥ 800 then 785 else c.x - 128
          y := if c.y - 14 < 0 then 0
            else if c.y + 14 ≥ 600 then 585 else c.y - 7 } := rfl

/-- A move brings the corner nearer. -/
theorem Mouse.Within.moved {n : Nat} {c : Mouse} (h : c.Within (n + 1)) :
    (movedBy c homeward).Within n := by
  obtain ⟨hleft, hright, htop, hbottom, hguard⟩ := h
  rw [movedBy_homeward]
  constructor <;> dsimp only <;> split <;> (try split) <;> omega

theorem Mouse.Within.eq {c : Mouse} (h : c.Within 0) : c = createMouse := by
  obtain ⟨hleft, hright, htop, hbottom, -⟩ := h
  have hx : c.x = 0 := by omega
  have hy : c.y = 0 := by omega
  cases c
  cases hx
  cases hy
  rfl

/-- From anywhere the cursor can be, one move brings it above the guard
of the lower edge. -/
theorem Mouse.Bounded.moved {c : Mouse} (h : c.Bounded) :
    (movedBy c homeward).Within 84 := by
  obtain ⟨hleft, hright, htop, hbottom⟩ := h
  rw [movedBy_homeward]
  constructor <;> dsimp only <;> split <;> (try split) <;> omega

/-- The pointer once a packet of that kind has been decoded. -/
def homebound (c : Mouse) : Pointer :=
  { cursor := c, deltaX := homeward.deltaX, deltaY := homeward.deltaY }

/-- Each further packet makes three of the moves. -/
theorem drives_home : ∀ (n : Nat) {c : Mouse}, c.Within (3 * n) →
    (List.replicate n homeward).foldl Pointer.staleMove (homebound c)
      = homebound createMouse := by
  intro n
  induction n with
  | zero =>
      intro c h
      rw [Mouse.Within.eq h]
      rfl
  | succ n ih =>
      intro c h
      rw [List.replicate_succ, List.foldl_cons]
      exact ih h.moved.moved.moved

/-- To the corner from anywhere, and a rest. -/
def home : List MousePacket :=
  homeward :: (List.replicate 28 homeward ++ [restPacket false])

theorem homes {a : Pointer} (hc : a.cursor.Bounded) (hx : NineBits a.deltaX)
    (hy : NineBits a.deltaY) :
    home.foldl Pointer.staleMove a = Pointer.init := by
  have hstale : ∀ {c : Mouse}, c.Bounded →
      Mouse.Bounded (updateMousePosition mode0x115 c a.deltaX a.deltaY) :=
    fun hc => updateMousePosition_bounded hc hx hy
  have hrest : ((homebound createMouse).staleMove (restPacket false)).cursor
      = createMouse := by decide
  unfold home
  rw [List.foldl_cons, List.foldl_append]
  show List.foldl _ ((List.replicate 28 homeward).foldl Pointer.staleMove
    (homebound (movedBy (updateMousePosition mode0x115
      (updateMousePosition mode0x115 a.cursor a.deltaX a.deltaY) a.deltaX
      a.deltaY) homeward))) _ = _
  rw [drives_home 28 (hstale (hstale hc)).moved]
  exact Pointer.eq_of_cursor hrest rfl rfl

-- =========================================================== getting ready

variable {p₀ : State × List (Fin 16)}

/-- Bytes whatever the state of the driver. -/
theorem Goes.takes {log : List (Fin 16)} (bytes : List UInt8) :
    ∀ {s : State}, Goes p₀ (s, log) → s.condition = true →
      ∃ c, Goes p₀
        (s.pointing (bytes.foldl MouseDriver.takes s.driver, c), log) := by
  induction bytes with
  | nil => intro s h _; exact ⟨s.mouse, h⟩
  | cons byte bytes ih =>
      intro s h hc
      obtain ⟨c, hs⟩ := step_takes hc byte
      have hnext := h.next (noSlip_of_no_timer rfl) (noGap_of_no_timer rfl) hs
      have hlog : logTurns log s (s.pointing (s.driver.takes byte, c)) = log :=
        logTurns_still rfl rfl
      rw [hlog] at hnext
      exact ih hnext hc

/-- A game in play, past its preview, with no card turning and a mouse
driver that is not dead. -/
structure InPlay (s : State) : Prop where
  gs : s.gs = .game
  initGame : s.initGame = false
  condition : s.condition = true
  still : s.board.anyFlipping = false
  live : ¬s.driver.Dead

/-- It can be made ready for the next turn. -/
theorem InPlay.ready {s : State} {log : List (Fin 16)} (h : InPlay s)
    (h₀ : LoggedReach noSlip (s, log)) :
    ∃ q, Goes (s, log) ({ s with scancode := 0 }.pointing q, log)
      ∧ Ready ({ s with scancode := 0 }.pointing q) := by
  -- the key first, which no mouse byte touches
  have hkey : Goes (s, log) ({ s with scancode := 0 }, log) := by
    have hstart : Goes (s, log) (s, log) := .start rfl
    have hnext := hstart.next (noSlip_of_no_timer rfl)
      (noGap_of_no_timer rfl) (step_key h.condition 0)
    have hlog : logTurns log s { s with scancode := 0 } = log :=
      logTurns_still rfl rfl
    rw [hlog] at hnext
    exact hnext
  -- then the bytes that put the button up
  obtain ⟨n, -, hat, hlb⟩ := up_bytes (counts_reach h₀.reach) h.live
  obtain ⟨c, hup⟩ :=
    hkey.takes (List.replicate n upByte) (show s.condition = true
      from h.condition)
  -- then the way to the corner
  have hb := bounded_reach (hup.reach h₀).reach
  obtain ⟨q, hhome, hq⟩ := hup.packets home h.condition
    (a := { cursor := c, deltaX := _, deltaY := _ })
    ⟨⟨hat.counter, hat.readingError⟩, hlb, rfl, rfl, rfl⟩
  rw [homes hb.mouse hb.packet.deltaX hb.packet.deltaY] at hq
  obtain ⟨p, hp⟩ := (phaseInv_reach h₀.reach).play h.initGame
  refine ⟨q, hhome, ⟨⟨h.gs, h.initGame, h.condition, ?_⟩,
    hp.rests h.still, hq⟩⟩
  show (0 : UInt8) ≠ escape
  decide

-- =========================================================== the victory

/-- With every card taken a tick wins the game, or the next one is
waited for: the victory test runs on every tick, and fires where the
counter is a multiple of 120. -/
theorem Ready.waits {s : State} {log : List (Fin 16)} (h : Ready s)
    (h₀ : LoggedReach noSlip p₀) (hr : Goes p₀ (s, log))
    (hall : s.board.taken = Finset.univ) :
    ∃ s', Goes p₀ (s', log) ∧ s'.faces = s.faces
      ∧ (s'.victory = true
        ∨ Ready s' ∧ s'.board.taken = Finset.univ
          ∧ s'.tmrTckCounter = s.tmrTckCounter + 1
          ∧ s'.tmrTckCounter % 120 ≠ 0) := by
  obtain ⟨hplay, ⟨o, hrest⟩, hpoised⟩ := h
  rcases idle_tick h₀ hplay hr hpoised.lb hrest
    with ⟨b, q, hr', hid, hm, hq, -, hmove⟩ | ⟨u, q, -, -, -, -, -, hlt⟩
  · have htaken : (s.played b).board.taken = Finset.univ := by
      rw [← hall]
      exact Board.taken_congr fun c => (hm c).2
    have hmatched : (s.played b).board.allMatched = true := by
      refine allMatched_iff.2 fun i => ?_
      rw [← Board.mem_taken, htaken]
      exact Finset.mem_univ i
    obtain ⟨hl, hf, ⟨hplay', he⟩ | hlost | hwon⟩ :=
      hid.goes_on hplay.scancode
    · refine ⟨_, hr', hf, ?_⟩
      by_cases hgate : (s.played b).tmrTckCounter % 120 = 0
      · refine .inl ?_
        unfold victoryPhase
        rw [if_pos ⟨hgate, hmatched⟩]
      · rw [he] at hl hplay' ⊢
        refine .inr ⟨⟨hplay', ⟨o, ?_⟩, ?_⟩, htaken, hid.counter, hgate⟩
        · rcases hmove with ⟨-, rfl⟩ | ⟨-, rfl⟩
          · exact hq
          · exact hq
        · rw [hl.driver, hl.mouse]
          exact hpoised
    · have hgo := (victoryPhase_frame (s.played b)).2.2.2.1
      obtain ⟨hno, -, -⟩ := (outcomeInv_reach (hr.reach h₀).reach).playing
        (by rw [hplay.gs]; decide)
      rw [hgo] at hlost
      have hlost' : s.gameOver = true := hlost
      rw [hno] at hlost'
      cases hlost'
    · exact ⟨_, hr', hf, .inl hwon⟩
  · exact absurd hlt (Nat.not_lt_zero _)

/-- With every card taken, waiting wins the game. -/
theorem waits_for_victory (h₀ : LoggedReach noSlip p₀) :
    ∀ (n : Nat) {s : State} {log : List (Fin 16)},
      n = 119 - s.tmrTckCounter % 120 → Goes p₀ (s, log) → Ready s →
      s.board.taken = Finset.univ →
      ∃ s', Goes p₀ (s', log) ∧ s'.faces = s.faces ∧ s'.victory = true := by
  intro n
  induction n with
  | zero =>
      intro s log hn hr h hall
      obtain ⟨s', hr', hf, hwon | ⟨-, -, hcount, hgate⟩⟩ :=
        h.waits h₀ hr hall
      · exact ⟨s', hr', hf, hwon⟩
      · omega
  | succ n ih =>
      intro s log hn hr h hall
      obtain ⟨s', hr', hf, hwon | ⟨hready, hall', hcount, hgate⟩⟩ :=
        h.waits h₀ hr hall
      · exact ⟨s', hr', hf, hwon⟩
      · obtain ⟨s'', hr'', hf', hwon⟩ := ih (by omega) hr' hready hall'
        exact ⟨s'', hr'', hf'.trans hf, hwon⟩

/-- A game that is not over has a line that takes the other cards and
costs nothing. -/
theorem exists_costless {s : State} {log : List (Fin 16)}
    (h₀ : LoggedReach noSlip (s, log)) (hgs : s.gs = .game) :
    0 < s.position.lives ∧ ∃ js, s.position.Legal s.faces js
      ∧ s.position.after s.faces js
        = { taken := Finset.univ, opened := none
            lives := s.position.lives } := by
  have hlives : 0 < s.position.lives := by
    obtain ⟨-, -, hl, -⟩ := (outcomeInv_reach h₀.reach).playing
      (by rw [hgs]; decide)
    exact hl
  have hpaired : Paired s.faces := (twinsTogether_reach h₀.reach).paired
  have hfair : s.position.Fair s.faces := by
    have hplayed := (refineInv_reach h₀).plays.legal.fair hpaired
      (Position.fair_fresh _)
    rw [position_of_log h₀ rfl]
    exact hplayed
  exact ⟨hlives, exists_winning hpaired _ hfair hlives (Nat.le_refl _)⟩

/-- From every game in play, as far as it has come, some notifications win
it, without another life lost. -/
theorem winnable {s : State} (h : Reach noSlip s) (hplay : InPlay s) :
    ∃ ns s', exec (stepChecked mode0x115) s ns = some s'
      ∧ s'.victory = true ∧ s'.p1.lives = s.p1.lives := by
  obtain ⟨log, h₀⟩ := exists_log h
  obtain ⟨q, hr, hready⟩ := hplay.ready h₀
  obtain ⟨hlives, js, hjs, hend⟩ := exists_costless h₀ hplay.gs
  -- where the line leads, before the victory and after
  have hleft : ∀ {u : State}, Goes (s, log) (u, log ++ js) →
      u.faces = s.faces →
      u.position = { taken := Finset.univ, opened := none
                     lives := s.position.lives } := by
    intro u hu hf
    rw [position_of_log (hu.reach h₀) hf, Position.after_append, ← hend,
      position_of_log h₀ rfl]
  obtain ⟨s₁, hr₁, hf₁, hstop⟩ := exists_line h₀ hr hready js hjs
  have hwin : ∃ s', Goes (s, log) (s', log ++ js) ∧ s'.faces = s.faces
      ∧ s'.victory = true := by
    rcases hstop with hready' | hlost | hwon
    · obtain ⟨s', hr', hf', hwin⟩ := waits_for_victory h₀ _ rfl hr₁ hready'
        (congrArg Position.taken (hleft hr₁ hf₁))
      exact ⟨s', hr', hf'.trans hf₁, hwin⟩
    · have hz := (refineInv_reach (hr₁.reach h₀)).plays.lost.1 hlost
      dsimp only at hz
      rw [hleft hr₁ hf₁] at hz
      exact absurd hz (Nat.ne_of_gt hlives)
    · exact ⟨s₁, hr₁, hf₁, hwon⟩
  obtain ⟨s', hr', hf', hwin⟩ := hwin
  obtain ⟨ns, hns⟩ := hr'.run
  exact ⟨ns, s', hns, hwin, congrArg Position.lives (hleft hr' hf')⟩

/-- Cards 0 and 1 turned up and sent back, the cursor still on a card with
the button up, and the first byte of a packet. -/
def mismatchRun : Script admits fun s =>
    decide (s.gs = .game ∧ s.initGame = false ∧ s.condition = true
      ∧ s.board.anyFlipping = false ∧ s.driver.readingError = false
      ∧ s.driver.counter = 1 ∧ s.p1.lives = 4
      ∧ ∃ k, onCard mode0x115 s.mouse k = true) where
  notifications := opening ++ ticks 282 ++ shift 1 0 ++ ticks 1
    ++ (restPacket false).encode.map mouseByte ++ ticks 90
    ++ [mouseByte 0x09]
  shows := by decide +kernel

/-- From there the game can be won with four lives. -/
theorem winnable_mismatch :
    ∃ s, Reach noSlip s ∧ s.p1.lives = 4 ∧ s.driver.counter = 1
      ∧ ∃ ns s', exec (stepChecked mode0x115) s ns = some s'
        ∧ s'.victory = true ∧ s'.p1.lives = 4 := by
  obtain ⟨s, hs, hP⟩ := mismatchRun.reach admits_noSlip
  obtain ⟨hgs, hinit, hc, hany, herr, hcount, hl, -⟩ := of_decide_eq_true hP
  have hlive : ¬s.driver.Dead := by
    intro hdead
    rw [hdead.1] at herr
    cases herr
  obtain ⟨ns, s', hns, hwin, hlives⟩ :=
    winnable hs ⟨hgs, hinit, hc, hany, hlive⟩
  exact ⟨s, hs, hl, hcount, ns, s', hns, hwin, hlives.trans hl⟩

end Lcom.Proj
