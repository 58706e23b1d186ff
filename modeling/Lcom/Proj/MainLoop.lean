/-
The main loop (proj/src/proj.c, `proj_main_loop`): one notification at
a time, keyboard before mouse before timer, with the whole game driven
from the timer branch.

# One step

A `Notification` is one message of the loop with everything the
environment answers while it is handled: the interrupt bits, the port
reads of the two handlers, and the values `rand()` would return if the
tick deals a new board. A message that is not a hardware notification
has no bit set. `step` is `none` where the loop does not come back:
it has ended (`condition` is false), a handler polls forever, a deal
never completes, or the animation divided by zero.

The mouse branch leaves through `continue` while a read error is
pending, which skips the timer branch of the same notification
(`input`).

# What is left out

Drawing that changes no state (menus, hearts, cursor, the copy to
video memory), `sleep`, and the date, which only picks the sun or the
moon. `tmr_tck_counter` is an `int` modelled without its overflow,
which is `2 ^ 31` ticks, more than a year, away; the `int` that counts
the bytes of a packet is modelled in the same way.

A click on no card leaves the cards as they are in this model, where the
source reads an index it never assigned (`flipCardOnClick`). What is said
of all runs is said with that convention.
-/
import Lcom.Machine.Reach
import Lcom.Machine.Loop
import Lcom.Proj.Game
import Lcom.Proj.Keyboard

namespace Lcom.Proj

-- ============================================================ state

/-- The globals and locals `proj_main_loop` works on. -/
structure State where
  gs : GameState
  prevState : GameState
  scancode : UInt8
  driver : MouseDriver
  mouse : Mouse
  tmrTckCounter : Nat
  board : Board
  p1 : Player
  isAnyCardFlipping : Bool
  initGame : Bool
  gameOver : Bool
  victory : Bool
  condition : Bool
  deriving DecidableEq

/-- One message of the loop and the environment's answers to it. -/
structure Notification where
  keyboard : Option KbcReads
  mouse : Option (List PortReads)
  timer : Bool
  rands : List Rand

/-- `packet1.lb`. -/
def State.lb (s : State) : Bool := s.driver.packet1.lb

/-- `packet1.lb = false`. -/
def State.clearLb (s : State) : State :=
  { s with driver := { s.driver with
      packet1 := { s.driver.packet1 with lb := false } } }

-- ==================================================== the five states

/-- The cursor lies in a box of the menu screens. -/
def State.cursorIn (s : State) (x₀ x₁ y₀ y₁ : Int) : Bool :=
  decide (s.mouse.x ≥ x₀) && decide (s.mouse.x ≤ x₁)
    && decide (s.mouse.y ≥ y₀) && decide (s.mouse.y ≤ y₁)

/-- The key or the button of the first line: Play, Resume. -/
def State.chosePlay (s : State) : Bool :=
  s.scancode == pKeyBreakcode || s.lb && s.cursorIn 360 445 300 330

/-- The key or the button of the second line: Instructions. -/
def State.choseInstructions (s : State) : Bool :=
  s.scancode == iKeyBreakcode || s.lb && s.cursorIn 280 520 400 430

/-- The key or the button of the third line: Exit. -/
def State.choseExit (s : State) : Bool :=
  s.scancode == eKeyBreakcode || s.lb && s.cursorIn 360 440 500 530

/-- `case Menu`: three tests in sequence on the same latches. -/
def menuTick (s : State) : State :=
  let s := if s.chosePlay then
    { s with scancode := 0, tmrTckCounter := 0, gs := .game }.clearLb
    else s
  let s := if s.choseInstructions then
    { s with gs := .instructions }.clearLb else s
  if s.choseExit then { s with gs := .exit } else s

/-- `case Pause`. -/
def pauseTick (s : State) : State :=
  let s := if s.chosePlay then
    { s with scancode := 0, gs := .game } else s
  let s := if s.choseInstructions then
    { s.clearLb with gs := .instructions, prevState := .game, scancode := 0 }
    else s
  if s.choseExit then { s with gs := .exit, scancode := 0 } else s

/-- `case Instructions`. Only the first statement of the menu branch is
under its `if`: the button latch is cleared on every tick. -/
def instructionsTick (s : State) : State :=
  if s.prevState = .game then
    if s.scancode == escape || s.lb then
      { s with gs := .game, prevState := .instructions }.clearLb
    else s
  else
    (if s.scancode == escape then { s with gs := .menu } else s).clearLb

/-- The reset both outcomes share: back to the menu with new cards and
five lives. The animation globals keep their values. -/
def restarted (s : State) (cards : Cards) : State :=
  { s with
    gs := .menu, gameOver := false, victory := false, initGame := true
    board := { s.board with cardArray := cards }
    p1 := initializePlayer }

/-- The reset, if its deal completes. -/
def restart (s : State) (rands : List Rand) : Option State :=
  (initializeGameCards rands).map (restarted s)

/-- `case Exit`: an outcome is shown until the counter is a multiple of
240; without one the loop ends. -/
def exitTick (s : State) (rands : List Rand) : Option State :=
  if s.gameOver then
    if s.tmrTckCounter % 240 = 0 then restart s rands else some s
  else if s.victory then
    if s.tmrTckCounter % 240 = 0 then restart s rands else some s
  else some { s with condition := false }

-- ======================================================= case Game

/-- `draw_game_cards` as the loop calls it; a trap ends the process. -/
def draw (m : ModeInfo) (s : State) : Option State :=
  (drawGameCards m s.board).result.map fun b => { s with board := b }

/-- `cardArray[i].isFlipping = true`. -/
def Card.startFlipping (c : Card) : Card := { c with isFlipping := true }

/-- `cardArray[i].flipSuccess = true`. -/
def Card.succeed (c : Card) : Card := { c with flipSuccess := true }

/-- The preview branch: at a multiple of 240 every card starts turning
and the preview is over. -/
def previewStart (s : State) : State :=
  if s.tmrTckCounter % 240 = 0 then
    { s with
      initGame := false
      board := { s.board with
        cardArray := s.board.cardArray.map Card.startFlipping } }
  else s

/-- Escape opens the pause menu; the rest of the tick still runs. -/
def pauseKey (s : State) : State :=
  if s.scancode == escape then { s with gs := .pause } else s

/-- The guard `isAnyCardFlipping`, recomputed only while the button is
down, and the click it admits. -/
def clickPhase (m : ModeInfo) (s : State) : State :=
  if s.lb then
    if s.board.anyFlipping then { s with isAnyCardFlipping := true }
    else
      { s with
        isAnyCardFlipping := false
        board := { s.board with
          cardArray := flipCardOnClick m s.mouse s.board.cardArray } }
  else { s with isAnyCardFlipping := false }

/-- A face-up card that is not matched, as the match check sees it. -/
def Card.isOpen (c : Card) : Bool := !c.isFlipped && !c.flipSuccess

/-- Update one card of the board. -/
def State.setCard (s : State) (k : Fin 16) (f : Card → Card) : State :=
  { s with board := { s.board with
      cardArray := s.board.cardArray.set k (f (s.board.card k)) } }

/-- A life is lost; the last one ends the game. -/
def State.chargeLife (s : State) : State :=
  if s.p1.loseLife.lives = 0 then
    { s with p1 := { s.p1.loseLife with isAlive := false }
             gameOver := true, gs := .exit }
  else { s with p1 := s.p1.loseLife }

/-- The match branch: both cards succeed. -/
def matched (s : State) (i k : Fin 16) : State :=
  (s.setCard i Card.succeed).setCard k Card.succeed

/-- The life a mismatch costs, unless its later card is turning. -/
def State.charged (s : State) (i : Fin 16) : State :=
  if (s.board.card i).isFlipping = false then s.chargeLife else s

/-- The mismatch branch: a life for a pair not yet turning, and both
cards are sent back. -/
def mismatch (s : State) (i k : Fin 16) : State :=
  ((s.charged i).setCard i Card.startFlipping).setCard k
    Card.startFlipping

/-- One round of the match loop. The second component is
`cardPosInArray`, unassigned (`none`) while `flipCount` is 0. -/
def matchStep (acc : State × Option (Fin 16)) (i : Fin 16) :
    State × Option (Fin 16) :=
  if (acc.1.board.card i).isOpen then
    match acc.2 with
    | none => (acc.1, some i)
    | some k =>
        if (acc.1.board.card i).value = (acc.1.board.card k).value then
          (matched acc.1 i k, some k)
        else (mismatch acc.1 i k, some k)
  else acc

/-- The state after the match loop has visited the first `n` cards. -/
def matchRounds (n : Nat) (s : State) : State :=
  (Machine.rounds matchStep n (s, none)).1

/-- The match check, skipped while the click guard is raised. -/
def matchPhase (s : State) : State :=
  if s.isAnyCardFlipping then s else matchRounds 16 s

/-- `endGame`: every card is matched. -/
def Board.allMatched (b : Board) : Bool :=
  b.cardArray.toList.all fun c => c.flipSuccess

/-- Victory, at a multiple of 120 only. -/
def victoryPhase (s : State) : State :=
  if s.tmrTckCounter % 120 = 0 ∧ s.board.allMatched = true then
    { s with gs := .exit, victory := true }
  else s

/-- `case Game` up to the match check: animation on even ticks, pause
key, click. -/
def playUntilMatch (m : ModeInfo) (s : State) : Option State :=
  (if s.tmrTckCounter % 2 = 0 then draw m s else some s).map fun s =>
    clickPhase m (pauseKey s)

/-- `case Game`. -/
def gameTick (m : ModeInfo) (s : State) : Option State :=
  if s.initGame then draw m (previewStart s)
  else (playUntilMatch m s).map fun s => victoryPhase (matchPhase s)

-- ========================================================= the loop

/-- `timer_int_handler`. -/
def timerIntHandler (s : State) : State :=
  { s with tmrTckCounter := s.tmrTckCounter + 1 }

/-- `switch (gs)` of the timer branch. -/
def stateTick (m : ModeInfo) (s : State) (rands : List Rand) :
    Option State :=
  match s.gs with
  | .menu => some (menuTick s)
  | .game => gameTick m s
  | .pause => some (pauseTick s)
  | .instructions => some (instructionsTick s)
  | .exit => exitTick s rands
  | .highScores => some s
  | .wait => some s

/-- The mouse branch. The flag reports its `continue`. -/
def mouseBranch (m : ModeInfo) (s : State) (reads : List PortReads) :
    Option (State × Bool) :=
  (mouseIh s.driver reads).map fun d =>
    match d.dispatch with
    | .skip => ({ s with driver := d.dispatched }, true)
    | .resync => ({ s with driver := d.dispatched }, false)
    | .byte =>
        let d := d.dispatched
        ({ s with
            driver := d
            mouse := updateMousePosition m s.mouse d.packet1.deltaX
              d.packet1.deltaY }, false)

/-- The keyboard branch. -/
def keyboardBranch (s : State) : Option KbcReads → State
  | some r => { s with scancode := kbcIh s.scancode r }
  | none => s

/-- The keyboard and mouse branches: the state the timer branch would
see, and whether it is skipped. -/
def input (m : ModeInfo) (s : State) (n : Notification) :
    Option (State × Bool) :=
  match n.mouse with
  | some reads => mouseBranch m (keyboardBranch s n.keyboard) reads
  | none => some (keyboardBranch s n.keyboard, false)

/-- One turn of `while (condition)`. -/
def step (m : ModeInfo) (s : State) (n : Notification) : Option State :=
  if s.condition then
    match input m s n with
    | none => none
    | some (s, skip) =>
        if n.timer && !skip then stateTick m (timerIntHandler s) n.rands
        else some s
  else none

/-- The state in which the loop starts, after the first deal. -/
def start (cards : Cards) : State :=
  { gs := .menu, prevState := .exit, scancode := 0
    driver := MouseDriver.init, mouse := createMouse, tmrTckCounter := 0
    board := Board.ofCards cards, p1 := initializePlayer
    isAnyCardFlipping := false, initGame := true, gameOver := false
    victory := false, condition := true }

/-- The loop starts on a dealt board. -/
def Starts (s : State) : Prop :=
  ∃ rands cards, initializeGameCards rands = some cards ∧ s = start cards

/-- The states of `proj_main_loop` reached by steps that satisfy the
guard, in mode 0x115. -/
abbrev Reach (ok : State → Notification → Prop) : State → Prop :=
  Machine.Reachable (step mode0x115) Starts ok

/-- Every step is admitted. -/
def anyStep : State → Notification → Prop := fun _ _ => True

/-- The notification's timer branch runs, and `t` is the state its
`switch` sees. -/
def TickState (m : ModeInfo) (s : State) (n : Notification) (t : State) :
    Prop :=
  ∃ s₁, input m s n = some (s₁, false) ∧ n.timer = true
    ∧ t = timerIntHandler s₁

end Lcom.Proj
