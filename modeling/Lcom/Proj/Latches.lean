/-
The two latches of the main loop: `scancode`, the last key code
`kbc_ih` stored, and `packet1.lb`, the left button of the last packet.

Every screen tests them on each tick, a whole screen in sequence, and
some branches clear a latch while others leave it set. `tickMoves` lists
the changes of `gs` one tick makes, each with its `Trigger`: a test of
`scancode`, a test of `packet1.lb`, or the course of the game. The tests
are `scancode == code || (packet1.lb && ...)`, so a key that matches is
what triggers, whatever the button does.

Two logs watch a run. `KeyLog` says whether a code was delivered since
the current `gs` was entered, and whether the code in the latch has
already triggered a move. `ClickLog` is set while no packet has been
completed since a move the button triggered.
-/
import Lcom.Machine.Cascade
import Lcom.Proj.MainLoop

namespace Lcom.Proj

open Machine

-- ============================================================ triggers

/-- What made `gs` change. -/
inductive Trigger
  | key | button | outcome
  deriving DecidableEq, Repr

/-- `scancode == code || pressed`, and which of the two it was. -/
def State.trigger (s : State) (code : UInt8) (pressed : Bool) :
    Option Trigger :=
  if s.scancode == code then some .key
  else if pressed then some .button else none

/-- The button is down over the first line of a menu. -/
def State.onPlay (s : State) : Bool := s.lb && s.cursorIn 360 445 300 330

/-- The button is down over the second line. -/
def State.onInstructions (s : State) : Bool :=
  s.lb && s.cursorIn 280 520 400 430

/-- The button is down over the third line. -/
def State.onExit (s : State) : Bool := s.lb && s.cursorIn 360 440 500 530

def State.playTrigger (s : State) : Option Trigger :=
  s.trigger pKeyBreakcode s.onPlay

def State.instructionsTrigger (s : State) : Option Trigger :=
  s.trigger iKeyBreakcode s.onInstructions

def State.exitTrigger (s : State) : Option Trigger :=
  s.trigger eKeyBreakcode s.onExit

-- ======================================================= the screens

/-- The tests of `case Menu`, in order. -/
def menuRules : List (Rule State Trigger) :=
  [{ fires := State.playTrigger
     act := fun s => State.clearLb
      { s with scancode := 0, tmrTckCounter := 0, gs := .game } },
   { fires := State.instructionsTrigger
     act := fun s => State.clearLb { s with gs := .instructions } },
   { fires := State.exitTrigger
     act := fun s => { s with gs := .exit } }]

/-- The tests of `case Pause`, in order. -/
def pauseRules : List (Rule State Trigger) :=
  [{ fires := State.playTrigger
     act := fun s => { s with scancode := 0, gs := .game } },
   { fires := State.instructionsTrigger
     act := fun s => { s.clearLb with
      gs := .instructions, prevState := .game, scancode := 0 } },
   { fires := State.exitTrigger
     act := fun s => { s with gs := .exit, scancode := 0 } }]

/-- The test of `case Instructions`: from a paused game the button
leaves too. -/
def instructionsRules (prevState : GameState) : List (Rule State Trigger) :=
  if prevState = .game then
    [{ fires := fun s => s.trigger escape s.lb
       act := fun s => State.clearLb
        { s with gs := .game, prevState := .instructions } }]
  else
    [{ fires := fun s => s.trigger escape false
       act := fun s => { s with gs := .menu } }]

/-- The exit screen starts a new game at this tick. -/
def State.restarts (s : State) : Bool :=
  (s.gameOver || s.victory) && decide (s.tmrTckCounter % 240 = 0)

/-- The changes of `gs` in `case Game`: the pause key, then the end of
the game. -/
def gameMoves (m : ModeInfo) (s : State) : List Trigger :=
  if s.initGame then []
  else (if s.scancode == escape then [.key] else [])
    ++ (if (gameTick m s).any fun s' => s'.gs == .exit then [.outcome]
      else [])

/-- The changes of `gs` made by the tick from `s`, in order. -/
def tickMoves (m : ModeInfo) (s : State) : List Trigger :=
  match s.gs with
  | .menu => Rule.causes menuRules s
  | .game => gameMoves m s
  | .pause => Rule.causes pauseRules s
  | .instructions => Rule.causes (instructionsRules s.prevState) s
  | .exit => if s.restarts then [.outcome] else []
  | .highScores => []
  | .wait => []

-- ============================================================ the keys

/-- The byte `kbc_ih` stores, if it stores one. -/
def KbcReads.stores (r : KbcReads) : Option UInt8 :=
  if r.reads.status.getD r.junk &&& outBuff ≠ 0 then r.reads.data else none

/-- The notification delivers a scancode. -/
def Notification.deliversKey (n : Notification) : Bool :=
  n.keyboard.any fun r => r.stores.isSome

/-- `fresh`: a code was delivered since `gs` was entered. `spent`: the
code in the latch has triggered a move. -/
structure KeyLog where
  fresh : Bool
  spent : Bool
  deriving DecidableEq, Repr

/-- The log as the loop starts. -/
def KeyLog.init : KeyLog := { fresh := false, spent := false }

/-- The keyboard branch of a notification. -/
def KeyLog.receive (l : KeyLog) (n : Notification) : KeyLog :=
  if n.deliversKey then { fresh := true, spent := false } else l

/-- One change of `gs`. -/
def KeyLog.move (l : KeyLog) : Trigger → KeyLog
  | .key => { fresh := false, spent := true }
  | .button => { l with fresh := false }
  | .outcome => { l with fresh := false }

/-- A move by the key uses a code delivered since `gs` was entered, and
one that has triggered nothing yet. -/
def KeyLog.Allows (l : KeyLog) (c : Trigger) : Prop :=
  c = .key → l.fresh = true ∧ l.spent = false

/-- Every move of the tick from `t` by the key is allowed. -/
def KeysActOnce (l : KeyLog) (t : State) : Prop :=
  Through KeyLog.move KeyLog.Allows l (tickMoves mode0x115 t)

/-- The state the `switch` of a notification sees, if its timer branch
runs. -/
def tickState (m : ModeInfo) (s : State) (n : Notification) :
    Option State :=
  match input m s n with
  | some (s₁, false) => if n.timer then some (timerIntHandler s₁) else none
  | _ => none

/-- The log after a notification. -/
def KeyLog.update (l : KeyLog) (s : State) (n : Notification) : KeyLog :=
  match tickState mode0x115 s n with
  | some t => (tickMoves mode0x115 t).foldl KeyLog.move (l.receive n)
  | none => l.receive n

/-- The loop with its key log. -/
abbrev KeyReach (ok : State → Notification → Prop) :
    State × KeyLog → Prop :=
  Reachable (withLog (step mode0x115) KeyLog.update)
    (fun p => Starts p.1 ∧ p.2 = KeyLog.init) (fun p n => ok p.1 n)

/-- The tick from `t` keeps a code in the latch that the next screen
would act on: leaving `Instructions` for the game by escape, a restart
with a menu key in the latch, and `Instructions` chosen in the menu by
the button with the exit key or escape in the latch. -/
def KeepsStaleKey (t : State) : Prop :=
  (t.gs = .instructions ∧ t.prevState = .game ∧ t.scancode = escape)
    ∨ (t.gs = .exit ∧ t.restarts = true
      ∧ (t.scancode = pKeyBreakcode ∨ t.scancode = iKeyBreakcode
        ∨ t.scancode = eKeyBreakcode))
    ∨ (t.gs = .menu ∧ t.onInstructions = true
      ∧ (t.scancode = eKeyBreakcode ∨ t.scancode = escape))

/-- The notification keeps no stale key. -/
def noStaleKey (s : State) (n : Notification) : Prop :=
  ∀ t, TickState mode0x115 s n t → ¬KeepsStaleKey t

-- ========================================================== the button

/-- The notification completes a packet. -/
def completesPacket (m : ModeInfo) (s : State) (n : Notification) : Bool :=
  (input m s n).any fun p =>
    p.1.driver.totalPackets != s.driver.totalPackets

/-- The log `clicked`: the button has triggered a move since the last
packet was completed. -/
def receiveClick (clicked : Bool) (s : State) (n : Notification) : Bool :=
  clicked && !completesPacket mode0x115 s n

/-- The log after a notification. -/
def updateClick (clicked : Bool) (s : State) (n : Notification) : Bool :=
  match tickState mode0x115 s n with
  | some t => receiveClick clicked s n
      || decide (Trigger.button ∈ tickMoves mode0x115 t)
  | none => receiveClick clicked s n

/-- The loop with its click log. -/
abbrev ClickReach (ok : State → Notification → Prop) :
    State × Bool → Prop :=
  Reachable (withLog (step mode0x115) updateClick)
    (fun p => Starts p.1 ∧ p.2 = false) (fun p n => ok p.1 n)

/-- The tick from `t` selects a card: `flipCardOnClick` marks one that
was not turning. -/
def SelectsCard (m : ModeInfo) (t : State) : Prop :=
  t.gs = .game ∧ t.initGame = false
    ∧ ∃ b, (if t.tmrTckCounter % 2 = 0 then draw m t else some t) = some b
      ∧ b.lb = true ∧ b.board.anyFlipping = false
      ∧ ∃ k, (b.board.card k).isFlipping = false
        ∧ ((flipCardOnClick m b.mouse b.board.cardArray).get k).isFlipping
          = true

/-- The tick from `t` uses the button: for a move or for selecting a
card. -/
def UsesButton (m : ModeInfo) (t : State) : Prop :=
  .button ∈ tickMoves m t ∨ SelectsCard m t

/-- The tick from `t` resumes the paused game by the button. -/
def ResumesByButton (t : State) : Prop :=
  t.gs = .pause ∧ t.scancode ≠ pKeyBreakcode ∧ t.onPlay = true

/-- The notification does not resume the game by the button. -/
def noResumeClick (s : State) (n : Notification) : Prop :=
  ∀ t, TickState mode0x115 s n t → ¬ResumesByButton t

end Lcom.Proj
