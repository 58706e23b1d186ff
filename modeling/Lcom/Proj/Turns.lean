/-
The game of pairs that a run of the main loop plays.

`State.position` reads the rules' view of a game off the state: the
matched cards, the open card the next one will be compared with, the
lives. A pair that is turning down is out of the game already, and a
card that is turning up is not in it yet; while the dealt board is shown
the game has not begun.

`turnedUp` lists the cards that come face up in a step, and the log of a
run is the cards that have come up since the last deal, in order. It is a
ghost: nothing reads it.
-/
import Lcom.Machine.Concentration
import Lcom.Proj.Slip

namespace Lcom.Proj

open Machine

/-- Face up, not matched, and lying still. -/
def Card.isWaiting (c : Card) : Bool := c.isOpen && !c.isFlipping

/-- The card of the board that waits for a second one. -/
def Board.waiting (b : Board) : Option (Fin 16) :=
  (List.finRange 16).find? fun i => (b.card i).isWaiting

/-- The matched cards of the board. -/
def Board.taken (b : Board) : Finset (Fin 16) :=
  Finset.univ.filter fun i => (b.card i).flipSuccess = true

/-- Where the player's game stands. -/
def State.position (s : State) : Position (Fin 16) :=
  { taken := s.board.taken
    opened := if s.initGame then none else s.board.waiting
    lives := s.p1.lives }

/-- What a player sees on the cards. -/
def State.faces (s : State) (i : Fin 16) : CardNumber × CardSuit :=
  (s.board.card i).value

/-- The game as a deal begins it. -/
def newGame : Position (Fin 16) := .fresh initializePlayer.lives

/-- The cards that come up between the two boards. -/
def turnedUp (b b' : Board) : List (Fin 16) :=
  (List.finRange 16).filter (turnsUp b b')

/-- The log after a step: a deal starts it afresh. -/
def logTurns (log : List (Fin 16)) (s s' : State) : List (Fin 16) :=
  if Deals s s' then [] else log ++ turnedUp s.board s'.board

/-- The main loop with its log. -/
def loggedStep : State × List (Fin 16) → Notification →
    Option (State × List (Fin 16)) :=
  withHistory (step mode0x115) logTurns

/-- The logged loop starts on a dealt board with nothing turned. -/
def LoggedStarts (p : State × List (Fin 16)) : Prop :=
  Starts p.1 ∧ p.2 = []

/-- The states and logs of the runs whose steps satisfy the guard. -/
abbrev LoggedReach (ok : State → Notification → Prop) :
    State × List (Fin 16) → Prop :=
  Reachable loggedStep LoggedStarts fun p n => ok p.1 n

/-- The state plays the game its log records: the log is legal, it leads
to where the game stands, the game is lost exactly when the lives have
run out, and won only with every card taken. -/
structure PlaysLog (p : State × List (Fin 16)) : Prop where
  legal : newGame.Legal p.1.faces p.2
  position : p.1.position = newGame.after p.1.faces p.2
  lost : p.1.gameOver = true ↔ p.1.position.lives = 0
  won : p.1.victory = true → p.1.position.taken = Finset.univ

-- ============================================================ facts

/-- A logged run is a run. -/
theorem LoggedReach.reach {ok : State → Notification → Prop}
    {p : State × List (Fin 16)} (h : LoggedReach ok p) : Reach ok p.1 :=
  Reachable.forget (fun _ hp => hp.1) h

/-- A step of the logged loop. -/
theorem loggedStep_eq_some {p p' : State × List (Fin 16)}
    {n : Notification} (h : loggedStep p n = some p') :
    step mode0x115 p.1 n = some p'.1 ∧ p'.2 = logTurns p.2 p.1 p'.1 :=
  withHistory_eq_some h

/-- Every run has a log. -/
theorem exists_log {ok : State → Notification → Prop} {s : State}
    (h : Reach ok s) : ∃ log, LoggedReach ok (s, log) :=
  h.remembered fun _ hs => ⟨[], hs, rfl⟩

/-- The card a test selects, where it selects at most one. -/
theorem find_finRange {f : Fin 16 → Bool} {o : Option (Fin 16)}
    (h : ∀ i, f i = true ↔ o = some i) :
    (List.finRange 16).find? f = o := by
  cases hf : (List.finRange 16).find? f with
  | some i => exact ((h i).1 (List.find?_some hf)).symm
  | none =>
      cases o with
      | none => rfl
      | some i =>
          have hno := List.find?_eq_none.1 hf i (List.mem_finRange i)
          exact absurd ((h i).2 rfl) hno

/-- Two boards on which the same cards wait. -/
theorem Board.waiting_congr {b b' : Board}
    (h : ∀ i, (b'.card i).isWaiting = (b.card i).isWaiting) :
    b'.waiting = b.waiting := by
  unfold Board.waiting
  simp only [h]

theorem Board.mem_taken {b : Board} {i : Fin 16} :
    i ∈ b.taken ↔ (b.card i).flipSuccess = true := by
  unfold Board.taken
  simp

/-- Two boards with the same matches. -/
theorem Board.taken_congr {b b' : Board}
    (h : ∀ i, (b'.card i).flipSuccess = (b.card i).flipSuccess) :
    b'.taken = b.taken := by
  ext i
  rw [Board.mem_taken, Board.mem_taken, h i]

/-- A step in which no card comes up. -/
theorem turnedUp_eq_nil {b b' : Board} (h : ∀ c, turnsUp b b' c = false) :
    turnedUp b b' = [] := by
  unfold turnedUp
  rw [List.filter_eq_nil_iff]
  intro c _ hc
  rw [h c] at hc
  cases hc

/-- A step in which one card comes up. -/
theorem turnedUp_eq_singleton {b b' : Board} {g : Fin 16}
    (h : ∀ c, turnsUp b b' c = true ↔ c = g) : turnedUp b b' = [g] :=
  filter_finRange h

/-- Only the faces of the later board count. -/
theorem turnsUp_congr {b b' b'' : Board}
    (h : ∀ i, (b''.card i).isFlipped = (b'.card i).isFlipped) :
    turnsUp b b'' = turnsUp b b' := by
  funext c
  unfold turnsUp
  rw [h c]

/-- Cards that stay as they are do not come up. -/
theorem turnsUp_same {b b' : Board} {c : Fin 16}
    (h : (b'.card c).isFlipped = (b.card c).isFlipped) :
    turnsUp b b' c = false := by
  unfold turnsUp
  rw [h]
  cases (b.card c).isFlipped <;> rfl

theorem logTurns_deals {log : List (Fin 16)} {s s' : State}
    (h : Deals s s') : logTurns log s s' = [] := if_pos h

theorem logTurns_keeps {log : List (Fin 16)} {s s' : State}
    (h : ¬Deals s s') :
    logTurns log s s' = log ++ turnedUp s.board s'.board := if_neg h

end Lcom.Proj
