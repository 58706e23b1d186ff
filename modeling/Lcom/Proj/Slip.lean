/-
The tick that lets a third card in.

`case Game` handles the click before it checks for a match, and the
guard `isAnyCardFlipping` only sees cards that are still turning. In the
one tick in which the second card of a mismatching pair finishes turning
up, nothing turns any more when the click is handled and the pair has
not been sent back yet: a button held over a third face-down card starts
that card too. `ThirdCardSlips` describes the state such a tick starts
from, `noSlip` the notifications that are not of that kind.

The properties below are stated at the end of a timer tick.
-/
import Lcom.Proj.History

namespace Lcom.Proj

/-- The tick from `t` draws the last frame of a card `j` turning up,
beside an open card `i` of another value, with the button down over a
face-down card `k`. -/
def ThirdCardSlips (t : State) : Prop :=
  t.tmrTckCounter % 2 = 0 ∧ t.lb = true ∧ t.board.increaseWidth = 1
    ∧ ∃ j, ((t.board.card j).isFlipping = true
        ∧ (t.board.card j).isFlipped = true
        ∧ t.board.otherSide.get j ≠ 0)
      ∧ (∃ i, (t.board.card i).isFlipped = false
        ∧ (t.board.card i).flipSuccess = false
        ∧ (t.board.card i).value ≠ (t.board.card j).value)
      ∧ ∃ k, onCard mode0x115 t.mouse k = true
        ∧ (t.board.card k).isFlipped = true
        ∧ (t.board.card k).isFlipping = false

/-- The notification does not let a third card in. -/
def noSlip (s : State) (n : Notification) : Prop :=
  ∀ t, TickState mode0x115 s n t → t.gs = .game → t.initGame = false →
    ¬ThirdCardSlips t

/-- A state at the end of a timer tick of an admitted run. -/
def EndOfTick (ok : State → Notification → Prop) (s' : State) : Prop :=
  ∃ s n t, Reach ok s ∧ ok s n ∧ TickState mode0x115 s n t
    ∧ step mode0x115 s n = some s'

/-- The cards in play: unmatched, and face up or turning. -/
def inPlay (b : Board) : Finset (Fin 16) :=
  Finset.univ.filter fun i => (b.card i).flipSuccess = false
    ∧ ((b.card i).isFlipped = false ∨ (b.card i).isFlipping = true)

/-- The board a tick from `t` draws: the preview draws on every tick,
the game on even ones. -/
def DrawsBoard (t : State) (b : Board) : Prop :=
  t.gs = .game
    ∧ ((t.initGame = true ∧ b = (previewStart t).board)
      ∨ (t.initGame = false ∧ t.tmrTckCounter % 2 = 0 ∧ b = t.board))

/-- The end of a tick is reached. -/
theorem EndOfTick.reach {ok : State → Notification → Prop} {s : State}
    (h : EndOfTick ok s) : Reach ok s := by
  obtain ⟨s₀, n, -, hs, hok, -, hstep⟩ := h
  exact .step hs hok hstep

end Lcom.Proj
