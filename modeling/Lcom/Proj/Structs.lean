/-
The data of the memory game (proj/src/structs.h): the cards of the
board, the player, the cursor and the states of the main loop.

`isFlipped = true` means the card lies face DOWN: the deal puts all
sixteen cards face up with the flag cleared, and the preview turns them
over. `Player.name` and `Player.bestTime` are not modelled, nothing in
the loop reads them; `lives` is an `unsigned int`, so its decrement
wraps (`Player.loseLife`).
-/
import Mathlib

namespace Lcom.Proj

/-- `cardNumber`: the thirteen ranks. -/
inductive CardNumber
  | ace | two | three | four | five | six | seven | eight | nine | ten
  | jack | queen | king
  deriving DecidableEq, Repr

/-- `cardSuit`, in the order of the enumeration. -/
inductive CardSuit
  | spades | clubs | hearts | diamonds
  deriving DecidableEq, Repr

/-- `gameState`. `highScores` and `wait` are declared and never
entered. -/
inductive GameState
  | menu | game | pause | highScores | instructions | exit | wait
  deriving DecidableEq, Repr

/-- `card`: the deck column and row of the picture, the three flags and
the value compared by the match check. -/
structure Card where
  x : Int
  y : Int
  isFlipped : Bool
  isFlipping : Bool
  flipSuccess : Bool
  num : CardNumber
  suit : CardSuit
  deriving DecidableEq, Repr

/-- What the match check compares: rank and suit. -/
def Card.value (c : Card) : CardNumber × CardSuit := (c.num, c.suit)

/-- The sixteen cards of the board. -/
abbrev Cards := List.Vector Card 16

/-- `Player`, without the fields nothing reads. -/
structure Player where
  lives : Nat
  isAlive : Bool
  deriving DecidableEq, Repr

/-- `p1.lives--` on a 32-bit unsigned: zero wraps to the maximum. -/
def Player.loseLife (p : Player) : Player :=
  { p with lives := (p.lives + (2 ^ 32 - 1)) % 2 ^ 32 }

/-- `Mouse`: the cursor position. -/
structure Mouse where
  x : Int
  y : Int
  deriving DecidableEq, Repr

/-- `getCardNumber`; the fall-through `return 1` is the ace. -/
def getCardNumber (x : Int) : CardNumber :=
  if x = 0 then .ace
  else if x = 1 then .two
  else if x = 2 then .three
  else if x = 3 then .four
  else if x = 4 then .five
  else if x = 5 then .six
  else if x = 6 then .seven
  else if x = 7 then .eight
  else if x = 8 then .nine
  else if x = 9 then .ten
  else if x = 10 then .jack
  else if x = 11 then .queen
  else if x = 12 then .king
  else .ace

/-- `getCardSuit`; the first two rows of the deck are swapped against
the enumeration, and the fall-through `return 1` is clubs. -/
def getCardSuit (y : Int) : CardSuit :=
  if y = 0 then .clubs
  else if y = 1 then .spades
  else if y = 2 then .hearts
  else if y = 3 then .diamonds
  else .clubs

end Lcom.Proj
