/-
lab4's `mouse_test_gesture` (lab4/lab4.c): read packets until a gesture
has been drawn, a stroke up and to the right with the left button, then
a stroke down and to the right with the right button.

`counter_exit` counts the parts of the gesture seen so far and
`x_displacement` adds up the stroke in progress. `gesturePacket` is the
chain of tests the loop runs on each complete packet, in the order of
the source; adding to the `int` beyond its range is undefined in C and
is `none` here. `turn` is one turn of the loop around it, from the bytes
the handler reads.

# The gesture

`Gestured` says what the loop looks for, of the packets it has seen: a
press, a stroke that reaches `x_len`, a release, and the same with the
other button. The parts come in this order; what may stand between them
is a parameter, everything in `Contains` and next to nothing in
`Contiguous`.
-/
import Lcom.Machine.Past
import Lcom.Proj.Decode

namespace Lcom.Lab4

open Machine Proj

-- ============================================================ the test

/-- `counter_exit`, a local of `mouse_test_gesture`, and the global
`x_displacement`. -/
structure Gesture where
  counterExit : Nat
  xDisplacement : Int
  deriving DecidableEq, Repr

/-- Both as the test starts. -/
def Gesture.init : Gesture := { counterExit := 0, xDisplacement := 0 }

/-- The values of an `int`. -/
def IsInt (x : Int) : Prop := -2 ^ 31 ≤ x ∧ x < 2 ^ 31

instance (x : Int) : Decidable (IsInt x) :=
  inferInstanceAs (Decidable (_ ∧ _))

/-- `x_displacement += packet1.delta_x`, and on to `next` once it has
reached `x_len`. -/
def Gesture.accumulate (g : Gesture) (xLen : UInt8) (p : Packet)
    (next : Nat) : Option Gesture :=
  let x := g.xDisplacement + p.deltaX
  if IsInt x then
    some { counterExit := if (xLen.toNat : Int) ≤ x then next
             else g.counterExit
           xDisplacement := x }
  else none

/-- The tests on a complete packet. -/
def gesturePacket (xLen tolerance : UInt8) (g : Gesture) (p : Packet) :
    Option Gesture :=
  if p.lb ∧ g.counterExit = 0 then some { g with counterExit := 1 }
  else if p.lb ∧ p.deltaX + tolerance.toNat ≥ 0
      ∧ p.deltaY + tolerance.toNat ≥ 0 ∧ g.counterExit = 1 then
    g.accumulate xLen p 2
  else if g.counterExit = 1 then
    some { counterExit := 0, xDisplacement := 0 }
  else if ¬p.lb ∧ g.counterExit = 2 then
    some { counterExit := 3, xDisplacement := 0 }
  else if p.rb ∧ g.counterExit = 3 then some { g with counterExit := 4 }
  else if p.rb ∧ p.deltaX + tolerance.toNat ≥ 0
      ∧ p.deltaY - tolerance.toNat ≤ 0 ∧ g.counterExit = 4 then
    g.accumulate xLen p 5
  else if g.counterExit = 4 then
    some { counterExit := 0, xDisplacement := 0 }
  else if ¬p.rb ∧ g.counterExit = 5 then
    -- `if (packet1.lb) counter_exit = 0;`, and then `counter_exit = 6`
    -- whatever the button was
    let g := if p.lb then { g with counterExit := 0 } else g
    some { g with counterExit := 6 }
  else if g.counterExit = 5 then some { g with counterExit := 0 }
  else some g

-- ============================================================ the loop

/-- The globals the loop works on. -/
structure GestureState where
  driver : MouseDriver
  gesture : Gesture
  deriving DecidableEq, Repr

/-- The globals as the test starts. -/
def GestureState.init : GestureState :=
  { driver := MouseDriver.init, gesture := Gesture.init }

/-- The mouse branch: `mouse_ih`, the dispatch, and the tests if
`counter` is zero after `print_mouse_packet`. -/
def gestureBranch (xLen tolerance : UInt8) (s : GestureState)
    (d : MouseDriver) : Option GestureState :=
  if d.dispatch = .byte ∧ d.dispatched.counter = 0 then
    (gesturePacket xLen tolerance s.gesture d.dispatched.packet1).map
      fun g => { driver := d.dispatched, gesture := g }
  else some { s with driver := d.dispatched }

/-- One turn of `while (counter_exit != 6)`: a notification with the
mouse bit and what the handler reads, or any other message. -/
def turn (xLen tolerance : UInt8) (s : GestureState) :
    Option (List PortReads) → Option GestureState
  | none => if s.gesture.counterExit ≠ 6 then some s else none
  | some reads =>
      if s.gesture.counterExit ≠ 6 then
        (mouseIh s.driver reads).bind (gestureBranch xLen tolerance s)
      else none

/-- The turns of a stream of interrupts. -/
def turns (bs : List ByteRead) : List (Option (List PortReads)) :=
  bs.map fun b => some b.reads

/-- The packet the driver publishes for a report of the mouse. -/
def published (p : MousePacket) : Packet :=
  Packet.decode { Packet.zero with
    byte0 := p.flags, byte1 := lowByte p.deltaX, byte2 := lowByte p.deltaY }

/-- The loop, seen from one complete packet to the next. -/
def gestureStep (xLen tolerance : UInt8) (g : Gesture) (p : MousePacket) :
    Option Gesture :=
  if g.counterExit ≠ 6 then gesturePacket xLen tolerance g (published p)
  else none

-- ========================================================= the gesture

/-- A packet of the left stroke. -/
def UpRight (tolerance : UInt8) (p : MousePacket) : Prop :=
  p.lb = true ∧ -(tolerance.toNat : Int) ≤ p.deltaX
    ∧ -(tolerance.toNat : Int) ≤ p.deltaY

/-- A packet of the right stroke. -/
def DownRight (tolerance : UInt8) (p : MousePacket) : Prop :=
  p.rb = true ∧ -(tolerance.toNat : Int) ≤ p.deltaX
    ∧ p.deltaY ≤ tolerance.toNat

instance (tolerance : UInt8) (p : MousePacket) :
    Decidable (UpRight tolerance p) :=
  inferInstanceAs (Decidable (_ ∧ _ ∧ _))

instance (tolerance : UInt8) (p : MousePacket) :
    Decidable (DownRight tolerance p) :=
  inferInstanceAs (Decidable (_ ∧ _ ∧ _))

/-- How far a stroke goes to the right. -/
def total (stroke : List MousePacket) : Int :=
  (stroke.map MousePacket.deltaX).sum

/-- A run of packets of one kind that goes `x_len` to the right. -/
structure Stroke (good : MousePacket → Prop) (xLen : UInt8)
    (stroke : List MousePacket) : Prop where
  nonempty : stroke ≠ []
  good : ∀ p ∈ stroke, good p
  far : (xLen.toNat : Int) ≤ total stroke

/-- The past ends in a press of a button and a stroke that follows it,
and `P` held before. -/
def Drawn (button : MousePacket → Bool) (good : MousePacket → Prop)
    (xLen : UInt8) (P : List MousePacket → Prop)
    (past : List MousePacket) : Prop :=
  ∃ before press stroke, past = before ++ press :: stroke
    ∧ P before ∧ button press = true ∧ Stroke good xLen stroke

/-- The past ends in the left stroke. -/
def LeftDrawn (xLen tolerance : UInt8) : List MousePacket → Prop :=
  Drawn MousePacket.lb (UpRight tolerance) xLen fun _ => True

/-- The past ends in a packet without the left button, after the left
stroke. -/
def Released (held : MousePacket → Prop) (xLen tolerance : UInt8)
    (past : List MousePacket) : Prop :=
  ∃ before release, past = before ++ [release]
    ∧ Since held (LeftDrawn xLen tolerance) before ∧ release.lb = false

/-- The past ends in the right stroke, after the release of the left
button. -/
def RightDrawn (held idle : MousePacket → Prop) (xLen tolerance : UInt8) :
    List MousePacket → Prop :=
  Drawn MousePacket.rb (DownRight tolerance) xLen
    (Since idle (Released held xLen tolerance))

/-- The past ends in the packet that completes the gesture. `held`,
`idle` and `rest` say what may come between its parts. -/
def Gestured (held idle rest : MousePacket → Prop)
    (xLen tolerance : UInt8) (past : List MousePacket) : Prop :=
  ∃ before last, past = before ++ [last]
    ∧ Since rest (RightDrawn held idle xLen tolerance) before
    ∧ last.rb = false ∧ last.lb = false

/-- The parts of the gesture, in order. -/
def Contains : UInt8 → UInt8 → List MousePacket → Prop :=
  Gestured (fun _ => True) (fun _ => True) (fun _ => True)

/-- The parts of the gesture, with nothing between them but packets that
keep the left button and packets without the right one. -/
def Contiguous : UInt8 → UInt8 → List MousePacket → Prop :=
  Gestured (fun p => p.lb = true) (fun p => p.rb = false) (fun _ => False)

/-- A left stroke that starts here starts from zero. -/
def StartsAtZero (g : Gesture) (p : MousePacket) : Prop :=
  g.counterExit = 0 → p.lb = true → g.xDisplacement = 0

-- ============================================== gestures as they come

/-- No button is pressed. -/
def NoButton (p : MousePacket) : Prop :=
  p.lb = false ∧ p.mb = false ∧ p.rb = false

/-- The stroke has gone `x_len` to the right at some point. -/
def Reaches (xLen : UInt8) (stroke : List MousePacket) : Prop :=
  ∃ l, l <+: stroke ∧ l ≠ [] ∧ (xLen.toNat : Int) ≤ total l

/-- The packets of a whole gesture, with strokes of any length. -/
structure GestureInput (xLen tolerance : UInt8) where
  press : MousePacket
  left : List MousePacket
  release : MousePacket
  rightPress : MousePacket
  right : List MousePacket
  last : MousePacket
  press_lb : press.lb = true
  left_good : ∀ p ∈ left, UpRight tolerance p
  left_far : Reaches xLen left
  release_none : NoButton release
  rightPress_rb : rightPress.rb = true
  right_good : ∀ p ∈ right, DownRight tolerance p
  right_only : ∀ p ∈ right, p.lb = false ∧ p.mb = false
  right_far : Reaches xLen right
  last_none : NoButton last

/-- The packets in the order they come. -/
def GestureInput.packets {xLen tolerance : UInt8}
    (i : GestureInput xLen tolerance) : List MousePacket :=
  (i.press :: i.left ++ [i.release])
    ++ (i.rightPress :: i.right ++ [i.last])

/-- The stroke has not gone `x_len` yet, nor left the range of an
`int`. -/
def Short (xLen : UInt8) (stroke : List MousePacket) : Prop :=
  ∀ l, l <+: stroke → l ≠ [] → IsInt (total l) ∧ total l < xLen.toNat

/-- The stroke has gone `x_len` with its last packet, and not before. -/
def Arrives (xLen : UInt8) (stroke : List MousePacket) : Prop :=
  ∃ before p, stroke = before ++ [p] ∧ Short xLen before
    ∧ IsInt (total stroke) ∧ (xLen.toNat : Int) ≤ total stroke

end Lcom.Lab4
