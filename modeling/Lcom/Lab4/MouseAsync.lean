/-
lab4's `mouse_test_async` (lab4/lab4.c): print packets until the mouse
has been idle for `idle_time` seconds.

The driver is the one of the project (lab4/mouse.c has the same
`mouse_ih`, and a `print_mouse_packet` that only prints more). Every
mouse notification resets the idle counter, the timer branch counts, and
the `continue` of the mouse branch skips it. `step` is `none` where the
loop has ended or the handler polls forever.
-/
import Lcom.Proj.Mouse

namespace Lcom.Lab4

open Proj

/-- The globals the test works on. -/
structure AsyncState where
  driver : MouseDriver
  tmrTckCounter : Nat
  deriving DecidableEq, Repr

/-- The globals as the test starts. -/
def AsyncState.init : AsyncState :=
  { driver := MouseDriver.init, tmrTckCounter := 0 }

/-- The mouse bit with its reads, and the timer bit. -/
structure AsyncNotification where
  mouse : Option (List PortReads)
  timer : Bool

/-- `timer_int_handler`, in the timer branch. -/
def timerBranch (s : AsyncState) (timer : Bool) : AsyncState :=
  if timer then { s with tmrTckCounter := s.tmrTckCounter + 1 } else s

/-- The mouse branch. The flag reports its `continue`. -/
def mouseBranch (s : AsyncState) (reads : List PortReads) :
    Option (AsyncState × Bool) :=
  (mouseIh s.driver reads).map fun d =>
    ({ driver := d.dispatched, tmrTckCounter := 0 },
      decide (d.dispatch = .skip))

/-- The mouse branch if its bit is set. -/
def input (s : AsyncState) : Option (List PortReads) →
    Option (AsyncState × Bool)
  | some reads => mouseBranch s reads
  | none => some (s, false)

/-- One turn of `while (tmr_tck_counter < idle_time * 60)`. -/
def step (idleTime : UInt8) (s : AsyncState) (n : AsyncNotification) :
    Option AsyncState :=
  if s.tmrTckCounter < idleTime.toNat * 60 then
    (input s n.mouse).map fun p =>
      if p.2 then p.1 else timerBranch p.1 n.timer
  else none

end Lcom.Lab4
