/-
Setup and teardown of `proj_main_loop` (proj/src/proj.c): what it
subscribes and starts before the loop, and what it undoes after it.

Every call that can fail is a `Call`, and the environment answers it
(`ok`). Each subscription is one `sys_irqsetpolicy` and each
unsubscription one `sys_irqrmpolicy`, and both report its failure; the
video and data-reporting calls are the library's. A failed call returns
from `proj_main_loop` at once, with status 1.

`projMainLoop` is `none` where the loop in between does not end.
-/
import Lcom.Machine.Attempt
import Lcom.Proj.MainLoop

namespace Lcom.Proj

open Machine

/-- The interrupt lines: `IRQ1`, `TIMER0_IRQ`, `IRQ12`. -/
inductive Line
  | keyboard | timer | mouse
  deriving DecidableEq, Repr

/-- The calls of setup and teardown. -/
inductive Call
  | subscribe (line : Line)
  | mouseEnableDataReporting
  | vgStart
  | disableMouseData
  | unsubscribe (line : Line)
  | vgExit
  deriving DecidableEq, Repr

/-- The calls before the loop, in order. -/
def setup : List Call :=
  [.subscribe .keyboard, .subscribe .timer, .subscribe .mouse,
    .mouseEnableDataReporting, .vgStart]

/-- The calls after the loop, in order. -/
def teardown : List Call :=
  [.disableMouseData, .unsubscribe .timer, .unsubscribe .keyboard,
    .unsubscribe .mouse, .vgExit]

/-- The loop ends with these notifications. -/
def loopEnds (cards : Cards) (ns : List Notification) : Bool :=
  (exec (step mode0x115) (start cards) ns).any fun s => !s.condition

/-- `proj_main_loop`: the calls it makes and the status it returns. -/
def projMainLoop (ok : Call → Bool) (cards : Cards)
    (ns : List Notification) : Option (List Call × Nat) :=
  let before := attempt ok setup
  if before.2 then
    if loopEnds cards ns then
      let after := attempt ok teardown
      some (before.1 ++ after.1, if after.2 then 0 else 1)
    else none
  else some (before.1, 1)

/-- Every line that was subscribed has an unsubscription attempted, and
the video mode, if it was started, an exit. -/
def LeavesNothing (ok : Call → Bool) (calls : List Call) : Prop :=
  (∀ line, .subscribe line ∈ calls → ok (.subscribe line) = true →
      .unsubscribe line ∈ calls)
    ∧ (.vgStart ∈ calls → ok .vgStart = true → .vgExit ∈ calls)

end Lcom.Proj
