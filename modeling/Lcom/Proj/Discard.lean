/-
Which bytes the keyboard handler should accept.

A byte counts if the status register was really read, said that the
output buffer is full, and had neither error bit set. `flagged` reads
store a byte all the same; `discard` is the notification without them.
-/
import Lcom.Machine.Latch
import Lcom.Proj.Latches

namespace Lcom.Proj

open Machine

/-- The byte of a read without errors. -/
def PortReads.accepted (r : PortReads) : Option UInt8 :=
  match r.status with
  | none => none
  | some stat =>
      if stat &&& outBuff ≠ 0 ∧ stat &&& kbcErr = 0 then r.data else none

/-- What a call of `kbc_ih` does to `scancode`. -/
def KbcReads.outcome (r : KbcReads) : Option (Option UInt8) := some r.stores

/-- The byte of a call without errors. -/
def KbcReads.accepted (r : KbcReads) : Option UInt8 := r.reads.accepted

/-- A byte is stored that was read with an error. -/
def KbcReads.flagged (r : KbcReads) : Bool :=
  r.stores.isSome && r.accepted.isNone

/-- The notification without the keyboard bit where its byte is
flagged. -/
def Notification.discard (n : Notification) : Notification :=
  { n with keyboard := n.keyboard.filter fun r => !r.flagged }

/-- The notification stores no flagged byte, or one `scancode` holds
already. -/
def KeyHarmless (s : State) (n : Notification) : Prop :=
  ∀ r, n.keyboard = some r →
    Harmless KbcReads.outcome KbcReads.accepted s.scancode r

end Lcom.Proj
