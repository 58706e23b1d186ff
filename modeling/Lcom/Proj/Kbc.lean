/-
The keyboard controller between its two devices and the main loop.

The output buffer is a queue of bytes, each with the status that stands
in the status register while it is at the front; bit 5 of that status
(`AUX_BIT`) says that it came from the mouse. Reading the data port takes
the front byte, whoever reads it: `kbc_ih` and `mouse_ih` read the same
port and neither looks at bit 5.

A notification's mask names devices that have bytes in the queue; a mask
that names another device does not occur, and is refused. Bytes that
arrive while the handlers run go to the end of the queue, behind the
ones the handlers read.
-/
import Lcom.Proj.Latches

namespace Lcom.Proj

-- ========================================================== the buffer

/-- `AUX_BIT`. -/
def auxBit : UInt8 := 0x20

inductive Device
  | keyboard | mouse
  deriving DecidableEq, Repr

/-- A byte of the output buffer, with its status. -/
structure QueuedByte where
  status : UInt8
  byte : UInt8
  full : status &&& outBuff ≠ 0

/-- The device the byte came from. -/
def QueuedByte.device (b : QueuedByte) : Device :=
  if b.status &&& auxBit ≠ 0 then .mouse else .keyboard

/-- No parity error and no time-out. -/
def QueuedByte.clean (b : QueuedByte) : Bool :=
  decide (b.status &&& kbcErr = 0)

abbrev OutputBuffer := List QueuedByte

/-- What the two ports give. -/
def ports : OutputBuffer → PortReads
  | [] => { status := some 0, data := none }
  | b :: _ => { status := some b.status, data := some b.byte }

-- ==================================================== the notifications

/-- The interrupt bits of a notification. -/
structure Mask where
  keyboard : Bool
  mouse : Bool
  timer : Bool
  deriving DecidableEq, Repr

/-- The mask names devices with pending bytes. -/
def Mask.Pending (mask : Mask) (q : OutputBuffer) : Prop :=
  (mask.keyboard = true → ∃ b ∈ q, b.device = .keyboard)
    ∧ (mask.mouse = true → ∃ b ∈ q, b.device = .mouse)

instance (mask : Mask) (q : OutputBuffer) : Decidable (mask.Pending q) :=
  inferInstanceAs (Decidable (_ ∧ _))

/-- The buffer as `mouse_ih` finds it, after `kbc_ih`. -/
def Mask.afterKbcIh (mask : Mask) (q : OutputBuffer) : OutputBuffer :=
  if mask.keyboard then q.tail else q

/-- The buffer after both handlers. -/
def Mask.afterMouseIh (mask : Mask) (q : OutputBuffer) : OutputBuffer :=
  if mask.mouse then (mask.afterKbcIh q).tail else mask.afterKbcIh q

/-- The notification as the loop sees it, answered from the buffer. -/
def Mask.notification (mask : Mask) (q : OutputBuffer)
    (rands : List Rand) : Notification :=
  { keyboard := if mask.keyboard then some { reads := ports q, junk := 0 }
      else none
    mouse := if mask.mouse then some [ports (mask.afterKbcIh q)] else none
    timer := mask.timer
    rands := rands }

/-- A byte arrives, or the loop is notified. -/
inductive Event
  | arrive (b : QueuedByte)
  | notify (mask : Mask) (rands : List Rand)

/-- The loop beside the controller. -/
def kbcStep (p : State × OutputBuffer) :
    Event → Option (State × OutputBuffer)
  | .arrive b => some (p.1, p.2 ++ [b])
  | .notify mask rands =>
      if mask.Pending p.2 then
        (step mode0x115 p.1 (mask.notification p.2 rands)).map fun s' =>
          (s', mask.afterMouseIh p.2)
      else none

-- ========================================================== properties

/-- The running loop receives the notification. -/
def Handled (p : State × OutputBuffer) (mask : Mask) : Prop :=
  p.1.condition = true ∧ mask.Pending p.2

/-- `kbc_ih` stores no mouse byte in `scancode`, and no keyboard byte
read by `mouse_ih` is passed to `print_mouse_packet`. -/
def NotMixed (p : State × OutputBuffer) : Event → Prop
  | .arrive _ => True
  | .notify mask rands => Handled p mask →
      (∀ r, (mask.notification p.2 rands).keyboard = some r →
        r.stores.isSome = true → ∀ b ∈ p.2.head?, b.device = .keyboard)
      ∧ (∀ reads d, (mask.notification p.2 rands).mouse = some reads →
        mouseIh p.1.driver reads = some d → d.dispatch = .byte →
        ∀ b ∈ (mask.afterKbcIh p.2).head?, b.device = .mouse)

/-- The bytes at the front of the buffer stand in the order in which the
handlers read them, but for a byte `mouse_ih` reads in error or while an
error is pending, which is dropped. -/
def InOrder (p : State × OutputBuffer) : Event → Prop
  | .arrive _ => True
  | .notify mask _ => Handled p mask →
      (mask.keyboard = true → ∀ b ∈ p.2.head?, b.device = .keyboard)
      ∧ (mask.mouse = true → ∀ b ∈ (mask.afterKbcIh p.2).head?,
        b.clean = true → p.1.driver.readingError = false →
        b.device = .mouse)

end Lcom.Proj
