/-
The keyboard interrupt handler (proj/src/keyboard.c, `kbc_ih`).

The status variable is a local that the failing read leaves
unassigned, and the code tests it all the same: the environment
supplies the byte found there (`junk`). A data byte is stored before
the error bits are looked at, and looking at them changes nothing.
-/
import Lcom.Proj.Mouse

namespace Lcom.Proj

/-- `P_KEY_BREAKCODE`. -/
def pKeyBreakcode : UInt8 := 0x99

/-- `I_KEY_BREAKCODE`. -/
def iKeyBreakcode : UInt8 := 0x97

/-- `E_KEY_BREAKCODE`. -/
def eKeyBreakcode : UInt8 := 0x92

/-- `ESCAPE`. -/
def escape : UInt8 := 0x81

/-- The reads of one `kbc_ih` call: both port reads, and what the
unassigned status variable holds if the first fails. -/
structure KbcReads where
  reads : PortReads
  junk : UInt8
  deriving DecidableEq, Repr

/-- `kbc_ih`: the new value of `scancode`. -/
def kbcIh (scancode : UInt8) (r : KbcReads) : UInt8 :=
  let st := r.reads.status.getD r.junk
  if st &&& outBuff ≠ 0 then
    match r.reads.data with
    | some byte => byte
    | none => scancode
  else scancode

end Lcom.Proj
