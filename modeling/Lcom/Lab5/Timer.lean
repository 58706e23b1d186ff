/-
The timer of lab5 (lab5/timer.c, `timer_get_conf` and
`timer_set_frequency`). It includes lab2's header and repeats lab2's
functions, with the range checked first and the port computed as
`TIMER_0 + timer`. The control word takes its selection bits from
`TIMER_RB_SEL`, which are those of a read-back command.

The port I/O succeeds; `freq_rounded` is only printed.
-/
import Lcom.Proj.Timer

namespace Lcom.Lab5

open Device Proj

/-- `TIMER_0 + timer`. -/
def timerPort (timer : UInt8) : UInt8 := 0x40 + timer

/-- `timer_get_conf`. -/
def timerGetConf (timer : UInt8) (dev : I8254) : Option UInt8 × I8254 :=
  if timer ≠ 0 ∧ timer ≠ 1 ∧ timer ≠ 2 then (none, dev)
  else
    let rbcmd := timerRbStatus ||| timerRbSel timer
    let r := (dev.outb timerCtrl rbcmd).inb (timerPort timer)
    (some r.1, r.2)

/-- `timer_set_frequency`. -/
def timerSetFrequency (timer : UInt8) (freq : UInt32) (dev : I8254) :
    Nat × I8254 :=
  if freq < 19 ∨ freq > timerFreq then (1, dev)
  else
    match timerGetConf timer dev with
    | (none, dev) => (1, dev)
    | (some st, dev) =>
        let lastBits := st &&& 0x0F
        let controlWord := timerRbSel timer ||| timerLsbMsb ||| lastBits
        let div : UInt16 := (timerFreq / freq).toUInt16
        let dev := dev.outb timerCtrl controlWord
        let dev := dev.outb (timerPort timer) (utilGetLSB div)
        let dev := dev.outb (timerPort timer) (utilGetMSB div)
        (0, dev)

end Lcom.Lab5
