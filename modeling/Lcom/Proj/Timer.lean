/-
Programming the timer (proj/src/timer.c, `timer_get_conf` and
`timer_set_frequency`; utils.c, `util_get_LSB` and `util_get_MSB`).
lab2 has the same functions.

The port I/O succeeds. `timer_get_conf` gives the status byte, `none`
where it returns 1; `timer_set_frequency` gives its status and the
device it leaves.
-/
import Lcom.Device.I8254

namespace Lcom.Proj

open Device

/-- `TIMER_FREQ`. -/
def timerFreq : UInt32 := 1193182

/-- `TIMER_CTRL`. -/
def timerCtrl : UInt8 := 0x43

/-- `TIMER_RB_CMD | TIMER_RB_COUNT_`: read back the status, not the
count. -/
def timerRbStatus : UInt8 := 0xC0 ||| 0x20

/-- `TIMER_RB_SEL(n)`. -/
def timerRbSel (timer : UInt8) : UInt8 := 1 <<< (timer + 1)

/-- `TIMER_LSB_MSB`. -/
def timerLsbMsb : UInt8 := 0x30

/-- The port of a timer: `TIMER_0`, `TIMER_1`, `TIMER_2`. -/
def timerPort (timer : UInt8) : UInt8 :=
  if timer = 0 then 0x40
  else if timer = 1 then 0x41
  else if timer = 2 then 0x42
  else 0

/-- The number of a timer as the code passes it. -/
def timerNumber (k : Fin 3) : UInt8 := UInt8.ofNat k.val

/-- `util_get_LSB`. -/
def utilGetLSB (val : UInt16) : UInt8 := val.toUInt8

/-- `util_get_MSB`. -/
def utilGetMSB (val : UInt16) : UInt8 := (val >>> 8).toUInt8

/-- `timer_get_conf`. -/
def timerGetConf (timer : UInt8) (dev : I8254) : Option UInt8 × I8254 :=
  if timer > 2 then (none, dev)
  else
    let rbc := timerRbStatus ||| timerRbSel timer
    let r := (dev.outb timerCtrl rbc).inb (timerPort timer)
    (some r.1, r.2)

/-- The `switch (timer)` of `timer_set_frequency`: the port and the
selection bits (0, `TIMER_SEL1`, `TIMER_SEL2`). -/
def timerSelect (timer : UInt8) : Option (UInt8 × UInt8) :=
  if timer = 0 then some (0x40, 0)
  else if timer = 1 then some (0x41, 0x40)
  else if timer = 2 then some (0x42, 0x80)
  else none

/-- `timer_set_frequency`. -/
def timerSetFrequency (timer : UInt8) (freq : UInt32) (dev : I8254) :
    Nat × I8254 :=
  match timerGetConf timer dev with
  | (none, dev) => (1, dev)
  | (some status, dev) =>
      let lastBits := status &&& 0x0F
      if freq < 19 ∨ freq > timerFreq then (1, dev)
      else
        match timerSelect timer with
        | none => (1, dev)
        | some (timeraddr, sel) =>
            let controlWord := sel ||| timerLsbMsb ||| lastBits
            let div : UInt16 := (timerFreq / freq).toUInt16
            let dev := dev.outb timerCtrl controlWord
            let dev := dev.outb timeraddr (utilGetLSB div)
            let dev := dev.outb timeraddr (utilGetMSB div)
            (0, dev)

end Lcom.Proj
