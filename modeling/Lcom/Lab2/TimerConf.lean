/-
Showing the configuration of a timer (lab2/timer.c,
`timer_display_conf`; lab2.c, `timer_test_read_config`; lcom/timer.h for
the types).

`timer_print_config` belongs to the library; what the code decides is
the call it makes, so the model gives that call. In the masks `>>` binds
tighter than `|`: only the last operand of each is shifted. The member
`in_mode` has the type of an enumeration and holds whatever integer is
assigned to it.
-/
import Lcom.Proj.Timer

namespace Lcom.Lab2

open Device Proj

/-- `enum timer_init`. -/
inductive TimerInit
  | invalVal | lsbOnly | msbOnly | msbAfterLsb
  deriving DecidableEq, Repr

/-- The integer of an enumerator. -/
def TimerInit.code : TimerInit → Nat
  | .invalVal => 0
  | .lsbOnly => 1
  | .msbOnly => 2
  | .msbAfterLsb => 3

/-- `enum timer_status_field`. -/
inductive TimerStatusField
  | tsfAll | tsfInitial | tsfMode | tsfBase
  deriving DecidableEq, Repr

/-- `union timer_status_field_val`, with the member that is set. -/
inductive TimerStatusFieldVal
  | byte (st : UInt8)
  | inMode (code : Nat)
  | countMode (mode : UInt8)
  | bcd (on : Bool)
  deriving DecidableEq, Repr

/-- A call of `timer_print_config`. -/
structure PrintConfig where
  timer : UInt8
  field : TimerStatusField
  val : TimerStatusFieldVal
  deriving DecidableEq, Repr

/-- `BIT(n)`. -/
def bit (n : UInt8) : UInt8 := 1 <<< n

/-- `timer_display_conf`. -/
def timerDisplayConf (timer st : UInt8) (field : TimerStatusField) :
    PrintConfig :=
  let val : TimerStatusFieldVal := match field with
    | .tsfAll => .byte st
    | .tsfInitial =>
        .inMode ((st &&& bit 5) ||| ((st &&& bit 4) >>> 4)).toNat
    | .tsfMode => .countMode
        ((st &&& bit 3) ||| (st &&& bit 2) ||| ((st &&& bit 1) >>> 1))
    | .tsfBase => .bcd (decide (st &&& bit 0 = 1))
  { timer, field, val }

/-- `timer_test_read_config`: the call it makes, if any. -/
def timerTestReadConfig (timer : UInt8) (field : TimerStatusField)
    (dev : I8254) : Option PrintConfig :=
  (timerGetConf timer dev).1.map fun st => timerDisplayConf timer st field

-- ========================================================== properties

section

variable (k : Fin 3) (freq : UInt32) (dev : I8254)

/-- The call for a field, after `timer_set_frequency(k, freq)`. -/
def shown (field : TimerStatusField) : Option PrintConfig :=
  timerTestReadConfig (timerNumber k) field
    (timerSetFrequency (timerNumber k) freq dev).2

/-- The counter's mode and BCD bit, after the same call. -/
def programmed : BitVec 4 :=
  ((timerSetFrequency (timerNumber k) freq dev).2.counters k).nibble

/-- The initialisation mode shown is low byte, then high byte. -/
def ShowsInitial : Prop :=
  shown k freq dev .tsfInitial = some
    { timer := timerNumber k, field := .tsfInitial
      val := .inMode TimerInit.msbAfterLsb.code }

/-- The counting mode shown is bits 3 to 1 of the counter's nibble. -/
def ShowsMode : Prop :=
  shown k freq dev .tsfMode = some
    { timer := timerNumber k, field := .tsfMode
      val := .countMode
        (UInt8.ofNat ((programmed k freq dev).extractLsb' 1 3).toNat) }

/-- The base shown is bit 0 of the counter's nibble. -/
def ShowsBase : Prop :=
  shown k freq dev .tsfBase = some
    { timer := timerNumber k, field := .tsfBase
      val := .bcd ((programmed k freq dev).getLsbD 0) }

/-- All three are shown as they were programmed. -/
def ShowsProgrammed : Prop :=
  ShowsInitial k freq dev ∧ ShowsMode k freq dev ∧ ShowsBase k freq dev

end

end Lcom.Lab2
