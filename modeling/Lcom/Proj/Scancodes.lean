/-
Printing scancodes: `printSC` of proj/src/keyboard.c and of
lab3/keyboard.c, called once for each byte in `scancode`.

`bytes` counts the bytes of the code being assembled, `scancodes` holds
them, and `makecode` is raised on the way and lowered again after the
call. A call of `kbd_print_scancode` is recorded with the bytes it can
see through its pointer, as many as its size says.

# The reference

Each byte other than the prefix 0xE0 ends a code: of two bytes if the
byte before it was the prefix, else of one.
-/
import Lcom.Machine.Transduce

namespace Lcom.Proj

open Machine

/-- `kbd_print_scancode(make, size, bytes)`. -/
structure PrintCall where
  make : Bool
  size : Nat
  bytes : List UInt8
  deriving DecidableEq, Repr

/-- The arguments of a call: the flag, the size, the two-byte buffer. -/
def kbdPrintScancode (make : Bool) (size : Nat) (scancodes : UInt8 × UInt8) :
    PrintCall :=
  { make, size, bytes := [scancodes.1, scancodes.2].take size }

-- ============================================================= printSC

/-- The globals `bytes`, `scancodes` and `makecode`. -/
structure PrintState where
  bytes : Nat
  scancodes : UInt8 × UInt8
  makecode : Bool
  deriving DecidableEq, Repr

/-- The globals as the program starts. -/
def PrintState.init : PrintState :=
  { bytes := 1, scancodes := (0, 0), makecode := false }

/-- `printSC` on the byte in `scancode`: the globals after it, and the
call it made. proj's returns whether it made one, lab3's nothing. -/
def printSC (s : PrintState) (scancode : UInt8) :
    PrintState × Option PrintCall :=
  if scancode = 0xE0 then
    ({ s with scancodes := (scancode, s.scancodes.2), bytes := 2 }, none)
  else
    let s := if scancode &&& 0x80 = 0 then { s with makecode := true } else s
    let s := if s.bytes = 2 then
        { s with scancodes := (s.scancodes.1, scancode) }
      else { s with scancodes := (scancode, s.scancodes.2) }
    ({ bytes := 1, scancodes := (0, 0), makecode := false },
      some (kbdPrintScancode s.makecode s.bytes s.scancodes))

-- ======================================================= the reference

/-- The call a byte ends in, given the byte before it. -/
def callFor (prev : Option UInt8) (byte : UInt8) : Option PrintCall :=
  if byte = 0xE0 then none
  else if prev = some 0xE0 then
    some { make := decide (byte &&& 0x80 = 0), size := 2
           bytes := [0xE0, byte] }
  else
    some { make := decide (byte &&& 0x80 = 0), size := 1, bytes := [byte] }

/-- The reference: the call of each byte of a stream, if it has one. -/
def tokens (bytes : List UInt8) : List (Option PrintCall) :=
  withPrevious callFor none bytes

end Lcom.Proj
