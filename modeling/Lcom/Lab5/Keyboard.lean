/-
lab5's keyboard driver (lab5/keyboard.c): `kbc_ih`, which polls until
the output buffer is full, and `kbc_print_scancode`.

The handler stores the data byte before it looks at the error bits, as
proj's does, and then only prints. `kbc_print_scancode` keeps no length:
a prefix still to be completed is one left in `scancodes[0]`, which is
cleared after every call, and `scancodes[1]` never is.

The tests of lab5 wait for the break code of Escape in loops of one
form (lab5/lab5.c): `escTurn` is a turn of theirs, as far as `scancode`
goes.
-/
import Lcom.Proj.Discard
import Lcom.Proj.Scancodes

namespace Lcom.Lab5

open Proj

/-- `kbc_ih`, one list entry per turn of its polling loop: the new value
of `scancode`, or `none` while it polls on. -/
def kbcIh (scancode : UInt8) : List PortReads → Option UInt8
  | [] => none
  | r :: rest =>
      match r.status with
      | none => some scancode
      | some stat =>
          if stat &&& outBuff ≠ 0 then
            match r.data with
            | none => some scancode
            | some byte => some byte
          else kbcIh scancode rest

/-- One turn of `while (scancode != ESCAPE)`: a notification with the
keyboard bit and what the handler reads, or any other message. -/
def escTurn (scancode : UInt8) : Option (List PortReads) → Option UInt8
  | none => if scancode ≠ escape then some scancode else none
  | some reads =>
      if scancode ≠ escape then kbcIh scancode reads else none

/-- What a call of `kbc_ih` does to `scancode`, if it returns. -/
def outcome : List PortReads → Option (Option UInt8)
  | [] => none
  | r :: rest =>
      match r.status with
      | none => some none
      | some stat =>
          if stat &&& outBuff ≠ 0 then some r.data else outcome rest

/-- The byte of a call without errors. -/
def accepted : List PortReads → Option UInt8
  | [] => none
  | r :: rest =>
      match r.status with
      | none => none
      | some stat =>
          if stat &&& outBuff ≠ 0 then r.accepted else accepted rest

/-- A byte is stored that was read with an error. -/
def flagged (reads : List PortReads) : Bool :=
  (outcome reads).any Option.isSome && (accepted reads).isNone

/-- The message without the keyboard bit where its byte is flagged. -/
def discard (n : Option (List PortReads)) : Option (List PortReads) :=
  n.filter fun reads => !flagged reads

/-- The message stores no flagged byte, or one `scancode` holds
already. -/
def EscHarmless (scancode : UInt8) (n : Option (List PortReads)) : Prop :=
  ∀ reads, n = some reads → Machine.Harmless outcome accepted scancode reads

/-- `kbc_print_scancode` on the byte in `scancode`: the buffer after it,
and the call it made. -/
def kbcPrintScancode (scancodes : UInt8 × UInt8) (scancode : UInt8) :
    (UInt8 × UInt8) × Option PrintCall :=
  if scancode = 0xE0 then ((scancode, scancodes.2), none)
  else
    let makecode := decide (scancode &&& 0x80 = 0)
    let (scancodes, nBytes) :=
      if scancodes.1 = 0xE0 then ((scancodes.1, scancode), 2)
      else ((scancode, scancodes.2), 1)
    ((0, scancodes.2),
      some (kbdPrintScancode makecode nBytes scancodes))

end Lcom.Lab5
