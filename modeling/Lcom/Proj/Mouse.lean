/-
The mouse driver (proj/src/mouse.c): the interrupt handler, the
reassembly of three-byte packets, and the dispatch between the two that
the main loop performs.

lab4 has the same driver: its `mouse_ih` is this one and its
`print_mouse_packet` differs only in printing the finished packet, and
its test loops dispatch with the same two `reading_error` tests.

# Reads

A port read either fails or yields a byte. One turn of `mouse_ih`'s
polling loop reads the status register and, if the output buffer is
full, the data port; the environment of one call is the list of those
turns. A handler that has consumed its whole list without an answer is
still polling, which is `none`.
-/
import Mathlib

namespace Lcom.Proj

-- ====================================================== status bits

/-- `OUT_BUFF`: the output buffer is full. -/
def outBuff : UInt8 := 0x01

/-- `KBC_PAR_ERR | KBC_TO_ERR`: parity error or time-out. -/
def kbcErr : UInt8 := 0xC0

/-- The status of a mouse byte without errors: `OUT_BUFF` and the mouse
bit. -/
theorem full_mouse : (0x21 : UInt8) &&& outBuff ≠ 0 := by decide

/-- One turn of a polling loop: the status read and the data read,
each `none` where `util_sys_inb` fails. -/
structure PortReads where
  status : Option UInt8
  data : Option UInt8
  deriving DecidableEq, Repr

-- ==================================================== driver state

/-- `struct packet` (lcom/lab4.h): the raw bytes and their decoding. -/
structure Packet where
  byte0 : UInt8
  byte1 : UInt8
  byte2 : UInt8
  rb : Bool
  mb : Bool
  lb : Bool
  deltaX : Int
  deltaY : Int
  xOv : Bool
  yOv : Bool
  deriving DecidableEq, Repr

/-- The three raw bytes of a packet. -/
def Packet.bytes (p : Packet) : UInt8 × UInt8 × UInt8 :=
  (p.byte0, p.byte1, p.byte2)

/-- A zero-initialised packet. -/
def Packet.zero : Packet :=
  ⟨0, 0, 0, false, false, false, 0, 0, false, false⟩

/-- The globals of mouse.c. `counter` is an `int`, `total_packets` a
32-bit unsigned. The model lets `counter` grow without overflow: a driver
with an error pending counts every interrupt, and its `int` ends after
`2 ^ 31` of them. -/
structure MouseDriver where
  packet1 : Packet
  readPacket : UInt8
  isSync : Bool
  counter : Int
  totalPackets : Nat
  readingError : Bool
  deriving DecidableEq, Repr

/-- The globals as the program starts. -/
def MouseDriver.init : MouseDriver :=
  { packet1 := Packet.zero, readPacket := 0, isSync := false
    counter := 0, totalPackets := 0, readingError := false }

-- ================================================ interrupt handler

/-- The tail of `mouse_ih` after a `break`: the error is noted and the
byte counted. -/
def MouseDriver.noteError (d : MouseDriver) : MouseDriver :=
  { d with readingError := true, counter := d.counter + 1 }

/-- `mouse_ih`, one list entry per turn of its polling loop. -/
def mouseIh (d : MouseDriver) : List PortReads → Option MouseDriver
  | [] => none
  | r :: rest =>
      match r.status with
      | none => some d.noteError
      | some stat =>
          if stat &&& outBuff ≠ 0 then
            match r.data with
            | none => some d.noteError
            | some byte =>
                let d := { d with readPacket := byte }
                if stat &&& kbcErr = 0 then
                  some (if d.readingError then
                    { d with counter := d.counter + 1 } else d)
                else some d.noteError
          else mouseIh d rest

-- ================================================ packet reassembly

/-- The decoding done when the third byte arrives. -/
def Packet.decode (p : Packet) : Packet :=
  { p with
    yOv := p.byte0 &&& 0x80 ≠ 0
    xOv := p.byte0 &&& 0x40 ≠ 0
    deltaY := if p.byte0 &&& 0x20 ≠ 0 then (p.byte2.toNat : Int) - 256
      else p.byte2.toNat
    deltaX := if p.byte0 &&& 0x10 ≠ 0 then (p.byte1.toNat : Int) - 256
      else p.byte1.toNat
    mb := p.byte0 &&& 0x04 ≠ 0
    rb := p.byte0 &&& 0x02 ≠ 0
    lb := p.byte0 &&& 0x01 ≠ 0 }

/-- The three `counter` cases of `print_mouse_packet`. -/
def storeByte (d : MouseDriver) : MouseDriver :=
  if d.counter = 0 then
    { d with
      packet1 := { d.packet1 with byte0 := d.readPacket }
      counter := d.counter + 1 }
  else if d.counter = 1 then
    { d with
      packet1 := { d.packet1 with byte1 := d.readPacket }
      counter := d.counter + 1 }
  else if d.counter = 2 then
    { d with
      packet1 := Packet.decode { d.packet1 with byte2 := d.readPacket }
      counter := 0
      totalPackets := (d.totalPackets + 1) % 2 ^ 32 }
  else d

/-- `print_mouse_packet`: bytes are dropped until one with bit 3 set
has been seen, once. -/
def printMousePacket (d : MouseDriver) : MouseDriver :=
  if d.isSync = false then
    if d.readPacket &&& 0x08 = 0 then d
    else storeByte { d with isSync := true }
  else storeByte d

-- ========================================================= dispatch

/-- What the loop does after `mouse_ih`: `skip` is the `continue`,
`resync` clears the error, `byte` hands the byte on. -/
inductive Dispatch
  | skip | resync | byte
  deriving DecidableEq, Repr

/-- The `reading_error`/`counter` tests after `mouse_ih`. -/
def MouseDriver.dispatch (d : MouseDriver) : Dispatch :=
  if d.readingError = true ∧ d.counter ≠ 2 then .skip
  else if d.readingError = true ∧ d.counter = 2 then .resync
  else .byte

/-- The driver after its branch of the dispatch. -/
def MouseDriver.dispatched (d : MouseDriver) : MouseDriver :=
  match d.dispatch with
  | .skip => d
  | .resync => { d with readingError := false }
  | .byte => printMousePacket d

end Lcom.Proj
