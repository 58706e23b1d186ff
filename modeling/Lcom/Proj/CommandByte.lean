/-
The command byte of the keyboard controller (proj/src/keyboard.c,
`writeCommand`, `readData`, `kbcEnableInterrutpt`).

Both helpers poll the status register; a turn gives the accesses that
succeeded and, where the helper returns, its result. `sys_outb` gives 0
for success, so the test in `writeCommand` returns where the write has
failed and polls again where it has not. `readData` stores what it reads
in the global `scancode` and gives 0 for an error, and its caller does
not look at the result.

The controller holds a command byte and answers the command 0x20 with it.
A write that fails reaches no device.
-/
import Lcom.Machine.Poll
import Lcom.Proj.MouseCommand

namespace Lcom.Proj

open Machine

-- ============================================================ constants

/-- `STATUS_KBC`: the status register, and the port of the commands. -/
def statusKbc : UInt8 := 0x64

/-- `OUTPUT_BUFFER`, which is `INPUT_BUFFER_ARGUMENTS` for a write. -/
def dataPort : UInt8 := 0x60

/-- `READ_COMMAND`. -/
def readCommand : UInt8 := 0x20

/-- `WRITE_COMMAND`. -/
def writeCommandByte : UInt8 := 0x60

/-- `BIT(0)` of the command byte: interrupts of the keyboard. -/
def interruptBit : UInt8 := 0x01

-- ============================================================ the loops

/-- An access to a port of the controller that succeeded. -/
inductive KbcAccess
  | status (stat : UInt8)
  | data (byte : UInt8)
  | write (port byte : UInt8)
  deriving DecidableEq, Repr

/-- A turn of `writeCommand`: the status, `none` where the read fails, and
whether `sys_outb` succeeds. -/
structure WriteTurn where
  status : Option UInt8
  succeeds : Bool
  deriving DecidableEq, Repr

/-- The body of the loop of `writeCommand`. -/
def writeTurn (cmd port : UInt8) (t : WriteTurn) : Polled KbcAccess UInt8 :=
  match t.status with
  | none => ⟨[], some 1⟩
  | some stat =>
      if stat &&& inBuff = 0 then
        if t.succeeds then ⟨[.status stat, .write port cmd], none⟩
        else ⟨[.status stat], some 0⟩
      else ⟨[.status stat], none⟩

/-- `writeCommand`, for at most `n` turns. -/
def writeCommand (cmd port : UInt8) (env : Nat → WriteTurn) (n : Nat) :
    Polled KbcAccess UInt8 :=
  poll (writeTurn cmd port) env n

/-- The body of the loop of `readData`, with the value it leaves in
`scancode`. -/
def readTurn (scancode : UInt8) (t : PortReads) :
    Polled KbcAccess (UInt8 × UInt8) :=
  match t.status with
  | none => ⟨[], some (0, scancode)⟩
  | some stat =>
      if stat &&& outBuff ≠ 0 then
        match t.data with
        | none => ⟨[.status stat], some (0, scancode)⟩
        | some byte =>
            if stat &&& kbcErr = 0 then
              ⟨[.status stat, .data byte], some (1, byte)⟩
            else ⟨[.status stat, .data byte], some (0, byte)⟩
      else ⟨[.status stat], none⟩

/-- `readData`, for at most `n` turns. -/
def readData (scancode : UInt8) (env : Nat → PortReads) (n : Nat) :
    Polled KbcAccess (UInt8 × UInt8) :=
  poll (readTurn scancode) env n

-- ======================================================= the controller

/-- What `kbcEnableInterrutpt` meets: a controller that holds the command
byte `c` and answers with it, and the results of the three `sys_outb`
calls. -/
structure Controller (c : UInt8) where
  turns : Nat → PortReads
  answers : ∀ k byte, (turns k).data = some byte → byte = c
  readCommand : Bool
  writeCommand : Bool
  argument : Bool

variable {c : UInt8}

/-- `kbcEnableInterrutpt` after `readData`: the two writes that set the
command byte. -/
def writeBack (scancode : UInt8) (d : Controller c) :
    Polled KbcAccess UInt8 :=
  if d.writeCommand then
    if d.argument then
      ⟨[.write statusKbc writeCommandByte,
        .write dataPort (scancode ||| interruptBit)], some 0⟩
    else ⟨[.write statusKbc writeCommandByte], some 1⟩
  else ⟨[], some 1⟩

/-- `kbcEnableInterrutpt`, with at most `n` turns of `readData`; a call
that is still polling has no result. -/
def kbcEnableInterrutpt (scancode : UInt8) (d : Controller c) (n : Nat) :
    Polled KbcAccess UInt8 :=
  if d.readCommand then
    let read := readData scancode d.turns n
    let trace := .write statusKbc readCommand :: read.trace
    match read.result with
    | none => ⟨trace, none⟩
    | some (_, scancode) =>
        ⟨trace ++ (writeBack scancode d).trace,
          (writeBack scancode d).result⟩
  else ⟨[], some 1⟩

-- ============================================================= the laws

/-- A device whose status register gives these bytes, with `sys_outb`
succeeding or failing. -/
def device (statuses : Nat → UInt8) (succeeds : Bool) : Nat → WriteTurn :=
  fun k => ⟨some (statuses k), succeeds⟩

/-- An access that writes. -/
def KbcAccess.isWrite : KbcAccess → Bool
  | .write _ _ => true
  | _ => false

/-- The call returns, having written the command once, right after a
status with the bit clear, and its result is not one it has when
`sys_outb` fails. -/
def IssuesOnce (cmd port : UInt8) (statuses : Nat → UInt8) : Prop :=
  ∃ n v before stat after,
    writeCommand cmd port (device statuses true) n
        = ⟨before ++ .status stat :: .write port cmd :: after, some v⟩
      ∧ stat &&& inBuff = 0
      ∧ (∀ a ∈ before ++ after, a.isWrite = false)
      ∧ ∀ n', (writeCommand cmd port (device statuses false) n').result
        ≠ some v

/-- The bytes written to port 0x60 right after the command 0x60;
`expected` says that the last write was that command. -/
def commandBytes (expected : Bool) : List KbcAccess → List UInt8
  | [] => []
  | .write port byte :: as =>
      if port = dataPort then
        if expected then byte :: commandBytes false as
        else commandBytes false as
      else commandBytes (port == statusKbc && byte == writeCommandByte) as
  | _ :: as => commandBytes expected as

/-- The turn finds the output buffer empty, and the loop goes on. -/
def PortReads.empty (t : PortReads) : Bool :=
  match t.status with
  | none => false
  | some stat => stat &&& outBuff == 0

/-- The turn reads a byte without errors. -/
def PortReads.Clean (t : PortReads) : Prop :=
  (∃ stat, t.status = some stat ∧ stat &&& outBuff ≠ 0
      ∧ stat &&& kbcErr = 0)
    ∧ t.data ≠ none

/-- Turn `k` is the first that does not find the output buffer empty. -/
def Controller.Decides (d : Controller c) (k : Nat) : Prop :=
  (∀ j < k, (d.turns j).empty = true) ∧ (d.turns k).empty = false

/-- The command byte was asked for, and read without errors. -/
def Controller.ReadCleanly (d : Controller c) : Prop :=
  d.readCommand = true ∧ ∃ k, d.Decides k ∧ (d.turns k).Clean

/-- Every command byte written is the one held, with bit 0 set; and a
call that has not read it cleanly returns an error, and has not sent the
command 0x60. -/
def KeepsCommandByte (scancode : UInt8) (d : Controller c) : Prop :=
  (∀ n, ∀ byte ∈ commandBytes false (kbcEnableInterrutpt scancode d n).trace,
      byte = c ||| interruptBit)
    ∧ (¬d.ReadCleanly →
      (∃ n v, (kbcEnableInterrutpt scancode d n).result = some v ∧ v ≠ 0)
        ∧ ∀ n, .write statusKbc writeCommandByte
          ∉ (kbcEnableInterrutpt scancode d n).trace)

end Lcom.Proj
