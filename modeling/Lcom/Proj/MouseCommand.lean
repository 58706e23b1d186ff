/-
The commands to the mouse (proj/src/mouse.c), and the controller that
passes them on.

`write_argument_to_mouse` polls the status register twice: until it can
write the command 0xD4 to port 0x64, and then until it can write the
argument to port 0x60 and reads an acknowledgement. The environment of a
call is one list of turns for both loops, and the call gives what it has
written and read with its result; a call that has consumed its list is
still polling, which is `none`. A write that fails reaches no device.

The controller passes a byte written to port 0x60 on to the mouse if the
write before it was 0xD4 to port 0x64, and to the keyboard otherwise.
-/
import Lcom.Proj.Mouse

namespace Lcom.Proj

-- ============================================================ constants

/-- `IN_BUFF`, which the loops spell `BIT(1)`: the input buffer is
full. -/
def inBuff : UInt8 := 0x02

/-- `ISSUE_COMMAND_TO_THE_MOUSE`. -/
def issueCommandToTheMouse : UInt8 := 0xD4

/-- `ENABLE_MOUSE_DATA`. -/
def enableMouseDataCommand : UInt8 := 0xF4

/-- `DISABLE_MOUSE_DATA`. -/
def disableMouseDataCommand : UInt8 := 0xF5

/-- `SET_STREAM_MODE`. -/
def setStreamMode : UInt8 := 0xEA

/-- `IS_OK`. -/
def isOk : UInt8 := 0xFA

-- ============================================================ the loops

/-- One turn of either loop: the status, `none` where the read fails;
whether `sys_outb` succeeds; the answer, `none` where the read fails. -/
structure Turn where
  status : Option UInt8
  writes : Bool
  answer : Option UInt8
  deriving DecidableEq, Repr

/-- An access to a port of the controller that succeeded. -/
inductive PortAccess
  | command (byte : UInt8)
  | argument (byte : UInt8)
  | answer (byte : UInt8)
  deriving DecidableEq, Repr

/-- What a call did, and its result unless it is still polling. -/
structure Exchange where
  trace : List PortAccess
  result : Option Nat
  deriving DecidableEq, Repr

/-- The call after some accesses. -/
def Exchange.after (c : Exchange) (accesses : List PortAccess) : Exchange :=
  { c with trace := accesses ++ c.trace }

/-- The second loop. -/
def sendArgument (argument : UInt8) : List Turn → Exchange
  | [] => ⟨[], none⟩
  | t :: ts =>
      match t.status with
      | none => ⟨[], some 1⟩
      | some status =>
          if status &&& inBuff = 0 then
            if t.writes then
              match t.answer with
              | none => ⟨[.argument argument], some 1⟩
              | some acknow =>
                  if acknow = isOk then
                    ⟨[.argument argument, .answer acknow], some 0⟩
                  else (sendArgument argument ts).after
                    [.argument argument, .answer acknow]
            else ⟨[], some 1⟩
          else sendArgument argument ts

/-- `write_argument_to_mouse`: the first loop, and after its `break` the
second. -/
def writeArgumentToMouse (argument : UInt8) : List Turn → Exchange
  | [] => ⟨[], none⟩
  | t :: ts =>
      match t.status with
      | none => ⟨[], some 1⟩
      | some status =>
          if status &&& inBuff = 0 then
            if t.writes then
              (sendArgument argument ts).after
                [.command issueCommandToTheMouse]
            else ⟨[], some 1⟩
          else writeArgumentToMouse argument ts

/-- A second call, if the first returns 0. -/
def Exchange.andThen (c d : Exchange) : Exchange :=
  if c.result = some 0 then d.after c.trace else c

/-- `enable_mouse_data`, with the turns of its two calls. -/
def enableMouseData (ts ts' : List Turn) : Exchange :=
  (writeArgumentToMouse setStreamMode ts).andThen
    (writeArgumentToMouse enableMouseDataCommand ts')

/-- `disable_mouse_data`. -/
def disableMouseData (ts ts' : List Turn) : Exchange :=
  (writeArgumentToMouse disableMouseDataCommand ts).andThen
    (writeArgumentToMouse setStreamMode ts')

-- ======================================================= the controller

/-- The device the controller passes a byte on to. -/
inductive Recipient
  | mouse | keyboard
  deriving DecidableEq, Repr

/-- Where the bytes written to port 0x60 go; `addressed` says that the
last write was 0xD4 to port 0x64. -/
def recipients (addressed : Bool) : List PortAccess → List Recipient
  | [] => []
  | .command byte :: as => recipients (byte == issueCommandToTheMouse) as
  | .argument _ :: as =>
      (if addressed then .mouse else .keyboard) :: recipients false as
  | .answer _ :: as => recipients addressed as

/-- Every argument goes to the mouse, and a call that returns 0 ends with
the acknowledgement of an argument that did. -/
def Addressed (argument : UInt8) (c : Exchange) : Prop :=
  ∀ addressed, (∀ d ∈ recipients addressed c.trace, d = .mouse)
    ∧ (c.result = some 0 → ∃ before,
      c.trace = before ++ [.argument argument, .answer isOk]
        ∧ (recipients addressed (before ++ [.argument argument])).getLast?
          = some .mouse)

-- ======================================================== the condition

/-- The input buffer is full, and the loop goes on polling. -/
def Turn.busy (t : Turn) : Bool :=
  match t.status with
  | none => false
  | some status => status &&& inBuff != 0

/-- The loop writes in this turn. -/
def Turn.Writes (t : Turn) : Prop :=
  (∃ status, t.status = some status ∧ status &&& inBuff = 0)
    ∧ t.writes = true

/-- But for polling, no turn writes after a turn that has written the
argument and read a byte other than the acknowledgement. -/
def NotWrittenAgain (ts : List Turn) : Prop :=
  ∀ command argument again rest acknow,
    ts.filter (fun t => !t.busy) = command :: argument :: again :: rest →
    command.Writes → argument.Writes → argument.answer = some acknow →
    acknow ≠ isOk → ¬again.Writes

end Lcom.Proj

namespace Lcom.Lab4

/-- lab4's `write_argument_to_mouse`, which is the project's. -/
def writeArgumentToMouse (argument : UInt8) (ts : List Proj.Turn) :
    Proj.Exchange :=
  Proj.writeArgumentToMouse argument ts

end Lcom.Lab4
