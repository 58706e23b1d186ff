/-
lab4's tests that print packets (lab4/lab4.c): `mouse_test_packet`, which
waits for interrupts, and `mouse_test_remote`, which asks the mouse for
each packet and polls for its bytes.

The driver, the handler and the dispatch are the project's, and so is
`write_argument_to_mouse`; `print_mouse_packet` also prints the packet
(`printed`). A test gives what it did and, if it is over, what it
returned; a test that has used up the answers of its environment is
still running. The answers of one call of the handler are the turns of
its polling loop, those of one command the turns of both its loops.

# What is left out

The strings the tests print beside the packets, and `tickdelay`, which
is real time. The subscription of the interrupt reports a failure that
`mouse_test_packet` ignores.
-/
import Lcom.Lab4.MouseAsync
import Lcom.Proj.CommandByte
import Lcom.Proj.Stream

namespace Lcom.Lab4

open Machine Proj

-- ============================================================ constants

/-- `SET_REMOTE_MODE`. -/
def setRemoteMode : UInt8 := 0xF0

/-- `READ_DATA_MOUSE`. -/
def readDataMouse : UInt8 := 0xEB

-- ============================================================= printing

/-- Something a test does that can be seen from outside. -/
inductive Action
  | port (access : PortAccess)
  | subscribe
  | unsubscribe
  | print (packet : Packet)
  deriving DecidableEq, Repr

/-- What `print_mouse_packet` passes to `mouse_print_packet`, unless it
returns before. -/
def printed (d : MouseDriver) : Option Packet :=
  if d.isSync = false ∧ d.readPacket &&& 0x08 = 0 then none
  else if d.counter = 0 then none
  else if d.counter = 1 then none
  else some (printMousePacket d).packet1

/-- The packets a test has printed. -/
def prints (actions : List Action) : List Packet :=
  actions.filterMap fun a =>
    match a with
    | .print p => some p
    | _ => none

-- ============================================================= commands

/-- A command to the mouse. -/
def polled (e : Exchange) : Polled Action Nat :=
  ⟨e.trace.map .port, e.result⟩

/-- A test that returns 1 if a call has failed, and goes on if not. -/
def unlessFailed (result : Nat) (rest : Polled Action Nat) :
    Polled Action Nat :=
  if result ≠ 0 then .pure 1 else rest

-- ==================================================== mouse_test_packet

/-- `while (total_packets < cnt)`, over the messages of the loop: what the
handler reads, or nothing for a message without the mouse bit. -/
def packetLoop (cnt : UInt32) (d : MouseDriver) :
    List (Option (List PortReads)) → Polled Packet MouseDriver
  | [] =>
      if d.totalPackets < cnt.toNat then ⟨[], none⟩ else .pure d
  | none :: ns =>
      if d.totalPackets < cnt.toNat then packetLoop cnt d ns else .pure d
  | some reads :: ns =>
      if d.totalPackets < cnt.toNat then
        match mouseIh d reads with
        | none => ⟨[], none⟩
        | some d =>
            match d.dispatch with
            | .skip => packetLoop cnt d.dispatched ns
            | .resync => packetLoop cnt d.dispatched ns
            | .byte =>
                { packetLoop cnt d.dispatched ns with
                  trace := (printed d).toList
                    ++ (packetLoop cnt d.dispatched ns).trace }
      else .pure d

/-- What `mouse_test_packet` meets: the answers to the commands before
the loop, the messages, and the answers to the commands after it. -/
structure PacketSession where
  stream : List Turn
  enable : List Turn
  messages : List (Option (List PortReads))
  disable : List Turn
  streamAgain : List Turn

/-- `mouse_test_packet`, from the driver as it is. -/
def mouseTestPacket (cnt : UInt32) (d : MouseDriver) (w : PacketSession) :
    Polled Action Nat :=
  (polled (enableMouseData w.stream w.enable)).bind fun r =>
    unlessFailed r <|
      (Polled.act .subscribe).bind fun _ =>
        ((packetLoop cnt d w.messages).lift .print).bind fun _ =>
          (Polled.act .unsubscribe).bind fun _ =>
            (polled
              (disableMouseData w.disable w.streamAgain)).bind fun r =>
                unlessFailed r (.pure 0)

-- ==================================================== mouse_test_remote

/-- `while (count != 3)`, over the calls of the handler. -/
def readPacket (count : Nat) (d : MouseDriver) :
    List (List PortReads) → Polled Packet MouseDriver
  | [] => if count ≠ 3 then ⟨[], none⟩ else .pure d
  | reads :: rest =>
      if count ≠ 3 then
        match mouseIh d reads with
        | none => ⟨[], none⟩
        | some d =>
            match d.dispatch with
            | .skip => readPacket count d.dispatched rest
            | .resync => readPacket (count + 1) d.dispatched rest
            | .byte =>
                { readPacket (count + 1) d.dispatched rest with
                  trace := (printed d).toList
                    ++ (readPacket (count + 1) d.dispatched rest).trace }
      else .pure d

/-- One round of the outer loop: the answers to `READ_DATA_MOUSE`, and
what the handler reads. -/
structure Round where
  request : List Turn
  reads : List (List PortReads)

/-- The body of the outer loop. What the request returned is not looked
at. -/
def remoteRound (d : MouseDriver) (r : Round) : Polled Action MouseDriver :=
  (polled (writeArgumentToMouse readDataMouse r.request)).bind
    fun _ => (readPacket 0 d r.reads).lift .print

/-- `while (total_packets < cnt)`. -/
def remoteLoop (cnt : UInt8) (d : MouseDriver) :
    List Round → Polled Action MouseDriver
  | [] =>
      if d.totalPackets < cnt.toNat then ⟨[], none⟩ else .pure d
  | r :: rs =>
      if d.totalPackets < cnt.toNat then
        (remoteRound d r).bind fun d => remoteLoop cnt d rs
      else .pure d

/-- One turn of the loops at the end: the byte is written once the input
buffer is empty. -/
def restoreTurn (access : PortAccess) (t : WriteTurn) : Polled Action Nat :=
  match t.status with
  | none => .pure 1
  | some status =>
      if status &&& inBuff = 0 then
        if t.succeeds then ⟨[.port access], some 0⟩ else .pure 1
      else ⟨[], none⟩

/-- What `mouse_test_remote` meets, and the command byte of
`minix_get_dflt_kbc_cmd_byte`. -/
structure RemoteSession where
  disable : List Turn
  remote : List Turn
  rounds : List Round
  disableAgain : List Turn
  stream : List Turn
  command : List WriteTurn
  argument : List WriteTurn
  dfltKbcCmdByte : UInt8

/-- `mouse_test_remote`, from the driver as it is. The first two commands
may fail. -/
def mouseTestRemote (cnt : UInt8) (d : MouseDriver) (w : RemoteSession) :
    Polled Action Nat :=
  (polled
    (writeArgumentToMouse disableMouseDataCommand w.disable)).bind fun _ =>
  (polled (writeArgumentToMouse setRemoteMode w.remote)).bind
    fun _ =>
  (remoteLoop cnt d w.rounds).bind fun _ =>
  (polled (disableMouseData w.disableAgain w.stream)).bind fun r =>
    unlessFailed r <|
      (pollList (restoreTurn (.command writeCommandByte)) w.command).bind
        fun r => unlessFailed r <|
          pollList (restoreTurn (.argument w.dfltKbcCmdByte)) w.argument

end Lcom.Lab4
