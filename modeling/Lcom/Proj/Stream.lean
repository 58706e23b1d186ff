/-
The mouse as the driver's environment: three-byte packets, one byte per
interrupt, each byte read cleanly or with a parity or time-out bit.

A `ByteRead` is one interrupt: the polls that found the output buffer
empty, then the status and the byte. A `SentPacket` is three of them;
bit 3 of the first byte is set in every packet the device sends, and
the driver synchronises on it.

`interrupt` is what the loops of proj and of lab4 do with one of them:
`mouse_ih`, then the dispatch.
-/
import Lcom.Machine.Reach
import Lcom.Proj.MainLoop

namespace Lcom.Proj

/-- One byte of the mouse, as one interrupt reads it. -/
structure ByteRead where
  waits : List { st : UInt8 // st &&& outBuff = 0 }
  status : UInt8
  byte : UInt8
  full : status &&& outBuff ≠ 0

/-- No parity error and no time-out. -/
def ByteRead.clean (b : ByteRead) : Bool := decide (b.status &&& kbcErr = 0)

/-- A byte read at once and without error. -/
def cleanRead (byte : UInt8) : ByteRead :=
  { waits := [], status := 0x21, byte, full := full_mouse }

/-- The turns of the polling loop that read the byte. -/
def ByteRead.reads (b : ByteRead) : List PortReads :=
  b.waits.map (fun st => { status := some st.val, data := none })
    ++ [{ status := some b.status, data := some b.byte }]

/-- A packet of the mouse. -/
structure SentPacket where
  first : ByteRead
  second : ByteRead
  third : ByteRead
  marked : first.byte &&& 0x08 ≠ 0

/-- All three bytes are read without error. -/
def SentPacket.clean (p : SentPacket) : Bool :=
  p.first.clean && p.second.clean && p.third.clean

/-- The bytes of a packet, as the mouse sent them. -/
def SentPacket.bytes (p : SentPacket) : UInt8 × UInt8 × UInt8 :=
  (p.first.byte, p.second.byte, p.third.byte)

/-- The mouse branch of the loops: the handler, then the dispatch. -/
def interrupt (d : MouseDriver) (b : ByteRead) : Option MouseDriver :=
  (mouseIh d b.reads).map MouseDriver.dispatched

/-- The three interrupts of a packet. -/
def sendPacket (d : MouseDriver) (p : SentPacket) : Option MouseDriver :=
  Machine.exec interrupt d [p.first, p.second, p.third]

/-- The drivers between the three interrupts of a packet. -/
def Sends (d : MouseDriver) (p : SentPacket) (d₁ d₂ d₃ : MouseDriver) :
    Prop :=
  interrupt d p.first = some d₁ ∧ interrupt d₁ p.second = some d₂
    ∧ interrupt d₂ p.third = some d₃

/-- The value of `counter` the dispatch of an interrupt tests. -/
def counterAtDispatch (d : MouseDriver) (b : ByteRead) : Option Int :=
  (mouseIh d b.reads).map MouseDriver.counter

-- =========================================================== properties

/-- While packet `p` arrives at driver `d`, nothing is published before
its third byte, and what is published then is `p`, all of it read
without error. -/
def Intact (d : MouseDriver) (p : SentPacket) : Prop :=
  ∃ d₁ d₂ d₃, Sends d p d₁ d₂ d₃
    ∧ d₁.totalPackets = d.totalPackets
    ∧ d₂.totalPackets = d₁.totalPackets
    ∧ (d₃.totalPackets ≠ d₂.totalPackets →
      p.clean = true ∧ d₃.packet1.bytes = p.bytes)

/-- Packet integrity of a stream: every packet of it, arriving after
those before it, is intact. -/
def PacketIntegrity (ps : List SentPacket) : Prop :=
  Machine.Along sendPacket Intact MouseDriver.init ps

/-- A byte counter within the packet. -/
def InRange (c : Option Int) : Prop :=
  c = some 0 ∨ c = some 1 ∨ c = some 2

/-- While packet `p` arrives at driver `d`, every dispatch finds the
byte counter in range, and if `p` is clean it is published once, at its
third byte, with its own bytes. -/
def Delivered (d : MouseDriver) (p : SentPacket) : Prop :=
  ∃ d₁ d₂ d₃, Sends d p d₁ d₂ d₃
    ∧ InRange (counterAtDispatch d p.first)
    ∧ InRange (counterAtDispatch d₁ p.second)
    ∧ InRange (counterAtDispatch d₂ p.third)
    ∧ (p.clean = true → d₁.totalPackets = d.totalPackets
      ∧ d₂.totalPackets = d₁.totalPackets
      ∧ d₃.totalPackets = (d₂.totalPackets + 1) % 2 ^ 32
      ∧ d₃.packet1.bytes = p.bytes)

/-- Recovery along a stream: every packet of it, arriving after those
before it, is delivered. -/
def PacketRecovery (ps : List SentPacket) : Prop :=
  Machine.Along sendPacket Delivered MouseDriver.init ps

end Lcom.Proj
