/-
The PS/2 packet format, from the side of the device.

A `MousePacket` is what the mouse reports: two nine-bit deltas, three
buttons, two overflow flags. `encode` is its three bytes: the flags with
the signs, then the low eight bits of each delta. Bit 3 of the first
byte is always set; the driver synchronises on it.

`Feeds` is a stream of interrupts that carries packets without read
errors, and `FramingCheck` the promise that whatever the driver
publishes starts with a marked byte, for any clean stream at all.
-/
import Lcom.Proj.Stream

namespace Lcom.Proj

open Machine

-- ======================================================== the encoding

/-- A report of the mouse. -/
structure MousePacket where
  deltaX : Int
  deltaY : Int
  lb : Bool
  mb : Bool
  rb : Bool
  xOv : Bool
  yOv : Bool
  xRange : -256 ≤ deltaX ∧ deltaX ≤ 255
  yRange : -256 ≤ deltaY ∧ deltaY ≤ 255

/-- The bits of the first byte, from the highest down. -/
def flagByte (yOv xOv ySign xSign mb rb lb : Bool) : UInt8 :=
  (if yOv then 0x80 else 0) ||| (if xOv then 0x40 else 0)
    ||| (if ySign then 0x20 else 0) ||| (if xSign then 0x10 else 0)
    ||| 0x08 ||| (if mb then 0x04 else 0) ||| (if rb then 0x02 else 0)
    ||| (if lb then 0x01 else 0)

/-- The low eight bits of a delta in two's complement. -/
def lowByte (delta : Int) : UInt8 := UInt8.ofNat (delta % 256).toNat

/-- The first byte of a packet. -/
def MousePacket.flags (p : MousePacket) : UInt8 :=
  flagByte p.yOv p.xOv (decide (p.deltaY < 0)) (decide (p.deltaX < 0))
    p.mb p.rb p.lb

/-- The three bytes of a packet. -/
def MousePacket.encode (p : MousePacket) : List UInt8 :=
  [p.flags, lowByte p.deltaX, lowByte p.deltaY]

/-- The decoded fields: `lb`, `rb`, `mb`, `x_ov`, `y_ov`, `delta_x`,
`delta_y`. -/
abbrev Fields := Bool × Bool × Bool × Bool × Bool × Int × Int

def MousePacket.fields (p : MousePacket) : Fields :=
  (p.lb, p.rb, p.mb, p.xOv, p.yOv, p.deltaX, p.deltaY)

def Packet.fields (p : Packet) : Fields :=
  (p.lb, p.rb, p.mb, p.xOv, p.yOv, p.deltaX, p.deltaY)

-- ========================================================= the streams

/-- The interrupts carry the packets, byte by byte, without errors. -/
structure Feeds (bs : List ByteRead) (ps : List MousePacket) : Prop where
  clean : ∀ b ∈ bs, b.clean = true
  bytes : bs.map ByteRead.byte = ps.flatMap MousePacket.encode

/-- Bit 3 of a first byte. -/
def marked (byte : UInt8) : Bool := decide (byte &&& 0x08 ≠ 0)

/-- What the interrupt publishes, if it publishes a packet, starts with
a marked byte. -/
def PublishesMarked (d : MouseDriver) (b : ByteRead) : Prop :=
  ∀ d', interrupt d b = some d' → d'.totalPackets ≠ d.totalPackets →
    marked d'.packet1.byte0 = true

/-- Every packet published along the stream starts with a marked
byte. -/
def FramingCheck (bs : List ByteRead) : Prop :=
  Along interrupt PublishesMarked MouseDriver.init bs

/-- Cut into threes, every complete group starts with a marked byte. -/
def Framed : List UInt8 → Prop
  | b₀ :: _ :: _ :: rest => marked b₀ = true ∧ Framed rest
  | _ => True

end Lcom.Proj
