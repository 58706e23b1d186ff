/-
The i8254 timer as its programmer sees it: three counters behind four
ports.

A counter is its access mode, its nibble (counting mode and BCD bit) and
its reload value. A control word selects a counter by its bits 7-6 and
sets access mode and nibble; the bytes of the reload value then follow
on the counter's own port, as the access mode says. Bits 7-6 both set
are the read-back command, after which the next read of a selected
counter gives its status.

Counting itself is not modelled: the two status bits it drives (`pins`)
and the bytes of a plain read (`counts`) are what they are.
-/
import Mathlib

namespace Lcom.Device

-- ============================================================ the state

/-- What the program sets of a counter. -/
structure Counter where
  access : BitVec 2
  nibble : BitVec 4
  reload : BitVec 16
  deriving DecidableEq, Repr

/-- The device. `latched` says that the next read of a counter gives its
status, `half` is a low byte whose high byte is awaited. -/
structure I8254 where
  counters : Fin 3 → Counter
  pins : Fin 3 → BitVec 2
  counts : Fin 3 → UInt8
  latched : Fin 3 → Bool
  half : Fin 3 → Option UInt8

/-- Access mode 3: low byte, then high byte. -/
def lsbMsb : BitVec 2 := 3#2

/-- A byte of three fields, as control words and status bytes are. -/
def packed (high access : BitVec 2) (nibble : BitVec 4) : UInt8 :=
  UInt8.ofBitVec (high ++ access ++ nibble)

/-- The status byte of a counter. -/
def I8254.status (dev : I8254) (k : Fin 3) : UInt8 :=
  packed (dev.pins k) (dev.counters k).access (dev.counters k).nibble

-- ======================================================== the operations

/-- Change one counter. -/
def I8254.setCounter (dev : I8254) (k : Fin 3) (f : Counter → Counter) :
    I8254 :=
  { dev with counters := Function.update dev.counters k (f (dev.counters k)) }

/-- The counter a control word selects; none is the read-back
command. -/
def selected (word : UInt8) : Option (Fin 3) :=
  if h : (word.toBitVec.extractLsb' 6 2).toNat < 3 then some ⟨_, h⟩
  else none

/-- The read-back command: bit 4 clear latches the status of the
counters selected by bits 3-1. -/
def I8254.readBack (dev : I8254) (word : UInt8) : I8254 :=
  if word.toBitVec.getLsbD 4 then dev
  else
    { dev with
      latched := fun k =>
        dev.latched k || word.toBitVec.getLsbD (k.val + 1) }

/-- A write to the control register. Access mode 0 is the latch command
and programs nothing. -/
def I8254.control (dev : I8254) (word : UInt8) : I8254 :=
  match selected word with
  | none => dev.readBack word
  | some k =>
      if word.toBitVec.extractLsb' 4 2 = 0#2 then dev
      else
        { dev.setCounter k fun c => { c with
            access := word.toBitVec.extractLsb' 4 2
            nibble := word.toBitVec.extractLsb' 0 4 } with
          half := Function.update dev.half k none }

/-- A write to the port of a counter, by its access mode. -/
def I8254.write (dev : I8254) (k : Fin 3) (byte : UInt8) : I8254 :=
  if (dev.counters k).access = 1#2 then
    dev.setCounter k fun c => { c with reload := 0#8 ++ byte.toBitVec }
  else if (dev.counters k).access = 2#2 then
    dev.setCounter k fun c => { c with reload := byte.toBitVec ++ 0#8 }
  else if (dev.counters k).access = lsbMsb then
    match dev.half k with
    | none => { dev with half := Function.update dev.half k (some byte) }
    | some lsb =>
        { dev.setCounter k fun c => { c with
            reload := byte.toBitVec ++ lsb.toBitVec } with
          half := Function.update dev.half k none }
  else dev

/-- A read of the port of a counter. -/
def I8254.read (dev : I8254) (k : Fin 3) : UInt8 × I8254 :=
  if dev.latched k then
    (dev.status k, { dev with latched := Function.update dev.latched k false })
  else (dev.counts k, dev)

/-- `sys_outb` on the ports 0x40 to 0x43. -/
def I8254.outb (dev : I8254) (port byte : UInt8) : I8254 :=
  if port = 0x40 then dev.write 0 byte
  else if port = 0x41 then dev.write 1 byte
  else if port = 0x42 then dev.write 2 byte
  else if port = 0x43 then dev.control byte
  else dev

/-- `sys_inb` on the ports 0x40 to 0x42. -/
def I8254.inb (dev : I8254) (port : UInt8) : UInt8 × I8254 :=
  if port = 0x40 then dev.read 0
  else if port = 0x41 then dev.read 1
  else if port = 0x42 then dev.read 2
  else (0, dev)

-- =============================================================== lemmas

/-- The fields of a packed byte. -/
theorem packed_fields : ∀ (high access : BitVec 2) (nibble : BitVec 4),
    (packed high access nibble).toBitVec.extractLsb' 6 2 = high
      ∧ (packed high access nibble).toBitVec.extractLsb' 4 2 = access
      ∧ (packed high access nibble).toBitVec.extractLsb' 0 4 = nibble := by
  decide

/-- A control word with an access mode selects and programs its
counter. -/
theorem I8254.control_packed (dev : I8254) (k : Fin 3) {access : BitVec 2}
    (ha : access ≠ 0#2) (nibble : BitVec 4) :
    dev.control (packed (BitVec.ofNat 2 k.val) access nibble)
      = { dev.setCounter k fun c =>
          { c with access := access, nibble := nibble } with
        half := Function.update dev.half k none } := by
  obtain ⟨hsel, hacc, hnib⟩ :=
    packed_fields (BitVec.ofNat 2 k.val) access nibble
  have hk : selected (packed (BitVec.ofNat 2 k.val) access nibble)
      = some k := by
    unfold selected
    rw [hsel]
    clear hsel hacc hnib
    revert k
    decide
  unfold I8254.control
  rw [hk]
  dsimp only
  rw [hacc, if_neg ha, hnib]

/-- A read-back command for the status latches the selected
counters. -/
theorem I8254.control_readBack (dev : I8254) {word : UInt8}
    (hsel : selected word = none)
    (hstatus : word.toBitVec.getLsbD 4 = false) :
    dev.control word = { dev with
      latched := fun k =>
        dev.latched k || word.toBitVec.getLsbD (k.val + 1) } := by
  unfold I8254.control I8254.readBack
  rw [hsel]
  dsimp only
  rw [hstatus]
  rfl

/-- A byte to a counter with access mode 3. -/
theorem I8254.write_lsbMsb {dev : I8254} {k : Fin 3}
    (ha : (dev.counters k).access = lsbMsb) (byte : UInt8) :
    dev.write k byte = match dev.half k with
      | none => { dev with half := Function.update dev.half k (some byte) }
      | some lsb =>
          { dev.setCounter k fun c => { c with
              reload := byte.toBitVec ++ lsb.toBitVec } with
            half := Function.update dev.half k none } := by
  unfold I8254.write
  rw [ha, if_neg (by decide), if_neg (by decide), if_pos rfl]

/-- A byte to a counter changes no other one. -/
theorem I8254.write_other {dev : I8254} {k j : Fin 3} (hj : j ≠ k)
    (byte : UInt8) : (dev.write k byte).counters j = dev.counters j := by
  unfold I8254.write I8254.setCounter
  split
  · exact Function.update_of_ne hj _ _
  · split
    · exact Function.update_of_ne hj _ _
    · split
      · split
        · rfl
        · exact Function.update_of_ne hj _ _
      · rfl

/-- A byte to a counter leaves its access mode alone. -/
theorem I8254.write_access (dev : I8254) (k : Fin 3) (byte : UInt8) :
    ((dev.write k byte).counters k).access = (dev.counters k).access := by
  unfold I8254.write I8254.setCounter
  split
  · simp
  · split
    · simp
    · split
      · split
        · rfl
        · simp
      · rfl

/-- Two bytes to a counter with access mode 3 set its reload value. -/
theorem I8254.write_write {dev : I8254} {k : Fin 3}
    (ha : (dev.counters k).access = lsbMsb) (hh : dev.half k = none)
    (lsb msb : UInt8) :
    ((dev.write k lsb).write k msb).counters
      = Function.update dev.counters k { dev.counters k with
          reload := msb.toBitVec ++ lsb.toBitVec } := by
  have hfirst : dev.write k lsb
      = { dev with half := Function.update dev.half k (some lsb) } := by
    rw [I8254.write_lsbMsb ha, hh]
  have hsecond := @I8254.write_lsbMsb
    { dev with half := Function.update dev.half k (some lsb) } k ha msb
  rw [hfirst, hsecond]
  dsimp only
  rw [Function.update_self]
  rfl

/-- Two bytes to a counter that awaits a high byte: the first completes
the pair. -/
theorem I8254.write_write_half {dev : I8254} {k : Fin 3} {low : UInt8}
    (ha : (dev.counters k).access = lsbMsb) (hh : dev.half k = some low)
    (lsb msb : UInt8) :
    ((dev.write k lsb).write k msb).counters
      = Function.update dev.counters k { dev.counters k with
          reload := lsb.toBitVec ++ low.toBitVec } := by
  have hfirst : dev.write k lsb = { dev.setCounter k fun c => { c with
      reload := lsb.toBitVec ++ low.toBitVec } with
      half := Function.update dev.half k none } := by
    rw [I8254.write_lsbMsb ha, hh]
  have haccess : ((dev.write k lsb).counters k).access = lsbMsb :=
    (I8254.write_access dev k lsb).trans ha
  rw [I8254.write_lsbMsb haccess, hfirst]
  dsimp only
  rw [Function.update_self]
  rfl

/-- A control word for access mode 3 and the two bytes of a reload value
program one counter and leave the others alone. -/
theorem I8254.program (dev : I8254) (k : Fin 3) (nibble : BitVec 4)
    (lsb msb : UInt8) :
    (((dev.control (packed (BitVec.ofNat 2 k.val) lsbMsb nibble)).write k
        lsb).write k msb).counters
      = Function.update dev.counters k
        { access := lsbMsb, nibble := nibble
          reload := msb.toBitVec ++ lsb.toBitVec } := by
  rw [I8254.control_packed dev k (by decide) nibble]
  unfold I8254.setCounter
  rw [I8254.write_write (by simp) (by simp)]
  simp

end Lcom.Device
