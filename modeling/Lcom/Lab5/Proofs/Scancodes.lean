/-
Both ways of assembling scancodes make the calls of the reference.

The two drivers keep a pending prefix differently, and each of them
keeps exactly that: proj's as a length of two with the prefix in the
buffer and the flag down, lab5's as the prefix itself in the buffer.
Whatever stands in the second byte is written before it is read.
-/
import Lcom.Lab5.Keyboard

namespace Lcom.Lab5

open Machine Proj

/-- The globals of `printSC` after the byte `prev`. -/
structure PrintPending (prev : Option UInt8) (s : PrintState) : Prop where
  bytes : s.bytes = if prev = some 0xE0 then 2 else 1
  buffer : prev = some 0xE0 → s.scancodes.1 = 0xE0
  makecode : s.makecode = false

/-- The buffer of `kbc_print_scancode` after the byte `prev`. -/
def BufferPending (prev : Option UInt8) (scancodes : UInt8 × UInt8) :
    Prop :=
  scancodes.1 = 0xE0 ↔ prev = some 0xE0

theorem printSC_remembers : Remembers printSC callFor PrintPending := by
  intro prev s byte ⟨hbytes, hbuffer, hmake⟩
  unfold printSC callFor
  by_cases hb : byte = 0xE0
  · simp only [if_pos hb]
    exact ⟨trivial, by simp [hb], fun _ => hb, hmake⟩
  · simp only [if_neg hb]
    have hnext : PrintPending (some byte)
        { bytes := 1, scancodes := (0, 0), makecode := false } :=
      ⟨by simp [hb], fun h => absurd (Option.some.inj h) hb, rfl⟩
    refine ⟨?_, hnext⟩
    by_cases hp : prev = some 0xE0
    · rw [if_pos hp] at hbytes
      by_cases hm : byte &&& 0x80 = 0 <;>
        simp [hm, hp, hbytes, hmake, hbuffer hp, kbdPrintScancode]
    · rw [if_neg hp] at hbytes
      by_cases hm : byte &&& 0x80 = 0 <;>
        simp [hm, hp, hbytes, hmake, kbdPrintScancode]

theorem kbcPrintScancode_remembers :
    Remembers kbcPrintScancode callFor BufferPending := by
  intro prev scancodes byte hpending
  unfold BufferPending at hpending
  unfold kbcPrintScancode callFor
  by_cases hb : byte = 0xE0
  · simp [hb, BufferPending]
  · have hnext : BufferPending (some byte) (0, byte)
        ∧ BufferPending (some byte) (0, scancodes.2) := by
      constructor <;> simp [BufferPending, hb]
    by_cases hp : prev = some 0xE0
    · have hbuffer := hpending.2 hp
      simp [hb, hp, hbuffer, kbdPrintScancode, hnext.1]
    · have hbuffer : scancodes.1 ≠ 0xE0 := fun h => hp (hpending.1 h)
      simp [hb, hp, hbuffer, kbdPrintScancode, hnext.2]

/-- Over any stream of bytes both drivers make the calls of the
reference, byte by byte. -/
theorem scancodes_tokens (bytes : List UInt8) :
    transduce printSC PrintState.init bytes = tokens bytes
      ∧ transduce kbcPrintScancode (0, 0) bytes = tokens bytes := by
  have hprint : PrintPending none PrintState.init :=
    ⟨rfl, fun h => (Option.some_ne_none _ h.symm).elim, rfl⟩
  have hbuffer : BufferPending none ((0, 0) : UInt8 × UInt8) := by
    simp [BufferPending]
  exact ⟨printSC_remembers.transduce hprint bytes,
    kbcPrintScancode_remembers.transduce hbuffer bytes⟩

/-- Repeated prefixes, a two-byte break code, and a make code. -/
example : tokens [0xE0, 0xE0, 0xC8, 0x1E] = [none, none,
    some ⟨false, 2, [0xE0, 0xC8]⟩, some ⟨true, 1, [0x1E]⟩] := by decide

end Lcom.Lab5
