/-
What lab2 shows of a timer it has programmed.

The status byte is the counter's own (`shown_eq`), so each field is a
fact about 64 bytes. The initialisation mode comes out as 33, which is no
enumerator at all: bit 5 keeps its place and only bit 4 is shifted down.
The counting mode has bits 3 and 2 in the wrong place and is right only
where both are clear. The base is right.
-/
import Lcom.Lab2.TimerConf
import Lcom.Proj.Proofs.Timer

namespace Lcom.Lab2

open Device Proj

-- ============================================================ the fields

/-- The initialisation mode of a counter programmed low byte, then high
byte. -/
theorem display_initial : ∀ (pins : BitVec 2) (nibble : BitVec 4),
    ((packed pins lsbMsb nibble &&& bit 5)
      ||| ((packed pins lsbMsb nibble &&& bit 4) >>> 4)).toNat = 33 := by
  decide

/-- The counting mode is shown right where its two high bits are
clear. -/
theorem display_mode : ∀ (pins : BitVec 2) (nibble : BitVec 4),
    ((packed pins lsbMsb nibble &&& bit 3)
        ||| (packed pins lsbMsb nibble &&& bit 2)
        ||| ((packed pins lsbMsb nibble &&& bit 1) >>> 1)
      = UInt8.ofNat (nibble.extractLsb' 1 3).toNat)
      ↔ nibble.getLsbD 3 = false ∧ nibble.getLsbD 2 = false := by
  decide

/-- The base is shown right. -/
theorem display_base : ∀ (pins : BitVec 2) (nibble : BitVec 4),
    decide (packed pins lsbMsb nibble &&& bit 0 = 1) = nibble.getLsbD 0 := by
  decide

-- ========================================================== the counters

section

variable (k : Fin 3) {freq : UInt32} (dev : I8254)

/-- What is shown is read off a status byte with access mode 3 and the
programmed nibble. -/
theorem shown_eq (h : FreqInRange freq) (field : TimerStatusField) :
    ∃ pins, shown k freq dev field = some (timerDisplayConf (timerNumber k)
      (packed pins lsbMsb (programmed k freq dev)) field) := by
  obtain ⟨-, hcounters⟩ := timerSetFrequency_programs dev k h
  obtain ⟨dev', hconf, -⟩ := timerGetConf_number
    (timerSetFrequency (timerNumber k) freq dev).2 k
  refine ⟨(timerSetFrequency (timerNumber k) freq dev).2.pins k, ?_⟩
  unfold shown timerTestReadConfig programmed
  rw [hconf, Option.map_some]
  unfold I8254.status
  rw [hcounters, Function.update_self]

/-- The programmed nibble is the one the counter had. -/
theorem programmed_eq (h : FreqInRange freq) :
    programmed k freq dev = (dev.counters k).nibble := by
  obtain ⟨-, hcounters⟩ := timerSetFrequency_programs dev k h
  unfold programmed
  rw [hcounters, Function.update_self]

theorem not_showsInitial (h : FreqInRange freq) :
    ¬ShowsInitial k freq dev := by
  obtain ⟨pins, hshown⟩ := shown_eq k dev h .tsfInitial
  have hcode := display_initial pins (programmed k freq dev)
  unfold ShowsInitial
  rw [hshown]
  unfold timerDisplayConf
  dsimp only
  rw [hcode]
  simp [TimerInit.code]

theorem showsMode_iff (h : FreqInRange freq) :
    ShowsMode k freq dev ↔ (dev.counters k).nibble.getLsbD 3 = false
      ∧ (dev.counters k).nibble.getLsbD 2 = false := by
  obtain ⟨pins, hshown⟩ := shown_eq k dev h .tsfMode
  unfold ShowsMode
  rw [hshown, programmed_eq k dev h,
    ← display_mode pins (dev.counters k).nibble]
  simp [timerDisplayConf]

theorem showsBase (h : FreqInRange freq) : ShowsBase k freq dev := by
  obtain ⟨pins, hshown⟩ := shown_eq k dev h .tsfBase
  unfold ShowsBase
  rw [hshown, ← display_base pins]
  rfl

end

/-- What is programmed is never what is displayed: the initialisation
mode is wrong for every counter and every frequency in range, the
counting mode wherever one of its two high bits is set. The base is
right. -/
theorem programmed_not_displayed (k : Fin 3) {freq : UInt32} (dev : I8254)
    (h : 19 ≤ freq ∧ freq ≤ 1193182) :
    ¬ShowsProgrammed k freq dev ∧ ¬ShowsInitial k freq dev
      ∧ (ShowsMode k freq dev ↔ (dev.counters k).nibble.getLsbD 3 = false
        ∧ (dev.counters k).nibble.getLsbD 2 = false)
      ∧ ShowsBase k freq dev := by
  have hinitial := not_showsInitial k dev h
  exact ⟨fun hall => hinitial hall.1, hinitial, showsMode_iff k dev h,
    showsBase k dev h⟩

/-- A device whose counters are in mode 1 and count in BCD. -/
def bcdTimer : I8254 :=
  { pcTimer with
    counters := fun _ => { access := lsbMsb, nibble := 0x3#4, reload := 0#16 } }

/-- Counter 2 of it at 1000 Hz: mode and base are right, and still it is
not what was programmed. -/
theorem programmed_not_displayed_bcd :
    ¬ShowsProgrammed 2 1000 bcdTimer ∧ ShowsMode 2 1000 bcdTimer
      ∧ ShowsBase 2 1000 bcdTimer := by
  obtain ⟨hall, -, hmode, hbase⟩ :=
    @programmed_not_displayed 2 1000 bcdTimer (by decide)
  exact ⟨hall, hmode.2 (by decide), hbase⟩

/-- Counter 0 of a PC at 60 Hz: the initialisation is shown as 33, and
mode 3 as 5. -/
theorem sixty_shown_wrong :
    ¬ShowsProgrammed 0 60 pcTimer
      ∧ shown 0 60 pcTimer .tsfInitial = some
        { timer := 0, field := .tsfInitial, val := .inMode 33 }
      ∧ shown 0 60 pcTimer .tsfMode = some
        { timer := 0, field := .tsfMode, val := .countMode 5 } := by
  refine ⟨fun hall => ?_, by decide, by decide⟩
  exact @not_showsInitial 0 60 pcTimer ⟨by decide, by decide⟩ hall.1

end Lcom.Lab2
