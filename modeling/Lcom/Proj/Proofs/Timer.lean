/-
`timer_set_frequency` refines the device.

The read-back gives the counter's own status, whose low nibble goes back
into the control word; the two bytes are the divisor's. What reaches the
device is one `program` of the selected counter, or nothing at all. The
frequency check keeps the divisor between 1 and 62799, so its 16 bits
hold it.
-/
import Lcom.Proj.Timer

namespace Lcom.Proj

open Device

/-- A timer is one of the three or is rejected. -/
theorem timer_cases (timer : UInt8) :
    (∃ k, timer = timerNumber k) ∨ timer > 2 := by
  by_cases h : timer > 2
  · exact .inr h
  · left
    have hle : timer.toNat ≤ 2 := by
      rw [gt_iff_lt, UInt8.lt_iff_toNat_lt, Nat.not_lt] at h
      exact h
    refine ⟨⟨timer.toNat, by omega⟩, ?_⟩
    unfold timerNumber
    exact UInt8.ofNat_toNat.symm

section

variable (dev : I8254) (k : Fin 3)

/-- The ports of the three timers are those of the three counters. -/
theorem outb_timerPort (byte : UInt8) :
    dev.outb (timerPort (timerNumber k)) byte = dev.write k byte := by
  match k with
  | 0 => rfl
  | 1 => rfl
  | 2 => rfl

theorem inb_timerPort :
    dev.inb (timerPort (timerNumber k)) = dev.read k := by
  match k with
  | 0 => rfl
  | 1 => rfl
  | 2 => rfl

theorem outb_timerCtrl (word : UInt8) :
    dev.outb timerCtrl word = dev.control word := rfl

/-- The read-back command of `timer_get_conf` asks for the status of its
timer. -/
theorem readBack_word : ∀ k : Fin 3,
    selected (timerRbStatus ||| timerRbSel (timerNumber k)) = none
      ∧ (timerRbStatus ||| timerRbSel (timerNumber k)).toBitVec.getLsbD 4
        = false
      ∧ (timerRbStatus ||| timerRbSel (timerNumber k)).toBitVec.getLsbD
        (k.val + 1) = true := by
  decide

/-- `timer_get_conf` of one of the timers gives its status, and changes
no counter. -/
theorem timerGetConf_number :
    ∃ dev', timerGetConf (timerNumber k) dev = (some (dev.status k), dev')
      ∧ dev'.counters = dev.counters ∧ dev'.half = dev.half := by
  obtain ⟨hsel, hstatus, hbit⟩ := readBack_word k
  have hle : ∀ k : Fin 3, ¬timerNumber k > 2 := by decide
  unfold timerGetConf
  rw [if_neg (hle k)]
  dsimp only
  rw [outb_timerCtrl, dev.control_readBack hsel hstatus, inb_timerPort]
  unfold I8254.read
  rw [if_pos (by dsimp only; rw [hbit, Bool.or_true])]
  exact ⟨_, rfl, rfl, rfl⟩

end

/-- The low nibble of a status byte. -/
theorem packed_and_nibble : ∀ (pins access : BitVec 2) (nibble : BitVec 4),
    packed pins access nibble &&& 0x0F = packed 0#2 0#2 nibble := by
  decide

/-- The selection bits, the access mode and the nibble make the control
word. -/
theorem timerSelect_number : ∀ k : Fin 3,
    ∃ sel, timerSelect (timerNumber k)
        = some (timerPort (timerNumber k), sel)
      ∧ ∀ nibble : BitVec 4, sel ||| timerLsbMsb ||| packed 0#2 0#2 nibble
        = packed (BitVec.ofNat 2 k.val) lsbMsb nibble := by
  intro k
  match k with
  | 0 => exact ⟨0, rfl, by decide⟩
  | 1 => exact ⟨0x40, rfl, by decide⟩
  | 2 => exact ⟨0x80, rfl, by decide⟩

/-- The divisor fits 16 bits and is not zero. -/
theorem divisor_fits {freq : UInt32} (h : 19 ≤ freq ∧ freq ≤ timerFreq) :
    1 ≤ 1193182 / freq.toNat ∧ 1193182 / freq.toNat < 2 ^ 16
      ∧ ((timerFreq / freq).toUInt16).toNat = 1193182 / freq.toNat := by
  have hlow : 19 ≤ freq.toNat := UInt32.le_iff_toNat_le.1 h.1
  have hhigh : freq.toNat ≤ 1193182 := UInt32.le_iff_toNat_le.1 h.2
  have hone : 1 ≤ 1193182 / freq.toNat :=
    (Nat.one_le_div_iff (by omega)).2 hhigh
  have hfits : 1193182 / freq.toNat < 2 ^ 16 :=
    calc 1193182 / freq.toNat ≤ 1193182 / 19 :=
          Nat.div_le_div_left hlow (by decide)
      _ < 2 ^ 16 := by decide
  refine ⟨hone, hfits, ?_⟩
  rw [UInt32.toNat_toUInt16, UInt32.toNat_div]
  exact Nat.mod_eq_of_lt hfits

/-- The two bytes put the divisor together again. -/
theorem bytes_divisor (val : UInt16) :
    (utilGetMSB val).toBitVec ++ (utilGetLSB val).toBitVec
      = val.toBitVec := by
  unfold utilGetMSB utilGetLSB
  apply BitVec.eq_of_toNat_eq
  rw [BitVec.toNat_append]
  have hlt : val.toNat < 2 ^ 16 := val.toNat_lt
  have hlsb : val.toNat % 256 < 2 ^ 8 := Nat.mod_lt _ (by decide)
  simp only [UInt8.toNat_toBitVec, UInt16.toNat_toUInt8,
    UInt16.toNat_shiftRight, UInt16.toNat_toBitVec]
  rw [← Nat.shiftLeft_add_eq_or_of_lt hlsb, Nat.shiftLeft_eq]
  simp only [UInt16.reduceToNat, Nat.reduceMod, Nat.reducePow]
  omega

-- ========================================================= the refinement

/-- A frequency the code accepts. -/
def FreqInRange (freq : UInt32) : Prop := 19 ≤ freq ∧ freq ≤ timerFreq

theorem freq_check (freq : UInt32) :
    ¬(freq < 19 ∨ freq > timerFreq) ↔ FreqInRange freq := by
  unfold FreqInRange
  rw [not_or, gt_iff_lt, UInt32.not_lt, UInt32.not_lt]

/-- In range, the selected counter is programmed with the divisor. -/
theorem timerSetFrequency_programs (dev : I8254) (k : Fin 3)
    {freq : UInt32} (h : FreqInRange freq) :
    (timerSetFrequency (timerNumber k) freq dev).1 = 0
      ∧ (timerSetFrequency (timerNumber k) freq dev).2.counters
        = Function.update dev.counters k
          { access := lsbMsb, nibble := (dev.counters k).nibble
            reload := (timerFreq / freq).toUInt16.toBitVec } := by
  obtain ⟨dev', hconf, hcounters, -⟩ := timerGetConf_number dev k
  obtain ⟨sel, hsel, hword⟩ := timerSelect_number k
  unfold timerSetFrequency
  rw [hconf]
  dsimp only
  rw [if_neg ((freq_check freq).2 h), hsel]
  refine ⟨rfl, ?_⟩
  dsimp only
  rw [outb_timerPort, outb_timerPort, outb_timerCtrl]
  unfold I8254.status
  rw [packed_and_nibble, hword, I8254.program, hcounters, bytes_divisor]

/-- Out of range, nothing is programmed. -/
theorem timerSetFrequency_rejects (dev : I8254) (k : Fin 3)
    {freq : UInt32} (h : ¬FreqInRange freq) :
    (timerSetFrequency (timerNumber k) freq dev).1 = 1
      ∧ (timerSetFrequency (timerNumber k) freq dev).2.counters
        = dev.counters := by
  obtain ⟨dev', hconf, hcounters, -⟩ := timerGetConf_number dev k
  unfold timerSetFrequency
  rw [hconf]
  dsimp only
  rw [if_pos (not_not.1 fun hc => h ((freq_check freq).1 hc))]
  exact ⟨rfl, hcounters⟩

/-- Any other timer is rejected by `timer_get_conf`. -/
theorem timerSetFrequency_unknown (dev : I8254) {timer : UInt8}
    (h : timer > 2) (freq : UInt32) :
    timerSetFrequency timer freq dev = (1, dev) := by
  unfold timerSetFrequency timerGetConf
  rw [if_pos h]

/-- `timer_set_frequency` succeeds exactly for the three timers and the
frequencies in range. Then the selected counter has access mode
LSB-then-MSB, its nibble and the whole divisor, and the other two are as
they were; otherwise all three are. -/
theorem timer_set_frequency_refines (timer : UInt8) (freq : UInt32)
    (dev : I8254) :
    ((timerSetFrequency timer freq dev).1 = 0
        ↔ timer ≤ 2 ∧ 19 ≤ freq ∧ freq ≤ 1193182)
      ∧ ((timerSetFrequency timer freq dev).1 = 0 →
        ∃ k : Fin 3, k.val = timer.toNat
          ∧ (∀ j, j ≠ k → (timerSetFrequency timer freq dev).2.counters j
            = dev.counters j)
          ∧ ((timerSetFrequency timer freq dev).2.counters k).access
            = lsbMsb
          ∧ ((timerSetFrequency timer freq dev).2.counters k).nibble
            = (dev.counters k).nibble
          ∧ ((timerSetFrequency timer freq dev).2.counters k).reload.toNat
            = 1193182 / freq.toNat
          ∧ 1 ≤ 1193182 / freq.toNat)
      ∧ ((timerSetFrequency timer freq dev).1 ≠ 0 →
        (timerSetFrequency timer freq dev).2.counters = dev.counters) := by
  rcases timer_cases timer with ⟨k, rfl⟩ | hbig
  · have hle : ∀ k : Fin 3, timerNumber k ≤ 2
        ∧ k.val = (timerNumber k).toNat := by decide
    by_cases hr : FreqInRange freq
    · obtain ⟨hzero, hcounters⟩ := timerSetFrequency_programs dev k hr
      obtain ⟨hone, -, hdiv⟩ := divisor_fits hr
      refine ⟨⟨fun _ => ⟨(hle k).1, hr⟩, fun _ => hzero⟩, fun _ => ?_,
        fun hne => absurd hzero hne⟩
      refine ⟨k, (hle k).2, ?_⟩
      rw [hcounters]
      refine ⟨fun j hj => Function.update_of_ne hj _ _, ?_⟩
      rw [Function.update_self]
      exact ⟨rfl, rfl, hdiv, hone⟩
    · obtain ⟨hfail, hcounters⟩ := timerSetFrequency_rejects dev k hr
      rw [hfail, hcounters]
      exact ⟨⟨fun h => (by cases h), fun h => absurd h.2 hr⟩,
        fun h => (by cases h), fun _ => rfl⟩
  · rw [timerSetFrequency_unknown dev hbig]
    refine ⟨⟨fun h => (by cases h), fun h => absurd hbig ?_⟩,
      fun h => (by cases h), fun _ => rfl⟩
    rw [gt_iff_lt, UInt8.not_lt]
    exact h.1

/-- A device whose counters are all in mode 3, binary, as a PC sets up
counter 0. -/
def pcTimer : I8254 where
  counters := fun _ => { access := lsbMsb, nibble := 0x6#4, reload := 0#16 }
  pins := fun _ => 0#2
  counts := fun _ => 0
  latched := fun _ => false
  half := fun _ => none

end Lcom.Proj
