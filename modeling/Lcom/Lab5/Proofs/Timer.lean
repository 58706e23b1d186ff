/-
When lab5's timer agrees with lab2's.

`TIMER_RB_SEL(timer)` sets a bit of the nibble and leaves bits 7-6 clear,
so lab5's control word always programs counter 0, with one bit of the
nibble set in addition, whatever timer it was asked for. For timer 0 that
is harmless where the bit was set already. For the other two the bytes
of the divisor then go to a counter that was never told to expect them.
-/
import Lcom.Lab5.Timer
import Lcom.Proj.Proofs.Timer

namespace Lcom.Lab5

open Device Proj

-- ========================================================== properties

/-- Both versions return the same and leave the same counters. -/
def TimersAgree (timer : UInt8) (freq : UInt32) (dev : I8254) : Prop :=
  (timerSetFrequency timer freq dev).1
      = (Proj.timerSetFrequency timer freq dev).1
    ∧ (timerSetFrequency timer freq dev).2.counters
      = (Proj.timerSetFrequency timer freq dev).2.counters

theorem counter0_lt : 0 < 3 := by decide

/-- The counter the control word reaches. -/
def counter0 : Fin 3 := ⟨0, counter0_lt⟩

theorem counter0_eq : counter0 = 0 := rfl

/-- The bit `TIMER_RB_SEL(k)` sets in the nibble. -/
def selBit (k : Fin 3) : BitVec 4 := 1#4 <<< (k.val + 1)

/-- The divisor of a frequency. -/
def divisor (freq : UInt32) : UInt16 := (timerFreq / freq).toUInt16

/-- Timer 0: bit 1 of its nibble is set already. -/
def KeepsNibble (dev : I8254) : Prop :=
  (dev.counters counter0).nibble.getLsbD 1 = true

/-- Timer 1 or 2: counter 0 is configured as the control word says, and
the counter itself takes the two bytes for the divisor. It has access
mode 3 and awaits a low byte, or a high byte that happens to fit. -/
def TakesBytes (k : Fin 3) (freq : UInt32) (dev : I8254) : Prop :=
  (dev.counters counter0).access = lsbMsb
    ∧ (dev.counters counter0).nibble = (dev.counters k).nibble ||| selBit k
    ∧ (dev.counters k).access = lsbMsb
    ∧ (dev.half k = none ∨ dev.half k = some (utilGetLSB (divisor freq))
      ∧ utilGetMSB (divisor freq) = utilGetLSB (divisor freq))

/-- Where the two versions agree. -/
def AgreesWhen (timer : UInt8) (freq : UInt32) (dev : I8254) : Prop :=
  timer > 2 ∨ ¬FreqInRange freq ∨ (timer = 0 ∧ KeepsNibble dev)
    ∨ ∃ k, k ≠ counter0 ∧ timer = timerNumber k ∧ TakesBytes k freq dev

-- ============================================================ the driver

theorem timerNumber_inj {k k' : Fin 3} (h : timerNumber k = timerNumber k') :
    k = k' := by
  revert k k'
  decide

section

variable (dev : I8254) (k : Fin 3)

theorem outb_port (byte : UInt8) :
    dev.outb (timerPort (timerNumber k)) byte = dev.write k byte := by
  match k with
  | 0 => rfl
  | 1 => rfl
  | 2 => rfl

/-- lab5 reads the configuration as lab2 does. -/
theorem timerGetConf_eq :
    timerGetConf (timerNumber k) dev
      = Proj.timerGetConf (timerNumber k) dev := by
  match k with
  | 0 => rfl
  | 1 => rfl
  | 2 => rfl

/-- The control word selects counter 0. -/
theorem control_word : ∀ (k : Fin 3) (nibble : BitVec 4),
    timerRbSel (timerNumber k) ||| timerLsbMsb ||| packed 0#2 0#2 nibble
      = packed (BitVec.ofNat 2 (0 : Fin 3).val) lsbMsb (nibble ||| selBit k)
    := by
  decide

/-- In range, lab5 programs counter 0 and writes the two bytes to the
port of its timer. -/
theorem timerSetFrequency_eq {freq : UInt32} (h : FreqInRange freq) :
    ∃ dev' : I8254, dev'.counters = dev.counters ∧ dev'.half = dev.half
      ∧ timerSetFrequency (timerNumber k) freq dev
        = (0, ((dev'.control (packed (BitVec.ofNat 2 (0 : Fin 3).val) lsbMsb
          ((dev.counters k).nibble ||| selBit k))).write k
            (utilGetLSB (divisor freq))).write k
            (utilGetMSB (divisor freq))) := by
  obtain ⟨dev', hconf, hcounters, hhalf⟩ := timerGetConf_number dev k
  refine ⟨dev', hcounters, hhalf, ?_⟩
  unfold timerSetFrequency
  rw [if_neg ((freq_check freq).2 h), timerGetConf_eq, hconf]
  dsimp only
  rw [outb_port, outb_port, outb_timerCtrl]
  unfold I8254.status
  rw [packed_and_nibble, control_word]
  rfl

end

-- ============================================================= timer 0

section

variable {dev : I8254} {freq : UInt32}

/-- A bit that is set already changes nothing. -/
theorem nibble_or_selBit : ∀ nibble : BitVec 4,
    nibble ||| selBit 0 = nibble ↔ nibble.getLsbD 1 = true := by
  decide

/-- Timer 0 is programmed, with bit 1 of its nibble set. -/
theorem agree_zero_iff (h : FreqInRange freq) :
    TimersAgree (timerNumber 0) freq dev ↔ KeepsNibble dev := by
  obtain ⟨dev', hcounters, -, heq⟩ := timerSetFrequency_eq dev 0 h
  obtain ⟨hzero, hprog⟩ := timerSetFrequency_programs dev 0 h
  unfold TimersAgree KeepsNibble
  rw [heq, hzero, hprog, counter0_eq, ← nibble_or_selBit]
  dsimp only
  rw [I8254.program, hcounters, bytes_divisor]
  constructor
  · intro hagree
    have hsame := congrFun hagree.2 0
    rw [Function.update_self, Function.update_self] at hsame
    exact congrArg Counter.nibble hsame
  · intro hkeep
    rw [hkeep]
    exact ⟨rfl, rfl⟩

-- ======================================================= the other two

/-- Two bytes in order, or a pending one that happens to fit. -/
theorem bytes_shift_iff (val : UInt16) (low : UInt8) :
    (utilGetLSB val).toBitVec ++ low.toBitVec = val.toBitVec
      ↔ low = utilGetLSB val ∧ utilGetMSB val = utilGetLSB val := by
  rw [← bytes_divisor val]
  constructor
  · intro h
    have hhigh := congrArg (fun v : BitVec (8 + 8) => v.extractLsb' 8 8) h
    have hlow := congrArg (fun v : BitVec (8 + 8) => v.extractLsb' 0 8) h
    simp only [BitVec.extractLsb'_append_eq_left,
      BitVec.extractLsb'_append_eq_right] at hhigh hlow
    exact ⟨UInt8.toBitVec_inj.1 hlow, UInt8.toBitVec_inj.1 hhigh.symm⟩
  · intro h
    rw [h.1, h.2]

/-- The two bytes of a divisor make a counter what lab2 makes it exactly
if it has access mode 3 and awaits them. -/
theorem writes_divisor_iff (dev : I8254) (k : Fin 3) (val : UInt16) :
    ((dev.write k (utilGetLSB val)).write k (utilGetMSB val)).counters k
        = { access := lsbMsb, nibble := (dev.counters k).nibble
            reload := val.toBitVec }
      ↔ (dev.counters k).access = lsbMsb
        ∧ (dev.half k = none ∨ dev.half k = some (utilGetLSB val)
          ∧ utilGetMSB val = utilGetLSB val) := by
  by_cases ha : (dev.counters k).access = lsbMsb
  · cases hh : dev.half k with
    | none =>
        rw [I8254.write_write ha hh, Function.update_self, bytes_divisor, ha]
        simp [ha]
    | some low =>
        rw [I8254.write_write_half ha hh, Function.update_self, ha]
        simp [ha, bytes_shift_iff]
  · -- the access mode stays what it was
    refine iff_of_false (fun h => ha ?_) (fun h => ha h.1)
    have haccess := congrArg Counter.access h
    rw [I8254.write_access, I8254.write_access] at haccess
    exact haccess

/-- A control word without selection bits configures counter 0 and leaves
the pending bytes of the others. -/
theorem control_counter0 (dev : I8254) (nibble : BitVec 4) :
    (dev.control (packed (BitVec.ofNat 2 (0 : Fin 3).val) lsbMsb
        nibble)).counters
        = Function.update dev.counters 0
          { dev.counters 0 with access := lsbMsb, nibble }
      ∧ ∀ k, k ≠ 0 → (dev.control (packed (BitVec.ofNat 2 (0 : Fin 3).val)
        lsbMsb nibble)).half k = dev.half k := by
  rw [I8254.control_packed dev 0 (by decide)]
  exact ⟨rfl, fun k hk => Function.update_of_ne hk _ _⟩

/-- Timers 1 and 2: counter 0 is programmed instead, and the counter
itself gets the bytes. -/
theorem agree_other_iff {k : Fin 3} (hk : k ≠ 0) (h : FreqInRange freq) :
    TimersAgree (timerNumber k) freq dev ↔ TakesBytes k freq dev := by
  obtain ⟨dev', hcounters, hhalf, heq⟩ := timerSetFrequency_eq dev k h
  obtain ⟨hzero, hprog⟩ := timerSetFrequency_programs dev k h
  obtain ⟨hcount₁, hhalf₁⟩ := control_counter0 dev'
    ((dev.counters k).nibble ||| selBit k)
  -- the device once the control word is written
  generalize dev'.control _ = dev₁ at heq hcount₁ hhalf₁
  rw [hcounters] at hcount₁
  have hk₁ : dev₁.counters k = dev.counters k := by
    rw [hcount₁, Function.update_of_ne hk]
  have hother : ∀ j, j ≠ k → ((dev₁.write k (utilGetLSB (divisor freq))).write
      k (utilGetMSB (divisor freq))).counters j = dev₁.counters j := by
    intro j hj
    rw [I8254.write_other hj, I8254.write_other hj]
  have hself := writes_divisor_iff dev₁ k (divisor freq)
  rw [hk₁, hhalf₁ k hk, hhalf] at hself
  unfold TimersAgree TakesBytes
  rw [heq, hzero, hprog, counter0_eq]
  constructor
  · intro hagree
    have hat0 := congrFun hagree.2 0
    rw [Function.update_of_ne (Ne.symm hk), hother 0 (Ne.symm hk), hcount₁,
      Function.update_self] at hat0
    have hatk := congrFun hagree.2 k
    rw [Function.update_self] at hatk
    obtain ⟨haccess, htakes⟩ := hself.1 hatk
    exact ⟨(congrArg Counter.access hat0).symm,
      (congrArg Counter.nibble hat0).symm, haccess, htakes⟩
  · intro htakes
    obtain ⟨haccess₀, hnibble₀, haccess, htakes⟩ := htakes
    refine ⟨rfl, funext fun j => ?_⟩
    by_cases hj : j = k
    · rw [hj, Function.update_self]
      exact hself.2 ⟨haccess, htakes⟩
    · rw [Function.update_of_ne hj]
      show ((dev₁.write k _).write k _).counters j = _
      rw [hother j hj, hcount₁]
      by_cases hj0 : j = 0
      · rw [hj0, Function.update_self, ← haccess₀, ← hnibble₀]
      · rw [Function.update_of_ne hj0]

-- ===================================================== rejected calls

/-- A frequency out of range is rejected by both. -/
theorem agree_out_of_range (k : Fin 3) (h : ¬FreqInRange freq) :
    TimersAgree (timerNumber k) freq dev := by
  obtain ⟨hfail, hcounters⟩ := timerSetFrequency_rejects dev k h
  unfold TimersAgree timerSetFrequency
  rw [if_pos (not_not.1 fun hc => h ((freq_check freq).1 hc)), hfail,
    hcounters]
  exact ⟨rfl, rfl⟩

/-- So is a timer that does not exist. -/
theorem agree_unknown {timer : UInt8} (h : timer > 2) :
    TimersAgree timer freq dev := by
  have hne : timer ≠ 0 ∧ timer ≠ 1 ∧ timer ≠ 2 := by
    refine ⟨?_, ?_, ?_⟩ <;> (rintro rfl; revert h; decide)
  have hreject : timerSetFrequency timer freq dev = (1, dev) := by
    unfold timerSetFrequency timerGetConf
    rw [if_pos hne]
    split <;> rfl
  unfold TimersAgree
  rw [hreject, timerSetFrequency_unknown dev h]
  exact ⟨rfl, rfl⟩

end

-- ============================================================ the result

/-- The two timer drivers agree exactly where the call is rejected, or
lab5's misplaced selection bits happen to change nothing. -/
theorem timers_agree_iff (timer : UInt8) (freq : UInt32) (dev : I8254) :
    TimersAgree timer freq dev ↔ AgreesWhen timer freq dev := by
  rcases timer_cases timer with ⟨k, rfl⟩ | hbig
  · have hle : ¬timerNumber k > 2 := by
      revert k
      decide
    by_cases hr : FreqInRange freq
    · by_cases hk : k = 0
      · subst hk
        rw [agree_zero_iff hr]
        unfold AgreesWhen
        constructor
        · intro hkeep
          exact .inr (.inr (.inl ⟨rfl, hkeep⟩))
        · intro hwhen
          rcases hwhen with h | h | ⟨-, h⟩ | ⟨k, hk, hn, -⟩
          · exact absurd h hle
          · exact absurd hr h
          · exact h
          · exact absurd (timerNumber_inj hn).symm hk
      · rw [agree_other_iff hk hr]
        unfold AgreesWhen
        constructor
        · intro htakes
          exact .inr (.inr (.inr ⟨k, hk, rfl, htakes⟩))
        · intro hwhen
          rcases hwhen with h | h | ⟨h, -⟩ | ⟨k', -, hn, htakes⟩
          · exact absurd h hle
          · exact absurd hr h
          · exact absurd (@timerNumber_inj k 0 h) hk
          · rw [timerNumber_inj hn]
            exact htakes
    · exact iff_of_true (agree_out_of_range k hr) (.inr (.inl hr))
  · exact iff_of_true (agree_unknown hbig) (.inl hbig)

/-- Counter 2 at 60 Hz: lab5 changes the nibble of counter 0, which
lab2 leaves alone. -/
theorem counter_zero_changed :
    ¬TimersAgree 2 60 pcTimer
      ∧ ((timerSetFrequency 2 60 pcTimer).2.counters 0).nibble = 0xE#4
      ∧ ((Proj.timerSetFrequency 2 60 pcTimer).2.counters 0).nibble = 0x6#4
    := by
  refine ⟨fun h => ?_, by decide, by decide⟩
  have hnibble := congrArg Counter.nibble (congrFun h.2 0)
  revert hnibble
  decide

end Lcom.Lab5
