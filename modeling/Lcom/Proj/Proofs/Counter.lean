/-
Where the mouse driver stands between any two interrupts.

Whatever the reads, the counter is at a byte of the packet, with an
error pending after the first byte only, or the driver is dead: an error
at the third byte took the counter past the one value at which the
dispatch clears it (`counts_reach`). A driver that is not dead can be
told in five bytes that the button is up (`up_bytes`).
-/
import Lcom.Proj.Proofs.Cursor

namespace Lcom.Proj

open Machine

-- ========================================================= the counter

/-- The error that no dispatch clears: it was raised at a third byte. -/
def MouseDriver.Dead (d : MouseDriver) : Prop :=
  d.readingError = true ∧ 3 ≤ d.counter

/-- Between two interrupts: at a byte of a packet, with an error pending
after the first byte only, or dead. -/
def MouseDriver.Counts (d : MouseDriver) : Prop :=
  (0 ≤ d.counter ∧ d.counter ≤ 2 ∧ (d.readingError = true → d.counter = 1))
    ∨ d.Dead

/-- `print_mouse_packet` keeps the counter within the packet. -/
theorem printMousePacket_counts {d : MouseDriver}
    (h : 0 ≤ d.counter ∧ d.counter ≤ 2) (he : d.readingError = false) :
    0 ≤ (printMousePacket d).counter ∧ (printMousePacket d).counter ≤ 2
      ∧ (printMousePacket d).readingError = false := by
  refine printMousePacket_rule (P := fun d' => 0 ≤ d'.counter
    ∧ d'.counter ≤ 2 ∧ d'.readingError = false) ⟨h.1, h.2, he⟩ fun sync => ?_
  refine ⟨?_, ?_, (storeByte_readingError _).trans he⟩
  · unfold storeByte
    dsimp only
    split
    · show 0 ≤ d.counter + 1
      omega
    · split
      · show 0 ≤ d.counter + 1
        omega
      · split
        · exact Int.le_refl 0
        · exact h.1
  · unfold storeByte
    dsimp only
    split
    · show d.counter + 1 ≤ 2
      omega
    · split
      · show d.counter + 1 ≤ 2
        omega
      · split
        · show (0 : Int) ≤ 2
          decide
        · exact h.2

/-- One interrupt: an error counts its byte and stays pending unless the
count is two, any other byte is handed on. -/
theorem dispatched_cases (d : MouseDriver) (r : MouseRead) :
    ((d.after r).readingError = true
        ∧ (d.after r).counter = d.counter + 1
        ∧ (d.counter = 1 ∧ (d.after r).dispatched
            = { d.after r with readingError := false }
          ∨ d.counter ≠ 1 ∧ (d.after r).dispatched = d.after r))
      ∨ (d.readingError = false ∧ (d.after r).readingError = false
        ∧ (d.after r).counter = d.counter
        ∧ (d.after r).dispatched = printMousePacket (d.after r)) := by
  rcases after_error d r with ⟨-, he, hc⟩ | ⟨hq, he, hc⟩
  · refine .inl ⟨he, hc, ?_⟩
    unfold MouseDriver.dispatched MouseDriver.dispatch
    by_cases hone : d.counter = 1
    · have htwo : (d.after r).counter = 2 := by omega
      rw [if_neg (by simp [htwo]), if_pos ⟨he, htwo⟩]
      exact .inl ⟨hone, rfl⟩
    · have htwo : (d.after r).counter ≠ 2 := by omega
      rw [if_pos ⟨he, htwo⟩]
      exact .inr ⟨hone, rfl⟩
  · refine .inr ⟨(Bool.or_eq_false_iff.1 hq).2, he, hc, ?_⟩
    unfold MouseDriver.dispatched
    rw [(dispatch_byte_iff d r).2 hq]

theorem dispatched_dead {d : MouseDriver} (h : d.Dead) (r : MouseRead) :
    (d.after r).dispatched = d.after r ∧ (d.after r).Dead := by
  obtain ⟨herr, hc⟩ := h
  rcases dispatched_cases d r
    with ⟨he, hc', ⟨hone, -⟩ | ⟨-, hd⟩⟩ | ⟨hq, -⟩
  · omega
  · exact ⟨hd, he, by omega⟩
  · rw [herr] at hq
    cases hq

theorem dispatched_counts {d : MouseDriver} (h : d.Counts) (r : MouseRead) :
    (d.after r).dispatched.Counts := by
  rcases h with ⟨hlo, hhi, hpend⟩ | hdead
  · rcases dispatched_cases d r
      with ⟨he, hc, ⟨hone, hd⟩ | ⟨hone, hd⟩⟩ | ⟨-, he, hc, hd⟩
    · rw [hd]
      refine .inl ⟨?_, ?_, fun h => by cases h⟩
      · show 0 ≤ (d.after r).counter
        omega
      · show (d.after r).counter ≤ 2
        omega
    · rw [hd]
      by_cases hzero : d.counter = 0
      · exact .inl ⟨by omega, by omega, fun _ => by omega⟩
      · exact .inr ⟨he, by omega⟩
    · rw [hd]
      obtain ⟨h₀, h₂, hr⟩ :=
        printMousePacket_counts (d := d.after r) (by omega) he
      refine .inl ⟨h₀, h₂, fun h => ?_⟩
      rw [hr] at h
      cases h
  · obtain ⟨hd, hdead'⟩ := dispatched_dead hdead r
    rw [hd]
    exact .inr hdead'

/-- The driver's standing along every run. -/
theorem counts_reach {ok : State → Notification → Prop} {s : State}
    (h : Reach ok s) : s.driver.Counts := by
  refine h.invariant (I := fun s => s.driver.Counts) ?_ ?_
  · intro s hs
    obtain ⟨-, cards, -, rfl⟩ := hs
    exact .inl ⟨Int.le_refl 0, show (0 : Int) ≤ 2 by decide,
      fun h => by cases h⟩
  · intro s n s' _ hinv _ hs
    have hin : ∀ {s₁ : State} {skip : Bool},
        input mode0x115 s n = some (s₁, skip) → s₁.driver.Counts := by
      intro s₁ skip hin
      rcases input_cases hin with ⟨-, -, rfl⟩ | ⟨reads, r, -, -, -, rfl⟩
      · exact hinv
      · exact dispatched_counts hinv r
    rcases step_cases hs with ⟨t, hts, -, htick⟩ | ⟨-, skip, hin', -⟩
    · obtain ⟨s₁, hin₁, -, rfl⟩ := hts
      have hdriver := (stateTick_moves htick).pointer.1
      have hc := congrArg MouseDriver.counter hdriver
      have he := congrArg MouseDriver.readingError hdriver
      dsimp only [MouseDriver.dropLb] at hc he
      have hc' : s'.driver.counter = s₁.driver.counter := hc
      have he' : s'.driver.readingError = s₁.driver.readingError := he
      have hs₁ : s₁.driver.Counts := hin hin₁
      unfold MouseDriver.Counts MouseDriver.Dead at hs₁ ⊢
      rw [hc', he']
      exact hs₁
    · exact hin hin'

-- ====================================================== the five bytes

/-- The driver after a byte read without error. -/
def MouseDriver.takes (d : MouseDriver) (byte : UInt8) : MouseDriver :=
  (d.after (.good byte)).dispatched

/-- A first byte with the button up and no movement, which does for the
other two as well. -/
def upByte : UInt8 := 0x08

section

variable {d : MouseDriver}

/-- Such a byte is always stored. -/
theorem takes_upByte (h : d.readingError = false) :
    d.takes upByte
      = storeByte { d with readPacket := upByte, isSync := true } := by
  have hafter : d.after (.good upByte) = { d with readPacket := upByte } := by
    unfold MouseDriver.after
    rw [h]
    rfl
  have hbyte := (dispatch_byte_iff d (.good upByte)).2
    (by rw [h]; rfl)
  unfold MouseDriver.takes MouseDriver.dispatched
  rw [hbyte, hafter]
  unfold printMousePacket
  dsimp only
  cases hsync : d.isSync with
  | true => rw [if_neg (by decide)]
  | false => rw [if_pos rfl, if_neg (by decide)]

/-- The counter names the byte. -/
structure MouseDriver.At (d : MouseDriver) (counter : Int) : Prop where
  readingError : d.readingError = false
  counter : d.counter = counter

theorem MouseDriver.At.first (h : d.At 0) :
    (d.takes upByte).At 1 ∧ (d.takes upByte).packet1.byte0 = upByte
      ∧ (d.takes upByte).packet1.lb = d.packet1.lb := by
  rw [takes_upByte h.readingError]
  unfold storeByte
  rw [if_pos h.counter]
  refine ⟨⟨h.readingError, ?_⟩, rfl, rfl⟩
  show d.counter + 1 = 1
  rw [h.counter]
  rfl

theorem MouseDriver.At.second (h : d.At 1) :
    (d.takes upByte).At 2
      ∧ (d.takes upByte).packet1.byte0 = d.packet1.byte0
      ∧ (d.takes upByte).packet1.lb = d.packet1.lb := by
  rw [takes_upByte h.readingError]
  unfold storeByte
  rw [if_neg (by show ¬d.counter = 0; rw [h.counter]; decide),
    if_pos h.counter]
  refine ⟨⟨h.readingError, ?_⟩, rfl, rfl⟩
  show d.counter + 1 = 2
  rw [h.counter]
  rfl

theorem MouseDriver.At.third (h : d.At 2) :
    (d.takes upByte).At 0
      ∧ (d.takes upByte).packet1.lb = decide (d.packet1.byte0 &&& 0x01 ≠ 0)
    := by
  rw [takes_upByte h.readingError]
  unfold storeByte
  rw [if_neg (by show ¬d.counter = 0; rw [h.counter]; decide),
    if_neg (by show ¬d.counter = 1; rw [h.counter]; decide),
    if_pos h.counter]
  exact ⟨⟨h.readingError, rfl⟩, rfl⟩

/-- A whole packet puts the button up. -/
theorem MouseDriver.At.packet (h : d.At 0) :
    (((d.takes upByte).takes upByte).takes upByte).At 0
      ∧ (((d.takes upByte).takes upByte).takes upByte).packet1.lb = false
    := by
  obtain ⟨h₁, hbyte, -⟩ := h.first
  obtain ⟨h₂, hkeep, -⟩ := h₁.second
  obtain ⟨h₃, hlb⟩ := h₂.third
  refine ⟨h₃, ?_⟩
  rw [hlb, hkeep, hbyte]
  decide

/-- The byte after a first byte in error is dropped, and the error with
it. -/
theorem takes_pending (he : d.readingError = true) (hc : d.counter = 1)
    (byte : UInt8) : (d.takes byte).At 2 := by
  unfold MouseDriver.takes
  rcases dispatched_cases d (.good byte)
    with ⟨-, hc', ⟨-, hd⟩ | ⟨hone, -⟩⟩ | ⟨hq, -⟩
  · rw [hd]
    refine ⟨rfl, ?_⟩
    show (d.after (.good byte)).counter = 2
    omega
  · exact absurd hc hone
  · rw [he] at hq
    cases hq

/-- At most five bytes finish the packet the driver is in, and give it
another one with the button up. -/
theorem up_bytes (h : d.Counts) (hlive : ¬d.Dead) :
    ∃ n ≤ 5, ((List.replicate n upByte).foldl MouseDriver.takes d).At 0
      ∧ ((List.replicate n upByte).foldl
        MouseDriver.takes d).packet1.lb = false := by
  obtain ⟨hlo, hhi, hpend⟩ := h.resolve_right hlive
  cases herr : d.readingError with
  | true =>
      have h₂ := takes_pending herr (hpend herr) upByte
      exact ⟨5, by decide, h₂.third.1.packet⟩
  | false =>
      obtain hc | hc | hc : d.counter = 0 ∨ d.counter = 1 ∨ d.counter = 2 :=
        by omega
      · exact ⟨3, by decide, MouseDriver.At.packet ⟨herr, hc⟩⟩
      · have h₂ := (MouseDriver.At.second ⟨herr, hc⟩).1
        exact ⟨5, by decide, h₂.third.1.packet⟩
      · have h₀ := (MouseDriver.At.third ⟨herr, hc⟩).1
        exact ⟨4, by decide, h₀.packet⟩

end

end Lcom.Proj
