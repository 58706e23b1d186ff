/-
`mouse_ih` and the dispatch after it, for any reads at all.

The polling loop ends with the first turn whose status read fails or
finds the output buffer full (`mouseRead`), and what that turn read is
all the driver sees of it (`mouseIh_eq`). From there the dispatch has
three ways to go, decided by whether an error was read or is pending and
by the counter before the byte (`dispatch_skip_iff`,
`dispatch_byte_iff`).

The rest is the frame of the input branches: neither latch changes
without a delivered code or a completed packet (`input_latches`).
-/
import Lcom.Proj.Latches

namespace Lcom.Proj

-- ============================================================= the read

/-- What one call of `mouse_ih` reads: nothing, a byte with a parity or
time-out bit, or a clean byte. -/
inductive MouseRead
  | failed
  | bad (byte : UInt8)
  | good (byte : UInt8)
  deriving DecidableEq, Repr

/-- The turn that ends the polling loop. -/
def mouseRead : List PortReads → Option MouseRead
  | [] => none
  | r :: rest =>
      match r.status with
      | none => some .failed
      | some stat =>
          if stat &&& outBuff ≠ 0 then
            match r.data with
            | none => some .failed
            | some byte =>
                if stat &&& kbcErr = 0 then some (.good byte)
                else some (.bad byte)
          else mouseRead rest

/-- The read went wrong. -/
def MouseRead.isError : MouseRead → Bool
  | .failed => true
  | .bad _ => true
  | .good _ => false

/-- The driver after `mouse_ih`. -/
def MouseDriver.after (d : MouseDriver) : MouseRead → MouseDriver
  | .failed => d.noteError
  | .bad byte => { d with readPacket := byte }.noteError
  | .good byte =>
      if d.readingError then
        { d with readPacket := byte, counter := d.counter + 1 }
      else { d with readPacket := byte }

/-- `mouse_ih` in one equation. -/
theorem mouseIh_eq (d : MouseDriver) (reads : List PortReads) :
    mouseIh d reads = (mouseRead reads).map d.after := by
  induction reads with
  | nil => rfl
  | cons r rest ih =>
      unfold mouseIh mouseRead
      cases r.status with
      | none => rfl
      | some stat =>
          dsimp only
          by_cases hfull : stat &&& outBuff ≠ 0
          · rw [if_pos hfull, if_pos hfull]
            cases r.data with
            | none => rfl
            | some byte =>
                dsimp only
                by_cases herr : stat &&& kbcErr = 0
                · rw [if_pos herr, if_pos herr]
                  rfl
                · rw [if_neg herr, if_neg herr]
                  rfl
          · rw [if_neg hfull, if_neg hfull]
            exact ih

/-- The mouse handler is still polling after these turns: the status
could always be read, and the buffer was always empty. -/
def StillPolling (reads : List PortReads) : Prop :=
  ∀ r ∈ reads, ∃ st, r.status = some st ∧ st &&& outBuff = 0

theorem mouseRead_eq_none {reads : List PortReads} :
    mouseRead reads = none ↔ StillPolling reads := by
  induction reads with
  | nil => simp [mouseRead, StillPolling]
  | cons r rest ih =>
      have hcons : StillPolling (r :: rest)
          ↔ (∃ st, r.status = some st ∧ st &&& outBuff = 0)
            ∧ StillPolling rest := List.forall_mem_cons
      rw [hcons]
      unfold mouseRead
      cases hst : r.status with
      | none => simp
      | some st =>
          dsimp only
          by_cases hfull : st &&& outBuff = 0
          · simp [hfull, ih]
          · rw [if_pos hfull]
            cases r.data with
            | none => simp [hfull]
            | some byte =>
                dsimp only
                split <;> simp [hfull]

-- ========================================================= the dispatch

/-- `mouse_ih` raises the error and counts, or leaves both alone. -/
theorem after_error (d : MouseDriver) (r : MouseRead) :
    ((r.isError || d.readingError) = true
        ∧ (d.after r).readingError = true
        ∧ (d.after r).counter = d.counter + 1)
      ∨ ((r.isError || d.readingError) = false
        ∧ (d.after r).readingError = false
        ∧ (d.after r).counter = d.counter) := by
  cases r with
  | failed => exact .inl ⟨rfl, rfl, rfl⟩
  | bad byte => exact .inl ⟨rfl, rfl, rfl⟩
  | good byte =>
      cases hr : d.readingError with
      | true => simp [MouseRead.isError, MouseDriver.after, hr]
      | false => simp [MouseRead.isError, MouseDriver.after, hr]

/-- The `continue`: an error, unless it is the second byte's. -/
theorem dispatch_skip_iff (d : MouseDriver) (r : MouseRead) :
    (d.after r).dispatch = .skip
      ↔ (r.isError || d.readingError) = true ∧ d.counter ≠ 1 := by
  unfold MouseDriver.dispatch
  rcases after_error d r with ⟨he, hr, hc⟩ | ⟨he, hr, -⟩
  · rw [he, hr, hc]
    by_cases h : d.counter = 1
    · simp [h]
    · have h2 : d.counter + 1 ≠ 2 := by omega
      simp [h, h2]
  · rw [he, hr]
    simp

/-- A byte is handed on where no error was read or is pending. -/
theorem dispatch_byte_iff (d : MouseDriver) (r : MouseRead) :
    (d.after r).dispatch = .byte ↔ (r.isError || d.readingError) = false := by
  unfold MouseDriver.dispatch
  rcases after_error d r with ⟨he, hr, -⟩ | ⟨he, hr, -⟩
  · rw [he, hr]
    by_cases h : (d.after r).counter = 2 <;> simp [h]
  · rw [he, hr]
    simp

/-- The decoded fields and the packet count do not change in
`mouse_ih`. -/
theorem after_packet (d : MouseDriver) (r : MouseRead) :
    (d.after r).packet1 = d.packet1
      ∧ (d.after r).totalPackets = d.totalPackets := by
  cases r with
  | failed => exact ⟨rfl, rfl⟩
  | bad byte => exact ⟨rfl, rfl⟩
  | good byte =>
      unfold MouseDriver.after
      dsimp only
      split <;> exact ⟨rfl, rfl⟩

/-- `print_mouse_packet` drops the byte, or stores it with `is_sync`
set or as it was. -/
theorem printMousePacket_rule {P : MouseDriver → Prop} {d : MouseDriver}
    (drop : P d) (store : ∀ sync, P (storeByte { d with isSync := sync })) :
    P (printMousePacket d) := by
  unfold printMousePacket
  split
  · split
    · exact drop
    · exact store true
  · exact store d.isSync

/-- The third byte decodes a packet and counts it, the others do
neither. -/
theorem storeByte_lb (d : MouseDriver) :
    (storeByte d).totalPackets ≠ d.totalPackets
      ∨ (storeByte d).packet1.lb = d.packet1.lb := by
  unfold storeByte
  split
  · exact .inr rfl
  · split
    · exact .inr rfl
    · split
      · refine .inl ?_
        show (d.totalPackets + 1) % 2 ^ 32 ≠ d.totalPackets
        omega
      · exact .inr rfl

theorem printMousePacket_lb (d : MouseDriver) :
    (printMousePacket d).totalPackets ≠ d.totalPackets
      ∨ (printMousePacket d).packet1.lb = d.packet1.lb :=
  printMousePacket_rule (P := fun d' => d'.totalPackets ≠ d.totalPackets
      ∨ d'.packet1.lb = d.packet1.lb)
    (.inr rfl) fun sync => storeByte_lb { d with isSync := sync }

/-- The button changes only with the packet count. -/
theorem dispatched_lb (d : MouseDriver) :
    d.dispatched.totalPackets ≠ d.totalPackets
      ∨ d.dispatched.packet1.lb = d.packet1.lb := by
  unfold MouseDriver.dispatched
  cases d.dispatch with
  | skip => exact .inr rfl
  | resync => exact .inr rfl
  | byte => exact printMousePacket_lb d

-- ================================================ the input branches

/-- The mouse branch, read by read. -/
theorem mouseBranch_eq_some {m : ModeInfo} {s s₁ : State} {skip : Bool}
    {reads : List PortReads}
    (h : mouseBranch m s reads = some (s₁, skip)) :
    ∃ r, mouseRead reads = some r
      ∧ (skip = true ↔ (s.driver.after r).dispatch = .skip)
      ∧ s₁ = { s with
          driver := (s.driver.after r).dispatched
          mouse := if (s.driver.after r).dispatch = .byte then
              updateMousePosition m s.mouse
                (s.driver.after r).dispatched.packet1.deltaX
                (s.driver.after r).dispatched.packet1.deltaY
            else s.mouse } := by
  unfold mouseBranch at h
  rw [mouseIh_eq, Option.map_map] at h
  obtain ⟨r, hr, h⟩ := Option.map_eq_some_iff.1 h
  refine ⟨r, hr, ?_⟩
  dsimp only [Function.comp] at h
  cases hd : (s.driver.after r).dispatch with
  | skip => rw [hd] at h; cases h; simp
  | resync => rw [hd] at h; cases h; simp
  | byte => rw [hd] at h; cases h; simp

/-- What the input branches can do: the keyboard changes the latch, the
mouse its driver and, if it hands a byte on, the cursor. -/
theorem input_cases {m : ModeInfo} {s s₁ : State} {n : Notification}
    {skip : Bool} (h : input m s n = some (s₁, skip)) :
    (n.mouse = none ∧ skip = false
        ∧ s₁ = { s with
          scancode := (keyboardBranch s n.keyboard).scancode })
      ∨ ∃ reads r, n.mouse = some reads ∧ mouseRead reads = some r
        ∧ (skip = true ↔ (s.driver.after r).dispatch = .skip)
        ∧ s₁ = { s with
          scancode := (keyboardBranch s n.keyboard).scancode
          driver := (s.driver.after r).dispatched
          mouse := if (s.driver.after r).dispatch = .byte then
              updateMousePosition m s.mouse
                (s.driver.after r).dispatched.packet1.deltaX
                (s.driver.after r).dispatched.packet1.deltaY
            else s.mouse } := by
  have hkey : keyboardBranch s n.keyboard
      = { s with scancode := (keyboardBranch s n.keyboard).scancode } := by
    cases n.keyboard <;> rfl
  unfold input at h
  rw [hkey] at h
  cases hm : n.mouse with
  | none =>
      rw [hm] at h
      cases h
      exact .inl ⟨rfl, rfl, rfl⟩
  | some reads =>
      rw [hm] at h
      obtain ⟨r, hr, hskip, hs⟩ := mouseBranch_eq_some h
      exact .inr ⟨reads, r, rfl, hr, hskip, hs⟩

/-- Neither stops the loop. -/
theorem input_condition {m : ModeInfo} {s s₁ : State} {n : Notification}
    {skip : Bool} (h : input m s n = some (s₁, skip)) :
    s₁.condition = s.condition := by
  rcases input_cases h with ⟨-, -, rfl⟩ | ⟨reads, r, -, -, -, rfl⟩
  · rfl
  · rfl

/-- A mouse branch whose polling ends comes back. -/
theorem input_returns {m : ModeInfo} {s : State} {n : Notification}
    {reads : List PortReads} {r : MouseRead} (hm : n.mouse = some reads)
    (hr : mouseRead reads = some r) : ∃ q, input m s n = some q := by
  unfold input mouseBranch
  rw [hm]
  dsimp only
  rw [mouseIh_eq, hr]
  exact ⟨_, rfl⟩

/-- The input branches do not come back only while the mouse handler is
polling. -/
theorem input_eq_none {m : ModeInfo} {s : State} {n : Notification} :
    input m s n = none
      ↔ ∃ reads, n.mouse = some reads ∧ StillPolling reads := by
  unfold input mouseBranch
  cases hm : n.mouse with
  | none => simp
  | some reads =>
      dsimp only
      rw [mouseIh_eq, Option.map_eq_none_iff, Option.map_eq_none_iff,
        mouseRead_eq_none]
      simp

/-- `kbc_ih` stores a byte or leaves the latch. -/
theorem kbcIh_eq (scancode : UInt8) (r : KbcReads) :
    kbcIh scancode r = r.stores.getD scancode := by
  unfold kbcIh KbcReads.stores
  dsimp only
  split
  · cases r.reads.data <;> rfl
  · rfl

theorem keyboardBranch_quiet {s : State} {n : Notification}
    (h : n.deliversKey = false) : keyboardBranch s n.keyboard = s := by
  unfold Notification.deliversKey at h
  cases hk : n.keyboard with
  | none => rfl
  | some r =>
      rw [hk] at h
      have hnone : r.stores = none := by
        simpa using h
      show { s with scancode := kbcIh s.scancode r } = s
      rw [kbcIh_eq, hnone]
      rfl

/-- What the input branches leave alone. -/
theorem input_latches {m : ModeInfo} {s s₁ : State} {n : Notification}
    {skip : Bool} (h : input m s n = some (s₁, skip)) :
    s₁.prevState = s.prevState
      ∧ (n.deliversKey = false → s₁.scancode = s.scancode)
      ∧ (completesPacket m s n = false → s₁.lb = s.lb) := by
  have hcomp : completesPacket m s n = false →
      s₁.driver.totalPackets = s.driver.totalPackets := by
    unfold completesPacket
    rw [h]
    simp
  have hcode : n.deliversKey = false →
      (keyboardBranch s n.keyboard).scancode = s.scancode :=
    fun hq => by rw [keyboardBranch_quiet hq]
  rcases input_cases h with ⟨-, -, rfl⟩ | ⟨reads, r, -, -, -, rfl⟩
  · exact ⟨rfl, hcode, fun _ => rfl⟩
  · refine ⟨rfl, hcode, fun hq => ?_⟩
    have hlb := dispatched_lb (s.driver.after r)
    rw [(after_packet s.driver r).1, (after_packet s.driver r).2] at hlb
    exact hlb.resolve_left fun hne => hne (hcomp hq)

-- ============================================================= the tick

/-- The state of the `switch`, computed. -/
theorem tickState_eq_some {m : ModeInfo} {s t : State} {n : Notification} :
    tickState m s n = some t ↔ TickState m s n t := by
  unfold tickState TickState
  constructor
  · intro h
    split at h
    · next s₁ hin =>
        split at h
        · next htim =>
            cases h
            exact ⟨s₁, hin, htim, rfl⟩
        · cases h
    · cases h
  · intro h
    obtain ⟨s₁, hin, htim, rfl⟩ := h
    rw [hin]
    simp [htim]

/-- Only a running loop steps. -/
theorem step_condition {m : ModeInfo} {s s' : State} {n : Notification}
    (h : step m s n = some s') : s.condition = true := by
  unfold step at h
  cases hc : s.condition with
  | true => rfl
  | false => rw [hc] at h; cases h

/-- One turn of the loop: the input branches, then the tick if there is
one. -/
theorem step_cases {m : ModeInfo} {s s' : State} {n : Notification}
    (h : step m s n = some s') :
    (∃ t, TickState m s n t ∧ tickState m s n = some t
        ∧ stateTick m t n.rands = some s')
      ∨ (tickState m s n = none
        ∧ ∃ skip, input m s n = some (s', skip)
          ∧ (n.timer && !skip) = false) := by
  unfold step at h
  cases hc : s.condition with
  | false => rw [hc] at h; cases h
  | true =>
      rw [hc, if_pos rfl] at h
      cases hin : input m s n with
      | none => rw [hin] at h; cases h
      | some p =>
          obtain ⟨s₁, skip⟩ := p
          rw [hin] at h
          dsimp only at h
          cases ht : n.timer && !skip with
          | true =>
              rw [ht, if_pos rfl] at h
              rw [Bool.and_eq_true, Bool.not_eq_true'] at ht
              obtain ⟨htim, rfl⟩ := ht
              have hts : TickState m s n (timerIntHandler s₁) :=
                ⟨s₁, hin, htim, rfl⟩
              exact .inl ⟨_, hts, tickState_eq_some.2 hts, h⟩
          | false =>
              rw [ht, if_neg (by decide)] at h
              cases h
              refine .inr ⟨?_, skip, rfl, ht⟩
              unfold tickState
              rw [hin]
              cases skip with
              | true => rfl
              | false => simp at ht; simp [ht]

end Lcom.Proj
