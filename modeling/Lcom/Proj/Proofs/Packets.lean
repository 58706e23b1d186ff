/-
Where the mouse driver stands between two packets.

An interrupt whose byte is in error, or that finds an error pending,
only counts (`interrupt_noisy`); every other one hands its byte on
(`interrupt_quiet`). At a packet boundary that leaves five standings of
the driver (`Standing`), and a packet moves it from one to another by
the errors of its bytes alone (`Standing.next`, `course`):

  `fresh`    nothing has been synchronised on yet;
  `aligned`  the next byte is stored as the first of its packet;
  `dropped`  the first packet lost its first byte, and its last one was
             dropped as unsynchronised with the counter left at 2;
  `lagging`  synchronised, but two bytes ahead: the first byte of every
             packet is taken for a third one;
  `stuck`    an error raised the counter past 2, the one value at which
             the dispatch clears it.

An error in a third byte always ends in `stuck`, which nothing leaves;
an error in another byte keeps the driver aligned but lets the third
byte complete a packet with stale bytes.
-/
import Lcom.Proj.Stream

namespace Lcom.Proj

open Machine

-- ===================================================== one interrupt

/-- The driver after `mouse_ih` has read a byte. -/
def MouseDriver.received (d : MouseDriver) (b : ByteRead) : MouseDriver :=
  if b.clean && !d.readingError then { d with readPacket := b.byte }
  else { d with readPacket := b.byte, readingError := true
                counter := d.counter + 1 }

/-- Polls that find the buffer empty change nothing. -/
theorem mouseIh_waits (d : MouseDriver) (r : List PortReads) :
    ∀ waits : List { st : UInt8 // st &&& outBuff = 0 },
      mouseIh d (waits.map (fun st =>
        { status := some st.val, data := none }) ++ r) = mouseIh d r := by
  intro waits
  induction waits with
  | nil => rfl
  | cons st waits ih =>
      rw [List.map_cons, List.cons_append, mouseIh]
      simp only [st.property, ne_eq, not_true_eq_false, if_false]
      exact ih

theorem mouseIh_reads (d : MouseDriver) (b : ByteRead) :
    mouseIh d b.reads = some (d.received b) := by
  unfold ByteRead.reads
  rw [mouseIh_waits]
  unfold mouseIh MouseDriver.received
  dsimp only
  rw [if_pos b.full]
  by_cases hc : b.status &&& kbcErr = 0
  · have hclean : b.clean = true := decide_eq_true hc
    rw [if_pos hc, hclean]
    cases hr : d.readingError <;> rfl
  · have hclean : b.clean = false := decide_eq_false hc
    rw [if_neg hc, hclean]
    rfl

/-- Publishing is visible: the counter always changes. -/
theorem published_ne (n : Nat) : (n + 1) % 2 ^ 32 ≠ n := by omega

/-- An interrupt in error, or with an error pending, counts its byte.
The error stays pending unless the count is two. -/
theorem interrupt_noisy {d : MouseDriver} {b : ByteRead}
    (h : b.clean = false ∨ d.readingError = true) :
    interrupt d b = some { d with
        readPacket := b.byte
        readingError := decide (d.counter + 1 ≠ 2)
        counter := d.counter + 1 }
      ∧ counterAtDispatch d b = some (d.counter + 1) := by
  have hq : (b.clean && !d.readingError) = false := by
    rcases h with h | h <;> simp [h]
  have hr : d.received b = { d with
      readPacket := b.byte, readingError := true
      counter := d.counter + 1 } := by
    unfold MouseDriver.received
    rw [hq, if_neg (by decide)]
  unfold interrupt counterAtDispatch
  rw [mouseIh_reads, hr]
  refine ⟨?_, rfl⟩
  simp only [Option.map_some, Option.some.injEq]
  unfold MouseDriver.dispatched MouseDriver.dispatch
  by_cases h2 : d.counter + 1 = 2
  · simp [h2]
  · simp [h2]

/-- Any other interrupt hands its byte on. -/
theorem interrupt_quiet {d : MouseDriver} {b : ByteRead}
    (hc : b.clean = true) (hr : d.readingError = false) :
    interrupt d b
        = some (printMousePacket { d with readPacket := b.byte })
      ∧ counterAtDispatch d b = some d.counter := by
  have hrec : d.received b = { d with readPacket := b.byte } := by
    unfold MouseDriver.received
    rw [hc, hr]
    rfl
  unfold interrupt counterAtDispatch
  rw [mouseIh_reads, hrec]
  refine ⟨?_, rfl⟩
  unfold MouseDriver.dispatched MouseDriver.dispatch
  simp [hr]

-- ====================================================== the standings

/-- Where the driver stands at a packet boundary. -/
inductive Standing
  | fresh | aligned | dropped | lagging | stuck
  deriving DecidableEq, Repr

/-- Bit 3, the synchronisation mark, is set in the third byte. -/
def SentPacket.thirdMarked (p : SentPacket) : Bool :=
  decide (p.third.byte &&& 0x08 ≠ 0)

/-- The standing after a packet. -/
def Standing.next : Standing → SentPacket → Standing
  | .fresh, p =>
      if p.third.clean then
        if p.first.clean || p.thirdMarked then .aligned else .dropped
      else .stuck
  | .aligned, p => if p.third.clean then .aligned else .stuck
  | .dropped, p => if p.first.clean then .lagging else .stuck
  | .lagging, p => if p.first.clean then .lagging else .stuck
  | .stuck, _ => .stuck

/-- What a standing says of the driver. -/
def Standing.At : Standing → MouseDriver → Prop
  | .fresh, d => d.counter = 0 ∧ d.readingError = false ∧ d.isSync = false
  | .aligned, d => d.counter = 0 ∧ d.readingError = false ∧ d.isSync = true
  | .dropped, d => d.counter = 2 ∧ d.readingError = false ∧ d.isSync = false
  | .lagging, d => d.counter = 2 ∧ d.readingError = false ∧ d.isSync = true
  | .stuck, d => 3 ≤ d.counter ∧ d.readingError = true

/-- The packet is intact at this standing. -/
def Standing.intact : Standing → SentPacket → Prop
  | .fresh, p => p.clean = true ∨ p.third.clean = false
      ∨ (p.first.clean = false ∧ p.thirdMarked = false)
  | .aligned, p => p.clean = true ∨ p.third.clean = false
  | .dropped, p => p.first.clean = false
  | .lagging, p => p.first.clean = false
  | .stuck, _ => True

/-- The packet is delivered at this standing. -/
def Standing.delivers : Standing → SentPacket → Prop
  | .fresh, p => p.third.clean = true
  | .aligned, p => p.third.clean = true
  | .dropped, p => p.first.clean = true ∧ p.clean = false
  | .lagging, p => p.first.clean = true ∧ p.clean = false
  | .stuck, _ => False

-- ================================================= byte by byte

/-- One interrupt, seen from the counter: what the dispatch tests and
what it leaves behind. -/
structure Moves (d : MouseDriver) (b : ByteRead) (d' : MouseDriver)
    (tested counter : Int) (err sync : Bool) : Prop where
  run : interrupt d b = some d'
  dispatch : counterAtDispatch d b = some tested
  counter : d'.counter = counter
  readingError : d'.readingError = err
  isSync : d'.isSync = sync

/-- A noisy byte counts, publishes nothing and stores nothing. -/
theorem moves_noisy {d : MouseDriver} {b : ByteRead}
    (h : b.clean = false ∨ d.readingError = true) :
    ∃ d', Moves d b d' (d.counter + 1) (d.counter + 1)
        (decide (d.counter + 1 ≠ 2)) d.isSync
      ∧ d'.totalPackets = d.totalPackets ∧ d'.packet1 = d.packet1 := by
  obtain ⟨hrun, hdis⟩ := interrupt_noisy h
  exact ⟨_, ⟨hrun, hdis, rfl, rfl, rfl⟩, rfl, rfl⟩

/-- A quiet byte that the synchronisation lets through is stored at the
counter. -/
theorem interrupt_stores {d : MouseDriver} {b : ByteRead}
    (hb : b.clean = true) (hr : d.readingError = false)
    (hs : d.isSync = true ∨ b.byte &&& 0x08 ≠ 0) :
    interrupt d b
        = some (storeByte { d with readPacket := b.byte, isSync := true })
      ∧ counterAtDispatch d b = some d.counter := by
  obtain ⟨hrun, hdis⟩ := interrupt_quiet hb hr
  refine ⟨?_, hdis⟩
  rw [hrun]
  unfold printMousePacket
  dsimp only
  cases hsync : d.isSync with
  | true => rfl
  | false =>
      rw [hsync] at hs
      have hmark : b.byte &&& 0x08 ≠ 0 := hs.resolve_left (by decide)
      rw [if_pos rfl, if_neg hmark]

/-- A first byte, stored. -/
theorem moves_first {d : MouseDriver} {b : ByteRead} (hc : d.counter = 0)
    (hb : b.clean = true) (hr : d.readingError = false)
    (hs : d.isSync = true ∨ b.byte &&& 0x08 ≠ 0) :
    ∃ d', Moves d b d' 0 1 false true
      ∧ d'.totalPackets = d.totalPackets ∧ d'.packet1.byte0 = b.byte := by
  obtain ⟨hrun, hdis⟩ := interrupt_stores hb hr hs
  rw [hc] at hdis
  refine ⟨_, ⟨hrun, hdis, ?_, ?_, ?_⟩, ?_, ?_⟩ <;> simp [storeByte, hc, hr]

/-- From count one every byte leads to count two with no error pending:
a quiet one is stored, a noisy one resynchronises. -/
theorem moves_second {d : MouseDriver} (b : ByteRead)
    (hc : d.counter = 1) (hs : d.readingError = true ∨ d.isSync = true) :
    ∃ d' t, Moves d b d' t 2 false d.isSync ∧ (t = 1 ∨ t = 2)
      ∧ d'.totalPackets = d.totalPackets
      ∧ d'.packet1.byte0 = d.packet1.byte0
      ∧ (b.clean = true → d.readingError = false →
        d'.packet1.byte1 = b.byte) := by
  by_cases hq : b.clean = true ∧ d.readingError = false
  · obtain ⟨hb, hr⟩ := hq
    have hsync : d.isSync = true := by
      rcases hs with hs | hs
      · rw [hr] at hs
        cases hs
      · exact hs
    obtain ⟨hrun, hdis⟩ := interrupt_stores hb hr (.inl hsync)
    rw [hc] at hdis
    refine ⟨_, 1, ⟨hrun, hdis, ?_, ?_, ?_⟩, .inl rfl, ?_, ?_, ?_⟩ <;>
      simp [storeByte, hc, hr, hsync]
  · have hn : b.clean = false ∨ d.readingError = true := by
      cases hb : b.clean with
      | false => exact .inl rfl
      | true => exact .inr (by
          cases hr : d.readingError with
          | true => rfl
          | false => exact absurd ⟨hb, hr⟩ hq)
    obtain ⟨d', hm, ht, hp⟩ := moves_noisy hn
    rw [hc] at hm
    refine ⟨d', 2, hm, .inr rfl, ht, by rw [hp], fun hb hr => ?_⟩
    exact absurd ⟨hb, hr⟩ hq

/-- From count two a quiet byte that gets through publishes. -/
theorem moves_publish {d : MouseDriver} {b : ByteRead}
    (hc : d.counter = 2) (hb : b.clean = true)
    (hr : d.readingError = false)
    (hs : d.isSync = true ∨ b.byte &&& 0x08 ≠ 0) :
    ∃ d', Moves d b d' 2 0 false true
      ∧ d'.totalPackets = (d.totalPackets + 1) % 2 ^ 32
      ∧ d'.packet1.bytes = (d.packet1.byte0, d.packet1.byte1, b.byte) := by
  obtain ⟨hrun, hdis⟩ := interrupt_stores hb hr hs
  rw [hc] at hdis
  refine ⟨_, ⟨hrun, hdis, ?_, ?_, ?_⟩, ?_, ?_⟩ <;>
    simp [storeByte, hc, hr, Packet.bytes, Packet.decode]

/-- From count two an unsynchronised, unmarked byte is dropped and the
count stays. -/
theorem moves_drop {d : MouseDriver} {b : ByteRead} (hc : d.counter = 2)
    (hb : b.clean = true) (hr : d.readingError = false)
    (hs : d.isSync = false) (hm : b.byte &&& 0x08 = 0) :
    ∃ d', Moves d b d' 2 2 false false
      ∧ d'.totalPackets = d.totalPackets := by
  obtain ⟨hrun, hdis⟩ := interrupt_quiet hb hr
  rw [hc] at hdis
  refine ⟨_, ⟨hrun, hdis, ?_, ?_, ?_⟩, ?_⟩ <;>
    simp [printMousePacket, hs, hm, hc, hr]

-- ============================================== packet by packet

/-- The first two bytes of `p`, received from count zero: count two,
nothing pending, nothing published. What was read cleanly is stored. -/
structure ReachesTwo (d : MouseDriver) (p : SentPacket)
    (d₁ d₂ : MouseDriver) : Prop where
  first : interrupt d p.first = some d₁
  second : interrupt d₁ p.second = some d₂
  quiet₁ : d₁.totalPackets = d.totalPackets
  quiet₂ : d₂.totalPackets = d₁.totalPackets
  inRange₁ : InRange (counterAtDispatch d p.first)
  inRange₂ : InRange (counterAtDispatch d₁ p.second)
  counter : d₂.counter = 2
  readingError : d₂.readingError = false
  isSync : d₂.isSync = (p.first.clean || d.isSync)
  byte0 : p.first.clean = true → d₂.packet1.byte0 = p.first.byte
  byte1 : p.first.clean = true → p.second.clean = true →
    d₂.packet1.byte1 = p.second.byte

/-- A byte dispatched at one or two, as the driver's second byte is. -/
theorem Moves.inRange_second {d d' : MouseDriver} {b : ByteRead}
    {t c : Int} {err sync : Bool} (h : Moves d b d' t c err sync)
    (ht : t = 1 ∨ t = 2) : InRange (counterAtDispatch d b) := by
  rw [h.dispatch]
  rcases ht with rfl | rfl
  · exact .inr (.inl rfl)
  · exact .inr (.inr rfl)

theorem reachesTwo {d : MouseDriver} (p : SentPacket)
    (hc : d.counter = 0) (hr : d.readingError = false) :
    ∃ d₁ d₂, ReachesTwo d p d₁ d₂ := by
  cases hf : p.first.clean with
  | true =>
      obtain ⟨d₁, hm, ht, hb0⟩ := moves_first hc hf hr (.inr p.marked)
      obtain ⟨d₂, t, hm', htest, ht', hb0', hb1⟩ :=
        moves_second p.second hm.counter (.inr hm.isSync)
      refine ⟨d₁, d₂, hm.run, hm'.run, ht, ht', .inl hm.dispatch,
        hm'.inRange_second htest, hm'.counter, hm'.readingError, ?_,
        fun _ => hb0'.trans hb0, fun _ hs => hb1 hs hm.readingError⟩
      rw [hf]
      exact hm'.isSync.trans hm.isSync
  | false =>
      obtain ⟨d₁, hm, ht, -⟩ := moves_noisy (d := d) (.inl hf)
      rw [hc] at hm
      obtain ⟨d₂, t, hm', htest, ht', -, -⟩ :=
        moves_second p.second hm.counter (.inl hm.readingError)
      refine ⟨d₁, d₂, hm.run, hm'.run, ht, ht', .inr (.inl hm.dispatch),
        hm'.inRange_second htest, hm'.counter, hm'.readingError, ?_, ?_, ?_⟩
      · rw [hf]
        exact hm'.isSync.trans hm.isSync
      · intro h
        rw [hf] at h
        cases h
      · intro h
        rw [hf] at h
        cases h

/-- A packet that starts at count zero. Its third byte either raises
the count to three, or completes a packet, or is dropped. -/
theorem course_zero {d : MouseDriver} (p : SentPacket)
    (hc : d.counter = 0) (hr : d.readingError = false) :
    ∃ d₁ d₂ d₃, Sends d p d₁ d₂ d₃
      ∧ d₁.totalPackets = d.totalPackets
      ∧ d₂.totalPackets = d₁.totalPackets
      ∧ InRange (counterAtDispatch d p.first)
      ∧ InRange (counterAtDispatch d₁ p.second)
      ∧ ((p.third.clean = false ∧ Standing.stuck.At d₃
          ∧ counterAtDispatch d₂ p.third = some 3
          ∧ d₃.totalPackets = d₂.totalPackets)
        ∨ (p.third.clean = true ∧ counterAtDispatch d₂ p.third = some 2
          ∧ (((p.first.clean || d.isSync || p.thirdMarked) = true
              ∧ Standing.aligned.At d₃
              ∧ d₃.totalPackets = (d₂.totalPackets + 1) % 2 ^ 32
              ∧ (p.clean = true → d₃.packet1.bytes = p.bytes))
            ∨ ((p.first.clean || d.isSync || p.thirdMarked) = false
              ∧ Standing.dropped.At d₃
              ∧ d₃.totalPackets = d₂.totalPackets)))) := by
  obtain ⟨d₁, d₂, h⟩ := reachesTwo p hc hr
  cases hthird : p.third.clean with
  | false =>
      obtain ⟨d₃, hm, ht, -⟩ := moves_noisy (d := d₂) (.inl hthird)
      rw [h.counter] at hm
      refine ⟨d₁, d₂, d₃, ⟨h.first, h.second, hm.run⟩, h.quiet₁, h.quiet₂,
        h.inRange₁, h.inRange₂,
        .inl ⟨rfl, ⟨?_, hm.readingError⟩, hm.dispatch, ht⟩⟩
      rw [hm.counter]
      decide
  | true =>
      cases hthrough : (p.first.clean || d.isSync || p.thirdMarked) with
      | true =>
          have hs : d₂.isSync = true ∨ p.third.byte &&& 0x08 ≠ 0 := by
            rw [Bool.or_eq_true, ← h.isSync] at hthrough
            exact hthrough.imp_right fun h => of_decide_eq_true h
          obtain ⟨d₃, hm, ht, hbytes⟩ :=
            moves_publish h.counter hthird h.readingError hs
          refine ⟨d₁, d₂, d₃, ⟨h.first, h.second, hm.run⟩, h.quiet₁,
            h.quiet₂, h.inRange₁, h.inRange₂,
            .inr ⟨rfl, hm.dispatch, .inl ⟨rfl, ?_, ht, ?_⟩⟩⟩
          · exact ⟨hm.counter, hm.readingError, hm.isSync⟩
          · intro hclean
            simp only [SentPacket.clean, Bool.and_eq_true] at hclean
            rw [hbytes, h.byte0 hclean.1.1, h.byte1 hclean.1.1 hclean.1.2]
            rfl
      | false =>
          rw [Bool.or_eq_false_iff, ← h.isSync] at hthrough
          have hmark : p.third.byte &&& 0x08 = 0 :=
            not_not.1 (of_decide_eq_false hthrough.2)
          obtain ⟨d₃, hm, ht⟩ :=
            moves_drop h.counter hthird h.readingError hthrough.1 hmark
          exact ⟨d₁, d₂, d₃, ⟨h.first, h.second, hm.run⟩, h.quiet₁,
            h.quiet₂, h.inRange₁, h.inRange₂,
            .inr ⟨rfl, hm.dispatch, .inr ⟨rfl,
              ⟨hm.counter, hm.readingError, hm.isSync⟩, ht⟩⟩⟩

/-- From count three on every byte only counts. -/
theorem moves_stuck {d : MouseDriver} (b : ByteRead)
    (h : Standing.stuck.At d) :
    ∃ d', interrupt d b = some d' ∧ Standing.stuck.At d'
      ∧ ¬InRange (counterAtDispatch d b)
      ∧ d'.totalPackets = d.totalPackets := by
  obtain ⟨hc, hr⟩ := h
  obtain ⟨d', hm, ht, -⟩ := moves_noisy (d := d) (b := b) (.inr hr)
  have hne : d.counter + 1 ≠ 2 := by omega
  refine ⟨d', hm.run, ⟨?_, ?_⟩, ?_, ht⟩
  · rw [hm.counter]
    omega
  · rw [hm.readingError]
    exact decide_eq_true hne
  · rw [hm.dispatch]
    unfold InRange
    simp only [Option.some.injEq]
    omega

/-- A stuck driver stays stuck and publishes nothing. -/
theorem course_stuck {d : MouseDriver} (p : SentPacket)
    (h : Standing.stuck.At d) :
    ∃ d₁ d₂ d₃, Sends d p d₁ d₂ d₃ ∧ Standing.stuck.At d₃
      ∧ d₁.totalPackets = d.totalPackets
      ∧ d₂.totalPackets = d₁.totalPackets
      ∧ d₃.totalPackets = d₂.totalPackets
      ∧ ¬InRange (counterAtDispatch d p.first) := by
  obtain ⟨d₁, hrun₁, h₁, hout, ht₁⟩ := moves_stuck p.first h
  obtain ⟨d₂, hrun₂, h₂, -, ht₂⟩ := moves_stuck p.second h₁
  obtain ⟨d₃, hrun₃, h₃, -, ht₃⟩ := moves_stuck p.third h₂
  exact ⟨d₁, d₂, d₃, ⟨hrun₁, hrun₂, hrun₃⟩, h₃, ht₁, ht₂, ht₃, hout⟩

/-- A byte that opens a packet of a driver in step, whatever its
status. -/
theorem moves_opening {d : MouseDriver} (b : ByteRead) (hc : d.counter = 0)
    (hr : d.readingError = false) (hsync : d.isSync = true) :
    ∃ d', interrupt d b = some d' ∧ InRange (counterAtDispatch d b)
      ∧ d'.counter = 1 ∧ d'.isSync = true
      ∧ d'.totalPackets = d.totalPackets := by
  cases hb : b.clean with
  | true =>
      obtain ⟨d', hm, ht, -⟩ := moves_first hc hb hr (.inl hsync)
      exact ⟨d', hm.run, .inl hm.dispatch, hm.counter, hm.isSync, ht⟩
  | false =>
      obtain ⟨d', hm, ht, -⟩ := moves_noisy (d := d) (.inl hb)
      rw [hc] at hm
      exact ⟨d', hm.run, .inr (.inl hm.dispatch), hm.counter,
        hm.isSync.trans hsync, ht⟩

/-- A packet that starts at count two: its first byte raises the count,
or is taken for a third byte and the driver lags. -/
theorem course_two {d : MouseDriver} (p : SentPacket)
    (hc : d.counter = 2) (hr : d.readingError = false) :
    ∃ d₁ d₂ d₃, Sends d p d₁ d₂ d₃
      ∧ d₂.totalPackets = d₁.totalPackets
      ∧ d₃.totalPackets = d₂.totalPackets
      ∧ ((p.first.clean = false ∧ Standing.stuck.At d₃
          ∧ counterAtDispatch d p.first = some 3
          ∧ d₁.totalPackets = d.totalPackets)
        ∨ (p.first.clean = true ∧ Standing.lagging.At d₃
          ∧ d₁.totalPackets = (d.totalPackets + 1) % 2 ^ 32
          ∧ InRange (counterAtDispatch d p.first)
          ∧ InRange (counterAtDispatch d₁ p.second)
          ∧ InRange (counterAtDispatch d₂ p.third))) := by
  cases hf : p.first.clean with
  | false =>
      obtain ⟨d₁, hm, ht, -⟩ := moves_noisy (d := d) (.inl hf)
      rw [hc] at hm
      have h₁ : Standing.stuck.At d₁ := by
        refine ⟨?_, hm.readingError⟩
        rw [hm.counter]
        decide
      obtain ⟨d₂, hrun₂, h₂, -, ht₂⟩ := moves_stuck p.second h₁
      obtain ⟨d₃, hrun₃, h₃, -, ht₃⟩ := moves_stuck p.third h₂
      exact ⟨d₁, d₂, d₃, ⟨hm.run, hrun₂, hrun₃⟩, ht₂, ht₃,
        .inl ⟨rfl, h₃, hm.dispatch, ht⟩⟩
  | true =>
      obtain ⟨d₁, hm, ht, -⟩ := moves_publish hc hf hr (.inr p.marked)
      obtain ⟨d₂, hrun₂, hin₂, hc₂, hs₂, ht₂⟩ :=
        moves_opening p.second hm.counter hm.readingError hm.isSync
      obtain ⟨d₃, t, hm₃, htest, ht₃, -, -⟩ :=
        moves_second p.third hc₂ (.inr hs₂)
      refine ⟨d₁, d₂, d₃, ⟨hm.run, hrun₂, hm₃.run⟩, ht₂, ht₃,
        .inr ⟨rfl, ?_, ht, .inr (.inr hm.dispatch), hin₂,
          hm₃.inRange_second htest⟩⟩
      exact ⟨hm₃.counter, hm₃.readingError, hm₃.isSync.trans hs₂⟩

end Lcom.Proj
