/-
`mouse_test_remote` against a mouse that sends three bytes for each
request and then nothing.

The loop over the bytes of a packet waits for three calls of the handler
that end without the `continue`. A byte read in error, or while an error
is pending, ends in the `continue` unless it is the second one; so an
error in the first or the third byte leaves the loop one byte short, and
it polls for good (`readPacket_faulty`). An error in the second byte goes
unnoticed: the packet is printed with the second byte of the packet
before (`readPacket_served`).

The outer loop is an induction over the requests. The test returns
exactly if the ends of all packets are read without error
(`mouseTestRemote_returns_iff`), and what it has printed then is known
byte by byte (`mouseTestRemote_prints`).
-/
import Lcom.Lab4.Tests
import Lcom.Proj.Proofs.Recovery
import Lcom.Proj.Proofs.Decode

namespace Lcom.Lab4

open Machine Proj

-- ========================================================== the session

/-- A packet of three bytes. -/
def ofBytes (byte₀ byte₁ byte₂ : UInt8) : Packet :=
  Packet.decode { Packet.zero with
    byte0 := byte₀, byte1 := byte₁, byte2 := byte₂ }

/-- The three reads of a packet. -/
def packetReads (p : SentPacket) : List (List PortReads) :=
  [p.first.reads, p.second.reads, p.third.reads]

/-- A request that is answered with a packet. -/
structure Reply where
  request : List Turn
  packet : SentPacket

/-- The round of a request and its packet: after the third byte the mouse
sends nothing. -/
def Reply.round (r : Reply) : Round :=
  { request := r.request, reads := packetReads r.packet }

/-- The first and the last byte are read without error. -/
def endsClean (p : SentPacket) : Bool := p.first.clean && p.third.clean

/-- The packets as the driver decodes them: a second byte in error is
taken from the packet before. -/
def received (stale : UInt8) : List SentPacket → List Packet
  | [] => []
  | p :: ps =>
      let byte₁ := if p.second.clean then p.second.byte else stale
      ofBytes p.first.byte byte₁ p.third.byte :: received byte₁ ps

-- ============================================================= one byte

section

variable {d : MouseDriver} {b : ByteRead}

/-- A byte without error is handed on. -/
theorem handed_on (hc : b.clean = true) (he : d.readingError = false)
    {d' : MouseDriver}
    (hd : printMousePacket { d with readPacket := b.byte } = d') :
    mouseIh d b.reads = some { d with readPacket := b.byte }
      ∧ MouseDriver.dispatch { d with readPacket := b.byte } = .byte
      ∧ MouseDriver.dispatched { d with readPacket := b.byte } = d' := by
  have hrec : d.received b = { d with readPacket := b.byte } := by
    unfold MouseDriver.received
    rw [hc, he]
    rfl
  have hdis : MouseDriver.dispatch { d with readPacket := b.byte }
      = .byte := by
    unfold MouseDriver.dispatch
    simp [he]
  refine ⟨by rw [mouseIh_reads, hrec], hdis, ?_⟩
  unfold MouseDriver.dispatched
  rw [hdis]
  exact hd

/-- Nothing is printed at the first byte of a packet, -/
theorem printed_first (h : d.counter = 0) (byte : UInt8) :
    printed { d with readPacket := byte } = none := by
  unfold printed
  simp [h]

/-- nor at the second, -/
theorem printed_second (d : MouseDriver) (byte₀ byte₁ : UInt8) :
    printed { d.first byte₀ with readPacket := byte₁ } = none := by
  unfold printed MouseDriver.first
  simp

/-- and the packet at the third. -/
theorem printed_third (h₂ : d.counter = 2) (hs : d.isSync = true)
    (byte : UInt8) :
    printMousePacket { d with readPacket := byte } = d.third byte
      ∧ printed { d with readPacket := byte }
        = some (ofBytes d.packet1.byte0 d.packet1.byte1 byte) := by
  have hprint : printMousePacket { d with readPacket := byte }
      = d.third byte := by
    unfold printMousePacket storeByte MouseDriver.third
    simp [hs, h₂]
  have hpacket : (d.third byte).packet1
      = ofBytes d.packet1.byte0 d.packet1.byte1 byte := rfl
  refine ⟨hprint, ?_⟩
  unfold printed
  rw [hprint, hpacket]
  simp [hs, h₂]

end

section

variable {count : Nat} {d : MouseDriver} {b : ByteRead}
  (rest : List (List PortReads))

/-- A byte without error is handed on, and counted. -/
theorem readPacket_byte (hcount : count ≠ 3) (hc : b.clean = true)
    (he : d.readingError = false) {d' : MouseDriver}
    (hd : printMousePacket { d with readPacket := b.byte } = d') :
    readPacket count d (b.reads :: rest)
      = ⟨(printed { d with readPacket := b.byte }).toList
          ++ (readPacket (count + 1) d' rest).trace,
        (readPacket (count + 1) d' rest).result⟩ := by
  obtain ⟨hread, hdis, hdone⟩ := handed_on hc he hd
  rw [readPacket, if_pos hcount, hread]
  dsimp only
  rw [hdis, hdone]

/-- The driver after a byte in error. -/
def missed (d : MouseDriver) (byte : UInt8) : MouseDriver :=
  { d with readPacket := byte, readingError := decide (d.counter + 1 ≠ 2)
           counter := d.counter + 1 }

/-- A byte in error is counted only if it is the second. -/
theorem readPacket_error (hcount : count ≠ 3)
    (h : b.clean = false ∨ d.readingError = true) :
    readPacket count d (b.reads :: rest)
      = readPacket (if d.counter = 1 then count + 1 else count)
          (missed d b.byte) rest := by
  have hq : (b.clean && !d.readingError) = false := by
    rcases h with h | h <;> simp [h]
  have hrec : d.received b = { d with
      readPacket := b.byte, readingError := true
      counter := d.counter + 1 } := by
    unfold MouseDriver.received
    rw [hq, if_neg (by decide)]
  rw [readPacket, if_pos hcount, mouseIh_reads, hrec]
  unfold MouseDriver.dispatched MouseDriver.dispatch missed
  by_cases hone : d.counter = 1
  · simp [hone]
  · have htwo : d.counter + 1 ≠ 2 := by omega
    simp [hone, htwo]

end

-- =========================================================== one packet

section

variable {d : MouseDriver} {p : SentPacket}

theorem readPacket_done (d : MouseDriver) : readPacket 3 d [] = .pure d := rfl

theorem readPacket_waits {count : Nat} (h : count ≠ 3) (d : MouseDriver) :
    (readPacket count d []).result = none := by
  unfold readPacket
  rw [if_pos h]

/-- The first byte of a packet, at a boundary. -/
theorem readPacket_first (hd : Aligned d) (hc : p.first.clean = true)
    (rest : List (List PortReads)) :
    readPacket 0 d (p.first.reads :: rest)
      = readPacket 1 (d.first p.first.byte) rest := by
  have hmark : marked p.first.byte = true := decide_eq_true p.marked
  rw [readPacket_byte rest (by decide) hc hd.readingError
    (print_first hd (.inr hmark)), printed_first hd.counter]
  rfl

/-- The second byte, or the one before it if that was in error. -/
theorem readPacket_second (hd : Aligned d) (byte : UInt8)
    (rest : List (List PortReads)) :
    ∃ d', readPacket 1 (d.first byte) (p.second.reads :: rest)
        = readPacket 2 d' rest
      ∧ d'.counter = 2 ∧ d'.readingError = false ∧ d'.isSync = true
      ∧ d'.totalPackets = d.totalPackets ∧ d'.packet1.byte0 = byte
      ∧ d'.packet1.byte1 = if p.second.clean then p.second.byte
          else d.packet1.byte1 := by
  have herr : (d.first byte).readingError = false := hd.readingError
  cases hc : p.second.clean with
  | true =>
      refine ⟨(d.first byte).second p.second.byte, ?_, rfl, herr, rfl, rfl,
        rfl, rfl⟩
      rw [readPacket_byte rest (by decide) hc herr
        (print_second d byte p.second.byte), printed_second]
      rfl
  | false =>
      refine ⟨missed (d.first byte) p.second.byte, ?_, rfl, rfl, rfl, rfl,
        rfl, rfl⟩
      rw [readPacket_error rest (by decide) (.inl hc)]
      rfl

/-- The third byte prints the packet. -/
theorem readPacket_third (hc : p.third.clean = true) (h₂ : d.counter = 2)
    (he : d.readingError = false) (hs : d.isSync = true)
    {packet : Packet} (hp : packet = ofBytes d.packet1.byte0
      d.packet1.byte1 p.third.byte) :
    ∃ d', readPacket 2 d [p.third.reads] = ⟨[packet], some d'⟩
      ∧ Aligned d' ∧ d'.packet1 = packet
      ∧ d'.totalPackets = (d.totalPackets + 1) % 2 ^ 32 := by
  obtain ⟨hprint, hsome⟩ := printed_third h₂ hs p.third.byte
  rw [← hp] at hsome
  have hpacket : (d.third p.third.byte).packet1 = packet := hp.symm
  refine ⟨d.third p.third.byte, ?_, ⟨rfl, he⟩, hpacket, rfl⟩
  rw [readPacket_byte [] (by decide) hc he hprint, hsome, readPacket_done]
  rfl

/-- A packet whose ends are read without error is printed, and leaves the
driver at a boundary. -/
theorem readPacket_served (hd : Aligned d) (h : endsClean p = true) :
    ∃ d' packet, readPacket 0 d (packetReads p) = ⟨[packet], some d'⟩
      ∧ Aligned d' ∧ d'.packet1 = packet
      ∧ d'.totalPackets = (d.totalPackets + 1) % 2 ^ 32
      ∧ packet = ofBytes p.first.byte
          (if p.second.clean then p.second.byte else d.packet1.byte1)
          p.third.byte := by
  obtain ⟨hfirst, hthird⟩ := Bool.and_eq_true_iff.1 h
  obtain ⟨d₂, hread, h₂, he, hs, htotal, hbyte₀, hbyte₁⟩ :=
    readPacket_second (p := p) hd p.first.byte [p.third.reads]
  obtain ⟨d', hread', hd', hpacket, htotal'⟩ :=
    readPacket_third hthird h₂ he hs rfl
  rw [hbyte₀, hbyte₁] at hread' hpacket
  rw [htotal] at htotal'
  refine ⟨d', _, ?_, hd', hpacket, htotal', rfl⟩
  unfold packetReads
  rw [readPacket_first hd hfirst, hread, hread']

/-- A packet with an error in its first or third byte is waited for
forever. -/
theorem readPacket_faulty (hd : Aligned d) (h : endsClean p = false) :
    (readPacket 0 d (packetReads p)).result = none := by
  unfold packetReads
  -- an error at a count other than one, and nothing to read after it
  have hlast : ∀ {count : Nat} {d : MouseDriver}, count ≠ 3 →
      d.counter ≠ 1 → p.third.clean = false →
      (readPacket count d [p.third.reads]).result = none := by
    intro count d hcount hone hc
    rw [readPacket_error [] hcount (.inl hc), if_neg hone]
    exact readPacket_waits hcount _
  cases hfirst : p.first.clean with
  | true =>
      have hthird : p.third.clean = false := by
        unfold endsClean at h
        rw [hfirst, Bool.true_and] at h
        exact h
      obtain ⟨d₂, hread, h₂, -⟩ :=
        readPacket_second (p := p) hd p.first.byte [p.third.reads]
      rw [readPacket_first hd hfirst, hread]
      exact hlast (by decide) (by omega) hthird
  | false =>
      have hcounter := hd.counter
      have hne : (0 : Nat) ≠ 3 := by decide
      rw [readPacket_error _ hne (.inl hfirst),
        if_neg (by rw [hcounter]; decide)]
      -- the second byte ends the error, but is not stored
      have hpending : (missed d p.first.byte).readingError = true := by
        show decide (d.counter + 1 ≠ 2) = true
        rw [hcounter]
        decide
      have hone : (missed d p.first.byte).counter = 1 := by
        show d.counter + 1 = 1
        rw [hcounter]
        rfl
      rw [readPacket_error _ hne (.inr hpending), if_pos hone]
      have htwo : (missed (missed d p.first.byte) p.second.byte).counter
          ≠ 1 := by
        show (missed d p.first.byte).counter + 1 ≠ 1
        rw [hone]
        decide
      cases hthird : p.third.clean with
      | false => exact hlast (by decide) htwo hthird
      | true =>
          have hquiet : (missed (missed d p.first.byte)
              p.second.byte).readingError = false := by
            show decide ((missed d p.first.byte).counter + 1 ≠ 2) = false
            rw [hone]
            decide
          rw [readPacket_byte [] (by decide) hthird hquiet rfl]
          exact readPacket_waits (by decide) _

end

-- ============================================================= the loop

/-- The request returns, whatever it returns. -/
def Reply.Answered (r : Reply) : Prop :=
  (writeArgumentToMouse readDataMouse r.request).result ≠ none

theorem prints_append (as bs : List Action) :
    prints (as ++ bs) = prints as ++ prints bs := List.filterMap_append

/-- A command prints nothing. -/
theorem prints_ports (e : Exchange) : prints (polled e).trace = [] := by
  unfold prints polled
  rw [List.filterMap_map]
  exact List.filterMap_eq_nil_iff.2 fun a _ => rfl

theorem prints_lift {ρ : Type*} (p : Polled Packet ρ) :
    prints (p.lift .print).trace = p.trace := by
  unfold prints Polled.lift
  rw [List.filterMap_map]
  exact List.filterMap_some

section

variable {d : MouseDriver} {r : Reply}

/-- A round whose packet ends clean. -/
theorem remoteRound_served (hd : Aligned d) (ha : r.Answered)
    (h : endsClean r.packet = true) :
    ∃ d', (remoteRound d r.round).result = some d'
      ∧ prints (remoteRound d r.round).trace = [d'.packet1]
      ∧ Aligned d' ∧ d'.totalPackets = (d.totalPackets + 1) % 2 ^ 32
      ∧ d'.packet1 = ofBytes r.packet.first.byte
          (if r.packet.second.clean then r.packet.second.byte
            else d.packet1.byte1) r.packet.third.byte := by
  obtain ⟨v, hv⟩ := Option.ne_none_iff_exists'.1 ha
  obtain ⟨d', packet, hread, hd', hpacket, htotal, hbytes⟩ :=
    readPacket_served hd h
  have hround : remoteRound d r.round
      = ⟨(polled (writeArgumentToMouse readDataMouse r.request)).trace
          ++ ((readPacket 0 d (packetReads r.packet)).lift .print).trace,
        (readPacket 0 d (packetReads r.packet)).result⟩ :=
    Polled.bind_returns hv _
  refine ⟨d', ?_, ?_, hd', htotal, hpacket.trans hbytes⟩
  · rw [hround, hread]
  · rw [hround, prints_append, prints_ports, prints_lift, hread, hpacket]
    rfl

/-- A round whose packet does not. -/
theorem remoteRound_faulty (hd : Aligned d)
    (h : endsClean r.packet = false) :
    (remoteRound d r.round).result = none := by
  cases hres : (remoteRound d r.round).result with
  | none => rfl
  | some d' =>
      obtain ⟨-, -, hread⟩ := Polled.bind_result.1 hres
      have hnone : ((readPacket 0 d (packetReads r.packet)).lift
          Action.print).result = none := readPacket_faulty hd h
      rw [show r.round.reads = packetReads r.packet from rfl, hnone]
        at hread
      cases hread

end

section

variable {cnt : UInt8}

theorem remoteLoop_over {d : MouseDriver} (h : cnt.toNat ≤ d.totalPackets)
    (rs : List Round) : remoteLoop cnt d rs = .pure d := by
  have hover : ¬d.totalPackets < cnt.toNat := by omega
  cases rs with
  | nil => rw [remoteLoop, if_neg hover]
  | cons r rs => rw [remoteLoop, if_neg hover]

theorem remoteLoop_round {d : MouseDriver} (h : d.totalPackets < cnt.toNat)
    (r : Round) (rs : List Round) :
    remoteLoop cnt d (r :: rs)
      = (remoteRound d r).bind fun d' => remoteLoop cnt d' rs := by
  rw [remoteLoop, if_pos h]

/-- From a boundary, with `n` packets to go that all end clean. -/
theorem remoteLoop_served : ∀ (n : Nat) {rs : List Reply}
    {d : MouseDriver}, Aligned d → (∀ r ∈ rs, r.Answered) →
    d.totalPackets + n = cnt.toNat → n ≤ rs.length →
    (∀ r ∈ rs.take n, endsClean r.packet = true) →
    ∃ d', (remoteLoop cnt d (rs.map Reply.round)).result = some d'
      ∧ prints (remoteLoop cnt d (rs.map Reply.round)).trace
        = received d.packet1.byte1 ((rs.take n).map Reply.packet) := by
  intro n
  induction n with
  | zero =>
      intro rs d _ _ htotal _ _
      rw [remoteLoop_over (by omega)]
      exact ⟨d, rfl, rfl⟩
  | succ n ih =>
      intro rs d hd ha htotal hlen hclean
      have hcnt := cnt.toNat_lt
      cases rs with
      | nil => simp at hlen
      | cons r rs =>
          obtain ⟨d₁, hres, hprints, hd₁, htotal₁, hbytes⟩ :=
            remoteRound_served hd (ha r List.mem_cons_self)
              (hclean r (by simp))
          obtain ⟨d', hres', hprints'⟩ := ih hd₁
            (fun r' hr' => ha r' (List.mem_cons_of_mem r hr'))
            (by rw [htotal₁]; omega) (by simpa using hlen)
            (fun r' hr' => hclean r' (by simp [hr']))
          rw [List.map_cons, remoteLoop_round (by omega),
            Polled.bind_returns hres]
          refine ⟨d', hres', ?_⟩
          rw [prints_append, hprints, hprints', hbytes]
          rfl

/-- A packet among them that does not end clean. -/
theorem remoteLoop_faulty : ∀ (n : Nat) {rs : List Reply}
    {d : MouseDriver}, Aligned d → (∀ r ∈ rs, r.Answered) →
    d.totalPackets + n = cnt.toNat →
    (∃ r ∈ rs.take n, endsClean r.packet = false) →
    (remoteLoop cnt d (rs.map Reply.round)).result = none := by
  intro n
  induction n with
  | zero =>
      intro rs d _ _ _ hex
      obtain ⟨r, hr, -⟩ := hex
      cases hr
  | succ n ih =>
      intro rs d hd ha htotal hex
      have hcnt := cnt.toNat_lt
      cases rs with
      | nil =>
          obtain ⟨r, hr, -⟩ := hex
          cases hr
      | cons r rs =>
          rw [List.map_cons, remoteLoop_round (by omega)]
          cases hends : endsClean r.packet with
          | false => exact Polled.bind_hangs (remoteRound_faulty hd hends) _
          | true =>
              obtain ⟨d₁, hres, -, hd₁, htotal₁, -⟩ :=
                remoteRound_served hd (ha r List.mem_cons_self) hends
              rw [Polled.bind_returns hres]
              refine ih hd₁ (fun r' hr' =>
                ha r' (List.mem_cons_of_mem r hr')) (by rw [htotal₁]; omega) ?_
              obtain ⟨r', hr', hfaulty⟩ := hex
              rcases List.mem_cons.1 hr' with rfl | hr'
              · rw [hends] at hfaulty
                cases hfaulty
              · exact ⟨r', hr', hfaulty⟩

end

-- ============================================================= the test

/-- A session in which every command is answered and every packet asked
for is sent: the commands to the mouse return, and the last ones, which
the test looks at, with 0. -/
structure Attended (cnt : UInt8) (w : RemoteSession)
    (replies : List Reply) : Prop where
  disable :
    (writeArgumentToMouse disableMouseDataCommand w.disable).result ≠ none
  remote : (writeArgumentToMouse setRemoteMode w.remote).result ≠ none
  rounds : w.rounds = replies.map Reply.round
  answered : ∀ r ∈ replies, r.Answered
  enough : cnt.toNat ≤ replies.length
  disableAgain : (disableMouseData w.disableAgain w.stream).result = some 0
  command : (pollList (restoreTurn (.command writeCommandByte))
    w.command).result = some 0
  argument : (pollList (restoreTurn (.argument w.dfltKbcCmdByte))
    w.argument).result = some 0

section

variable {cnt : UInt8} {w : RemoteSession} {replies : List Reply}

/-- The loops at the end print nothing. -/
theorem prints_restore (access : PortAccess) (ts : List WriteTurn) :
    prints (pollList (restoreTurn access) ts).trace = [] := by
  have hturn : ∀ t, prints (restoreTurn access t).trace = [] := by
    intro t
    unfold restoreTurn
    split
    · rfl
    · split
      · split <;> rfl
      · rfl
  induction ts with
  | nil => rfl
  | cons t ts ih =>
      rw [pollList]
      split
      · exact hturn t
      · rw [prints_append, hturn, ih]
        rfl

/-- The test returns if its loop does, and prints what it prints. -/
theorem Attended.returns (h : Attended cnt w replies) {d d' : MouseDriver}
    (hloop : (remoteLoop cnt d w.rounds).result = some d') :
    (mouseTestRemote cnt d w).result = some 0
      ∧ prints (mouseTestRemote cnt d w).trace
        = prints (remoteLoop cnt d w.rounds).trace := by
  obtain ⟨v₁, h₁⟩ := Option.ne_none_iff_exists'.1 h.disable
  obtain ⟨v₂, h₂⟩ := Option.ne_none_iff_exists'.1 h.remote
  have hcall : ∀ {e : Exchange} {v : Nat}, e.result = some v →
      (polled e).result = some v := fun h => h
  unfold mouseTestRemote
  rw [Polled.bind_returns (hcall h₁), Polled.bind_returns (hcall h₂),
    Polled.bind_returns hloop, Polled.bind_returns (hcall h.disableAgain)]
  unfold unlessFailed
  rw [if_neg (by decide), Polled.bind_returns h.command,
    if_neg (by decide)]
  refine ⟨h.argument, ?_⟩
  simp only [prints_append, prints_ports, prints_restore, List.nil_append,
    List.append_nil]

/-- If the loop does not come back, nor does the test. -/
theorem Attended.hangs (h : Attended cnt w replies) {d : MouseDriver}
    (hloop : (remoteLoop cnt d w.rounds).result = none) :
    (mouseTestRemote cnt d w).result = none := by
  obtain ⟨v₁, h₁⟩ := Option.ne_none_iff_exists'.1 h.disable
  obtain ⟨v₂, h₂⟩ := Option.ne_none_iff_exists'.1 h.remote
  have hcall : ∀ {e : Exchange} {v : Nat}, e.result = some v →
      (polled e).result = some v := fun h => h
  unfold mouseTestRemote
  rw [Polled.bind_returns (hcall h₁), Polled.bind_returns (hcall h₂)]
  exact Polled.bind_hangs hloop _

/-- The loop of the test, from the start. -/
theorem Attended.loop (h : Attended cnt w replies) :
    ((∀ r ∈ replies.take cnt.toNat, endsClean r.packet = true)
        ∧ ∃ d', (remoteLoop cnt MouseDriver.init w.rounds).result = some d'
          ∧ prints (remoteLoop cnt MouseDriver.init w.rounds).trace
            = received 0 ((replies.take cnt.toNat).map Reply.packet))
      ∨ (¬(∀ r ∈ replies.take cnt.toNat, endsClean r.packet = true)
        ∧ (remoteLoop cnt MouseDriver.init w.rounds).result = none) := by
  have htotal : MouseDriver.init.totalPackets + cnt.toNat = cnt.toNat :=
    Nat.zero_add _
  rw [h.rounds]
  by_cases hclean : ∀ r ∈ replies.take cnt.toNat, endsClean r.packet = true
  · exact .inl ⟨hclean, remoteLoop_served cnt.toNat aligned_init h.answered
      htotal h.enough hclean⟩
  · have hex : ∃ r ∈ replies.take cnt.toNat,
        endsClean r.packet = false := by
      push Not at hclean
      simpa using hclean
    exact .inr ⟨hclean, remoteLoop_faulty cnt.toNat aligned_init h.answered
      htotal hex⟩

/-- In an attended session the test returns 0 if the first and the last
byte of every packet it asks for are read without error, and otherwise
never. -/
theorem mouseTestRemote_returns_iff (h : Attended cnt w replies) :
    ((mouseTestRemote cnt MouseDriver.init w).result = some 0
        ↔ ∀ r ∈ replies.take cnt.toNat, endsClean r.packet = true)
      ∧ ((mouseTestRemote cnt MouseDriver.init w).result ≠ some 0 →
        (mouseTestRemote cnt MouseDriver.init w).result = none) := by
  rcases h.loop with ⟨hclean, d', hloop, -⟩ | ⟨hfaulty, hloop⟩
  · have hres := (h.returns hloop).1
    exact ⟨iff_of_true hres hclean, fun hne => absurd hres hne⟩
  · have hres := h.hangs hloop
    refine ⟨iff_of_false (fun hv => ?_) hfaulty, fun _ => hres⟩
    rw [hres] at hv
    cases hv

/-- What it has printed when it returns: the packets it asked for, in
order, with a second byte in error taken from the packet before. -/
theorem mouseTestRemote_prints (h : Attended cnt w replies)
    (hres : (mouseTestRemote cnt MouseDriver.init w).result = some 0) :
    prints (mouseTestRemote cnt MouseDriver.init w).trace
      = received 0 ((replies.take cnt.toNat).map Reply.packet) := by
  rcases h.loop with ⟨-, d', hloop, hprints⟩ | ⟨-, hloop⟩
  · exact (h.returns hloop).2.trans hprints
  · rw [h.hangs hloop] at hres
    cases hres

end

-- ==================================================== a clean session

/-- The packet as the mouse sends it, read at once and without error. -/
def sent (p : MousePacket) : SentPacket :=
  { first := cleanRead p.flags
    second := cleanRead (lowByte p.deltaX)
    third := cleanRead (lowByte p.deltaY)
    marked := of_decide_eq_true (marked_flags p) }

/-- Packets read without error are received as they were reported. -/
theorem received_clean : ∀ (qs : List SentPacket) (ps : List MousePacket)
    (stale : UInt8), (∀ q ∈ qs, q.clean = true) →
    qs.map SentPacket.bytes
      = ps.map (fun p => (p.flags, lowByte p.deltaX, lowByte p.deltaY)) →
    (received stale qs).map Packet.fields = ps.map MousePacket.fields := by
  intro qs
  induction qs with
  | nil =>
      intro ps stale _ hbytes
      have hps : ps = [] := List.map_eq_nil_iff.1 hbytes.symm
      subst hps
      rfl
  | cons q qs ih =>
      intro ps stale hclean hbytes
      cases ps with
      | nil => cases hbytes
      | cons p ps =>
          rw [List.map_cons, List.map_cons, List.cons.injEq] at hbytes
          obtain ⟨hq, hqs⟩ := hbytes
          have hc := hclean q List.mem_cons_self
          unfold SentPacket.clean at hc
          rw [Bool.and_eq_true, Bool.and_eq_true] at hc
          unfold SentPacket.bytes at hq
          simp only [Prod.mk.injEq] at hq
          unfold received
          rw [hc.1.2, if_pos rfl, List.map_cons, List.map_cons,
            ih ps _ (fun q' hq' => hclean q' (List.mem_cons_of_mem q hq'))
              hqs]
          congr 1
          exact decode_fields p _ hq.1 hq.2.1 hq.2.2

section

variable {cnt : UInt8} {w : RemoteSession} {replies : List Reply}

/-- The mouse and the test agree: if every packet asked for is read
without error, the test returns and has printed what the mouse
reported, packet by packet. -/
theorem mouseTestRemote_reports (h : Attended cnt w replies)
    (ps : List MousePacket)
    (hbytes : (replies.take cnt.toNat).map (fun r => r.packet.bytes)
      = ps.map fun p => (p.flags, lowByte p.deltaX, lowByte p.deltaY))
    (hclean : ∀ r ∈ replies.take cnt.toNat, r.packet.clean = true) :
    (mouseTestRemote cnt MouseDriver.init w).result = some 0
      ∧ (prints (mouseTestRemote cnt MouseDriver.init w).trace).map
          Packet.fields = ps.map MousePacket.fields := by
  have hends : ∀ r ∈ replies.take cnt.toNat,
      endsClean r.packet = true := by
    intro r hr
    have hc := hclean r hr
    unfold SentPacket.clean at hc
    rw [Bool.and_eq_true, Bool.and_eq_true] at hc
    unfold endsClean
    rw [hc.1.1, hc.2]
    rfl
  rcases h.loop with ⟨-, d', hloop, hprints⟩ | ⟨hfaulty, -⟩
  · obtain ⟨hres, hsame⟩ := h.returns hloop
    refine ⟨hres, ?_⟩
    rw [hsame, hprints]
    refine received_clean _ _ 0 ?_ ?_
    · intro q hq
      obtain ⟨r, hr, rfl⟩ := List.mem_map.1 hq
      exact hclean r hr
    · rw [List.map_map]
      exact hbytes
  · exact absurd hends hfaulty

end

-- ============================================================ sessions

/-- A command acknowledged at once. -/
def prompt : List Turn := [⟨some 0, true, none⟩, ⟨some 0, true, some isOk⟩]

/-- A session in which every command is. -/
def promptSession (packets : List SentPacket) : RemoteSession :=
  { disable := prompt, remote := prompt
    rounds := packets.map fun p =>
      { request := prompt, reads := packetReads p }
    disableAgain := prompt, stream := prompt
    command := [⟨some 0, true⟩], argument := [⟨some 0, true⟩]
    dfltKbcCmdByte := 0x61 }

theorem attended_prompt {cnt : UInt8} {packets : List SentPacket}
    (h : cnt.toNat ≤ packets.length) :
    Attended cnt (promptSession packets)
      (packets.map fun p => { request := prompt, packet := p }) := by
  refine ⟨nofun, nofun, ?_, ?_, by simpa using h, rfl, rfl, rfl⟩
  · show packets.map _ = _
    rw [List.map_map]
    rfl
  · intro r hr
    obtain ⟨p, -, rfl⟩ := List.mem_map.1 hr
    exact nofun

theorem none_range : -256 ≤ (0 : Int) ∧ (0 : Int) ≤ 255 := by decide

theorem right_range : -256 ≤ (10 : Int) ∧ (10 : Int) ≤ 255 := by decide

theorem up_range : -256 ≤ (7 : Int) ∧ (7 : Int) ≤ 255 := by decide

/-- A movement to the right. -/
def moveRight : MousePacket :=
  { deltaX := 10, deltaY := 0, lb := false, mb := false, rb := false
    xOv := false, yOv := false, xRange := right_range, yRange := none_range }

/-- A movement up, with the left button down. -/
def dragUp : MousePacket :=
  { deltaX := 0, deltaY := 7, lb := true, mb := false, rb := false
    xOv := false, yOv := false, xRange := none_range, yRange := up_range }

/-- The same, with a parity error in the second or in the third byte. -/
def dragUpFaulty (second third : Bool) : SentPacket :=
  { sent dragUp with
    second := if second then faultyRead 0 else cleanRead 0
    third := if third then faultyRead 7 else cleanRead 7 }

/-- With an error in the third byte of the second packet the test does
not return. -/
theorem mouseTestRemote_returns_never :
    (mouseTestRemote 2 MouseDriver.init
      (promptSession [sent moveRight, dragUpFaulty false true])).result
      = none := by
  obtain ⟨hiff, hnone⟩ := mouseTestRemote_returns_iff
    (@attended_prompt 2 [sent moveRight, dragUpFaulty false true]
      (by decide))
  refine hnone fun hres => ?_
  have hfaulty := hiff.1 hres
    { request := prompt, packet := dragUpFaulty false true }
    (List.mem_cons_of_mem _ List.mem_cons_self)
  cases hfaulty

/-- With an error in its second byte it prints the movement of the first
packet again. -/
theorem mouseTestRemote_prints_stale :
    prints (mouseTestRemote 2 MouseDriver.init
      (promptSession [sent moveRight, dragUpFaulty true false])).trace
      = [ofBytes 0x08 10 0, ofBytes 0x09 10 7] := by
  exact mouseTestRemote_prints (@attended_prompt 2
    [sent moveRight, dragUpFaulty true false] (by decide)) rfl

/-- Without an error it prints both as they were reported. -/
theorem mouseTestRemote_reports_two :
    (prints (mouseTestRemote 2 MouseDriver.init
      (promptSession [sent moveRight, sent dragUp])).trace).map
        Packet.fields = [moveRight.fields, dragUp.fields] :=
  (mouseTestRemote_reports (@attended_prompt 2
    [sent moveRight, sent dragUp] (by decide))
    [moveRight, dragUp] rfl (by
      intro r hr
      obtain ⟨p, hp, rfl⟩ := List.mem_map.1 (List.mem_of_mem_take hr)
      rcases List.mem_cons.1 hp with rfl | hp
      · rfl
      · rw [List.mem_singleton.1 hp]
        rfl)).2

end Lcom.Lab4
