/-
When the mouse driver keeps packets intact, and when it recovers.

A packet is intact, and is delivered, exactly as the standing of the
driver says (`standing_packet`), so both questions about a stream are
questions about the run of standings, which is five states moved by
three bits per packet.

Both laws fail on the code, by one design: an error is only cleared
when the counter is exactly 2. An error in the first or second byte is
cleared in time for the third byte, which then completes a packet with
stale bytes; an error in the third byte takes the counter past 2 and is
never cleared.
-/
import Lcom.Proj.Proofs.Packets

namespace Lcom.Proj

open Machine

-- ==================================================== reading a course

/-- The three interrupts of a packet are deterministic. -/
theorem Sends.unique {d d₁ d₂ d₃ e₁ e₂ e₃ : MouseDriver} {p : SentPacket}
    (h : Sends d p d₁ d₂ d₃) (h' : Sends d p e₁ e₂ e₃) :
    d₁ = e₁ ∧ d₂ = e₂ ∧ d₃ = e₃ := by
  obtain ⟨h1, h2, h3⟩ := h
  obtain ⟨k1, k2, k3⟩ := h'
  rw [h1] at k1
  cases k1
  rw [h2] at k2
  cases k2
  rw [h3] at k3
  cases k3
  exact ⟨rfl, rfl, rfl⟩

/-- So what some course of a packet satisfies, its course does. -/
theorem Sends.exists_iff {d d₁ d₂ d₃ : MouseDriver} {p : SentPacket}
    {P : MouseDriver → MouseDriver → MouseDriver → Prop}
    (h : Sends d p d₁ d₂ d₃) :
    (∃ e₁ e₂ e₃, Sends d p e₁ e₂ e₃ ∧ P e₁ e₂ e₃) ↔ P d₁ d₂ d₃ := by
  constructor
  · intro hex
    obtain ⟨e₁, e₂, e₃, he, hrest⟩ := hex
    obtain ⟨rfl, rfl, rfl⟩ := h.unique he
    exact hrest
  · intro hrest
    exact ⟨d₁, d₂, d₃, h, hrest⟩

theorem Sends.sendPacket {d d₁ d₂ d₃ : MouseDriver} {p : SentPacket}
    (h : Sends d p d₁ d₂ d₃) : sendPacket d p = some d₃ := by
  obtain ⟨h1, h2, h3⟩ := h
  simp [Proj.sendPacket, exec, h1, h2, h3]

theorem Sends.intact_iff {d d₁ d₂ d₃ : MouseDriver} {p : SentPacket}
    (h : Sends d p d₁ d₂ d₃) :
    Intact d p ↔ d₁.totalPackets = d.totalPackets
      ∧ d₂.totalPackets = d₁.totalPackets
      ∧ (d₃.totalPackets ≠ d₂.totalPackets →
        p.clean = true ∧ d₃.packet1.bytes = p.bytes) :=
  h.exists_iff (P := fun d₁ d₂ d₃ => d₁.totalPackets = d.totalPackets
    ∧ d₂.totalPackets = d₁.totalPackets
    ∧ (d₃.totalPackets ≠ d₂.totalPackets →
      p.clean = true ∧ d₃.packet1.bytes = p.bytes))

theorem Sends.delivered_iff {d d₁ d₂ d₃ : MouseDriver} {p : SentPacket}
    (h : Sends d p d₁ d₂ d₃) :
    Delivered d p ↔ InRange (counterAtDispatch d p.first)
      ∧ InRange (counterAtDispatch d₁ p.second)
      ∧ InRange (counterAtDispatch d₂ p.third)
      ∧ (p.clean = true → d₁.totalPackets = d.totalPackets
        ∧ d₂.totalPackets = d₁.totalPackets
        ∧ d₃.totalPackets = (d₂.totalPackets + 1) % 2 ^ 32
        ∧ d₃.packet1.bytes = p.bytes) :=
  h.exists_iff (P := fun d₁ d₂ d₃ => InRange (counterAtDispatch d p.first)
    ∧ InRange (counterAtDispatch d₁ p.second)
    ∧ InRange (counterAtDispatch d₂ p.third)
    ∧ (p.clean = true → d₁.totalPackets = d.totalPackets
      ∧ d₂.totalPackets = d₁.totalPackets
      ∧ d₃.totalPackets = (d₂.totalPackets + 1) % 2 ^ 32
      ∧ d₃.packet1.bytes = p.bytes))

theorem inRange_two : InRange (some 2) := .inr (.inr rfl)

theorem not_inRange_three : ¬InRange (some 3) := by
  unfold InRange
  simp

/-- A clean packet has a clean first and a clean third byte. -/
theorem SentPacket.clean_ends {p : SentPacket} (h : p.clean = true) :
    p.first.clean = true ∧ p.third.clean = true := by
  simp only [SentPacket.clean, Bool.and_eq_true] at h
  exact ⟨h.1.1, h.2⟩

-- ============================================ the standings decide

/-- A packet at count zero: intact unless a faulty packet is completed,
delivered exactly when its third byte is clean. -/
theorem zero_packet {d : MouseDriver} (p : SentPacket)
    (hc : d.counter = 0) (hr : d.readingError = false) :
    (∃ d', sendPacket d p = some d'
        ∧ (if p.third.clean then
            if p.first.clean || d.isSync || p.thirdMarked then
              Standing.aligned
            else Standing.dropped
          else Standing.stuck).At d')
      ∧ (Intact d p ↔ p.clean = true ∨ p.third.clean = false
        ∨ (p.first.clean || d.isSync || p.thirdMarked) = false)
      ∧ (Delivered d p ↔ p.third.clean = true) := by
  obtain ⟨d₁, d₂, d₃, hsend, ht₁, ht₂, hin₁, hin₂, hthird⟩ :=
    course_zero p hc hr
  rw [hsend.intact_iff, hsend.delivered_iff]
  rcases hthird with ⟨hf, hat, hdis, ht₃⟩
    | ⟨hf, hdis, ⟨hthr, hat, ht₃, hbytes⟩ | ⟨hthr, hat, ht₃⟩⟩
  · refine ⟨⟨d₃, hsend.sendPacket, ?_⟩, ?_, ?_⟩
    · rw [hf]
      exact hat
    · exact ⟨fun _ => .inr (.inl hf),
        fun _ => ⟨ht₁, ht₂, fun hne => absurd ht₃ hne⟩⟩
    · rw [hf, hdis]
      exact ⟨fun h => absurd h.2.2.1 not_inRange_three, fun h => by cases h⟩
  · have hne : d₃.totalPackets ≠ d₂.totalPackets := by
      rw [ht₃]
      exact published_ne _
    refine ⟨⟨d₃, hsend.sendPacket, ?_⟩, ?_, ?_⟩
    · rw [hf, hthr]
      exact hat
    · constructor
      · intro hkept
        obtain ⟨-, -, h⟩ := hkept
        exact .inl (h hne).1
      · intro hkept
        rcases hkept with hclean | h | h
        · exact ⟨ht₁, ht₂, fun _ => ⟨hclean, hbytes hclean⟩⟩
        · rw [hf] at h
          cases h
        · rw [hthr] at h
          cases h
    · refine ⟨fun _ => hf, fun _ => ⟨hin₁, hin₂, ?_, fun hclean => ?_⟩⟩
      · rw [hdis]
        exact inRange_two
      · exact ⟨ht₁, ht₂, ht₃, hbytes hclean⟩
  · refine ⟨⟨d₃, hsend.sendPacket, ?_⟩, ?_, ?_⟩
    · rw [hf, hthr]
      exact hat
    · exact ⟨fun _ => .inr (.inr hthr),
        fun _ => ⟨ht₁, ht₂, fun hne => absurd ht₃ hne⟩⟩
    · refine ⟨fun _ => hf, fun _ => ⟨hin₁, hin₂, ?_, fun hclean => ?_⟩⟩
      · rw [hdis]
        exact inRange_two
      · rw [(p.clean_ends hclean).1] at hthr
        cases hthr

/-- A packet at count two: its clean first byte completes a packet that
was never sent, its faulty first byte jams the driver. -/
theorem two_packet {d : MouseDriver} (p : SentPacket)
    (hc : d.counter = 2) (hr : d.readingError = false) :
    (∃ d', sendPacket d p = some d'
        ∧ (if p.first.clean then Standing.lagging
          else Standing.stuck).At d')
      ∧ (Intact d p ↔ p.first.clean = false)
      ∧ (Delivered d p ↔ p.first.clean = true ∧ p.clean = false) := by
  obtain ⟨d₁, d₂, d₃, hsend, ht₂, ht₃, hfirst⟩ := course_two p hc hr
  rw [hsend.intact_iff, hsend.delivered_iff]
  rcases hfirst with ⟨hf, hat, hdis, ht₁⟩ | ⟨hf, hat, ht₁, hin₁, hin₂, hin₃⟩
  · refine ⟨⟨d₃, hsend.sendPacket, ?_⟩, ?_, ?_⟩
    · rw [hf]
      exact hat
    · exact ⟨fun _ => hf, fun _ => ⟨ht₁, ht₂, fun hne => absurd ht₃ hne⟩⟩
    · rw [hf, hdis]
      exact ⟨fun h => absurd h.1 not_inRange_three, fun h => by cases h.1⟩
  · have hne : d₁.totalPackets ≠ d.totalPackets := by
      rw [ht₁]
      exact published_ne _
    refine ⟨⟨d₃, hsend.sendPacket, ?_⟩, ?_, ?_⟩
    · rw [hf]
      exact hat
    · rw [hf]
      exact ⟨fun h => absurd h.1 hne, fun h => by cases h⟩
    · constructor
      · intro hkept
        obtain ⟨-, -, -, h⟩ := hkept
        refine ⟨hf, Bool.eq_false_iff.2 fun hclean => ?_⟩
        exact hne (h hclean).1
      · intro hkept
        obtain ⟨-, hclean⟩ := hkept
        refine ⟨hin₁, hin₂, hin₃, fun h => ?_⟩
        rw [hclean] at h
        cases h

/-- A packet at a stuck driver is lost: trivially intact, never
delivered. -/
theorem stuck_packet {d : MouseDriver} (p : SentPacket)
    (h : Standing.stuck.At d) :
    (∃ d', sendPacket d p = some d' ∧ Standing.stuck.At d')
      ∧ Intact d p ∧ ¬Delivered d p := by
  obtain ⟨d₁, d₂, d₃, hsend, hat, ht₁, ht₂, ht₃, hout⟩ := course_stuck p h
  rw [hsend.intact_iff, hsend.delivered_iff]
  exact ⟨⟨d₃, hsend.sendPacket, hat⟩,
    ⟨ht₁, ht₂, fun hne => absurd ht₃ hne⟩, fun hd => hout hd.1⟩

/-- The standing decides: where the next packet leaves the driver,
whether it is intact, and whether it is delivered. -/
theorem standing_packet (k : Standing) {d : MouseDriver} (p : SentPacket)
    (h : k.At d) :
    (∃ d', sendPacket d p = some d' ∧ (k.next p).At d')
      ∧ (Intact d p ↔ k.intact p) ∧ (Delivered d p ↔ k.delivers p) := by
  cases k with
  | fresh =>
      obtain ⟨hc, hr, hs⟩ := h
      have hz := zero_packet p hc hr
      rw [hs, Bool.or_false, Bool.or_eq_false_iff] at hz
      exact hz
  | aligned =>
      obtain ⟨hc, hr, hs⟩ := h
      have hz := zero_packet p hc hr
      rw [hs, Bool.or_true, Bool.true_or] at hz
      obtain ⟨hn, hi, hd⟩ := hz
      refine ⟨hn, hi.trans ?_, hd⟩
      show _ ↔ p.clean = true ∨ p.third.clean = false
      simp
  | dropped =>
      obtain ⟨hc, hr, -⟩ := h
      exact two_packet p hc hr
  | lagging =>
      obtain ⟨hc, hr, -⟩ := h
      exact two_packet p hc hr
  | stuck =>
      obtain ⟨hn, hi, hd⟩ := stuck_packet p h
      exact ⟨hn, iff_of_true hi trivial, iff_of_false hd id⟩

/-- The driver as the program starts. -/
theorem fresh_init : Standing.fresh.At MouseDriver.init := ⟨rfl, rfl, rfl⟩

-- ================================================== packet integrity

/-- The packets are clean up to one whose third byte is in error: that
one jams the driver and nothing more is published. -/
def FirstFaultInThird : List SentPacket → Prop
  | [] => True
  | p :: ps => if p.clean then FirstFaultInThird ps else p.third.clean = false

/-- The first byte is lost and the third one, read cleanly, does not
carry the synchronisation mark: an unsynchronised driver drops it. -/
def SentPacket.slips (p : SentPacket) : Bool :=
  !p.first.clean && p.third.clean && !p.thirdMarked

/-- The streams on which nothing but whole clean packets is
published. -/
def IntegrityHolds : List SentPacket → Prop
  | [] => True
  | p :: ps =>
      if p.slips then ∀ q ∈ ps.head?, q.first.clean = false
      else FirstFaultInThird (p :: ps)

/-- The packets are intact from a standing on. -/
abbrev IntactFrom : Standing → List SentPacket → Prop :=
  Through Standing.next Standing.intact

/-- A stuck driver breaks no packet. -/
theorem intactFrom_stuck (ps : List SentPacket) :
    IntactFrom .stuck ps := by
  induction ps with
  | nil => trivial
  | cons p ps ih => exact ⟨trivial, ih⟩

theorem intactFrom_aligned (ps : List SentPacket) :
    IntactFrom .aligned ps ↔ FirstFaultInThird ps := by
  induction ps with
  | nil => exact Iff.rfl
  | cons p ps ih =>
      show (p.clean = true ∨ p.third.clean = false)
        ∧ IntactFrom (if p.third.clean then .aligned else .stuck) ps
        ↔ if p.clean then FirstFaultInThird ps else p.third.clean = false
      cases hc : p.clean with
      | true =>
          rw [(p.clean_ends hc).2]
          simpa using ih
      | false =>
          cases ht : p.third.clean with
          | true => simp
          | false => simpa using intactFrom_stuck ps

/-- From count two a packet must lose its first byte. -/
theorem intactFrom_dropped (ps : List SentPacket) :
    IntactFrom .dropped ps ↔ ∀ q ∈ ps.head?, q.first.clean = false := by
  cases ps with
  | nil => simp [IntactFrom, Through]
  | cons q qs =>
      show q.first.clean = false
        ∧ IntactFrom (if q.first.clean then .lagging else .stuck) qs ↔ _
      cases hq : q.first.clean with
      | true => simp [hq]
      | false => simpa [hq] using intactFrom_stuck qs

/-- Packet integrity holds of a stream exactly when its packets are
clean up to one whose third byte is in error; or when the very first
packet slips, and the one after it loses its first byte too. -/
theorem packet_integrity_iff (ps : List SentPacket) :
    PacketIntegrity ps ↔ IntegrityHolds ps := by
  unfold PacketIntegrity
  rw [along_iff_through (R := Standing.At)
    (fun k d p h => (standing_packet k p h).1)
    (fun k d p h => (standing_packet k p h).2.1) ps .fresh _ fresh_init]
  cases ps with
  | nil => exact Iff.rfl
  | cons p ps =>
      show (p.clean = true ∨ p.third.clean = false
          ∨ (p.first.clean = false ∧ p.thirdMarked = false))
        ∧ IntactFrom (if p.third.clean then
            if p.first.clean || p.thirdMarked then .aligned else .dropped
          else .stuck) ps
        ↔ if !p.first.clean && p.third.clean && !p.thirdMarked then
            ∀ q ∈ ps.head?, q.first.clean = false
          else if p.clean then FirstFaultInThird ps
            else p.third.clean = false
      cases hc : p.clean with
      | true =>
          rw [(p.clean_ends hc).1, (p.clean_ends hc).2]
          simpa using intactFrom_aligned ps
      | false =>
          cases ht : p.third.clean with
          | false => simpa using intactFrom_stuck ps
          | true =>
              cases hf : p.first.clean with
              | true => simp
              | false =>
                  cases hm : p.thirdMarked with
                  | true => simp
                  | false => simpa using intactFrom_dropped ps

/-- A byte read with the parity bit set. -/
def faultyRead (byte : UInt8) : ByteRead :=
  { waits := [], status := 0xA1, byte, full := by decide }

/-- A clean packet, then one whose first byte is in error: the driver
publishes the old first and second byte with the new third one. -/
theorem packet_integrity_fails :
    ¬PacketIntegrity
      [⟨cleanRead 0x09, cleanRead 5, cleanRead 6, by decide⟩,
        ⟨faultyRead 0x29, cleanRead 7, cleanRead 8, by decide⟩] := by
  intro hp
  obtain ⟨d, hd, hd'⟩ : ∃ d, sendPacket MouseDriver.init
      ⟨cleanRead 0x09, cleanRead 5, cleanRead 6, by decide⟩ = some d
      ∧ Standing.aligned.At d := (standing_packet .fresh _ fresh_init).1
  have hbad := ((along_cons.1 hp).2 d hd) [] _ [] rfl d rfl
  rw [(standing_packet .aligned _ hd').2.1] at hbad
  rcases hbad with hbad | hbad <;> exact absurd hbad (by decide)

-- ========================================================== recovery

/-- The streams on which the driver recovers. -/
def RecoveryHolds : List SentPacket → Prop
  | [] => True
  | p :: ps =>
      if p.slips then ∀ q ∈ ps, q.first.clean = true ∧ q.clean = false
      else ∀ q ∈ p :: ps, q.third.clean = true

/-- The packets are delivered from a standing on. -/
abbrev DeliveredFrom : Standing → List SentPacket → Prop :=
  Through Standing.next Standing.delivers

theorem deliveredFrom_aligned (ps : List SentPacket) :
    DeliveredFrom .aligned ps ↔ ∀ q ∈ ps, q.third.clean = true := by
  induction ps with
  | nil => simp [DeliveredFrom, Through]
  | cons p ps ih =>
      rw [List.forall_mem_cons, ← ih]
      show p.third.clean = true
        ∧ DeliveredFrom (if p.third.clean then .aligned else .stuck) ps ↔ _
      refine and_congr_right fun ht => ?_
      rw [if_pos ht]

/-- At count two the driver delivers no clean packet, and only keeps
going while every first byte is clean. -/
theorem deliveredFrom_two {k : Standing}
    (hk : k = .dropped ∨ k = .lagging) (ps : List SentPacket) :
    DeliveredFrom k ps
      ↔ ∀ q ∈ ps, q.first.clean = true ∧ q.clean = false := by
  induction ps generalizing k with
  | nil => simp [DeliveredFrom, Through]
  | cons p ps ih =>
      have hstep : DeliveredFrom k (p :: ps)
          ↔ (p.first.clean = true ∧ p.clean = false)
            ∧ DeliveredFrom (if p.first.clean then .lagging else .stuck)
              ps := by
        rcases hk with rfl | rfl <;> exact Iff.rfl
      rw [hstep, List.forall_mem_cons]
      refine and_congr_right fun hp => ?_
      rw [if_pos hp.1, ih (.inr rfl)]

/-- The driver recovers along a stream exactly when no third byte is in
error and the first packet does not slip; or when the first packet slips
and every later one has a clean first byte and an error after it, so
that no clean packet ever asks to be delivered. -/
theorem packet_recovery_iff (ps : List SentPacket) :
    PacketRecovery ps ↔ RecoveryHolds ps := by
  unfold PacketRecovery
  rw [along_iff_through (R := Standing.At)
    (fun k d p h => (standing_packet k p h).1)
    (fun k d p h => (standing_packet k p h).2.2) ps .fresh _ fresh_init]
  cases ps with
  | nil => exact Iff.rfl
  | cons p ps =>
      show p.third.clean = true
        ∧ DeliveredFrom (if p.third.clean then
            if p.first.clean || p.thirdMarked then .aligned else .dropped
          else .stuck) ps
        ↔ if !p.first.clean && p.third.clean && !p.thirdMarked then
            ∀ q ∈ ps, q.first.clean = true ∧ q.clean = false
          else ∀ q ∈ p :: ps, q.third.clean = true
      rw [List.forall_mem_cons]
      cases ht : p.third.clean with
      | false => simp
      | true =>
          cases hf : p.first.clean with
          | true => simpa using deliveredFrom_aligned ps
          | false =>
              cases hm : p.thirdMarked with
              | true => simpa using deliveredFrom_aligned ps
              | false => simpa using deliveredFrom_two (.inl rfl) ps

/-- A packet whose third byte is in error: the dispatch finds the
counter at 3, and the clean packet after it is never published. -/
theorem packet_recovery_fails :
    ¬PacketRecovery
      [⟨cleanRead 0x09, cleanRead 5, faultyRead 6, by decide⟩,
        ⟨cleanRead 0x09, cleanRead 7, cleanRead 8, by decide⟩] := by
  intro hp
  obtain ⟨d, hd, hd'⟩ : ∃ d, sendPacket MouseDriver.init
      ⟨cleanRead 0x09, cleanRead 5, faultyRead 6, by decide⟩ = some d
      ∧ Standing.stuck.At d := (standing_packet .fresh _ fresh_init).1
  have hbad := ((along_cons.1 hp).2 d hd) [] _ [] rfl d rfl
  exact (stuck_packet _ hd').2.2 hbad

end Lcom.Proj
