/-
Decoding a clean stream.

Without read errors an interrupt hands its byte on, and the driver moves
through three standings: at a packet boundary (`Aligned`), after the
first byte (`first`), after the second (`second`). The third byte
decodes and publishes (`third`) and leaves it at a boundary again. One
marked byte synchronises the driver for good.

From there the two laws of a stream are inductions over its packets.
Decoding undoes the encoding, packet by packet. And the mark is tested
once, on the byte the driver synchronises on: later groups of three are
published whatever they start with.
-/
import Lcom.Proj.Decode
import Lcom.Proj.Proofs.Packets

namespace Lcom.Proj

open Machine

-- ================================================== the three standings

/-- The driver is at a packet boundary and no error is pending. -/
structure Aligned (d : MouseDriver) : Prop where
  counter : d.counter = 0
  readingError : d.readingError = false

/-- The driver after the first byte of a packet. -/
def MouseDriver.first (d : MouseDriver) (byte : UInt8) : MouseDriver :=
  { d with readPacket := byte, isSync := true, counter := 1
           packet1 := { d.packet1 with byte0 := byte } }

/-- The driver after the second byte of a packet. -/
def MouseDriver.second (d : MouseDriver) (byte : UInt8) : MouseDriver :=
  { d with readPacket := byte, counter := 2
           packet1 := { d.packet1 with byte1 := byte } }

/-- The driver after the third byte of a packet. -/
def MouseDriver.third (d : MouseDriver) (byte : UInt8) : MouseDriver :=
  { d with readPacket := byte, counter := 0
           totalPackets := (d.totalPackets + 1) % 2 ^ 32
           packet1 := Packet.decode { d.packet1 with byte2 := byte } }

section

variable {d : MouseDriver} {b : ByteRead}

/-- A boundary is left by any byte once synchronised, and by a marked
byte before that. -/
theorem print_first (h : Aligned d) {byte : UInt8}
    (hsync : d.isSync = true ∨ marked byte = true) :
    printMousePacket { d with readPacket := byte } = d.first byte := by
  unfold printMousePacket storeByte MouseDriver.first
  rcases hsync with hs | hm
  · simp [hs, h.counter]
  · unfold marked at hm
    have hne : byte &&& 0x08 ≠ 0 := of_decide_eq_true hm
    cases d.isSync <;> simp [hne, h.counter]

theorem print_second (d : MouseDriver) (byte₀ byte₁ : UInt8) :
    printMousePacket { d.first byte₀ with readPacket := byte₁ }
      = (d.first byte₀).second byte₁ := by
  unfold printMousePacket storeByte MouseDriver.second MouseDriver.first
  simp

theorem print_third (d : MouseDriver) (byte₀ byte₁ byte₂ : UInt8) :
    printMousePacket
        { (d.first byte₀).second byte₁ with readPacket := byte₂ }
      = ((d.first byte₀).second byte₁).third byte₂ := by
  unfold printMousePacket storeByte MouseDriver.third MouseDriver.second
    MouseDriver.first
  simp

theorem interrupt_first (h : Aligned d) (hc : b.clean = true)
    (hsync : d.isSync = true ∨ marked b.byte = true) :
    interrupt d b = some (d.first b.byte) := by
  rw [(interrupt_quiet hc h.readingError).1, print_first h hsync]

/-- Before synchronisation an unmarked byte is dropped. -/
theorem interrupt_dropped (h : Aligned d) (hc : b.clean = true)
    (hs : d.isSync = false) (hm : marked b.byte = false) :
    interrupt d b = some { d with readPacket := b.byte } := by
  rw [(interrupt_quiet hc h.readingError).1]
  unfold marked at hm
  have hzero : b.byte &&& 0x08 = 0 := by simpa using hm
  unfold printMousePacket
  simp [hs, hzero]

theorem interrupt_second (h : Aligned d) (hc : b.clean = true)
    (byte : UInt8) :
    interrupt (d.first byte) b = some ((d.first byte).second b.byte) := by
  have herr : (d.first byte).readingError = false := h.readingError
  rw [(interrupt_quiet hc herr).1, print_second]

theorem interrupt_third (h : Aligned d) (hc : b.clean = true)
    (byte₀ byte₁ : UInt8) :
    interrupt ((d.first byte₀).second byte₁) b
      = some (((d.first byte₀).second byte₁).third b.byte) := by
  have herr : ((d.first byte₀).second byte₁).readingError = false :=
    h.readingError
  rw [(interrupt_quiet hc herr).1, print_third]

/-- A packet ends at a boundary. -/
theorem Aligned.third (h : Aligned d) (byte₀ byte₁ byte₂ : UInt8) :
    Aligned (((d.first byte₀).second byte₁).third byte₂) :=
  ⟨rfl, h.readingError⟩

theorem aligned_init : Aligned MouseDriver.init := ⟨rfl, rfl⟩

end

-- ======================================================= the round trip

/-- Each flag is read back from its own bit. -/
theorem flagByte_bits :
    ∀ yOv xOv ySign xSign mb rb lb : Bool,
      let byte := flagByte yOv xOv ySign xSign mb rb lb
      (byte &&& 0x80 ≠ 0 ↔ yOv = true) ∧ (byte &&& 0x40 ≠ 0 ↔ xOv = true)
      ∧ (byte &&& 0x20 ≠ 0 ↔ ySign = true)
      ∧ (byte &&& 0x10 ≠ 0 ↔ xSign = true) ∧ byte &&& 0x08 ≠ 0
      ∧ (byte &&& 0x04 ≠ 0 ↔ mb = true) ∧ (byte &&& 0x02 ≠ 0 ↔ rb = true)
      ∧ (byte &&& 0x01 ≠ 0 ↔ lb = true) := by
  decide

/-- A nine-bit delta is its sign and its low byte. -/
theorem delta_decode {delta : Int} (h : -256 ≤ delta ∧ delta ≤ 255) :
    (if decide (delta < 0) = true then ((lowByte delta).toNat : Int) - 256
      else (lowByte delta).toNat) = delta := by
  have hlow : ((lowByte delta).toNat : Int) = delta % 256 := by
    unfold lowByte
    rw [UInt8.toNat_ofNat_of_lt']
    · omega
    · show (delta % 256).toNat < 256
      omega
  rw [hlow]
  by_cases hneg : delta < 0
  · rw [if_pos (by simpa using hneg)]
    omega
  · rw [if_neg (by simpa using hneg)]
    omega

theorem marked_flags (p : MousePacket) : marked p.flags = true := by
  obtain ⟨-, -, -, -, h, -⟩ := flagByte_bits p.yOv p.xOv
    (decide (p.deltaY < 0)) (decide (p.deltaX < 0)) p.mb p.rb p.lb
  exact decide_eq_true h

/-- Decoding the three bytes of a packet gives its fields. -/
theorem decode_fields (p : MousePacket) (q : Packet)
    (h₀ : q.byte0 = p.flags) (h₁ : q.byte1 = lowByte p.deltaX)
    (h₂ : q.byte2 = lowByte p.deltaY) :
    q.decode.fields = p.fields := by
  obtain ⟨hyov, hxov, hys, hxs, -, hmb, hrb, hlb⟩ := flagByte_bits p.yOv
    p.xOv (decide (p.deltaY < 0)) (decide (p.deltaX < 0)) p.mb p.rb p.lb
  have hx := delta_decode p.xRange
  have hy := delta_decode p.yRange
  unfold Packet.decode Packet.fields MousePacket.fields
  dsimp only
  rw [h₀, h₁, h₂]
  unfold MousePacket.flags
  simp only [hyov, hxov, hys, hxs, hmb, hrb, hlb, hx, hy,
    Bool.decide_eq_true]

/-- A stream of packets starts with the three bytes of the first. -/
theorem Feeds.uncons {bs : List ByteRead} {p : MousePacket}
    {ps : List MousePacket} (h : Feeds bs (p :: ps)) :
    ∃ b₀ b₁ b₂ rest, bs = b₀ :: b₁ :: b₂ :: rest
      ∧ b₀.byte = p.flags ∧ b₁.byte = lowByte p.deltaX
      ∧ b₂.byte = lowByte p.deltaY ∧ b₀.clean = true ∧ b₁.clean = true
      ∧ b₂.clean = true ∧ Feeds rest ps := by
  obtain ⟨hclean, hbytes⟩ := h
  rw [List.flatMap_cons, MousePacket.encode] at hbytes
  match bs, hclean, hbytes with
  | [], _, hbytes => simp at hbytes
  | [_], _, hbytes => simp at hbytes
  | [_, _], _, hbytes => simp at hbytes
  | b₀ :: b₁ :: b₂ :: rest, hclean, hbytes =>
      simp only [List.map_cons, List.cons_append, List.nil_append,
        List.cons.injEq] at hbytes
      obtain ⟨h₀, h₁, h₂, hrest⟩ := hbytes
      refine ⟨b₀, b₁, b₂, rest, rfl, h₀, h₁, h₂, hclean b₀ (by simp),
        hclean b₁ (by simp), hclean b₂ (by simp), ⟨?_, hrest⟩⟩
      intro b hb
      exact hclean b (by simp [hb])

/-- The fields on show after `k` packets. -/
def shownAfter (before : Fields) (ps : List MousePacket) (k : Nat) :
    Fields :=
  ((ps.take k).getLast?.map MousePacket.fields).getD before

theorem shownAfter_cons (before : Fields) (p : MousePacket)
    (ps : List MousePacket) (k : Nat) :
    shownAfter before (p :: ps) (k + 1) = shownAfter p.fields ps k := by
  unfold shownAfter
  rw [List.take_succ_cons, List.getLast?_cons]
  cases (ps.take k).getLast? <;> rfl

/-- Where the driver stands after the first `n` bytes of a stream, seen
from the boundary it started at. -/
theorem exec_take {ps : List MousePacket} :
    ∀ {bs : List ByteRead} {d : MouseDriver} {c n : Nat},
      Feeds bs ps → Aligned d → d.totalPackets = c % 2 ^ 32 →
      n ≤ bs.length →
      ∃ d', exec interrupt d (bs.take n) = some d'
        ∧ d'.counter = (n % 3 : Nat)
        ∧ d'.totalPackets = (c + n / 3) % 2 ^ 32
        ∧ d'.packet1.fields = shownAfter d.packet1.fields ps (n / 3) := by
  induction ps with
  | nil =>
      intro bs d c n hf hd htotal hn
      have hnil : bs = [] := List.map_eq_nil_iff.1 hf.bytes
      subst hnil
      have hzero : n = 0 := Nat.le_zero.1 hn
      subst hzero
      exact ⟨d, rfl, hd.counter, htotal, rfl⟩
  | cons p ps ih =>
      intro bs d c n hf hd htotal hn
      obtain ⟨b₀, b₁, b₂, rest, rfl, h₀, h₁, h₂, hc₀, hc₁, hc₂, hrest⟩ :=
        hf.uncons
      have hi₀ := interrupt_first hd hc₀
        (.inr (h₀ ▸ marked_flags p : marked b₀.byte = true))
      have hi₁ := interrupt_second hd hc₁ b₀.byte
      have hi₂ := interrupt_third hd hc₂ b₀.byte b₁.byte
      match n with
      | 0 => exact ⟨d, rfl, hd.counter, htotal, rfl⟩
      | 1 =>
          refine ⟨d.first b₀.byte, ?_, rfl, htotal, rfl⟩
          simp [exec, hi₀]
      | 2 =>
          refine ⟨(d.first b₀.byte).second b₁.byte, ?_, rfl, htotal, rfl⟩
          simp [exec, hi₀, hi₁]
      | n + 3 =>
          have hfields : (((d.first b₀.byte).second b₁.byte).third
              b₂.byte).packet1.fields = p.fields :=
            decode_fields p _ h₀ h₁ h₂
          obtain ⟨d', hexec, hcounter, hpub, hshown⟩ := ih hrest
            (hd.third b₀.byte b₁.byte b₂.byte) (c := c + 1) (n := n)
            (by show (d.totalPackets + 1) % 2 ^ 32 = _; omega)
            (by simpa using hn)
          refine ⟨d', ?_, ?_, ?_, ?_⟩
          · simp only [List.take_succ_cons, exec, hi₀, hi₁, hi₂]
            exact hexec
          · rw [hcounter]
            omega
          · rw [hpub]
            omega
          · rw [hshown, hfields, show (n + 3) / 3 = n / 3 + 1 by omega,
              shownAfter_cons]

/-- Decoding undoes the encoding over whole streams: after the third
byte of each packet its fields are on show, the byte counter is back at
zero and the packet is counted; in between the fields stay. -/
theorem decode_undoes_encode {ps : List MousePacket} {bs : List ByteRead}
    (h : Feeds bs ps) :
    (∀ k p, ps[k]? = some p →
        ∃ d, exec interrupt MouseDriver.init (bs.take (3 * (k + 1))) = some d
          ∧ d.packet1.fields = p.fields ∧ d.counter = 0
          ∧ d.totalPackets = (k + 1) % 2 ^ 32)
      ∧ (∀ n, n ≤ bs.length →
        ∃ d d', exec interrupt MouseDriver.init (bs.take (3 * (n / 3)))
            = some d
          ∧ exec interrupt MouseDriver.init (bs.take n) = some d'
          ∧ d'.packet1.fields = d.packet1.fields) := by
  have hlength : bs.length = 3 * ps.length := by
    have hlen := congrArg List.length h.bytes
    rw [List.length_map, List.length_flatMap] at hlen
    simpa [MousePacket.encode, Nat.mul_comm] using hlen
  constructor
  · intro k p hp
    obtain ⟨hk, hget⟩ := List.getElem?_eq_some_iff.1 hp
    obtain ⟨d, hexec, hcounter, htotal, hshown⟩ := exec_take h aligned_init
      (c := 0) (n := 3 * (k + 1)) rfl (by omega)
    refine ⟨d, hexec, ?_, ?_, ?_⟩
    · rw [hshown, show 3 * (k + 1) / 3 = k + 1 by omega]
      unfold shownAfter
      rw [List.take_add_one, hp]
      simp
    · rw [hcounter]
      simp
    · rw [htotal]
      simp
  · intro n hn
    obtain ⟨d, hexec, -, -, hshown⟩ := exec_take h aligned_init
      (c := 0) (n := 3 * (n / 3)) rfl (by omega)
    obtain ⟨d', hexec', -, -, hshown'⟩ := exec_take h aligned_init
      (c := 0) (n := n) rfl hn
    refine ⟨d, d', hexec, hexec', ?_⟩
    rw [hshown, hshown', show 3 * (n / 3) / 3 = n / 3 by omega]

theorem clean_cleanRead (byte : UInt8) : (cleanRead byte).clean = true :=
  decide_eq_true (show (0x21 : UInt8) &&& kbcErr = 0 by decide)

theorem clean_map_cleanRead (bytes : List UInt8) :
    ∀ b ∈ bytes.map cleanRead, b.clean = true := by
  intro b hb
  obtain ⟨byte, -, rfl⟩ := List.mem_map.1 hb
  exact clean_cleanRead byte

/-- Every list of packets has a stream. -/
theorem feeds_cleanRead (ps : List MousePacket) :
    Feeds ((ps.flatMap MousePacket.encode).map cleanRead) ps := by
  refine ⟨clean_map_cleanRead _, ?_⟩
  rw [List.map_map]
  exact List.map_id _

/-- The largest movement to the left and down, with the left button. -/
def farPacket : MousePacket :=
  { deltaX := -256, deltaY := 255, lb := true, mb := false, rb := false
    xOv := true, yOv := false, xRange := by decide, yRange := by decide }

theorem decode_undoes_encode_far :
    ∃ d, exec interrupt MouseDriver.init
        ([0x59, 0x00, 0xFF].map cleanRead) = some d
      ∧ d.packet1.deltaX = -256 ∧ d.packet1.deltaY = 255
      ∧ d.packet1.lb = true ∧ d.counter = 0 ∧ d.totalPackets = 1 := by
  obtain ⟨d, hexec, hfields, hcounter, htotal⟩ :=
    (decode_undoes_encode (feeds_cleanRead [farPacket])).1 0 farPacket rfl
  unfold Packet.fields MousePacket.fields at hfields
  simp only [Prod.mk.injEq] at hfields
  obtain ⟨hlb, -, -, -, -, hx, hy⟩ := hfields
  exact ⟨d, hexec, hx, hy, hlb, hcounter, htotal⟩

-- ========================================================== the framing

section

variable {d : MouseDriver}

/-- An interrupt that publishes nothing. -/
theorem publishesMarked_quiet {b : ByteRead} {d' : MouseDriver}
    (hi : interrupt d b = some d') (ht : d'.totalPackets = d.totalPackets) :
    PublishesMarked d b := by
  intro d'' hi'' hne
  rw [hi] at hi''
  cases hi''
  exact absurd ht hne

/-- A synchronised driver publishes every third byte, so the stream is
right exactly if its groups of three start with a mark. -/
theorem along_synced_iff : ∀ (bs : List ByteRead) {d : MouseDriver},
    (∀ b ∈ bs, b.clean = true) → Aligned d → d.isSync = true →
    (Along interrupt PublishesMarked d bs
      ↔ Framed (bs.map ByteRead.byte))
  | [], d, _, _, _ => ⟨fun _ => trivial, fun _ => along_nil⟩
  | [b₀], d, hc, hd, hs => by
      have hi₀ := interrupt_first hd (hc b₀ (by simp)) (.inl hs)
      rw [along_cons_of_step hi₀]
      exact ⟨fun _ => trivial,
        fun _ => ⟨publishesMarked_quiet hi₀ rfl, along_nil⟩⟩
  | [b₀, b₁], d, hc, hd, hs => by
      have hi₀ := interrupt_first hd (hc b₀ (by simp)) (.inl hs)
      have hi₁ := interrupt_second hd (hc b₁ (by simp)) b₀.byte
      rw [along_cons_of_step hi₀, along_cons_of_step hi₁]
      exact ⟨fun _ => trivial, fun _ => ⟨publishesMarked_quiet hi₀ rfl,
        publishesMarked_quiet hi₁ rfl, along_nil⟩⟩
  | b₀ :: b₁ :: b₂ :: rest, d, hc, hd, hs => by
      have hi₀ := interrupt_first hd (hc b₀ (by simp)) (.inl hs)
      have hi₁ := interrupt_second hd (hc b₁ (by simp)) b₀.byte
      have hi₂ := interrupt_third hd (hc b₂ (by simp)) b₀.byte b₁.byte
      have hrest := along_synced_iff rest
        (d := ((d.first b₀.byte).second b₁.byte).third b₂.byte)
        (fun b hb => hc b (by simp [hb])) (hd.third _ _ _) rfl
      have hpub : PublishesMarked ((d.first b₀.byte).second b₁.byte) b₂
          ↔ marked b₀.byte = true := by
        constructor
        · intro h
          exact h _ hi₂ (published_ne d.totalPackets)
        · intro hm d' hd' _
          rw [hi₂] at hd'
          cases hd'
          exact hm
      rw [along_cons_of_step hi₀, along_cons_of_step hi₁,
        along_cons_of_step hi₂, hpub, hrest]
      exact ⟨fun h => h.2.2, fun h => ⟨publishesMarked_quiet hi₀ rfl,
        publishesMarked_quiet hi₁ rfl, h⟩⟩

/-- Before synchronisation the driver waits for a mark. -/
theorem along_unsynced_iff {bs : List ByteRead}
    (hc : ∀ b ∈ bs, b.clean = true) (hd : Aligned d)
    (hs : d.isSync = false) :
    Along interrupt PublishesMarked d bs
      ↔ Framed ((bs.map ByteRead.byte).dropWhile fun b => !marked b) := by
  induction bs generalizing d with
  | nil => exact ⟨fun _ => trivial, fun _ => along_nil⟩
  | cons b bs ih =>
      have hcb : b.clean = true := hc b (by simp)
      rw [List.map_cons, List.dropWhile_cons]
      cases hm : marked b.byte with
      | false =>
          have hi := interrupt_dropped hd hcb hs hm
          have hrest := ih (d := { d with readPacket := b.byte })
            (fun b hb => hc b (by simp [hb])) ⟨hd.counter, hd.readingError⟩
            hs
          rw [along_cons_of_step hi, Bool.not_false, if_pos rfl, ← hrest]
          exact ⟨fun h => h.2,
            fun h => ⟨publishesMarked_quiet hi rfl, h⟩⟩
      | true =>
          -- from here on as if it had been synchronised before
          have hsync := along_synced_iff (b :: bs)
            (d := { d with isSync := true }) hc
            ⟨hd.counter, hd.readingError⟩ rfl
          have hi := interrupt_first hd hcb (.inr hm)
          have hi' := interrupt_first (d := { d with isSync := true })
            ⟨hd.counter, hd.readingError⟩ hcb (.inl rfl)
          rw [Bool.not_true, if_neg (by decide), ← List.map_cons, ← hsync,
            along_cons, along_cons]
          unfold PublishesMarked
          rw [hi, hi']
          exact Iff.rfl

end

/-- The framing check holds of a clean stream exactly if, from the first
marked byte on, every complete group of three bytes starts with a marked
one. -/
theorem framing_check_iff {bs : List ByteRead}
    (hc : ∀ b ∈ bs, b.clean = true) :
    FramingCheck bs
      ↔ Framed ((bs.map ByteRead.byte).dropWhile fun b => !marked b) :=
  along_unsynced_iff hc aligned_init rfl

/-- Two unmarked bytes, then a packet and the start of a second one. -/
theorem framing_check_late :
    FramingCheck ([0x00, 0x07, 0x08, 0x00, 0x00, 0x18].map cleanRead) := by
  exact (framing_check_iff (clean_map_cleanRead _)).2 ⟨rfl, trivial⟩

/-- The second group of three is published without a mark. -/
theorem framing_check_fails :
    ∃ bs : List ByteRead, (∀ b ∈ bs, b.clean = true) ∧ ¬FramingCheck bs := by
  refine ⟨[0x08, 0x00, 0x00, 0x00, 0x00, 0x00].map cleanRead,
    clean_map_cleanRead _, ?_⟩
  intro h
  have hframed :=
    (along_unsynced_iff (clean_map_cleanRead _) aligned_init rfl).1 h
  cases hframed.2.1

end Lcom.Proj
