/-
`mouse_test_packet` on a stream read without error.

Then every byte is handed on, and the driver moves through the bytes of a
packet: from the first marked byte on, every three bytes are a packet,
whatever they start with (`groups`). The loop prints them in order until
it has printed as many as it was asked for (`packetLoop_clean`); messages
without the mouse bit in between change nothing (`packetLoop_messages`).

So what the test prints is known for every such stream
(`mouseTestPacket_groups`), and for one that carries packets it is what
the mouse reported, whatever unmarked bytes came before the first
(`mouseTestPacket_reports`).
-/
import Lcom.Lab4.Proofs.PacketTest

namespace Lcom.Lab4

open Machine Proj

-- ========================================================== the packets

/-- The bytes in threes. -/
def groups : List UInt8 → List Packet
  | b₀ :: b₁ :: b₂ :: rest => ofBytes b₀ b₁ b₂ :: groups rest
  | _ => []

/-- The packets of a stream: the bytes before the first marked one are
lost. -/
def packetsOf (bytes : List UInt8) : List Packet :=
  groups (bytes.dropWhile fun byte => !marked byte)

/-- The packets of a stream that carries packets are those, after any
unmarked bytes. -/
theorem packetsOf_encode {junk : List UInt8}
    (hjunk : ∀ byte ∈ junk, marked byte = false) (ps : List MousePacket) :
    (packetsOf (junk ++ ps.flatMap MousePacket.encode)).map Packet.fields
      = ps.map MousePacket.fields := by
  have hgroups : ∀ ps : List MousePacket,
      (groups (ps.flatMap MousePacket.encode)).map Packet.fields
        = ps.map MousePacket.fields := by
    intro ps
    induction ps with
    | nil => rfl
    | cons p ps ih =>
        show (ofBytes p.flags (lowByte p.deltaX)
          (lowByte p.deltaY)).fields :: (groups
            (ps.flatMap MousePacket.encode)).map Packet.fields = _
        rw [ih]
        congr 1
        exact decode_fields p _ rfl rfl rfl
  have hall : ∀ byte ∈ junk, (!marked byte) = true := by
    intro byte hb
    rw [hjunk byte hb]
    rfl
  unfold packetsOf
  rw [List.dropWhile_append_of_pos hall]
  cases ps with
  | nil => rfl
  | cons p ps =>
      have hmark : ¬(!marked p.flags) = true := by
        rw [marked_flags]
        decide
      rw [List.flatMap_cons, MousePacket.encode, List.cons_append,
        List.dropWhile_cons, if_neg hmark]
      exact hgroups (p :: ps)

-- ============================================================= the loop

section

variable {cnt : UInt32} {d : MouseDriver}

/-- Messages without the mouse bit change nothing. -/
theorem packetLoop_messages : ∀ (ns : List (Option (List PortReads)))
    (d : MouseDriver),
    packetLoop cnt d ns = packetLoop cnt d ((ns.filterMap id).map some) := by
  intro ns
  induction ns with
  | nil => exact fun _ => rfl
  | cons n ns ih =>
      intro d
      by_cases hmore : d.totalPackets < cnt.toNat
      · cases n with
        | none =>
            rw [packetLoop, if_pos hmore]
            exact ih d
        | some reads =>
            show packetLoop cnt d (some reads :: ns)
              = packetLoop cnt d (some reads :: (ns.filterMap id).map some)
            rw [packetLoop, packetLoop, if_pos hmore, if_pos hmore]
            cases mouseIh d reads with
            | none => rfl
            | some d' =>
                dsimp only
                rw [ih d'.dispatched]
      · rw [packetLoop_over (by omega), packetLoop_over (by omega)]

/-- A message with a byte read without error. -/
theorem packetLoop_byte {b : ByteRead} (h : d.totalPackets < cnt.toNat)
    (hc : b.clean = true) (he : d.readingError = false) {d' : MouseDriver}
    (hd : printMousePacket { d with readPacket := b.byte } = d')
    (ns : List (Option (List PortReads))) :
    packetLoop cnt d (some b.reads :: ns)
      = printing (printed { d with readPacket := b.byte }).toList
          (packetLoop cnt d' ns) := by
  obtain ⟨hread, hdis, hdone⟩ := handed_on hc he hd
  rw [packetLoop, if_pos h, hread]
  dsimp only
  rw [hdis, hdone]
  rfl

/-- The messages of a stream. -/
def messagesOf (bs : List ByteRead) : List (Option (List PortReads)) :=
  bs.map fun b => some b.reads

/-- The next packet of a synchronised stream. -/
theorem packetLoop_group (hd : Aligned d) (hs : d.isSync = true)
    (h : d.totalPackets < cnt.toNat) {b₀ b₁ b₂ : ByteRead}
    (h₀ : b₀.clean = true) (h₁ : b₁.clean = true) (h₂ : b₂.clean = true)
    (rest : List ByteRead) :
    ∃ d', packetLoop cnt d (messagesOf (b₀ :: b₁ :: b₂ :: rest))
        = printing [ofBytes b₀.byte b₁.byte b₂.byte]
            (packetLoop cnt d' (messagesOf rest))
      ∧ Aligned d' ∧ d'.isSync = true
      ∧ d'.totalPackets = (d.totalPackets + 1) % 2 ^ 32 := by
  obtain ⟨hprint, hsome⟩ := printed_third
    (d := (d.first b₀.byte).second b₁.byte) rfl rfl b₂.byte
  refine ⟨_, ?_, hd.third b₀.byte b₁.byte b₂.byte, rfl, rfl⟩
  have herr := hd.readingError
  show packetLoop cnt d (some b₀.reads :: some b₁.reads :: some b₂.reads
    :: messagesOf rest) = _
  rw [packetLoop_byte h h₀ herr (print_first hd (.inl hs)),
    packetLoop_byte (d := d.first b₀.byte) h h₁ herr
      (print_second d b₀.byte b₁.byte),
    packetLoop_byte (d := (d.first b₀.byte).second b₁.byte) h h₂ herr
      hprint,
    printed_first hd.counter, printed_second, hsome]
  rfl

/-- Less than a packet prints nothing, and the loop goes on waiting. -/
theorem packetLoop_rest (hd : Aligned d) (hs : d.isSync = true)
    (h : d.totalPackets < cnt.toNat) {bs : List ByteRead}
    (hc : ∀ b ∈ bs, b.clean = true) (hlen : bs.length ≤ 2) :
    packetLoop cnt d (messagesOf bs) = ⟨[], none⟩ := by
  have herr := hd.readingError
  have hwait : ∀ d : MouseDriver, d.totalPackets < cnt.toNat →
      packetLoop cnt d [] = ⟨[], none⟩ := by
    intro d h
    rw [packetLoop, if_pos h]
  rcases bs with _ | ⟨b₀, _ | ⟨b₁, _ | ⟨b₂, bs⟩⟩⟩
  · exact hwait d h
  · show packetLoop cnt d [some b₀.reads] = _
    rw [packetLoop_byte h (hc b₀ (by simp)) herr
      (print_first hd (.inl hs)), printed_first hd.counter,
      hwait (d.first b₀.byte) h]
    rfl
  · show packetLoop cnt d [some b₀.reads, some b₁.reads] = _
    rw [packetLoop_byte h (hc b₀ (by simp)) herr
        (print_first hd (.inl hs)),
      packetLoop_byte (d := d.first b₀.byte) h (hc b₁ (by simp)) herr
        (print_second d b₀.byte b₁.byte),
      printed_first hd.counter, printed_second,
      hwait ((d.first b₀.byte).second b₁.byte) h]
    rfl
  · simp at hlen

/-- A synchronised driver, with `n` packets to go: the loop prints the
next `n` groups, and it ends if there are as many. -/
theorem packetLoop_synced : ∀ (bs : List ByteRead) {d : MouseDriver}
    {n : Nat}, (∀ b ∈ bs, b.clean = true) → Aligned d → d.isSync = true →
    d.totalPackets + n = cnt.toNat →
    (packetLoop cnt d (messagesOf bs)).trace
        = (groups (bs.map ByteRead.byte)).take n
      ∧ ((packetLoop cnt d (messagesOf bs)).result ≠ none
        ↔ n ≤ (groups (bs.map ByteRead.byte)).length)
  | bs, d, 0, _, _, _, htotal => by
      rw [packetLoop_over (by omega)]
      exact ⟨rfl, iff_of_true nofun (Nat.zero_le _)⟩
  | b₀ :: b₁ :: b₂ :: rest, d, n + 1, hc, hd, hs, htotal => by
      have hcnt := cnt.toNat_lt
      obtain ⟨d', hloop, hd', hs', htotal'⟩ := packetLoop_group hd hs
        (show d.totalPackets < cnt.toNat by omega) (hc b₀ (by simp))
        (hc b₁ (by simp)) (hc b₂ (by simp)) rest
      obtain ⟨htrace, hres⟩ := packetLoop_synced rest (n := n)
        (fun b hb => hc b (by simp [hb])) hd' hs' (by omega)
      have hgroups : groups ((b₀ :: b₁ :: b₂ :: rest).map ByteRead.byte)
          = ofBytes b₀.byte b₁.byte b₂.byte
            :: groups (rest.map ByteRead.byte) := rfl
      rw [hloop, hgroups]
      refine ⟨?_, hres.trans ?_⟩
      · rw [List.take_succ_cons, ← htrace]
        rfl
      · rw [List.length_cons]
        omega
  | [], d, n + 1, hc, hd, hs, htotal => by
      rw [packetLoop_rest hd hs (by omega) hc (by simp)]
      exact ⟨rfl, iff_of_false (fun h => h rfl) (by simp [groups])⟩
  | [_], d, n + 1, hc, hd, hs, htotal => by
      rw [packetLoop_rest hd hs (by omega) hc (by simp)]
      exact ⟨rfl, iff_of_false (fun h => h rfl) (by simp [groups])⟩
  | [_, _], d, n + 1, hc, hd, hs, htotal => by
      rw [packetLoop_rest hd hs (by omega) hc (by simp)]
      exact ⟨rfl, iff_of_false (fun h => h rfl) (by simp [groups])⟩

/-- Before synchronisation an unmarked byte is dropped, -/
theorem packetLoop_unmarked {b : ByteRead} (hd : Aligned d)
    (hs : d.isSync = false) (h : d.totalPackets < cnt.toNat)
    (hc : b.clean = true) (hm : marked b.byte = false)
    (bs : List ByteRead) :
    packetLoop cnt d (messagesOf (b :: bs))
      = packetLoop cnt { d with readPacket := b.byte } (messagesOf bs) := by
  have hzero : b.byte &&& 0x08 = 0 := by
    unfold marked at hm
    simpa using hm
  have hdrop : printMousePacket { d with readPacket := b.byte }
      = { d with readPacket := b.byte } := by
    unfold printMousePacket
    simp [hs, hzero]
  show packetLoop cnt d (some b.reads :: messagesOf bs) = _
  rw [packetLoop_byte h hc hd.readingError hdrop, printed_first hd.counter]
  rfl

/-- and a marked one read as if the driver had been synchronised
before. -/
theorem packetLoop_marked {b : ByteRead} (hd : Aligned d)
    (h : d.totalPackets < cnt.toNat) (hc : b.clean = true)
    (hm : marked b.byte = true) (bs : List ByteRead) :
    packetLoop cnt d (messagesOf (b :: bs))
      = packetLoop cnt { d with isSync := true }
          (messagesOf (b :: bs)) := by
  have hd' : Aligned { d with isSync := true } :=
    ⟨hd.counter, hd.readingError⟩
  show packetLoop cnt d (some b.reads :: messagesOf bs)
    = packetLoop cnt { d with isSync := true }
        (some b.reads :: messagesOf bs)
  rw [packetLoop_byte h hc hd.readingError (print_first hd (.inr hm)),
    packetLoop_byte (d := { d with isSync := true }) h hc hd.readingError
      (print_first hd' (.inl rfl)),
    printed_first hd.counter, printed_first hd'.counter]
  rfl

/-- From the start the bytes up to the first marked one are lost. -/
theorem packetLoop_clean {bs : List ByteRead} {n : Nat}
    (hc : ∀ b ∈ bs, b.clean = true) (hd : Aligned d)
    (hs : d.isSync = false) (htotal : d.totalPackets + n = cnt.toNat) :
    (packetLoop cnt d (messagesOf bs)).trace
        = (packetsOf (bs.map ByteRead.byte)).take n
      ∧ ((packetLoop cnt d (messagesOf bs)).result ≠ none
        ↔ n ≤ (packetsOf (bs.map ByteRead.byte)).length) := by
  cases n with
  | zero =>
      rw [packetLoop_over (by omega)]
      exact ⟨rfl, iff_of_true nofun (Nat.zero_le _)⟩
  | succ n =>
      have hmore : d.totalPackets < cnt.toNat := by omega
      induction bs generalizing d with
      | nil =>
          show (packetLoop cnt d []).trace = [] ∧
            ((packetLoop cnt d []).result ≠ none ↔ n + 1 ≤ 0)
          rw [packetLoop, if_pos hmore]
          exact ⟨rfl, iff_of_false (fun h => h rfl) (by omega)⟩
      | cons b bs ih =>
          have hcb : b.clean = true := hc b (by simp)
          unfold packetsOf
          rw [List.map_cons, List.dropWhile_cons]
          cases hm : marked b.byte with
          | false =>
              rw [packetLoop_unmarked hd hs hmore hcb hm, Bool.not_false,
                if_pos rfl]
              exact ih (fun b' hb' => hc b' (by simp [hb']))
                ⟨hd.counter, hd.readingError⟩ hs htotal hmore
          | true =>
              rw [packetLoop_marked hd hmore hcb hm, Bool.not_true,
                if_neg (by decide), ← List.map_cons]
              exact packetLoop_synced (b :: bs) hc
                ⟨hd.counter, hd.readingError⟩ rfl htotal

end

-- ============================================================= the test

/-- The mouse is enabled before the loop and disabled after it. -/
structure Served (w : PacketSession) : Prop where
  enable : (enableMouseData w.stream w.enable).result = some 0
  disable : (disableMouseData w.disable w.streamAgain).result = some 0

/-- Such a test prints what its loop prints, and returns 0 if that
ends. -/
theorem Served.test {w : PacketSession} (h : Served w) (cnt : UInt32)
    (d : MouseDriver) :
    prints (mouseTestPacket cnt d w).trace
        = (packetLoop cnt d w.messages).trace
      ∧ (mouseTestPacket cnt d w).result
        = (packetLoop cnt d w.messages).result.map fun _ => 0 := by
  have hcall : (polled (enableMouseData w.stream w.enable)).result
      = some 0 := h.enable
  have hcall' : (polled (disableMouseData w.disable w.streamAgain)).result
      = some 0 := h.disable
  have htest : mouseTestPacket cnt d w
      = ⟨(polled (enableMouseData w.stream w.enable)).trace
          ++ (subscribed cnt d w).trace, (subscribed cnt d w).result⟩ := by
    have hbind : mouseTestPacket cnt d w
        = (polled (enableMouseData w.stream w.enable)).bind fun r =>
          unlessFailed r (subscribed cnt d w) := rfl
    rw [hbind, Polled.bind_returns hcall]
    rfl
  rw [htest, prints_append, prints_ports, List.nil_append,
    subscribed_spec.1]
  refine ⟨rfl, ?_⟩
  have hact : ∀ a : Action, (Polled.act a).result = some () := fun _ => rfl
  unfold subscribed
  rw [Polled.bind_returns (hact .subscribe)]
  cases hl : (packetLoop cnt d w.messages).result with
  | none =>
      have hloop : ((packetLoop cnt d w.messages).lift
          Action.print).result = none := hl
      exact Polled.bind_hangs hloop _
  | some d' =>
      have hloop : ((packetLoop cnt d w.messages).lift
          Action.print).result = some d' := hl
      rw [Polled.bind_returns hloop, Polled.bind_returns (hact .unsubscribe),
        Polled.bind_returns hcall']
      rfl

section

variable {cnt : UInt32} {w : PacketSession} {bs : List ByteRead}

/-- The loop on a stream read without error, from the start. -/
theorem packetLoop_stream (cnt : UInt32)
    (hbytes : w.messages.filterMap id = bs.map ByteRead.reads)
    (hc : ∀ b ∈ bs, b.clean = true) :
    (packetLoop cnt MouseDriver.init w.messages).trace
        = (packetsOf (bs.map ByteRead.byte)).take cnt.toNat
      ∧ ((packetLoop cnt MouseDriver.init w.messages).result ≠ none
        ↔ cnt.toNat ≤ (packetsOf (bs.map ByteRead.byte)).length) := by
  have hmessages : (w.messages.filterMap id).map some = messagesOf bs := by
    rw [hbytes, List.map_map]
    rfl
  have htotal : MouseDriver.init.totalPackets + cnt.toNat = cnt.toNat :=
    Nat.zero_add _
  rw [packetLoop_messages, hmessages]
  exact packetLoop_clean hc aligned_init rfl htotal

/-- On a stream read without error the test prints the groups of three
bytes from the first marked byte on, as many as it was asked for, and
returns exactly if there are as many; a group need not start with a
marked byte. -/
theorem mouseTestPacket_groups (h : Served w)
    (hbytes : w.messages.filterMap id = bs.map ByteRead.reads)
    (hc : ∀ b ∈ bs, b.clean = true) :
    prints (mouseTestPacket cnt MouseDriver.init w).trace
        = (packetsOf (bs.map ByteRead.byte)).take cnt.toNat
      ∧ (mouseTestPacket cnt MouseDriver.init w).result
        = if cnt.toNat ≤ (packetsOf (bs.map ByteRead.byte)).length
          then some 0 else none := by
  obtain ⟨hprints, hres⟩ := h.test cnt MouseDriver.init
  obtain ⟨htrace, hends⟩ := packetLoop_stream cnt hbytes hc
  rw [hprints, hres]
  refine ⟨htrace, ?_⟩
  split
  · next hle =>
      obtain ⟨d', hd'⟩ := Option.ne_none_iff_exists'.1 (hends.2 hle)
      rw [hd']
      rfl
  · next hle =>
      have hnone := not_not.1 fun hne => hle (hends.1 hne)
      rw [hnone]
      rfl

/-- A mouse that reports as many packets as the test asks for, after any
unmarked bytes: the test returns, and has printed what was reported. -/
theorem mouseTestPacket_reports (h : Served w) {junk : List UInt8}
    {ps : List MousePacket}
    (hbytes : w.messages.filterMap id = bs.map ByteRead.reads)
    (hc : ∀ b ∈ bs, b.clean = true)
    (hstream : bs.map ByteRead.byte
      = junk ++ ps.flatMap MousePacket.encode)
    (hjunk : ∀ byte ∈ junk, marked byte = false)
    (hlen : cnt.toNat ≤ ps.length) :
    (mouseTestPacket cnt MouseDriver.init w).result = some 0
      ∧ (prints (mouseTestPacket cnt MouseDriver.init w).trace).map
          Packet.fields = (ps.take cnt.toNat).map MousePacket.fields := by
  have hfields := packetsOf_encode hjunk ps
  rw [← hstream] at hfields
  have hcount : (packetsOf (bs.map ByteRead.byte)).length = ps.length := by
    have := congrArg List.length hfields
    rwa [List.length_map, List.length_map] at this
  obtain ⟨hprints, hres⟩ := h.test cnt MouseDriver.init
  obtain ⟨htrace, hends⟩ := packetLoop_stream cnt hbytes hc
  rw [hcount] at hends
  obtain ⟨d', hd'⟩ := Option.ne_none_iff_exists'.1 (hends.2 hlen)
  refine ⟨?_, ?_⟩
  · rw [hres, hd']
    rfl
  · rw [hprints, htrace, List.map_take, hfields, List.map_take]

end

-- ============================================================= sessions

/-- A session in which every command is acknowledged, with a message that
is not the mouse's before each byte. -/
def promptMessages (bytes : List UInt8) : PacketSession :=
  { stream := prompt, enable := prompt
    messages := (bytes.map cleanRead).flatMap fun b => [none, some b.reads]
    disable := prompt, streamAgain := prompt }

theorem served_prompt (bytes : List UInt8) :
    Served (promptMessages bytes) := ⟨rfl, rfl⟩

theorem promptMessages_reads (bytes : List UInt8) :
    (promptMessages bytes).messages.filterMap id
      = (bytes.map cleanRead).map ByteRead.reads := by
  show ((bytes.map cleanRead).flatMap fun b =>
    [none, some b.reads]).filterMap id = _
  induction bytes.map cleanRead with
  | nil => rfl
  | cons b bs ih =>
      rw [List.flatMap_cons, List.filterMap_append, ih]
      rfl

theorem bytes_cleanRead (bytes : List UInt8) :
    (bytes.map cleanRead).map ByteRead.byte = bytes := by
  rw [List.map_map]
  exact List.map_id _

/-- The second packet printed does not start with a marked byte. -/
theorem mouseTestPacket_groups_unmarked :
    prints (mouseTestPacket 2 MouseDriver.init
      (promptMessages [0x07, 0x08, 0x00, 0x00, 0x00, 0x05, 0x06])).trace
      = [ofBytes 0x08 0x00 0x00, ofBytes 0x00 0x05 0x06] :=
  (@mouseTestPacket_groups 2 _ _ (served_prompt _)
    (promptMessages_reads [0x07, 0x08, 0x00, 0x00, 0x00, 0x05, 0x06])
    (clean_map_cleanRead _)).1

/-- Both packets are printed as they were reported. -/
theorem mouseTestPacket_reports_two :
    (prints (mouseTestPacket 2 MouseDriver.init (promptMessages
      (0x07 :: [moveRight, dragUp].flatMap MousePacket.encode))).trace).map
        Packet.fields = [moveRight.fields, dragUp.fields] :=
  (@mouseTestPacket_reports 2 _ _ (served_prompt _) [0x07]
    [moveRight, dragUp]
    (promptMessages_reads
      (0x07 :: [moveRight, dragUp].flatMap MousePacket.encode))
    (clean_map_cleanRead _)
    (bytes_cleanRead
      (0x07 :: [moveRight, dragUp].flatMap MousePacket.encode))
    (by
      intro byte hb
      rw [List.mem_singleton.1 hb]
      rfl) (by decide)).2

end Lcom.Lab4
