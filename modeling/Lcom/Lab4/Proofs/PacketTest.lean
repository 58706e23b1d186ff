/-
`mouse_test_packet`, on any stream of bytes.

A packet is printed exactly where `total_packets` is counted up
(`printed_total`), because the counter stands at one of the three bytes
whenever a byte is handed on. So whatever the bytes and their errors, the
test has printed as many packets as it was asked for when its loop ends,
and never more (`mouseTestPacket_counts`).
-/
import Lcom.Lab4.Proofs.Remote
import Lcom.Proj.Proofs.Counter

namespace Lcom.Lab4

open Machine Proj

-- =========================================================== one message

/-- A byte that is not dropped is stored, by a synchronised driver. -/
theorem printMousePacket_stored {d : MouseDriver}
    (h : ¬(d.isSync = false ∧ d.readPacket &&& 0x08 = 0)) :
    printMousePacket d = storeByte { d with isSync := true } := by
  unfold printMousePacket
  cases hs : d.isSync with
  | true =>
      have hd : { d with isSync := true } = d := by rw [← hs]
      rw [if_neg (by decide), hd]
  | false => rw [if_pos rfl, if_neg fun hm => h ⟨hs, hm⟩]

/-- A byte is counted if it is the third. -/
theorem storeByte_total {d : MouseDriver} :
    (storeByte d).totalPackets
      = if d.counter = 2 then (d.totalPackets + 1) % 2 ^ 32
        else d.totalPackets := by
  unfold storeByte
  dsimp only
  split
  · next h₀ => simp [h₀]
  · split
    · next h₁ => simp [h₁]
    · split <;> rfl

/-- What is printed, at a byte of a packet that is not dropped. -/
theorem printed_stored {d : MouseDriver}
    (h : 0 ≤ d.counter ∧ d.counter ≤ 2)
    (hsync : ¬(d.isSync = false ∧ d.readPacket &&& 0x08 = 0)) :
    printed d = if d.counter = 2 then some (printMousePacket d).packet1
      else none := by
  unfold printed
  rw [if_neg hsync]
  split
  · next h₀ => simp [h₀]
  · split
    · next h₁ => simp [h₁]
    · have h₂ : d.counter = 2 := by omega
      rw [if_pos h₂]

/-- What is printed is counted. -/
theorem printed_total {d : MouseDriver}
    (h : 0 ≤ d.counter ∧ d.counter ≤ 2)
    (htotal : d.totalPackets + 1 < 2 ^ 32) :
    (printMousePacket d).totalPackets
      = d.totalPackets + (printed d).toList.length := by
  by_cases hdrop : d.isSync = false ∧ d.readPacket &&& 0x08 = 0
  · unfold printed printMousePacket
    rw [if_pos hdrop, if_pos hdrop.1, if_pos hdrop.2]
    rfl
  · rw [printed_stored h hdrop, printMousePacket_stored hdrop,
      storeByte_total]
    dsimp only
    split
    · show (d.totalPackets + 1) % 2 ^ 32 = d.totalPackets + 1
      omega
    · rfl

/-- What is printed has been decoded from its own bytes. -/
theorem printed_decoded {d : MouseDriver}
    (h : 0 ≤ d.counter ∧ d.counter ≤ 2) {p : Packet}
    (hp : printed d = some p) : p = p.decode := by
  by_cases hdrop : d.isSync = false ∧ d.readPacket &&& 0x08 = 0
  · unfold printed at hp
    rw [if_pos hdrop] at hp
    cases hp
  · rw [printed_stored h hdrop, printMousePacket_stored hdrop] at hp
    split at hp
    · next h₂ =>
        have hstored : (storeByte { d with isSync := true }).packet1
            = Packet.decode { d.packet1 with byte2 := d.readPacket } := by
          unfold storeByte
          simp [h₂]
        rw [hstored] at hp
        cases hp
        rfl
    · cases hp

-- ============================================================= the loop

section

variable {cnt : UInt32}

theorem packetLoop_over {d : MouseDriver} (h : cnt.toNat ≤ d.totalPackets)
    (ns : List (Option (List PortReads))) : packetLoop cnt d ns = .pure d := by
  have hover : ¬d.totalPackets < cnt.toNat := by omega
  match ns with
  | [] => rw [packetLoop, if_neg hover]
  | none :: ns => rw [packetLoop, if_neg hover]
  | some reads :: ns => rw [packetLoop, if_neg hover]

/-- The loop goes on from another driver, after printing. -/
def printing (out : List Packet) (rest : Polled Packet MouseDriver) :
    Polled Packet MouseDriver :=
  { rest with trace := out ++ rest.trace }

/-- A message with the mouse bit: the loop polls for good, or goes on from
the driver after the dispatch, which has counted what was printed. -/
theorem packetLoop_reads {d : MouseDriver} (h : d.totalPackets < cnt.toNat)
    (hd : d.Counts) (reads : List PortReads)
    (ns : List (Option (List PortReads))) :
    (packetLoop cnt d (some reads :: ns)).trace = []
        ∧ (packetLoop cnt d (some reads :: ns)).result = none
      ∨ ∃ d' out, packetLoop cnt d (some reads :: ns)
          = printing out (packetLoop cnt d' ns)
        ∧ d'.Counts ∧ d'.totalPackets = d.totalPackets + out.length
        ∧ out.length ≤ 1 ∧ ∀ p ∈ out, p = p.decode := by
  have hcnt := cnt.toNat_lt
  rw [packetLoop, if_pos h, mouseIh_eq]
  cases hr : mouseRead reads with
  | none => exact .inl ⟨rfl, rfl⟩
  | some r =>
      refine .inr ?_
      have htotal := (after_packet d r).2
      have hcounts := dispatched_counts hd r
      rw [Option.map_some]
      dsimp only
      rcases dispatched_cases d r with ⟨he, hc, hout⟩ | ⟨hq, he, hc, hout⟩
      · -- nothing is printed
        have hsame : (d.after r).dispatched.totalPackets = d.totalPackets := by
          rcases hout with ⟨-, hd'⟩ | ⟨-, hd'⟩ <;> rw [hd'] <;> exact htotal
        refine ⟨(d.after r).dispatched, [], ?_, hcounts, hsame, by simp,
          by simp⟩
        have hbyte : (d.after r).dispatch ≠ .byte := by
          intro hb
          rw [dispatch_byte_iff] at hb
          rcases after_error d r with ⟨herr, -⟩ | ⟨-, he', -⟩
          · rw [herr] at hb
            cases hb
          · rw [he] at he'
            cases he'
        cases hdis : (d.after r).dispatch with
        | skip => rfl
        | resync => rfl
        | byte => exact absurd hdis hbyte
      · have hbyte : (d.after r).dispatch = .byte := by
          rw [dispatch_byte_iff]
          rcases after_error d r with ⟨-, he', -⟩ | ⟨herr, -⟩
          · rw [he] at he'
            cases he'
          · exact herr
        have hrange : 0 ≤ (d.after r).counter ∧ (d.after r).counter ≤ 2 := by
          rcases hd with ⟨hlo, hhi, -⟩ | hdead
          · omega
          · rw [hdead.1] at hq
            cases hq
        refine ⟨(d.after r).dispatched, (printed (d.after r)).toList, ?_,
          hcounts, ?_, ?_, ?_⟩
        · rw [hbyte]
          rfl
        · rw [hout, printed_total hrange (by omega), htotal]
        · cases printed (d.after r) <;> simp
        · intro p hp
          exact printed_decoded hrange (Option.mem_toList.1 hp)

/-- A loop that has nothing left to count. -/
theorem packetLoop_full {d : MouseDriver} (h : d.totalPackets = cnt.toNat)
    (ns : List (Option (List PortReads))) :
    (packetLoop cnt d ns).trace.length + d.totalPackets ≤ cnt.toNat
      ∧ ((packetLoop cnt d ns).result ≠ none →
        (packetLoop cnt d ns).trace.length + d.totalPackets = cnt.toNat)
      ∧ ∀ p ∈ (packetLoop cnt d ns).trace, p = p.decode := by
  rw [packetLoop_over h.ge]
  refine ⟨?_, fun _ => ?_, fun p hp => by cases hp⟩
  · show 0 + d.totalPackets ≤ cnt.toNat
    omega
  · show 0 + d.totalPackets = cnt.toNat
    omega

/-- The loop prints as many packets as are left to count, and no more
before it ends; each of them is decoded from its own bytes. -/
theorem packetLoop_prints : ∀ (ns : List (Option (List PortReads)))
    {d : MouseDriver}, d.Counts → d.totalPackets ≤ cnt.toNat →
    (packetLoop cnt d ns).trace.length + d.totalPackets ≤ cnt.toNat
      ∧ ((packetLoop cnt d ns).result ≠ none →
        (packetLoop cnt d ns).trace.length + d.totalPackets = cnt.toNat)
      ∧ ∀ p ∈ (packetLoop cnt d ns).trace, p = p.decode := by
  intro ns
  induction ns with
  | nil =>
      intro d _ htotal
      by_cases hmore : d.totalPackets < cnt.toNat
      · rw [packetLoop, if_pos hmore]
        refine ⟨?_, fun h => absurd rfl h, fun p hp => by cases hp⟩
        show 0 + d.totalPackets ≤ cnt.toNat
        omega
      · exact packetLoop_full (by omega) []
  | cons n ns ih =>
      intro d hd htotal
      by_cases hmore : d.totalPackets < cnt.toNat
      · cases n with
        | none =>
            rw [packetLoop, if_pos hmore]
            exact ih hd htotal
        | some reads =>
            rcases packetLoop_reads hmore hd reads ns
              with ⟨htrace, hres⟩ | ⟨d', out, hloop, hd', htotal', hone, hout⟩
            · rw [htrace, hres]
              refine ⟨?_, fun h => absurd rfl h, fun p hp => by cases hp⟩
              show 0 + d.totalPackets ≤ cnt.toNat
              omega
            · obtain ⟨hmost, hexact, hall⟩ := ih hd' (by omega)
              have hlen : (packetLoop cnt d (some reads :: ns)).trace.length
                  = out.length + (packetLoop cnt d' ns).trace.length := by
                rw [hloop]
                exact List.length_append
              have hres : (packetLoop cnt d (some reads :: ns)).result
                  = (packetLoop cnt d' ns).result := by
                rw [hloop]
                rfl
              refine ⟨by omega, fun h => ?_, fun p hp => ?_⟩
              · rw [hres] at h
                have := hexact h
                omega
              · rw [hloop] at hp
                rcases List.mem_append.1 hp with hp | hp
                · exact hout p hp
                · exact hall p hp
      · exact packetLoop_full (by omega) (n :: ns)

end

-- ============================================================= the test

/-- What is subscribed is unsubscribed. -/
def Balanced (actions : List Action) : Prop :=
  actions.count .subscribe = actions.count .unsubscribe

/-- Neither commands nor prints subscribe. -/
theorem count_ports (e : Exchange) {a : Action}
    (h : a = .subscribe ∨ a = .unsubscribe) :
    (polled e).trace.count a = 0 := by
  refine List.count_eq_zero.2 fun hmem => ?_
  obtain ⟨access, -, rfl⟩ := List.mem_map.1 hmem
  rcases h with h | h <;> cases h

theorem count_prints (p : Polled Packet MouseDriver) {a : Action}
    (h : a = .subscribe ∨ a = .unsubscribe) :
    (p.lift .print).trace.count a = 0 := by
  refine List.count_eq_zero.2 fun hmem => ?_
  obtain ⟨packet, -, rfl⟩ := List.mem_map.1 hmem
  rcases h with h | h <;> cases h

theorem count_append_port {a : Action}
    (h : a = .subscribe ∨ a = .unsubscribe) (e : Exchange)
    (as : List Action) :
    ((polled e).trace ++ as).count a = as.count a := by
  rw [List.count_append, count_ports e h, Nat.zero_add]

section

variable {cnt : UInt32} {d : MouseDriver} {w : PacketSession}

theorem unlessFailed_trace (e : Exchange) :
    ((polled e).bind fun r => unlessFailed r (.pure 0)).trace
      = (polled e).trace := by
  unfold Polled.bind unlessFailed
  split
  · rfl
  · dsimp only
    split <;> exact List.append_nil _

/-- The test once the mouse is enabled. -/
def subscribed (cnt : UInt32) (d : MouseDriver) (w : PacketSession) :
    Polled Action Nat :=
  (Polled.act .subscribe).bind fun _ =>
    ((packetLoop cnt d w.messages).lift .print).bind fun _ =>
      (Polled.act .unsubscribe).bind fun _ =>
        (polled (disableMouseData w.disable w.streamAgain)).bind fun r =>
          unlessFailed r (.pure 0)

/-- While its loop runs it has printed what the loop has, and after it
too. -/
theorem subscribed_eq :
    subscribed cnt d w
        = ⟨.subscribe :: ((packetLoop cnt d w.messages).lift .print).trace,
          none⟩
        ∧ (packetLoop cnt d w.messages).result = none
      ∨ (subscribed cnt d w).trace
          = .subscribe :: ((packetLoop cnt d w.messages).lift .print).trace
            ++ .unsubscribe
              :: (polled (disableMouseData w.disable w.streamAgain)).trace
        ∧ (packetLoop cnt d w.messages).result ≠ none := by
  have hact : ∀ a : Action, (Polled.act a).result = some () := fun _ => rfl
  unfold subscribed
  rw [Polled.bind_returns (hact .subscribe)]
  cases hl : (packetLoop cnt d w.messages).result with
  | none =>
      have hloop : ((packetLoop cnt d w.messages).lift
          Action.print).result = none := hl
      left
      unfold Polled.bind
      rw [hloop]
      exact ⟨rfl, rfl⟩
  | some d' =>
      have hloop : ((packetLoop cnt d w.messages).lift
          Action.print).result = some d' := hl
      right
      rw [Polled.bind_returns hloop, Polled.bind_returns (hact .unsubscribe)]
      refine ⟨?_, nofun⟩
      dsimp only
      rw [unlessFailed_trace]
      rfl

theorem subscribed_spec :
    prints (subscribed cnt d w).trace
        = (packetLoop cnt d w.messages).trace
      ∧ ((subscribed cnt d w).result ≠ none →
        (packetLoop cnt d w.messages).result ≠ none
          ∧ Balanced (subscribed cnt d w).trace) := by
  have hsub : (Action.subscribe = .subscribe ∨ Action.subscribe = .unsubscribe)
    := .inl rfl
  have hunsub : (Action.unsubscribe = .subscribe
    ∨ Action.unsubscribe = .unsubscribe) := .inr rfl
  rcases @subscribed_eq cnt d w with ⟨he, -⟩ | ⟨he, hres⟩
  · rw [he]
    exact ⟨prints_lift _, fun h => absurd rfl h⟩
  · rw [he]
    refine ⟨?_, fun _ => ⟨hres, ?_⟩⟩
    · rw [prints_append]
      show prints ((packetLoop cnt d w.messages).lift .print).trace
        ++ prints (polled (disableMouseData w.disable w.streamAgain)).trace
        = _
      rw [prints_lift, prints_ports, List.append_nil]
    · unfold Balanced
      rw [List.count_append, List.count_append, List.count_cons_self,
        List.count_cons_self, List.count_cons_of_ne (by decide),
        List.count_cons_of_ne (by decide), count_prints _ hsub,
        count_prints _ hunsub, count_ports _ hsub, count_ports _ hunsub]

/-- Either the mouse could not be enabled, and the test has done nothing
else; or the test has printed what its loop printed, and if it is over so
is the loop. -/
theorem mouseTestPacket_cases :
    (prints (mouseTestPacket cnt d w).trace = []
        ∧ (mouseTestPacket cnt d w).result ≠ some 0
        ∧ Balanced (mouseTestPacket cnt d w).trace)
      ∨ (prints (mouseTestPacket cnt d w).trace
          = (packetLoop cnt d w.messages).trace
        ∧ ((mouseTestPacket cnt d w).result ≠ none →
          (packetLoop cnt d w.messages).result ≠ none
            ∧ Balanced (mouseTestPacket cnt d w).trace)) := by
  have hsub : (Action.subscribe = .subscribe ∨ Action.subscribe = .unsubscribe)
    := .inl rfl
  have hunsub : (Action.unsubscribe = .subscribe
    ∨ Action.unsubscribe = .unsubscribe) := .inr rfl
  have htest : mouseTestPacket cnt d w
      = (polled (enableMouseData w.stream w.enable)).bind fun r =>
        unlessFailed r (subscribed cnt d w) := rfl
  rw [htest]
  cases he : (enableMouseData w.stream w.enable).result with
  | none =>
      have hcall : (polled (enableMouseData w.stream w.enable)).result
          = none := he
      left
      unfold Polled.bind
      rw [hcall]
      refine ⟨prints_ports _, nofun, ?_⟩
      unfold Balanced
      rw [count_ports _ hsub, count_ports _ hunsub]
  | some v =>
      have hcall : (polled (enableMouseData w.stream w.enable)).result
          = some v := he
      rw [Polled.bind_returns hcall]
      unfold unlessFailed Balanced
      rw [prints_append, prints_ports, count_append_port hsub,
        count_append_port hunsub, List.nil_append]
      by_cases hv : v ≠ 0
      · rw [if_pos hv]
        exact .inl ⟨rfl, nofun, rfl⟩
      · rw [if_neg hv]
        exact .inr subscribed_spec

/-- Whatever the mouse sends, the test never prints more packets than it
was asked for, and exactly as many if it succeeds; every packet it prints
has been decoded from its own bytes; and a test that is over has undone
its subscription. -/
theorem mouseTestPacket_counts (cnt : UInt32) (w : PacketSession) :
    (prints (mouseTestPacket cnt MouseDriver.init w).trace).length
        ≤ cnt.toNat
      ∧ ((mouseTestPacket cnt MouseDriver.init w).result = some 0 →
        (prints (mouseTestPacket cnt MouseDriver.init w).trace).length
          = cnt.toNat)
      ∧ (∀ p ∈ prints (mouseTestPacket cnt MouseDriver.init w).trace,
        p = p.decode)
      ∧ ((mouseTestPacket cnt MouseDriver.init w).result ≠ none →
        Balanced (mouseTestPacket cnt MouseDriver.init w).trace) := by
  have hcounts : MouseDriver.init.Counts :=
    .inl ⟨Int.le_refl 0, show (0 : Int) ≤ 2 by decide, fun h => by cases h⟩
  obtain ⟨hmost, hexact, hall⟩ := @packetLoop_prints cnt w.messages _
    hcounts (Nat.zero_le _)
  rcases @mouseTestPacket_cases cnt MouseDriver.init w
    with ⟨hnone, hfailed, hbal⟩ | ⟨hprints, hover⟩
  · rw [hnone]
    exact ⟨Nat.zero_le _, fun h => absurd h hfailed, nofun, fun _ => hbal⟩
  · rw [hprints]
    refine ⟨hmost, fun h => ?_, hall, fun h => (hover h).2⟩
    exact hexact (hover (by rw [h]; nofun)).1

end

end Lcom.Lab4
