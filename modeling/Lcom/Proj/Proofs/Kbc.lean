/-
When keyboard and mouse bytes are mixed up.

`kbc_ih` runs first and takes the front byte, `mouse_ih` takes the next
one. Each handler gets its own device's byte exactly where the queue
happens to stand in that order (`notMixed_iff`): the tag in the status
register is never tested.
-/
import Lcom.Proj.Kbc
import Lcom.Proj.Proofs.Deal
import Lcom.Proj.Proofs.Dispatch

namespace Lcom.Proj

open Machine

/-- A device named by the mask has a byte, so the buffer is not
empty. -/
theorem head_of_pending {q : OutputBuffer} {dev : Device}
    (h : ∃ b ∈ q, b.device = dev) : ∃ b rest, q = b :: rest := by
  obtain ⟨b, hb, -⟩ := h
  cases q with
  | nil => cases hb
  | cons b rest => exact ⟨b, rest, rfl⟩

/-- The front byte is what `kbc_ih` stores. -/
theorem stores_ports (b : QueuedByte) (rest : OutputBuffer) :
    KbcReads.stores { reads := ports (b :: rest), junk := 0 }
      = some b.byte := by
  unfold KbcReads.stores ports
  exact if_pos b.full

/-- The front byte is what `mouse_ih` reads, clean or not. -/
theorem mouseRead_ports (b : QueuedByte) (rest : OutputBuffer) :
    mouseRead [ports (b :: rest)]
      = some (if b.clean then .good b.byte else .bad b.byte) := by
  unfold mouseRead ports QueuedByte.clean
  dsimp only
  rw [if_pos b.full]
  by_cases h : b.status &&& kbcErr = 0 <;> simp [h]

/-- A byte is handed on if it is clean and no error is pending. -/
theorem dispatch_ports {d d' : MouseDriver} {b : QueuedByte}
    {rest : OutputBuffer} (h : mouseIh d [ports (b :: rest)] = some d') :
    d'.dispatch = .byte ↔ b.clean = true ∧ d.readingError = false := by
  rw [mouseIh_eq, mouseRead_ports] at h
  cases h
  rw [dispatch_byte_iff]
  cases b.clean <;> simp [MouseRead.isError]

/-- The handlers mix no bytes exactly where the bytes are in order. -/
theorem notMixed_iff (p : State × OutputBuffer) (e : Event) :
    NotMixed p e ↔ InOrder p e := by
  cases e with
  | arrive b => exact Iff.rfl
  | notify mask rands =>
      unfold NotMixed InOrder
      refine imp_congr_right fun hh => and_congr ?_ ?_
      · -- the keyboard branch
        unfold Mask.notification
        cases hk : mask.keyboard with
        | false => simp
        | true =>
            obtain ⟨b, rest, hq⟩ := head_of_pending (hh.2.1 hk)
            rw [hq]
            constructor
            · intro h _
              exact h _ rfl (by rw [stores_ports]; rfl)
            · intro h r _ _
              exact h rfl
      · -- the mouse branch
        unfold Mask.notification
        cases hm : mask.mouse with
        | false => simp
        | true =>
            cases hq : mask.afterKbcIh p.2 with
            | nil => simp
            | cons b rest =>
                have hread := mouseIh_eq p.1.driver [ports (b :: rest)]
                rw [mouseRead_ports] at hread
                constructor
                · intro h _ b' hb' hclean herr
                  cases hb'
                  exact h _ _ rfl hread
                    ((dispatch_ports hread).2 ⟨hclean, herr⟩) b rfl
                · intro h reads d hreads hd hbyte b' hb'
                  cases hreads
                  cases hb'
                  obtain ⟨hclean, herr⟩ := (dispatch_ports hd).1 hbyte
                  exact h rfl b rfl hclean herr

/-- Over every interleaving of bytes and notifications, the two devices
are kept apart exactly where every notification finds the front bytes in
the order of the handlers. -/
theorem bytes_not_mixed_iff (cards : Cards) (es : List Event) :
    Along kbcStep NotMixed (start cards, []) es
      ↔ Along kbcStep InOrder (start cards, []) es :=
  along_congr notMixed_iff (start cards, []) es

/-- A mouse byte is first in the queue, a keyboard byte second, and one
notification stands for both. -/
def crossedBytes : List Event :=
  [.arrive { status := 0x21, byte := 0x99, full := full_mouse },
    .arrive { status := 0x01, byte := 0x81, full := by decide },
    .notify { keyboard := true, mouse := true, timer := false } []]

/-- The mouse byte becomes the scancode, here the one that starts the
game. -/
theorem bytes_mixed :
    ¬Along kbcStep NotMixed (start orderedCards, []) crossedBytes
      ∧ (exec kbcStep (start orderedCards, []) crossedBytes).map
        (fun p => p.1.scancode) = some pKeyBreakcode := by
  refine ⟨?_, rfl⟩
  intro h
  have hmixed := h (crossedBytes.take 2) _ [] rfl _ rfl
  have hpend : Handled (start orderedCards,
      [{ status := 0x21, byte := 0x99, full := full_mouse },
        { status := 0x01, byte := 0x81, full := by decide }])
      { keyboard := true, mouse := true, timer := false } := by
    refine ⟨rfl, fun _ => ?_, fun _ => ?_⟩
    · exact ⟨_, List.mem_cons_of_mem _ List.mem_cons_self, rfl⟩
    · exact ⟨_, List.mem_cons_self, rfl⟩
  have hdev := (hmixed hpend).1 _ rfl rfl _ rfl
  cases hdev

end Lcom.Proj
