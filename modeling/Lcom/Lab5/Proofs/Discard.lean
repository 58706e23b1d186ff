/-
What becomes of keyboard bytes that were read with an error.

Both handlers store the byte first and look at the error bits after, so
both are latches that accept too much. `Machine.latch_recent_iff` says
when that makes no difference: when every byte stored with an error is
the one in `scancode` already. In that case the loops around the
handlers run as if such bytes had been discarded, since they see
nothing of them but `scancode`.
-/
import Lcom.Lab5.Keyboard
import Lcom.Proj.Proofs.Dispatch

namespace Lcom.Lab5

open Machine Proj

-- ======================================================= the two latches

/-- proj's handler is a latch. -/
theorem projKbcIh_eq :
    (fun v r => some (Proj.kbcIh v r)) = latch KbcReads.outcome := by
  funext v r
  rw [kbcIh_eq]
  rfl

/-- lab5's handler is a latch. -/
theorem kbcIh_eq_latch : kbcIh = latch outcome := by
  funext v reads
  unfold latch
  induction reads with
  | nil => rfl
  | cons r rest ih =>
      unfold kbcIh outcome
      cases r.status with
      | none => rfl
      | some stat =>
          dsimp only
          split
          · cases r.data <;> rfl
          · exact ih

/-- What proj accepts is stored. -/
theorem projAccepted_outcome (r : KbcReads) (b : UInt8)
    (h : r.accepted = some b) : r.outcome = some (some b) := by
  unfold KbcReads.accepted PortReads.accepted at h
  unfold KbcReads.outcome KbcReads.stores
  cases hs : r.reads.status with
  | none => rw [hs] at h; cases h
  | some stat =>
      rw [hs] at h
      dsimp only at h
      split at h
      · rename_i hstat
        rw [Option.getD_some, if_pos hstat.1, h]
      · cases h

/-- What lab5 accepts is stored. -/
theorem accepted_outcome (reads : List PortReads) (b : UInt8)
    (h : accepted reads = some b) : outcome reads = some (some b) := by
  induction reads with
  | nil => cases h
  | cons r rest ih =>
      unfold accepted at h
      unfold outcome
      cases hs : r.status with
      | none => rw [hs] at h; cases h
      | some stat =>
          rw [hs] at h
          dsimp only at h ⊢
          split at h
          · rename_i hfull
            unfold PortReads.accepted at h
            rw [hs] at h
            dsimp only at h
            split at h
            · rw [if_pos hfull, h]
            · cases h
          · rename_i hfull
            rw [if_neg hfull]
            exact ih h

-- ============================================================ the loops

/-- A flagged byte that `scancode` holds already is no loss. -/
theorem keyboardBranch_flagged {s : State} {r : KbcReads}
    (h : Harmless KbcReads.outcome KbcReads.accepted s.scancode r)
    (hf : r.flagged = true) : keyboardBranch s (some r) = s := by
  unfold KbcReads.flagged at hf
  rw [Bool.and_eq_true, Option.isSome_iff_exists,
    Option.isNone_iff_eq_none] at hf
  obtain ⟨⟨b, hb⟩, hnone⟩ := hf
  have hheld : b = s.scancode := by
    rcases h b (congrArg some hb) with ha | hheld
    · rw [hnone] at ha
      cases ha
    · exact hheld
  show { s with scancode := Proj.kbcIh s.scancode r } = s
  rw [kbcIh_eq, hb, Option.getD_some, hheld]

theorem keyboardBranch_discard {s : State} {n : Notification}
    (h : KeyHarmless s n) :
    keyboardBranch s n.discard.keyboard = keyboardBranch s n.keyboard := by
  show keyboardBranch s (n.keyboard.filter fun r => !r.flagged) = _
  cases hk : n.keyboard with
  | none => rfl
  | some r =>
      cases hf : r.flagged with
      | false => rw [Option.filter_some_pos (by simp [hf])]
      | true =>
          rw [Option.filter_some_neg (by simp [hf]),
            keyboardBranch_flagged (h r hk) hf]
          rfl

theorem step_discard (m : ModeInfo) {s : State} {n : Notification}
    (h : KeyHarmless s n) : step m s n = step m s n.discard := by
  have hinput : input m s n.discard = input m s n := by
    unfold input
    rw [keyboardBranch_discard h]
    rfl
  unfold step
  rw [hinput]
  rfl

/-- lab5's loops, likewise. -/
theorem kbcIh_flagged {scancode : UInt8} {reads : List PortReads}
    (h : Harmless outcome accepted scancode reads)
    (hf : flagged reads = true) : kbcIh scancode reads = some scancode := by
  unfold flagged at hf
  rw [Bool.and_eq_true, Option.any_eq_true,
    Option.isNone_iff_eq_none] at hf
  obtain ⟨⟨stored, hout, hsome⟩, hnone⟩ := hf
  obtain ⟨b, rfl⟩ := Option.isSome_iff_exists.1 hsome
  have hheld : b = scancode := by
    rcases h b hout with ha | hheld
    · rw [hnone] at ha
      cases ha
    · exact hheld
  rw [kbcIh_eq_latch, latch, hout, Option.map_some, Option.getD_some, hheld]

theorem escTurn_discard {scancode : UInt8} {n : Option (List PortReads)}
    (h : EscHarmless scancode n) :
    escTurn scancode n = escTurn scancode (discard n) := by
  unfold discard
  cases n with
  | none => rfl
  | some reads =>
      cases hf : flagged reads with
      | false => rw [Option.filter_some_pos (by simp [hf])]
      | true =>
          rw [Option.filter_some_neg (by simp [hf])]
          show (if scancode ≠ escape then kbcIh scancode reads else none) = _
          rw [kbcIh_flagged (h reads rfl) hf]
          rfl

/-- Both handlers keep `scancode` at the last byte read without an error
if and only if the bytes they store in spite of one change nothing; and
then neither the main loop nor a loop of lab5 does anything it would not
do with those bytes discarded. -/
theorem errors_discarded_iff (m : ModeInfo) (scancode : UInt8)
    (rs : List KbcReads) (calls : List (List PortReads)) (s : State)
    (ns : List Notification) (messages : List (Option (List PortReads))) :
    (HoldsRecent (fun v r => some (Proj.kbcIh v r)) KbcReads.accepted
        scancode rs
        ↔ Along (fun v r => some (Proj.kbcIh v r))
          (Harmless KbcReads.outcome KbcReads.accepted) scancode rs)
      ∧ (HoldsRecent kbcIh accepted scancode calls
        ↔ Along kbcIh (Harmless outcome accepted) scancode calls)
      ∧ (Along (step m) KeyHarmless s ns →
        exec (step m) s ns = exec (step m) s (ns.map Notification.discard))
      ∧ (Along escTurn EscHarmless scancode messages →
        exec escTurn scancode messages
          = exec escTurn scancode (messages.map discard)) := by
  refine ⟨?_, ?_, ?_, ?_⟩
  · rw [projKbcIh_eq]
    exact latch_recent_iff projAccepted_outcome scancode rs
  · rw [kbcIh_eq_latch]
    exact latch_recent_iff accepted_outcome scancode calls
  · intro h
    refine exec_map ?_ h
    exact fun _ _ hq => step_discard m hq
  · intro h
    refine exec_map ?_ h
    exact fun _ _ hq => escTurn_discard hq

/-- The break code of P, read with a parity error. -/
def flaggedPlay : KbcReads :=
  { reads := { status := some 0x81, data := some pKeyBreakcode }, junk := 0 }

/-- The break code of Escape, read with a parity error. -/
def flaggedEscape : List PortReads :=
  [{ status := some 0x81, data := some escape }]

/-- A flagged byte ends up in `scancode`: with one the main loop leaves
the menu, and a loop of lab5 ends. -/
theorem flagged_byte_kept :
    ¬HoldsRecent (fun v r => some (Proj.kbcIh v r)) KbcReads.accepted 0
        [flaggedPlay]
      ∧ ¬HoldsRecent kbcIh accepted 0 [flaggedEscape]
      ∧ (∀ cards, (step mode0x115 (start cards)
        { keyboard := some flaggedPlay, mouse := none, timer := true
          rands := [] }).map State.gs = some .game)
      ∧ exec escTurn 0 [some flaggedEscape] = some escape
      ∧ exec escTurn 0 [discard (some flaggedEscape)] = some 0 := by
  refine ⟨?_, ?_, fun _ => rfl, rfl, rfl⟩
  · intro h
    have hkept := h [flaggedPlay] [] rfl pKeyBreakcode rfl
    exact absurd hkept (by decide)
  · intro h
    have hkept := h [flaggedEscape] [] rfl escape rfl
    exact absurd hkept (by decide)

end Lcom.Lab5
