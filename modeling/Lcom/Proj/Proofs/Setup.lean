/-
What an early return leaves behind.

A setup that fails after its first call leaves the lines subscribed so
far, and a teardown that fails before its last call leaves the rest of
them, or the video mode. Nothing is left behind in the two remaining
cases: the first subscription fails, or nothing but `vg_exit` does.
-/
import Lcom.Proj.Setup
import Lcom.Proj.Proofs.Replay

namespace Lcom.Proj

open Machine

/-- The teardown up to its last call. -/
def releases : List Call :=
  [.disableMouseData, .unsubscribe .timer, .unsubscribe .keyboard,
    .unsubscribe .mouse]

/-- The calls whose failure leaves something behind. -/
def releasing : List Call := setup ++ releases

section

variable {ok : Call → Bool}

/-- A failed setup undoes nothing, so only a first failure is clean. -/
theorem leavesNothing_setup :
    LeavesNothing ok (attempt ok setup).1
      ↔ ok (.subscribe .keyboard) = false := by
  constructor
  · intro h
    cases hk : ok (.subscribe .keyboard) with
    | false => rfl
    | true =>
        have hin : .subscribe .keyboard ∈ (attempt ok setup).1 :=
          (mem_attempt [] (by simp)).2 (by simp)
        have hun := attempt_subset (h.1 .keyboard hin hk)
        simp [setup] at hun
  · intro hk
    have honly : (attempt ok setup).1 = [.subscribe .keyboard] := by
      unfold setup attempt
      rw [hk]
      rfl
    rw [honly]
    refine ⟨fun line hline hok => ?_, fun hv => by simp at hv⟩
    rw [List.mem_singleton] at hline
    rw [hline, hk] at hok
    cases hok

/-- After a complete setup everything must be undone. -/
theorem leavesNothing_teardown (hok : ∀ c ∈ setup, ok c = true) :
    LeavesNothing ok (setup ++ (attempt ok teardown).1)
      ↔ ∀ c ∈ releases, ok c = true := by
  constructor
  · intro h
    have hexit : .vgExit ∈ (attempt ok teardown).1 := by
      have hmade := h.2 (by simp [setup]) (hok _ (by simp [setup]))
      simpa [setup] using hmade
    exact (mem_attempt releases (by simp [releases])).1 hexit
  · intro h
    have hall : (attempt ok teardown).1 = teardown :=
      attempt_concat h .vgExit
    rw [hall]
    refine ⟨fun line _ _ => ?_, fun _ _ => by simp [teardown]⟩
    cases line <;> simp [teardown]

end

/-- `proj_main_loop` leaves nothing behind exactly if its first
subscription fails, or every call it makes but `vg_exit` succeeds. -/
theorem leaves_nothing_iff {ok : Call → Bool} {cards : Cards}
    {ns : List Notification} {calls : List Call} {status : Nat}
    (h : projMainLoop ok cards ns = some (calls, status)) :
    LeavesNothing ok calls
      ↔ ok (.subscribe .keyboard) = false
        ∨ ∀ c ∈ releasing, ok c = true := by
  unfold projMainLoop at h
  dsimp only at h
  cases hsetup : (attempt ok setup).2 with
  | false =>
      rw [hsetup, if_neg (by decide)] at h
      cases h
      rw [leavesNothing_setup]
      refine ⟨.inl, fun hor => hor.resolve_right fun hall => ?_⟩
      have hok : ∀ c ∈ setup, ok c = true :=
        fun c hc => hall c (List.mem_append_left _ hc)
      rw [attempt_eq_true.2 hok] at hsetup
      cases hsetup
  | true =>
      rw [hsetup, if_pos rfl] at h
      have hok := attempt_eq_true.1 hsetup
      split at h
      · cases h
        rw [attempt_all hok, leavesNothing_teardown hok]
        have hk := hok (.subscribe .keyboard) (by simp [setup])
        constructor
        · intro hrest
          refine .inr fun c hc => ?_
          exact (List.mem_append.1 hc).elim (hok c) (hrest c)
        · intro hor c hc
          have hall := hor.resolve_left (by simp [hk])
          exact hall c (List.mem_append_right _ hc)
      · cases h

/-- Exit is chosen in the menu and nothing fails. -/
theorem leaves_nothing_exit :
    projMainLoop (fun _ => true) orderedCards [keyTick eKeyBreakcode, tick]
        = some (setup ++ teardown, 0)
      ∧ LeavesNothing (fun _ => true) (setup ++ teardown) := by
  have hrun : projMainLoop (fun _ => true) orderedCards
      [keyTick eKeyBreakcode, tick] = some (setup ++ teardown, 0) := rfl
  exact ⟨hrun, (leaves_nothing_iff hrun).2 (.inr fun _ _ => rfl)⟩

/-- The timer cannot be subscribed: the keyboard line stays
subscribed. -/
theorem keyboard_left_subscribed :
    ∃ ok calls, projMainLoop ok orderedCards [] = some (calls, 1)
      ∧ ¬LeavesNothing ok calls := by
  refine ⟨fun c => decide (c ≠ .subscribe .timer),
    [.subscribe .keyboard, .subscribe .timer], rfl, fun h => ?_⟩
  have hun := h.1 .keyboard (by simp) rfl
  simp at hun

end Lcom.Proj
