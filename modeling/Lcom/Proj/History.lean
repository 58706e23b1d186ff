/-
What a run of the main loop has done since the last deal.

`History` is a ghost beside the state: the board as it was dealt, and
the number of mismatching pairs the player has revealed since. A pair
is revealed in the step that brings its second card face up while the
first one lies face up, so it counts once, however long the two stay
open.

A deal is visible in the state: it is the step from the exit screen
back to the menu.
-/
import Lcom.Proj.MainLoop

namespace Lcom.Proj

/-- What has happened since the last deal. -/
structure History where
  dealt : Cards
  revealed : Nat

/-- Card `j` comes face up between the two boards. -/
def turnsUp (b b' : Board) (j : Fin 16) : Bool :=
  (b.card j).isFlipped && !(b'.card j).isFlipped

/-- Card `j` comes face up beside `i`, which was face up and still is;
neither was matched, and their values differ. -/
def revealsMismatch (b b' : Board) (j i : Fin 16) : Bool :=
  !(b.card i).isFlipped && !(b'.card i).isFlipped
    && !(b.card i).flipSuccess && !(b.card j).flipSuccess
    && decide ((b.card i).value ≠ (b.card j).value)

/-- The mismatching pairs revealed between the two boards. -/
def newMismatches (b b' : Board) : Nat :=
  (((List.finRange 16).filter (turnsUp b b')).map fun j =>
    (List.finRange 16).countP (revealsMismatch b b' j)).sum

/-- The step from `s` to `s'` deals a new board. -/
def Deals (s s' : State) : Prop := s.gs = .exit ∧ s'.gs = .menu

instance (s s' : State) : Decidable (Deals s s') :=
  inferInstanceAs (Decidable (_ ∧ _))

/-- The history after a step from `s` to `s'`. -/
def History.update (h : History) (s s' : State) : History :=
  if Deals s s' then { dealt := s'.board.cardArray, revealed := 0 }
  else { h with revealed := h.revealed + newMismatches s.board s'.board }

/-- The main loop with its history. -/
def watchedStep : State × History → Notification →
    Option (State × History) :=
  Machine.withHistory (step mode0x115) History.update

/-- The watched loop starts on a dealt board with nothing revealed. -/
def WatchedStarts (p : State × History) : Prop :=
  ∃ rands cards, initializeGameCards rands = some cards
    ∧ p = (start cards, { dealt := cards, revealed := 0 })

/-- The states and histories of the runs whose steps satisfy the
guard. -/
abbrev WatchedReach (ok : State → Notification → Prop) :
    State × History → Prop :=
  Machine.Reachable watchedStep WatchedStarts fun p n => ok p.1 n

-- ============================================================ facts

/-- A watched run is a run. -/
theorem WatchedReach.reach {ok : State → Notification → Prop}
    {p : State × History} (h : WatchedReach ok p) : Reach ok p.1 := by
  refine Machine.Reachable.forget (fun p hp => ?_) h
  obtain ⟨rands, cards, hdeal, rfl⟩ := hp
  exact ⟨rands, cards, hdeal, rfl⟩

/-- A step of the watched loop. -/
theorem watchedStep_eq_some {p p' : State × History} {n : Notification}
    (h : watchedStep p n = some p') :
    step mode0x115 p.1 n = some p'.1
      ∧ p'.2 = p.2.update p.1 p'.1 :=
  Machine.withHistory_eq_some h

/-- A step that keeps the screen, or starts outside the exit screen,
deals nothing. -/
theorem not_deals_quiet {s s' : State}
    (h : s'.gs = s.gs ∨ (s.gs ≠ .game ∧ s.gs ≠ .exit)) : ¬Deals s s' := by
  intro hd
  obtain ⟨hex, hmenu⟩ := hd
  rcases h with h | ⟨-, hne⟩
  · rw [hmenu, hex] at h
    cases h
  · exact hne hex

/-- A step of the game deals nothing. -/
theorem not_deals_game {s s' : State} (h : s.gs = .game) :
    ¬Deals s s' := by
  intro hd
  obtain ⟨hex, -⟩ := hd
  rw [h] at hex
  cases hex

theorem History.update_deals {h : History} {s s' : State}
    (hd : Deals s s') :
    h.update s s' = { dealt := s'.board.cardArray, revealed := 0 } :=
  if_pos hd

theorem History.update_keeps {h : History} {s s' : State}
    (hd : ¬Deals s s') :
    h.update s s' = { h with
      revealed := h.revealed + newMismatches s.board s'.board } :=
  if_neg hd

-- ================================================= counting reveals

section

variable {b b' b'' : Board}

theorem newMismatches_eq_zero
    (h : ∀ j, turnsUp b b' j = true →
      ∀ i, revealsMismatch b b' j i = false) :
    newMismatches b b' = 0 := by
  unfold newMismatches
  refine List.sum_eq_zero fun n hn => ?_
  obtain ⟨j, hj, rfl⟩ := List.mem_map.1 hn
  refine List.countP_eq_zero.2 fun i _ hi => ?_
  rw [h j (List.mem_filter.1 hj).2 i] at hi
  cases hi

/-- Cards that stay as they are reveal nothing. -/
theorem newMismatches_same
    (h : ∀ j, (b'.card j).isFlipped = false →
      (b.card j).isFlipped = false) : newMismatches b b' = 0 := by
  refine newMismatches_eq_zero fun j hj => ?_
  unfold turnsUp at hj
  rw [Bool.and_eq_true, Bool.not_eq_true'] at hj
  rw [h j hj.2] at hj
  cases hj.1

/-- In a list without repetition one entry is filtered out. -/
theorem filter_finRange {f : Fin 16 → Bool} {j : Fin 16}
    (h : ∀ c, f c = true ↔ c = j) : (List.finRange 16).filter f = [j] := by
  have hf : f = fun c => c == j := by
    funext c
    rw [Bool.eq_iff_iff, h c, beq_iff_eq]
  rw [hf, List.filter_beq, List.count_eq_one_of_mem (List.nodup_finRange 16)
    (List.mem_finRange j)]
  rfl

/-- One card that comes up beside one open card of another value. -/
theorem newMismatches_eq_one {i j : Fin 16}
    (hj : ∀ c, turnsUp b b' c = true ↔ c = j)
    (hi : ∀ c, revealsMismatch b b' j c = true ↔ c = i) :
    newMismatches b b' = 1 := by
  unfold newMismatches
  rw [filter_finRange hj, List.map_singleton, List.sum_singleton,
    List.countP_eq_length_filter, filter_finRange hi]
  rfl

/-- Only the faces of the later board count. -/
theorem newMismatches_congr
    (h : ∀ i, (b''.card i).isFlipped = (b'.card i).isFlipped) :
    newMismatches b b'' = newMismatches b b' := by
  have h1 : turnsUp b b'' = turnsUp b b' := by
    funext j
    unfold turnsUp
    rw [h j]
  have h2 : revealsMismatch b b'' = revealsMismatch b b' := by
    funext j i
    unfold revealsMismatch
    rw [h i]
  unfold newMismatches
  rw [h1, h2]

end

end Lcom.Proj
