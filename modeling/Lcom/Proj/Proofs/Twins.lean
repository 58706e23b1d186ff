/-
Matched cards come in pairs, and stay matched, in every run.

The match loop compares each open card with one remembered index, also
after that index has been matched in the same pass. It sets marks only
on two distinct positions of one value (the remembered index lies below
the round's), and a board holds each value exactly twice, so the second
of them IS the twin of the first: no order of open cards can separate
twins (`matchRounds_twins`).

The dealt values are a ghost beside the state, and `TwinInv` ties the
board to them.
-/
import Lcom.Proj.Proofs.Match
import Lcom.Proj.Proofs.Replay

namespace Lcom.Proj

open Machine

-- ===================================================== the match loop

/-- The values on the board. -/
def Board.value (b : Board) (i : Fin 16) : CardNumber × CardSuit :=
  (b.card i).value

/-- The matched positions. -/
def Board.success (b : Board) (i : Fin 16) : Bool :=
  (b.card i).flipSuccess

/-- The values are paired and no match separates twins. -/
structure TwinsTogether (b : Board) : Prop where
  paired : Paired b.value
  closed : TwinClosed b.value b.success

theorem TwinsTogether.congr {b b' : Board} (h : TwinsTogether b)
    (hv : ∀ i, b'.value i = b.value i)
    (hs : ∀ i, b'.success i = b.success i) : TwinsTogether b' := by
  refine ⟨?_, h.closed.congr hv hs⟩
  rw [show b'.value = b.value from funext hv]
  exact h.paired

theorem TwinsTogether.sameMarks {b b' : Board} (h : TwinsTogether b)
    (hm : SameMarks b b') : TwinsTogether b' :=
  h.congr (fun i => (hm i).1) (fun i => (hm i).2)

/-- Matching two cards of one value keeps twins together. -/
theorem TwinsTogether.matched {s : State} {i k : Fin 16}
    (h : TwinsTogether s.board) (hik : i ≠ k)
    (hv : s.board.value i = s.board.value k) :
    TwinsTogether (Proj.matched s i k).board := by
  have hval : ∀ j, (Proj.matched s i k).board.value j = s.board.value j :=
    (matched_frame s i k).value
  refine ⟨?_, ?_⟩
  · rw [show (Proj.matched s i k).board.value = s.board.value
      from funext hval]
    exact h.paired
  · have hsuccess : ∀ j, (Proj.matched s i k).board.success j = true
        ↔ s.board.success j = true ∨ j = i ∨ j = k := by
      intro j
      show ((Proj.matched s i k).board.card j).flipSuccess = true ↔ _
      rw [matched_card]
      by_cases hj : j = i ∨ j = k
      · rw [if_pos hj]
        exact ⟨fun _ => .inr hj, fun _ => rfl⟩
      · rw [if_neg hj]
        exact ⟨.inl, fun h => h.resolve_right hj⟩
    have hmark := h.closed.mark h.paired hik hv hsuccess
    exact hmark.congr hval fun _ => rfl

/-- Sending two cards back matches nothing. -/
theorem TwinsTogether.mismatch {s : State} (h : TwinsTogether s.board)
    (i k : Fin 16) : TwinsTogether (Proj.mismatch s i k).board := by
  refine h.congr (mismatch_frame s i k).value fun j => ?_
  show ((Proj.mismatch s i k).board.card j).flipSuccess = _
  rw [mismatch_card]
  split <;> rfl

/-- The match loop keeps twins together, whatever cards are open. -/
theorem matchRounds_twins {s : State} (h : TwinsTogether s.board)
    {n : Nat} (hn : n ≤ 16) : TwinsTogether (matchRounds n s).board := by
  unfold matchRounds
  refine rounds_induction
    (P := fun _ (acc : State × Option (Fin 16)) =>
      TwinsTogether acc.1.board) h ?_ n hn
  intro n hn ih
  rcases matchStep_cases (rounds matchStep n (s, none)) ⟨n, hn⟩
    with ⟨-, hs⟩ | ⟨-, -, hs⟩ | ⟨k, -, hk, ⟨hv, hs⟩ | ⟨-, hs⟩⟩
  · rw [hs]
    exact ih
  · rw [hs]
    exact ih
  · rw [hs]
    refine ih.matched (fun he => ?_) hv
    have hlt := remembered_lt s (Nat.le_of_lt hn) k hk
    rw [← he] at hlt
    exact Nat.lt_irrefl _ hlt
  · rw [hs]
    exact ih.mismatch _ _

theorem matchPhase_twins {s : State} (h : TwinsTogether s.board) :
    TwinsTogether (matchPhase s).board := by
  unfold matchPhase
  split
  · exact h
  · exact matchRounds_twins h (Nat.le_refl _)

-- ==================================================== over whole runs

/-- A preview tick keeps values and matches. -/
theorem preview_sameMarks {t s' : State}
    (h : draw mode0x115 (previewStart t) = some s') :
    SameMarks t.board s'.board := by
  rw [draw_eq] at h
  obtain ⟨b, hb, rfl⟩ := Option.map_eq_some_iff.1 h
  have hstart : SameMarks t.board (previewStart t).board := by
    unfold previewStart
    split
    · intro i
      show ((t.board.cardArray.map Card.startFlipping).get i).value = _
        ∧ ((t.board.cardArray.map Card.startFlipping).get i).flipSuccess = _
      rw [List.Vector.get_map]
      exact ⟨rfl, rfl⟩
    · exact SameMarks.refl _
  exact hstart.trans (turnCards_sameMarks hb)

/-- What one step does to values and matches: between deals the values
stay, the matches only grow and twins stay together; a deal starts over
with a new board. -/
theorem marks_step {s s' : State} {n : Notification}
    (h : step mode0x115 s n = some s') :
    (¬Deals s s' ∧ (∀ i, s'.board.value i = s.board.value i)
        ∧ (∀ i, s.board.success i = true → s'.board.success i = true)
        ∧ (TwinsTogether s.board → TwinsTogether s'.board))
      ∨ (Deals s s' ∧ ∃ rands cards,
        initializeGameCards rands = some cards
          ∧ s'.board.cardArray = cards) := by
  cases step_kind h with
  | quiet hsame hgs _ =>
      refine .inl ⟨not_deals_quiet hgs, fun i => ?_, fun i hi => ?_,
        fun ht => ?_⟩
      · rw [hsame.board]
      · rw [hsame.board]
        exact hi
      · rw [hsame.board]
        exact ht
  | preview hts hgs _ hdraw =>
      obtain ⟨hsame, hgs', -⟩ := hts.frame
      have hm := preview_sameMarks hdraw
      rw [hsame.board] at hm
      exact .inl ⟨not_deals_game (hgs'.symm.trans hgs), fun i => (hm i).1,
        fun i hi => (hm i).2.trans hi, fun ht => ht.sameMarks hm⟩
  | @play t u hts hgs _ hu =>
      obtain ⟨hsame, hgs', -⟩ := hts.frame
      obtain ⟨-, -, -, -, -, -, hm⟩ := playUntilMatch_frame hu
      rw [hsame.board] at hm
      have hf := matchPhase_frame u
      refine .inl ⟨not_deals_game (hgs'.symm.trans hgs), fun i => ?_,
        fun i hi => ?_, fun ht => ?_⟩
      · rw [victoryPhase_board]
        exact (hf.value i).trans (hm i).1
      · rw [victoryPhase_board]
        exact hf.flipSuccess i ((hm i).2.trans hi)
      · rw [victoryPhase_board]
        exact matchPhase_twins (ht.sameMarks hm)
  | restart hts hgs _ hdeal =>
      obtain ⟨-, hgs', -⟩ := hts.frame
      exact .inr ⟨⟨hgs'.symm.trans hgs, rfl⟩, _, _, hdeal, rfl⟩

/-- The board holds the dealt values, and its matches respect them. -/
structure TwinInv (p : State × History) : Prop where
  deal : ∃ rands, initializeGameCards rands = some p.2.dealt
  values : ∀ i, p.1.board.value i = (p.2.dealt.get i).value
  together : TwinsTogether p.1.board

/-- A freshly dealt board. -/
theorem twinsTogether_deal {rands : List Rand} {b : Board}
    (h : initializeGameCards rands = some b.cardArray) :
    TwinsTogether b := by
  obtain ⟨hp, hf⟩ := initializeGameCards_spec h
  refine ⟨hp, fun i j _ hi => ?_⟩
  have hi' : b.success i = false := (hf i).2.2
  rw [hi'] at hi
  cases hi

/-- Twins are together in every run. -/
theorem twinsTogether_reach {ok : State → Notification → Prop} {s : State}
    (h : Reach ok s) : TwinsTogether s.board := by
  refine h.invariant (I := fun s => TwinsTogether s.board) ?_ ?_
  · intro s hs
    obtain ⟨rands, cards, hdeal, rfl⟩ := hs
    exact twinsTogether_deal hdeal
  · intro s n s' _ ht _ hs
    rcases marks_step hs with ⟨-, -, -, ht'⟩ | ⟨-, rands, cards, hdeal, hc⟩
    · exact ht' ht
    · rw [← hc] at hdeal
      exact twinsTogether_deal hdeal

theorem twinInv_start {p : State × History} (h : WatchedStarts p) :
    TwinInv p := by
  obtain ⟨rands, cards, hdeal, rfl⟩ := h
  exact ⟨⟨rands, hdeal⟩, fun _ => rfl, twinsTogether_deal hdeal⟩

theorem twinInv_step {p p' : State × History} {n : Notification}
    (hinv : TwinInv p) (h : watchedStep p n = some p') : TwinInv p' := by
  obtain ⟨hs, hh⟩ := watchedStep_eq_some h
  rcases marks_step hs with ⟨hd, hv, -, ht⟩ | ⟨hd, rands, cards, hdeal, hc⟩
  · rw [History.update_keeps hd] at hh
    refine ⟨?_, fun i => ?_, ht hinv.together⟩
    · rw [hh]
      exact hinv.deal
    · rw [hv i, hinv.values i, hh]
  · rw [History.update_deals hd] at hh
    subst hc
    refine ⟨⟨rands, ?_⟩, fun i => ?_, twinsTogether_deal hdeal⟩
    · rw [hh]
      exact hdeal
    · rw [hh]
      rfl

theorem twinInv_reach {p : State × History} (h : WatchedReach anyStep p) :
    TwinInv p :=
  h.invariant (fun _ => twinInv_start)
    fun _ _ _ _ hp _ hs => twinInv_step hp hs

/-- Matched cards come in pairs and are never lost. In every run the
board holds the sixteen values that were dealt, eight distinct ones and
each of them twice; a card is matched exactly when its twin is; and a
step that does not deal keeps every match. -/
theorem matched_in_pairs {p : State × History}
    (h : WatchedReach anyStep p) :
    (∃ rands, initializeGameCards rands = some p.2.dealt)
      ∧ (∀ i, (p.1.board.card i).value = (p.2.dealt.get i).value)
      ∧ (Finset.univ.image fun i => (p.1.board.card i).value).card = 8
      ∧ (∀ i, ∃! j, j ≠ i
        ∧ (p.1.board.card j).value = (p.1.board.card i).value)
      ∧ (∀ i j, j ≠ i →
        (p.1.board.card j).value = (p.1.board.card i).value →
        ((p.1.board.card i).flipSuccess = true
          ↔ (p.1.board.card j).flipSuccess = true))
      ∧ ∀ n p', watchedStep p n = some p' → ¬Deals p.1 p'.1 →
        ∀ i, (p.1.board.card i).flipSuccess = true →
          (p'.1.board.card i).flipSuccess = true := by
  have hinv := twinInv_reach h
  have hcard := hinv.together.paired.card_image
  refine ⟨hinv.deal, hinv.values, ?_, hinv.together.paired,
    fun i j _ hv => ?_, fun n p' hs hd i hi => ?_⟩
  · have h16 : Fintype.card (Fin 16) = 16 := Fintype.card_fin 16
    rw [h16] at hcard
    show (Finset.univ.image p.1.board.value).card = 8
    omega
  · exact ⟨hinv.together.closed i j hv, hinv.together.closed j i hv.symm⟩
  · rcases marks_step (watchedStep_eq_some hs).1
      with ⟨-, -, hmono, -⟩ | ⟨hd', -⟩
    · exact hmono i hi
    · exact absurd hd' hd

/-- Card 0 and its twin, card 15, are matched, and no other card is. -/
def firstPairRun : WatchedScript noTest fun p =>
    decide ((∀ i, (p.1.board.card i).flipSuccess
        = (decide (i.val = 0) || decide (i.val = 15)))
      ∧ p.1.gs = .game ∧ p.1.condition = true)
      && (swiftStep p.1 tick).isSome where
  notifications := opening ++ ticks 282 ++ shift 3 3 ++ ticks 42
  shows := by decide +kernel

/-- A run that has matched the first pair: card 0 has one twin, card 15,
which is matched with it; and both stay matched in the next tick. -/
theorem matched_in_pairs_first :
    ∃ p, WatchedReach anyStep p
      ∧ (p.1.board.card 0).flipSuccess = true
      ∧ (p.1.board.card 1).flipSuccess = false
      ∧ (Finset.univ.image fun i => (p.1.board.card i).value).card = 8
      ∧ (∃! j, j ≠ 0
        ∧ (p.1.board.card j).value = (p.1.board.card 0).value)
      ∧ (∀ j, j ≠ 0 →
        (p.1.board.card j).value = (p.1.board.card 0).value →
        (p.1.board.card j).flipSuccess = true)
      ∧ ∃ p', watchedStep p tick = some p'
        ∧ (p'.1.board.card 0).flipSuccess = true
        ∧ (p'.1.board.card 15).flipSuccess = true := by
  obtain ⟨p, hp, hP⟩ := firstPairRun.reach noTest_anyStep
  obtain ⟨hnow, hnext⟩ := (Bool.and_eq_true _ _).mp hP
  obtain ⟨hmarks, hgs, -⟩ := of_decide_eq_true hnow
  obtain ⟨-, -, h8, htwin, hpair, hkeep⟩ := matched_in_pairs hp
  rw [swiftStep_eq, Option.isSome_iff_exists] at hnext
  obtain ⟨s', hs'⟩ := hnext
  have hstep : watchedStep p tick = some (s', p.2.update p.1 s') := by
    unfold watchedStep withHistory
    rw [hs']
    rfl
  have hd : ¬Deals p.1 s' := not_deals_game hgs
  have h0 : (p.1.board.card 0).flipSuccess = true := hmarks 0
  exact ⟨p, hp, h0, hmarks 1, h8, htwin 0,
    fun j hj hv => (hpair 0 j hj hv).1 h0, _, hstep,
    hkeep tick _ hstep hd 0 h0, hkeep tick _ hstep hd 15 (hmarks 15)⟩

end Lcom.Proj
