/-
The account of lives.

The match check runs again on every tick while a pair lies open, but on
a board that shows a phase it charges nothing. A life goes in the tick
that opens a mismatching pair, which is the tick the history counts it
in (`PlayOutcome`). So between two deals lives and revealed pairs add up
to five, in every run in which no third card slips in.

With a third card the check compares it with the first open card only,
and charges for a pair the player did not turn up last.
-/
import Lcom.Proj.Proofs.FairPlay

namespace Lcom.Proj

open Machine

/-- Lives and revealed mismatches add up. -/
def LivesInv (p : State × History) : Prop :=
  p.1.p1.lives + p.2.revealed = 5

/-- A step that charges nothing and reveals nothing. -/
theorem LivesInv.keep {p p' : State × History} (h : LivesInv p)
    (hp : p'.1.p1 = p.1.p1) (hd : ¬Deals p.1 p'.1)
    (hh : p'.2 = p.2.update p.1 p'.1)
    (hzero : newMismatches p.1.board p'.1.board = 0) : LivesInv p' := by
  unfold LivesInv
  rw [hh, History.update_keeps hd, hp]
  show p.1.p1.lives + (p.2.revealed + newMismatches _ _) = 5
  rw [hzero]
  exact h

/-- The preview turns no card up. -/
theorem preview_reveals {t s' : State} (h : Dealt t.board) :
    newMismatches t.board s'.board = 0 :=
  newMismatches_same fun j _ => (h.fresh j).1

/-- One admitted step keeps the account. -/
theorem livesInv_step {p p' : State × History} {n : Notification}
    (hr : WatchedReach noSlip p) (h : LivesInv p) (hok : noSlip p.1 n)
    (hw : watchedStep p n = some p') : LivesInv p' := by
  have ho := outcomeInv_reach hr.reach
  have hph := phaseInv_reach hr.reach
  obtain ⟨s', h'⟩ := p'
  obtain ⟨hs, hh⟩ := watchedStep_eq_some hw
  dsimp only at hs hh
  cases step_kind hs with
  | quiet hsame hgs _ =>
      refine h.keep hsame.p1 (not_deals_quiet hgs) hh ?_
      exact newMismatches_same fun j hj => by rwa [hsame.board] at hj
  | preview hts hgs hinit hdraw =>
      obtain ⟨hsame, hgs', -⟩ := hts.frame
      obtain ⟨hp, -, -⟩ := preview_outcome hdraw
      refine h.keep (hp.trans hsame.p1)
        (not_deals_game (hgs'.symm.trans hgs)) hh ?_
      rw [← hsame.board]
      exact preview_reveals ((hph.sameGame hsame).preview hinit)
  | @play t u hts hgs hinit hu =>
      obtain ⟨hsame, hgs', -⟩ := hts.frame
      have hd : ¬Deals p.1 (victoryPhase (matchPhase u)) :=
        not_deals_game (hgs'.symm.trans hgs)
      obtain ⟨q, hq⟩ := (hph.sameGame hsame).play hinit
      obtain ⟨_, -, hout⟩ := play_shows hq (hok t hts hgs hinit) hu
      obtain ⟨hup, -, -, -, -, -, -⟩ := playUntilMatch_frame hu
      have hvp := victoryPhase_p1 (matchPhase u)
      have hvb := victoryPhase_board (matchPhase u)
      unfold PlayOutcome at hout
      rw [hsame.board] at hout
      rcases hout with ⟨hp, -, hzero⟩ | ⟨i, j, -, hm, hf, hone⟩
      · refine h.keep (hvp.trans (hp.trans (hup.trans hsame.p1))) hd hh ?_
        rw [hvb]
        exact hzero
      · -- the pair is revealed and charged in the same tick
        obtain ⟨-, -, hlives⟩ := ho.playing (by rw [← hgs', hgs]; decide)
        have hup' : u.p1 = p.1.p1 := hup.trans hsame.p1
        have hcharge : (matchPhase u).p1.lives = p.1.p1.lives - 1 := by
          rw [hm, mismatch_lives (by rw [hup']; exact hlives) hf, hup']
        unfold LivesInv at h ⊢
        rw [hh, History.update_keeps hd]
        dsimp only
        rw [hvp, hvb, hcharge, hone]
        omega
  | @restart t cards hts hgs _ _ =>
      have hd : Deals p.1 (restarted t cards) :=
        ⟨hts.frame.2.1.symm.trans hgs, rfl⟩
      unfold LivesInv
      rw [hh, History.update_deals hd]
      rfl

/-- Lives accounting. Between two deals the lives are five minus the
mismatching pairs revealed, and never leave 0..5, in every run in which
no third card slips in. -/
theorem lives_account {p : State × History} (h : WatchedReach noSlip p) :
    p.1.p1.lives + p.2.revealed = 5 ∧ p.1.p1.lives ≤ 5 := by
  have hinv : LivesInv p := h.invariant
    (fun p hp => by
      obtain ⟨rands, cards, -, rfl⟩ := hp
      rfl)
    (fun p n p' hr hl hok hw => livesInv_step hr hl hok hw)
  unfold LivesInv at hinv
  exact ⟨hinv, by omega⟩

/-- Cards 0 and 1 are revealed. -/
def revealRun : WatchedScript admits fun p =>
    decide (p.2.revealed = 1) where
  notifications := opening ++ ticks 241 ++ shift 1 0 ++ ticks 83
  shows := by decide +kernel

/-- A run without a slip that reveals cards 0 and 1. -/
theorem lives_account_one :
    ∃ p, WatchedReach noSlip p ∧ p.2.revealed = 1
      ∧ p.1.p1.lives + p.2.revealed = 5 := by
  obtain ⟨p, hp, hP⟩ := revealRun.reach admits_noSlip
  exact ⟨p, hp, of_decide_eq_true hP, (lives_account hp).1⟩

/-- Cards 6 and 7 open, and card 8, the twin of card 7, slips in. -/
def overchargedRun : WatchedScript noTest fun p =>
    decide (p.1.p1.lives = 2 ∧ p.2.revealed = 2) where
  notifications := opening ++ shift 2 1 ++ ticks 282 ++ shift 1 0
    ++ ticks 41 ++ shift (-3) 1 ++ ticks 7
  shows := by decide +kernel

/-- When card 8 lands beside them two pairs have been revealed that do
not match, 6 with 7 and 6 with 8, and three lives are gone. -/
theorem lives_lost_twice :
    ∃ p, WatchedReach anyStep p ∧ p.1.p1.lives = 2
      ∧ p.2.revealed = 2 := by
  obtain ⟨p, hp, hP⟩ := overchargedRun.reach noTest_anyStep
  exact ⟨p, hp, of_decide_eq_true hP⟩

end Lcom.Proj
