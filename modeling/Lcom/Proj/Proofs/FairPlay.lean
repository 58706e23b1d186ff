/-
The game over whole runs: what holds as long as no third card slips in,
and a run in which one does.

`PhaseInv` is the invariant of the runs admitted by `noSlip`. During the
preview the board is as dealt; afterwards it shows a phase; and when an
outcome is set the animation globals are back at their start values,
either because every card is matched or because the mismatch that took
the last life has not been drawn yet. From it: at most two cards are in
play, matched cards stay open, every division has a positive width, and
the next game starts clean.

One run refutes each of the four without the guard. All of them open
like the first: two cards of different value, and the button over a
third in the tick in which the second one lands.
-/
import Lcom.Proj.Proofs.Outcome
import Lcom.Proj.Proofs.Play
import Lcom.Proj.Proofs.Replay

namespace Lcom.Proj

open Machine

-- ======================================================= the invariant

/-- The animation globals have their start values. -/
def AnimationReset (b : Board) : Prop :=
  b.increaseWidth = 1 ∧ ∀ i, b.otherSide.get i = 0

/-- The board belongs to the screen: as dealt before the preview, in a
phase after it, at rest for the next deal once an outcome is set. -/
structure PhaseInv (s : State) : Prop where
  preview : s.initGame = true → Dealt s.board
  play : s.initGame = false → ∃ p, Shows s.board p
  outcome : s.gameOver = true ∨ s.victory = true → AnimationReset s.board

theorem Still.reset {b : Board} (h : Still b) : AnimationReset b :=
  ⟨h.width, h.otherSide⟩

/-- A mismatch that has not been drawn yet. -/
theorem Shows.down_reset {b : Board} {i j : Fin 16}
    (h : Shows b (.down i j 0)) : AnimationReset b := by
  refine ⟨h.table.turning.width, fun c => ?_⟩
  rw [h.table.turning.otherSide c]
  split <;> rfl

/-- A fresh deal on a board whose animation is reset. -/
theorem dealt_of_deal {rands : List Rand} {b : Board}
    (h : initializeGameCards rands = some b.cardArray)
    (hr : AnimationReset b) : Dealt b := by
  have hf := (initializeGameCards_spec h).2
  exact ⟨hf, fun i => (hf i).2.1, hr.1, hr.2⟩

theorem phaseInv_start {s : State} (h : Starts s) : PhaseInv s := by
  obtain ⟨rands, cards, hdeal, rfl⟩ := h
  refine ⟨fun _ => dealt_of_deal hdeal ⟨rfl, fun i => ?_⟩, fun h => ?_,
    fun h => ?_⟩
  · exact List.Vector.get_replicate ..
  · cases h
  · rcases h with h | h <;> cases h

theorem PhaseInv.sameGame {s s' : State} (h : PhaseInv s)
    (hs : SameGame s s') : PhaseInv s' := by
  refine ⟨fun hi => ?_, fun hi => ?_, fun ho => ?_⟩
  · rw [hs.board]
    exact h.preview (hs.initGame.symm.trans hi)
  · rw [hs.board]
    exact h.play (hs.initGame.symm.trans hi)
  · rw [hs.gameOver, hs.victory] at ho
    rw [hs.board]
    exact h.outcome ho

/-- A preview tick keeps the dealt board, or turns it over. -/
theorem phaseInv_preview {t s' : State} (h : PhaseInv t)
    (hinit : t.initGame = true)
    (hdraw : draw mode0x115 (previewStart t) = some s') : PhaseInv s' := by
  have hd := h.preview hinit
  rw [draw_eq] at hdraw
  obtain ⟨b, hb, rfl⟩ := Option.map_eq_some_iff.1 hdraw
  unfold previewStart at hb ⊢
  by_cases hc : t.tmrTckCounter % 240 = 0
  · rw [if_pos hc] at hb ⊢
    obtain ⟨b', hb', hrest⟩ := preview_lands hd
    rw [hb] at hb'
    cases hb'
    refine ⟨fun hi => ?_, fun _ => ⟨_, hrest⟩, fun _ => ?_⟩
    · cases hi
    · exact hrest.rest_still.still.reset
  · rw [if_neg hc] at hb ⊢
    rw [turnCards_still hd.still.isFlipping] at hb
    cases hb
    exact h

/-- A playing tick that the guard admits. -/
theorem phaseInv_play {t u : State} (h : PhaseInv t)
    (ho : t.gameOver = false) (hv : t.victory = false)
    (hinit : t.initGame = false) (hok : ¬ThirdCardSlips t)
    (hu : playUntilMatch mode0x115 t = some u) :
    PhaseInv (victoryPhase (matchPhase u)) := by
  obtain ⟨p, hp⟩ := h.play hinit
  obtain ⟨p', hp', hout⟩ := play_shows hp hok hu
  obtain ⟨-, hui, huo, huv, -, -, -⟩ := playUntilMatch_frame hu
  have hf := matchPhase_frame u
  have hi : (matchPhase u).initGame = false :=
    hf.initGame.trans (hui.trans hinit)
  have hmv : (matchPhase u).victory = false :=
    hf.victory.trans (huv.trans hv)
  -- a game lost in this tick was lost by the pair just sent back
  have hlost : (matchPhase u).gameOver = true →
      AnimationReset (matchPhase u).board := by
    intro hgo
    rcases hout with ⟨-, hsame, -⟩ | ⟨i, j, rfl, -, -, -⟩
    · rw [hsame, huo, ho] at hgo
      cases hgo
    · exact hp'.down_reset
  rcases victoryPhase_cases (matchPhase u) with he | ⟨hall, he⟩
  · rw [he]
    refine ⟨fun hi' => ?_, fun _ => ⟨p', hp'⟩, fun ho' => ?_⟩
    · rw [hi] at hi'
      cases hi'
    · rcases ho' with hgo | hvic
      · exact hlost hgo
      · rw [hmv] at hvic
        cases hvic
  · rw [he]
    refine ⟨fun hi' => ?_, fun _ => ⟨p', hp'⟩, fun _ => ?_⟩
    · have hi'' : (matchPhase u).initGame = true := hi'
      rw [hi] at hi''
      cases hi''
    · exact (hp'.still_of_allMatched (allMatched_iff.1 hall)).reset

/-- One admitted step preserves the invariant. -/
theorem phaseInv_step {s s' : State} {n : Notification}
    (ho : OutcomeInv s) (h : PhaseInv s) (hok : noSlip s n)
    (hs : step mode0x115 s n = some s') : PhaseInv s' := by
  cases step_kind hs with
  | quiet hsame _ _ => exact h.sameGame hsame
  | preview hts _ hinit hdraw =>
      exact phaseInv_preview (h.sameGame hts.frame.1) hinit hdraw
  | play hts hgs hinit hu =>
      obtain ⟨hsame, hgs', -⟩ := hts.frame
      obtain ⟨hgo, hvic, -⟩ := ho.playing (by rw [← hgs', hgs]; decide)
      exact phaseInv_play (h.sameGame hsame) (hsame.gameOver.trans hgo)
        (hsame.victory.trans hvic) hinit (hok _ hts hgs hinit) hu
  | restart hts _ hout hdeal =>
      have hr := (h.sameGame hts.frame.1).outcome hout
      refine ⟨fun _ => dealt_of_deal hdeal hr, fun hi => ?_, fun ho => ?_⟩
      · cases hi
      · rcases ho with ho | ho <;> cases ho

/-- The invariant holds along every run without a slip. -/
theorem phaseInv_reach {s : State} (h : Reach noSlip s) : PhaseInv s :=
  h.invariant (fun _ => phaseInv_start) fun _ _ _ hr hinv hok hs =>
    phaseInv_step (outcomeInv_reach hr) hinv hok hs

-- ================================================== two cards in play

/-- At most two cards are in play at the end of a tick of the game, in
every run in which no third card slips in. -/
theorem at_most_two_in_play {s : State} (h : EndOfTick noSlip s)
    (_hgs : s.gs = .game) (hinit : s.initGame = false) :
    (inPlay s.board).card ≤ 2 := by
  obtain ⟨p, hp⟩ := (phaseInv_reach h.reach).play hinit
  exact hp.inPlay_card

/-- Card 0 lies open and card 1 has started to turn. -/
def pairRun : Script admits (afterTick admits fun s =>
    decide (s.gs = .game ∧ s.initGame = false
      ∧ (inPlay s.board).card = 2)) where
  notifications := opening ++ ticks 282 ++ shift 1 0 ++ ticks 1
  shows := by decide +kernel

/-- A run without a slip that has a card open and a card turning. -/
theorem at_most_two_in_play_pair :
    ∃ s, EndOfTick noSlip s ∧ s.gs = .game ∧ s.initGame = false
      ∧ (inPlay s.board).card = 2 ∧ (inPlay s.board).card ≤ 2 := by
  obtain ⟨s, hs, hP⟩ := pairRun.endOfTick admits_noSlip
  obtain ⟨hgs, hinit, hcard⟩ := of_decide_eq_true hP
  exact ⟨s, hs, hgs, hinit, hcard, at_most_two_in_play hs hgs hinit⟩

/-- Cards 0 and 1 open one after the other; the button is held over card
2 in the tick in which card 1 lands. -/
def thirdCardRun : Script noTest (afterTick noTest fun s =>
    decide (s.gs = .game ∧ s.initGame = false
      ∧ 2 < (inPlay s.board).card)) where
  notifications :=
    opening ++ ticks 282 ++ shift 1 0 ++ ticks 41 ++ shift 1 0
  shows := by decide +kernel

/-- With a third card let in, three cards are in play. -/
theorem third_card_in_play :
    ∃ s, EndOfTick anyStep s ∧ s.gs = .game ∧ s.initGame = false
      ∧ 2 < (inPlay s.board).card := by
  obtain ⟨s, hs, hP⟩ := thirdCardRun.endOfTick noTest_anyStep
  exact ⟨s, hs, of_decide_eq_true hP⟩

-- ============================================== matched cards stay open

/-- A matched card lies face up and does not turn at the end of a tick
of the game, in every run in which no third card slips in. -/
theorem matched_stays_open {s : State} (h : EndOfTick noSlip s)
    (_hgs : s.gs = .game) {i : Fin 16}
    (hm : (s.board.card i).flipSuccess = true) :
    (s.board.card i).isFlipped = false
      ∧ (s.board.card i).isFlipping = false := by
  have hinv := phaseInv_reach h.reach
  cases hinit : s.initGame with
  | true =>
      have hun : (s.board.card i).flipSuccess = false :=
        ((hinv.preview hinit).fresh i).2.2
      rw [hun] at hm
      cases hm
  | false =>
      obtain ⟨p, hp⟩ := hinv.play hinit
      exact hp.table.matched_open hm

/-- Card 0 opens, and then its twin, card 15. -/
def matchRun : Script admits (afterTick admits fun s =>
    decide (s.gs = .game
      ∧ (s.board.card ⟨0, by decide⟩).flipSuccess = true)) where
  notifications := opening ++ ticks 241 ++ shift 3 3 ++ ticks 82
  shows := by decide +kernel

/-- A run without a slip that matches card 0 with card 15. -/
theorem matched_stays_open_first :
    ∃ s, EndOfTick noSlip s ∧ s.gs = .game
      ∧ (s.board.card 0).flipSuccess = true
      ∧ (s.board.card 0).isFlipped = false
      ∧ (s.board.card 0).isFlipping = false := by
  obtain ⟨s, hs, hP⟩ := matchRun.endOfTick admits_noSlip
  obtain ⟨hgs, hm⟩ := of_decide_eq_true hP
  exact ⟨s, hs, hgs, hm, matched_stays_open hs hgs hm⟩

/-- Cards 6 and 7 open, and card 9, the twin of card 6, slips in. -/
def twinSlipRun : Script noTest (afterTick noTest fun s =>
    decide (s.gs = .game
      ∧ (s.board.card ⟨6, by decide⟩).flipSuccess = true
      ∧ (s.board.card ⟨6, by decide⟩).isFlipping = true)) where
  notifications := opening ++ shift 2 1 ++ ticks 282 ++ shift 1 0
    ++ ticks 41 ++ shift (-2) 1 ++ ticks 6
  shows := by decide +kernel

/-- Once all three lie open, one pass of the match loop sends card 6
back because of card 7 and then matches it with card 9: a matched card
turns. -/
theorem matched_card_turns :
    ∃ s, EndOfTick anyStep s ∧ s.gs = .game
      ∧ (s.board.card 6).flipSuccess = true
      ∧ (s.board.card 6).isFlipping = true := by
  obtain ⟨s, hs, hP⟩ := twinSlipRun.endOfTick noTest_anyStep
  exact ⟨s, hs, of_decide_eq_true hP⟩

-- ==================================================== positive widths

/-- A board that shows a phase is drawn with positive widths. -/
theorem Shows.widthsPositive {b : Board} {p : Phase} (h : Shows b p) :
    WidthsPositive (List.finRange 16) b := by
  cases p with
  | rest o => exact widthsPositive_still h.rest_still.still.isFlipping _
  | up o j k =>
      exact widthsPositive_turning (Finset.singleton_nonempty j)
        (lands_singleton j) _ b k h.wellFormed.2 h.table.turning
  | down i j k =>
      exact widthsPositive_turning (Finset.insert_nonempty i {j})
        (lands_pair h.wellFormed.1) _ b k h.wellFormed.2.1 h.table.turning

/-- Every board that is drawn is drawn with positive widths. -/
theorem PhaseInv.widthsPositive {t : State} {b : Board} (h : PhaseInv t)
    (hd : DrawsBoard t b) : WidthsPositive (List.finRange 16) b := by
  obtain ⟨-, ⟨hinit, rfl⟩ | ⟨hinit, -, rfl⟩⟩ := hd
  · have hdealt := h.preview hinit
    unfold previewStart
    split
    · exact widthsPositive_turning Finset.univ_nonempty lands_univ _ _ 0
        (by decide) (preview_table hdealt).turning
    · exact widthsPositive_still hdealt.still.isFlipping _
  · obtain ⟨p, hp⟩ := h.play hinit
    exact hp.widthsPositive

/-- Every division by `increaseWidth` in a flip function happens with a
width of at least one, in every run in which no third card slips in. -/
theorem flip_width_positive {s t : State} {n : Notification} {b : Board}
    (h : Reach noSlip s) (ht : TickState mode0x115 s n t)
    (hd : DrawsBoard t b) :
    ∀ d ∈ (drawGameCards mode0x115 b).draws, ∀ i front w,
      d = .squeezed i front w → 1 ≤ w := by
  have hinv := (phaseInv_reach h).sameGame ht.frame.1
  exact (drawCards_widths _ _ _ (hinv.widthsPositive hd)).2

/-- The squeezed pictures of a frame and their widths. -/
def squeezedWidths (b : Board) : List Int :=
  (drawGameCards mode0x115 b).draws.filterMap fun d =>
    match d with
    | .squeezed _ _ w => some w
    | .plain .. => none

theorem mem_squeezedWidths {b : Board} {w : Int}
    (h : w ∈ squeezedWidths b) :
    ∃ d ∈ (drawGameCards mode0x115 b).draws, ∃ i front,
      d = .squeezed i front w := by
  obtain ⟨d, hd, hw⟩ := List.mem_filterMap.1 h
  cases d with
  | plain => cases hw
  | squeezed i front w' =>
      cases hw
      exact ⟨_, hd, i, front, rfl⟩

/-- The game has started, and the next tick turns the board over. -/
def previewRun : Script admits fun s =>
    decide (s.gs = .game ∧ s.initGame = true
      ∧ squeezedWidths (previewStart (timerIntHandler s)).board ≠ []) where
  notifications := opening ++ ticks 239
  shows := by decide +kernel

/-- The tick that turns the dealt board over draws squeezed cards, all
of them with a positive width. -/
theorem flip_width_positive_preview :
    ∃ s t b, Reach noSlip s ∧ TickState mode0x115 s tick t
      ∧ DrawsBoard t b ∧ squeezedWidths b ≠ []
      ∧ ∀ d ∈ (drawGameCards mode0x115 b).draws, ∀ i front w,
        d = .squeezed i front w → 1 ≤ w := by
  obtain ⟨s, hs, hP⟩ := previewRun.reach admits_noSlip
  obtain ⟨hgs, hinit, hdraws⟩ := of_decide_eq_true hP
  have hd : DrawsBoard (timerIntHandler s)
      (previewStart (timerIntHandler s)).board :=
    ⟨hgs, .inl ⟨hinit, rfl⟩⟩
  exact ⟨s, _, _, hs, tickState_tick s, hd, hdraws,
    flip_width_positive hs (tickState_tick s) hd⟩

/-- Cards 1 and 2 open, and card 0 slips in. -/
def runawayRun : Script noTest fun s =>
    decide (s.gs = .game ∧ s.initGame = false
      ∧ (s.tmrTckCounter + 1) % 2 = 0
      ∧ (-1) ∈ squeezedWidths s.board) where
  notifications := opening ++ shift 1 0 ++ ticks 282 ++ shift 1 0
    ++ ticks 41 ++ shift (-2) 0 ++ ticks 8
  shows := by decide +kernel

/-- The pair turns down while card 0 turns up, three steps of the shared
width at a time; the width steps over both stops and the next division
has a negative divisor. -/
theorem flip_width_runs_away :
    ∃ s t b, Reach anyStep s ∧ TickState mode0x115 s tick t
      ∧ DrawsBoard t b ∧ ∃ d ∈ (drawGameCards mode0x115 b).draws,
        ∃ i front w, d = .squeezed i front w ∧ w < 1 := by
  obtain ⟨s, hs, hP⟩ := runawayRun.reach noTest_anyStep
  obtain ⟨hgs, hinit, hev, hw⟩ := of_decide_eq_true hP
  obtain ⟨d, hd, i, front, rfl⟩ := mem_squeezedWidths hw
  exact ⟨s, _, s.board, hs, tickState_tick s,
    ⟨hgs, .inr ⟨hinit, hev, rfl⟩⟩, _, hd, i, front, -1, rfl, by decide⟩

-- ====================================================== a clean restart

/-- The part of the state a new game depends on is as at the start of
the program. -/
def CleanGame (s : State) : Prop :=
  (∀ i, (s.board.card i).isFlipped = false
      ∧ (s.board.card i).isFlipping = false
      ∧ (s.board.card i).flipSuccess = false)
    ∧ s.p1.lives = 5 ∧ s.p1.isAlive = true ∧ s.board.increaseWidth = 1
    ∧ (∀ i, s.board.otherSide.get i = 0) ∧ s.initGame = true
    ∧ s.gameOver = false ∧ s.victory = false

/-- A new game starts clean, in every run in which no third card slips
in. -/
theorem new_game_clean {s s' : State} {n : Notification}
    (h : Reach noSlip s) (hs : step mode0x115 s n = some s')
    (hd : Deals s s') : CleanGame s' := by
  have hinv := phaseInv_reach h
  cases step_kind hs with
  | quiet _ hgs _ => exact absurd hd (not_deals_quiet hgs)
  | preview hts hgs _ _ =>
      exact absurd hd (not_deals_game (hts.frame.2.1.symm.trans hgs))
  | play hts hgs _ _ =>
      exact absurd hd (not_deals_game (hts.frame.2.1.symm.trans hgs))
  | restart hts _ hout hdeal =>
      have hr := (hinv.sameGame hts.frame.1).outcome hout
      exact ⟨(initializeGameCards_spec hdeal).2, rfl, rfl, hr.1, hr.2, rfl,
        rfl, rfl⟩

/-- A game lost by turning cards 0 and 1 up five times over. -/
def lostRun : Script admits fun s =>
    (swiftStep s dealTick).any fun s' => decide (Deals s s') where
  notifications := fiveMismatches ++ ticks 102
  shows := by decide +kernel

/-- The deal after a lost game. -/
theorem new_game_clean_lost :
    ∃ s s', Reach noSlip s ∧ step mode0x115 s dealTick = some s'
      ∧ Deals s s' ∧ CleanGame s' := by
  obtain ⟨s, hs, hP⟩ := lostRun.reach admits_noSlip
  obtain ⟨s', hstep, hd⟩ := step_of_swift hP
  exact ⟨s, s', hs, hstep, of_decide_eq_true hd,
    new_game_clean hs hstep (of_decide_eq_true hd)⟩

/-- Card 6 is matched and turned face down, as in `twinSlipRun`; the
other fourteen cards are matched, and card 6 is selected in the tick
that completes the last pair. -/
def dirtyRun : Script noTest fun s =>
    (swiftStep s dealTick).any fun s' => decide (Deals s s'
      ∧ s'.board.increaseWidth ≠ 1
      ∧ s'.board.otherSide.get ⟨6, by decide⟩ ≠ 0) where
  notifications := opening ++ shift 2 1 ++ ticks 282 ++ shift 1 0
    ++ ticks 41 ++ shift (-2) 1 ++ ticks 17
    -- cards 8 and 7, then the six pairs left
    ++ shift (-1) 0 ++ ticks 1 ++ shift 3 (-1) ++ ticks 42
    ++ shift (-1) 1 ++ ticks 42 ++ shift (-1) (-1) ++ ticks 42
    ++ shift (-1) 0 ++ ticks 42 ++ shift 3 1 ++ ticks 42
    ++ shift (-3) 1 ++ ticks 42
    ++ shift 3 (-1) ++ shift 0 (-1) ++ shift 0 (-1) ++ ticks 42
    ++ shift (-1) 0 ++ ticks 42 ++ shift (-1) 3 ++ ticks 42
    ++ shift 1 0 ++ ticks 42
    ++ shift (-1) (-1) ++ shift 0 (-1) ++ shift 0 (-1) ++ ticks 42
    ++ shift (-1) 0 ++ ticks 42 ++ shift 3 3 ++ ticks 42
    -- card 6 again, through the victory at 960 to the deal at 1200
    ++ shift (-1) (-1) ++ shift 0 (-1) ++ ticks 312
  shows := by decide +kernel

/-- The victory gate finds card 6 half turned, and the next game starts
with its width and its side. -/
theorem new_game_dirty :
    ∃ s s', Reach anyStep s ∧ step mode0x115 s dealTick = some s'
      ∧ Deals s s' ∧ s'.board.increaseWidth ≠ 1
      ∧ s'.board.otherSide.get 6 ≠ 0 := by
  obtain ⟨s, hs, hP⟩ := dirtyRun.reach noTest_anyStep
  obtain ⟨s', hstep, hd⟩ := step_of_swift hP
  exact ⟨s, s', hs, hstep, of_decide_eq_true hd⟩

end Lcom.Proj
