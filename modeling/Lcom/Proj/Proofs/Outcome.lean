/-
Outcomes: when the game is lost, when it is won, and why never both.

`OutcomeInv` is the invariant, over every run: outside the exit screen
no outcome is set and the player has one to five lives. A playing tick
may take several lives in one match loop, and past zero the unsigned
counter wraps, but the loop sets `game_over` and leaves for the exit
screen in the very round that reaches zero (`matchRounds_outcome`), so
no later tick ever sees the wrapped value.

The two outcomes exclude each other inside one tick by an argument
about the board. The card whose round cost the last life is open and is
not the remembered one, so no later round can match it: one card is
left unmatched and the victory test fails.
-/
import Lcom.Proj.Proofs.Match
import Lcom.Proj.Proofs.Replay

namespace Lcom.Proj

open Machine

-- ================================================== lives in one loop

/-- Losing one of one to five lives is a subtraction. -/
theorem loseLife_lives {p : Player} (h : 1 ≤ p.lives ∧ p.lives ≤ 5) :
    p.loseLife.lives = p.lives - 1 := by
  unfold Player.loseLife
  show (p.lives + (2 ^ 32 - 1)) % 2 ^ 32 = p.lives - 1
  omega

/-- The match loop so far has taken no last life. -/
def StillAlive (s : State) (n : Nat) (t : State) : Prop :=
  t.gameOver = false ∧ 1 ≤ t.p1.lives ∧ t.p1.lives ≤ 5 ∧ t.gs = s.gs
    ∧ ∀ j, j ≤ n → (matchRounds j s).p1.lives ≠ 0

/-- The match loop has taken the last life: the exit screen is next, and
some visited card other than the remembered one stays unmatched. -/
def JustLost (s : State) (n : Nat) (acc : State × Option (Fin 16)) :
    Prop :=
  acc.1.gameOver = true ∧ acc.1.gs = .exit
    ∧ (∃ j, j ≤ n ∧ (matchRounds j s).p1.lives = 0)
    ∧ ∃ i : Fin 16, i.val < n ∧ acc.2 ≠ some i
      ∧ (acc.1.board.card i).flipSuccess = false

/-- A round of the match loop keeps a lost game lost. -/
theorem JustLost.step {s : State} {n : Nat} (hn : n < 16)
    {acc : State × Option (Fin 16)} (h : JustLost s n acc) :
    JustLost s (n + 1) (matchStep acc ⟨n, hn⟩) := by
  obtain ⟨hgo, hgs, ⟨j, hj, hzero⟩, i, hi, hrem, hun⟩ := h
  have hin : i ≠ ⟨n, hn⟩ := by
    intro he
    subst he
    exact Nat.lt_irrefl _ hi
  have hreach : ∃ j, j ≤ n + 1 ∧ (matchRounds j s).p1.lives = 0 :=
    ⟨j, by omega, hzero⟩
  rcases matchStep_cases acc ⟨n, hn⟩ with ⟨-, h⟩ | ⟨-, -, h⟩ | ⟨k, -, hk, h⟩
  · rw [h]
    exact ⟨hgo, hgs, hreach, i, by omega, hrem, hun⟩
  · rw [h]
    refine ⟨hgo, hgs, hreach, i, by omega, ?_, hun⟩
    intro hsome
    cases hsome
    exact hin rfl
  · have hik : i ≠ k := by
      intro he
      subst he
      exact hrem hk
    have hrem' : some k ≠ some i := fun he => hik (Option.some.inj he).symm
    rcases h with ⟨-, h⟩ | ⟨-, h⟩
    · rw [h]
      refine ⟨hgo, hgs, hreach, i, by omega, hrem', ?_⟩
      rw [matched_card, if_neg (by simp [hin, hik])]
      exact hun
    · rw [h]
      have hcharge : (acc.1.charged ⟨n, hn⟩).gameOver = true
          ∧ (acc.1.charged ⟨n, hn⟩).gs = .exit := by
        unfold State.charged State.chargeLife
        split
        · split
          · exact ⟨rfl, rfl⟩
          · exact ⟨hgo, hgs⟩
        · exact ⟨hgo, hgs⟩
      refine ⟨hcharge.1, hcharge.2, hreach, i, by omega, hrem', ?_⟩
      rw [mismatch_card, if_neg (by simp [hin, hik])]
      exact hun

/-- A round that charges no life. -/
def Uncharged (s t : State) : Prop :=
  t.p1 = s.p1 ∧ t.gameOver = s.gameOver ∧ t.gs = s.gs

/-- A pair that is not turning yet costs one life. -/
theorem mismatch_lives {s : State} (hl : 1 ≤ s.p1.lives ∧ s.p1.lives ≤ 5)
    {i : Fin 16} (hf : (s.board.card i).isFlipping = false) (k : Fin 16) :
    (mismatch s i k).p1.lives = s.p1.lives - 1 := by
  have hch : s.charged i = s.chargeLife := if_pos hf
  show (s.charged i).p1.lives = _
  rw [hch, ← loseLife_lives hl]
  exact (chargeLife_frame s).2.2.2.2

/-- What a mismatch costs a living player: nothing while the later card
is turning, else one life, and the game with the last one. -/
theorem mismatch_charge {s : State} (hl : 1 ≤ s.p1.lives ∧ s.p1.lives ≤ 5)
    (i k : Fin 16) :
    Uncharged s (mismatch s i k)
      ∨ ((mismatch s i k).p1.lives = s.p1.lives - 1
        ∧ ((s.p1.lives = 1 ∧ (mismatch s i k).gameOver = true
            ∧ (mismatch s i k).gs = .exit)
          ∨ (s.p1.lives ≠ 1 ∧ (mismatch s i k).gameOver = s.gameOver
            ∧ (mismatch s i k).gs = s.gs))) := by
  have hlives := loseLife_lives hl
  cases hf : (s.board.card i).isFlipping with
  | true =>
      have hch : s.charged i = s := if_neg (by simp [hf])
      left
      show (s.charged i).p1 = s.p1 ∧ (s.charged i).gameOver = s.gameOver
        ∧ (s.charged i).gs = s.gs
      rw [hch]
      exact ⟨rfl, rfl, rfl⟩
  | false =>
      have hch : s.charged i = s.chargeLife := if_pos hf
      refine .inr ⟨mismatch_lives hl hf k, ?_⟩
      show (_ ∧ (s.charged i).gameOver = _ ∧ (s.charged i).gs = _)
        ∨ (_ ∧ (s.charged i).gameOver = _ ∧ (s.charged i).gs = _)
      rw [hch]
      unfold State.chargeLife
      by_cases hz : s.p1.lives = 1
      · rw [if_pos (by rw [hlives, hz])]
        exact .inl ⟨hz, rfl, rfl⟩
      · rw [if_neg (by rw [hlives]; omega)]
        exact .inr ⟨hz, rfl, rfl⟩

/-- The next value of `matchRounds`. -/
theorem matchRounds_succ (s : State) {n : Nat} (hn : n < 16) :
    matchRounds (n + 1) s
      = (matchStep (rounds matchStep n (s, none)) ⟨n, hn⟩).1 := by
  unfold matchRounds
  rw [rounds_succ matchStep _ hn]

/-- A round that charges nothing keeps the player alive. -/
theorem StillAlive.uncharged {s : State} {n : Nat} {t : State}
    (h : StillAlive s n t) (hu : Uncharged t (matchRounds (n + 1) s)) :
    StillAlive s (n + 1) (matchRounds (n + 1) s) := by
  obtain ⟨hgo, h1, h5, hgs, hnz⟩ := h
  obtain ⟨hp, ho, hs⟩ := hu
  refine ⟨ho.trans hgo, by rw [hp]; exact h1, by rw [hp]; exact h5,
    hs.trans hgs, fun j hj => ?_⟩
  rcases Nat.lt_or_eq_of_le hj with hlt | rfl
  · exact hnz j (by omega)
  · rw [hp]
    omega

/-- A round of the match loop with a living player: alive still, or
just lost. -/
theorem StillAlive.step {s : State} {n : Nat} (hn : n < 16)
    (h : StillAlive s n (rounds matchStep n (s, none)).1) :
    StillAlive s (n + 1)
        (matchStep (rounds matchStep n (s, none)) ⟨n, hn⟩).1
      ∨ JustLost s (n + 1)
        (matchStep (rounds matchStep n (s, none)) ⟨n, hn⟩) := by
  have hsucc := matchRounds_succ s hn
  rcases matchStep_cases (rounds matchStep n (s, none)) ⟨n, hn⟩
    with ⟨-, hs⟩ | ⟨-, -, hs⟩ | ⟨k, hopen, hk, ⟨-, hs⟩ | ⟨-, hs⟩⟩
  · left
    rw [← hsucc]
    apply h.uncharged
    rw [hsucc, hs]
    exact ⟨rfl, rfl, rfl⟩
  · left
    rw [← hsucc]
    apply h.uncharged
    rw [hsucc, hs]
    exact ⟨rfl, rfl, rfl⟩
  · left
    rw [← hsucc]
    apply h.uncharged
    rw [hsucc, hs]
    exact ⟨rfl, rfl, rfl⟩
  · obtain ⟨hgo, h1, h5, hgs, hnz⟩ := h
    rcases mismatch_charge ⟨h1, h5⟩ ⟨n, hn⟩ k
      with hu | ⟨hp, ⟨hz, ho, hx⟩ | ⟨hz, ho, hx⟩⟩
    · left
      rw [← hsucc]
      refine StillAlive.uncharged ⟨hgo, h1, h5, hgs, hnz⟩ ?_
      rw [hsucc, hs]
      exact hu
    · -- the last life: this card stays unmatched
      right
      rw [hs] at hsucc ⊢
      refine ⟨ho, hx, ⟨n + 1, Nat.le_refl _, by rw [hsucc, hp, hz]⟩,
        ⟨n, hn⟩, Nat.lt_succ_self n, ?_, ?_⟩
      · intro he
        have hlt := remembered_lt s (Nat.le_of_lt hn) k hk
        rw [Option.some.inj he] at hlt
        exact Nat.lt_irrefl _ hlt
      · simp only [Card.isOpen, Bool.and_eq_true, Bool.not_eq_true'] at hopen
        rw [mismatch_card]
        split
        · exact hopen.2
        · exact hopen.2
    · left
      rw [hs] at hsucc ⊢
      refine ⟨ho.trans hgo, by rw [hp]; omega, by rw [hp]; omega,
        hx.trans hgs, fun j hj => ?_⟩
      rcases Nat.lt_or_eq_of_le hj with hlt | rfl
      · exact hnz j (by omega)
      · rw [hsucc, hp]
        omega

/-- The match loop from a living player: either it never reaches zero
lives, or it sets `game_over` and leaves a card unmatched. -/
theorem matchRounds_outcome {s : State} (hgo : s.gameOver = false)
    (hl : 1 ≤ s.p1.lives ∧ s.p1.lives ≤ 5) {n : Nat} (hn : n ≤ 16) :
    StillAlive s n (matchRounds n s)
      ∨ JustLost s n (rounds matchStep n (s, none)) := by
  refine rounds_induction
    (P := fun n (acc : State × Option (Fin 16)) =>
      StillAlive s n acc.1 ∨ JustLost s n acc) ?_ ?_ n hn
  · refine .inl ⟨hgo, hl.1, hl.2, rfl, fun j hj => ?_⟩
    rw [Nat.le_zero.1 hj, matchRounds, rounds_zero]
    show s.p1.lives ≠ 0
    omega
  · intro n hn ih
    rcases ih with halive | hlost
    · exact halive.step hn
    · exact .inr (hlost.step hn)

-- ====================================================== over whole runs

/-- Never both outcomes, and outside the exit screen neither, with one
to five lives. -/
structure OutcomeInv (s : State) : Prop where
  notBoth : ¬(s.gameOver = true ∧ s.victory = true)
  playing : s.gs ≠ .exit → s.gameOver = false ∧ s.victory = false
    ∧ 1 ≤ s.p1.lives ∧ s.p1.lives ≤ 5

/-- The lives reach zero while the notification is handled: its tick
runs the match loop, and after some round of it no life is left. -/
def LivesReachZero (m : ModeInfo) (s : State) (n : Notification) : Prop :=
  ∃ t u k, TickState m s n t ∧ t.gs = .game ∧ t.initGame = false
    ∧ playUntilMatch m t = some u ∧ u.isAnyCardFlipping = false
    ∧ k ≤ 16 ∧ (matchRounds k u).p1.lives = 0

theorem outcomeInv_start {s : State} (h : Starts s) : OutcomeInv s := by
  obtain ⟨-, cards, -, rfl⟩ := h
  refine ⟨?_, fun _ => ⟨rfl, rfl, ?_⟩⟩
  · intro hlost
    obtain ⟨h, -⟩ := hlost
    cases h
  · show 1 ≤ 5 ∧ 5 ≤ 5
    omega

/-- The match phase of a playing tick: alive with the screen unchanged,
or lost with a card unmatched. -/
theorem matchPhase_outcome {u : State} (hgo : u.gameOver = false)
    (hl : 1 ≤ u.p1.lives ∧ u.p1.lives ≤ 5) :
    ((matchPhase u).gameOver = false ∧ 1 ≤ (matchPhase u).p1.lives
        ∧ (matchPhase u).p1.lives ≤ 5 ∧ (matchPhase u).gs = u.gs
        ∧ ¬(u.isAnyCardFlipping = false
          ∧ ∃ k, k ≤ 16 ∧ (matchRounds k u).p1.lives = 0))
      ∨ ((matchPhase u).gameOver = true ∧ (matchPhase u).gs = .exit
        ∧ (matchPhase u).board.allMatched = false
        ∧ u.isAnyCardFlipping = false
        ∧ ∃ k, k ≤ 16 ∧ (matchRounds k u).p1.lives = 0) := by
  unfold matchPhase
  cases hany : u.isAnyCardFlipping with
  | true =>
      exact .inl ⟨hgo, hl.1, hl.2, rfl, fun h => by cases h.1⟩
  | false =>
      rw [if_neg (by decide)]
      rcases matchRounds_outcome hgo hl (Nat.le_refl 16)
        with ⟨h1, h2, h3, h4, h5⟩ | ⟨h1, h2, h3, i, -, -, hi⟩
      · refine .inl ⟨h1, h2, h3, h4, ?_⟩
        intro hlost
        obtain ⟨-, k, hk, hz⟩ := hlost
        exact h5 k hk hz
      · refine .inr ⟨h1, h2, ?_, rfl, h3⟩
        rw [Bool.eq_false_iff, ne_eq, allMatched_iff]
        intro hall
        have hi' : ((matchRounds 16 u).board.card i).flipSuccess = false := hi
        rw [hall i] at hi'
        cases hi'

/-- A playing tick: what it does to the outcome. -/
theorem outcome_play {t u : State} (ht : t.gameOver = false)
    (hv : t.victory = false) (hl : 1 ≤ t.p1.lives ∧ t.p1.lives ≤ 5)
    (hu : playUntilMatch mode0x115 t = some u) :
    OutcomeInv (victoryPhase (matchPhase u))
      ∧ ((victoryPhase (matchPhase u)).victory = true →
        ∀ i, ((victoryPhase (matchPhase u)).board.card i).flipSuccess = true)
      ∧ ((victoryPhase (matchPhase u)).gameOver = true
        ↔ u.isAnyCardFlipping = false
          ∧ ∃ k, k ≤ 16 ∧ (matchRounds k u).p1.lives = 0) := by
  obtain ⟨hp, -, hgo, hvic, -, -, -⟩ := playUntilMatch_frame hu
  rw [← hgo] at ht
  rw [← hvic] at hv
  rw [← hp] at hl
  have hmv : (matchPhase u).victory = false :=
    (matchPhase_frame u).victory.trans hv
  rcases matchPhase_outcome ht hl
    with ⟨ho, h1, h5, -, hno⟩ | ⟨ho, hx, hun, hyes⟩
  · rcases victoryPhase_cases (matchPhase u) with he | ⟨hall, he⟩
    · rw [he]
      refine ⟨⟨fun h => ?_, fun _ => ⟨ho, hmv, h1, h5⟩⟩, fun h => ?_, ?_⟩
      · rw [ho] at h
        cases h.1
      · rw [hmv] at h
        cases h
      · simp only [ho, Bool.false_eq_true, false_iff]
        exact hno
    · rw [he]
      refine ⟨⟨fun h => ?_, fun h => absurd rfl h⟩, fun _ => ?_, ?_⟩
      · have := h.1
        rw [ho] at this
        cases this
      · exact allMatched_iff.1 hall
      · simp only [ho, Bool.false_eq_true, false_iff]
        exact hno
  · have he : victoryPhase (matchPhase u) = matchPhase u := by
      rcases victoryPhase_cases (matchPhase u) with he | ⟨hall, -⟩
      · exact he
      · rw [hun] at hall
        cases hall
    rw [he]
    refine ⟨⟨fun h => ?_, fun h => absurd hx h⟩, fun h => ?_, ?_⟩
    · rw [hmv] at h
      cases h.2
    · rw [hmv] at h
      cases h
    · exact ⟨fun _ => hyes, fun _ => ho⟩

/-- A tick reads one pre-state. -/
theorem TickState.unique {m : ModeInfo} {s t t' : State} {n : Notification}
    (h : TickState m s n t) (h' : TickState m s n t') : t = t' := by
  obtain ⟨s₁, hin, -, rfl⟩ := h
  obtain ⟨s₂, hin', -, rfl⟩ := h'
  rw [hin] at hin'
  cases hin'
  rfl

/-- A notification whose tick does not play takes no life. -/
theorem not_livesReachZero {m : ModeInfo} {s : State} {n : Notification}
    (h : s.gs ≠ .game ∨ s.initGame = true ∨ ∀ t, ¬TickState m s n t) :
    ¬LivesReachZero m s n := by
  intro hex
  obtain ⟨t, -, -, hts, hgs, hinit, -⟩ := hex
  obtain ⟨hsame, hgs', -⟩ := hts.frame
  rcases h with h | h | h
  · exact h (hgs'.symm.trans hgs)
  · rw [hsame.initGame, h] at hinit
    cases hinit
  · exact h t hts

/-- A preview tick leaves the player and the outcome alone. -/
theorem preview_outcome {t s' : State}
    (h : draw mode0x115 (previewStart t) = some s') :
    s'.p1 = t.p1 ∧ s'.gameOver = t.gameOver ∧ s'.victory = t.victory := by
  rw [draw_eq] at h
  obtain ⟨b, -, rfl⟩ := Option.map_eq_some_iff.1 h
  unfold previewStart
  split <;> exact ⟨rfl, rfl, rfl⟩

/-- A step preserves the invariant, wins only on a matched board, and
loses exactly when the lives reach zero. -/
structure OutcomeStep (s : State) (n : Notification) (s' : State) :
    Prop where
  inv : OutcomeInv s'
  wins : s.victory = false → s'.victory = true →
    ∀ i, (s'.board.card i).flipSuccess = true
  loses : (s.gameOver = false ∧ s'.gameOver = true)
    ↔ LivesReachZero mode0x115 s n

/-- A step that leaves the player and the outcome alone and does not
leave the exit screen. -/
theorem OutcomeInv.kept {s s' : State} {n : Notification}
    (hinv : OutcomeInv s) (hp : s'.p1 = s.p1)
    (ho : s'.gameOver = s.gameOver) (hv : s'.victory = s.victory)
    (hgs : s'.gs ≠ .exit → s.gs ≠ .exit)
    (hz : ¬LivesReachZero mode0x115 s n) : OutcomeStep s n s' := by
  refine ⟨⟨?_, fun hx => ?_⟩, fun h0 h1 => ?_, iff_of_false ?_ hz⟩
  · rw [ho, hv]
    exact hinv.notBoth
  · rw [ho, hv, hp]
    exact hinv.playing (hgs hx)
  · rw [hv, h0] at h1
    cases h1
  · rw [ho]
    intro h
    rw [h.1] at h
    cases h.2

/-- Every step of the loop. -/
theorem outcome_step {s s' : State} {n : Notification}
    (hinv : OutcomeInv s) (h : step mode0x115 s n = some s') :
    OutcomeStep s n s' := by
  cases step_kind h with
  | quiet hsame hgs hno =>
      refine hinv.kept hsame.p1 hsame.gameOver hsame.victory
        (fun hx hexit => ?_) (not_livesReachZero (hno.imp_right .inr))
      rcases hgs with hgs | ⟨-, hne⟩
      · exact hx (hgs.trans hexit)
      · exact hne hexit
  | preview hts hgs hinit hdraw =>
      obtain ⟨hsame, hgs', -⟩ := hts.frame
      obtain ⟨hp, ho, hv⟩ := preview_outcome hdraw
      refine hinv.kept (hp.trans hsame.p1) (ho.trans hsame.gameOver)
        (hv.trans hsame.victory) (fun _ => ?_) (not_livesReachZero
          (.inr (.inl (hsame.initGame.symm.trans hinit))))
      rw [← hgs', hgs]
      decide
  | play hts hgs hinit hu =>
      obtain ⟨hsame, hgs', -⟩ := hts.frame
      obtain ⟨hgo, hvic, hlives⟩ := hinv.playing (by rw [← hgs', hgs]; decide)
      obtain ⟨hI, hwin, hlose⟩ := outcome_play
        (hsame.gameOver.trans hgo) (hsame.victory.trans hvic)
        (by rw [hsame.p1]; exact hlives) hu
      refine ⟨hI, fun _ => hwin, ?_⟩
      rw [hlose]
      constructor
      · intro hlost
        obtain ⟨-, hany, k, hk, hz⟩ := hlost
        exact ⟨_, _, k, hts, hgs, hinit, hu, hany, hk, hz⟩
      · intro hex
        obtain ⟨t', u', k, hts', -, -, hu', hany, hk, hz⟩ := hex
        cases hts.unique hts'
        rw [hu] at hu'
        cases hu'
        exact ⟨hgo, hany, k, hk, hz⟩
  | restart hts hgs ho hdeal =>
      obtain ⟨hsame, hgs', -⟩ := hts.frame
      refine ⟨⟨?_, fun _ => ⟨rfl, rfl, ?_⟩⟩, fun _ h1 => ?_,
        iff_of_false ?_ (not_livesReachZero ?_)⟩
      · intro h
        cases h.1
      · show 1 ≤ 5 ∧ 5 ≤ 5
        omega
      · cases h1
      · intro h
        cases h.2
      · left
        rw [← hgs', hgs]
        decide

/-- The outcome invariant holds along every run. -/
theorem outcomeInv_reach {ok : State → Notification → Prop} {s : State}
    (h : Reach ok s) : OutcomeInv s :=
  h.invariant (fun _ => outcomeInv_start)
    fun _ _ _ _ hs _ hstep => (outcome_step hs hstep).inv

/-- Outcome correctness, over every run. The two outcomes are never set
together. The loop is in play, paused or showing the instructions only
with one to five lives. A step that sets `victory` leaves every card
matched, and a step sets `game_over` exactly when the lives reach zero
in it. -/
theorem outcome_correct {s : State} (h : Reach anyStep s) :
    ¬(s.gameOver = true ∧ s.victory = true)
      ∧ (s.gs = .game ∨ s.gs = .pause ∨ s.gs = .instructions →
        1 ≤ s.p1.lives ∧ s.p1.lives ≤ 5)
      ∧ ∀ n s', step mode0x115 s n = some s' →
        (s.victory = false → s'.victory = true →
          ∀ i, (s'.board.card i).flipSuccess = true)
        ∧ ((s.gameOver = false ∧ s'.gameOver = true)
          ↔ LivesReachZero mode0x115 s n) := by
  have hinv := outcomeInv_reach h
  refine ⟨hinv.notBoth, fun hgs => ?_, fun n s' hstep => ?_⟩
  · refine (hinv.playing ?_).2.2
    rcases hgs with hgs | hgs | hgs <;> rw [hgs] <;> decide
  · obtain ⟨-, hwins, hloses⟩ := outcome_step hinv hstep
    exact ⟨hwins, hloses⟩

/-- Up to the tick that takes the last life. -/
def lostGame : Script noTest fun s =>
    decide (s.gs = .game ∧ s.gameOver = false)
      && (swiftStep s tick).any fun s' => s'.gameOver where
  notifications := fiveMismatches ++ ticks 82
  shows := by decide +kernel

/-- Up to the tick that finds every card matched. -/
def wonGame : Script noTest fun s =>
    decide (s.gs = .game ∧ s.victory = false)
      && (swiftStep s tick).any fun s' => s'.victory where
  notifications := eightPairs ++ ticks 89
  shows := by decide +kernel

/-- In one run the lives reach zero, with one to five of them before, and
the game is lost and not won. In another it is won, on a matched
board. -/
theorem outcome_correct_lost_won :
    (∃ s s', Reach anyStep s ∧ step mode0x115 s tick = some s'
        ∧ s'.gameOver = true ∧ LivesReachZero mode0x115 s tick
        ∧ (1 ≤ s.p1.lives ∧ s.p1.lives ≤ 5)
        ∧ ¬(s'.gameOver = true ∧ s'.victory = true))
      ∧ ∃ s s', Reach anyStep s ∧ step mode0x115 s tick = some s'
        ∧ s'.victory = true
        ∧ ∀ i, (s'.board.card i).flipSuccess = true := by
  constructor
  · obtain ⟨s, hs, hP⟩ := lostGame.reach noTest_anyStep
    obtain ⟨hnow, hnext⟩ := (Bool.and_eq_true _ _).mp hP
    obtain ⟨hgs, hgo⟩ := of_decide_eq_true hnow
    obtain ⟨s', hstep, hgo'⟩ := step_of_swift hnext
    obtain ⟨-, hlives, hnexts⟩ := outcome_correct hs
    obtain ⟨hboth, -, -⟩ := outcome_correct (.step hs trivial hstep)
    exact ⟨s, s', hs, hstep, hgo', (hnexts tick s' hstep).2.1 ⟨hgo, hgo'⟩,
      hlives (.inl hgs), hboth⟩
  · obtain ⟨s, hs, hP⟩ := wonGame.reach noTest_anyStep
    obtain ⟨hnow, hnext⟩ := (Bool.and_eq_true _ _).mp hP
    obtain ⟨-, hv⟩ := of_decide_eq_true hnow
    obtain ⟨s', hstep, hv'⟩ := step_of_swift hnext
    obtain ⟨-, -, hnexts⟩ := outcome_correct hs
    exact ⟨s, s', hs, hstep, hv', (hnexts tick s' hstep).1 hv hv'⟩

end Lcom.Proj
