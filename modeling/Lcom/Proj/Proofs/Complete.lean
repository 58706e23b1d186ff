/-
Every legal line of play is played by some run.

The other half of the refinement. From a state in which the game is at
rest and the cursor waits in its corner (`Ready`), any card the rules
allow can be turned up: put the cursor on it, press the button for one
tick, take the cursor back, and wait (`exists_turn`). The wait ends
because every second tick draws, and a draw brings the phase closer to
rest (`Phase.togo`). So any line the rules allow can be played from such
a state (`exists_line`), and the lines a dealt board can be played along
are exactly the legal ones (`played_iff_legal`).
-/
import Lcom.Proj.Proofs.Player
import Lcom.Proj.Proofs.Preview

namespace Lcom.Proj

open Machine

-- ========================================================= the waiting

/-- How many draws a phase is from rest, at most: a second card that
lands may have to be turned back. -/
def Phase.togo : Phase → Nat
  | .rest _ => 0
  | .up _ _ k => 31 - k
  | .down _ _ k => 10 - k

/-- The card that will come up. -/
def Phase.landing : Phase → List (Fin 16)
  | .rest _ => []
  | .up _ j _ => [j]
  | .down _ _ _ => []

/-- A draw brings the phase closer to rest. -/
theorem Phase.moved_togo {b : Board} {p : Phase} (h : p.WellFormed b)
    (hp : p.togo ≠ 0) : p.moved.togo < p.togo := by
  cases p with
  | rest o => exact absurd rfl hp
  | up o j k =>
      obtain ⟨-, hk⟩ := h
      show 31 - (k + 1) < 31 - k
      omega
  | down i j k =>
      obtain ⟨-, hk, -⟩ := h
      show (if k + 2 < 10 then Phase.down i j (k + 2)
        else .rest none).togo < 10 - k
      split
      · show 10 - (k + 2) < 10 - k
        omega
      · show 0 < 10 - k
        omega

/-- A phase that is not on the way to rest is at rest. -/
theorem Phase.rests {b : Board} {p : Phase} (h : p.WellFormed b)
    (hp : p.togo = 0) : ∃ o, p = .rest o := by
  cases p with
  | rest o => exact ⟨o, rfl⟩
  | up o j k =>
      obtain ⟨-, hk⟩ := h
      simp only [Phase.togo] at hp
      omega
  | down i j k =>
      obtain ⟨-, hk, -⟩ := h
      simp only [Phase.togo] at hp
      omega

/-- A match loop does not stop the main loop. -/
theorem matchPhase_condition (s : State) :
    (matchPhase s).condition = s.condition := by
  have hcharged : ∀ (s : State) i, (s.charged i).condition = s.condition := by
    intro s i
    unfold State.charged State.chargeLife
    split
    · split <;> rfl
    · rfl
  unfold matchPhase
  split
  · rfl
  · unfold matchRounds
    refine rounds_induction
      (P := fun _ (acc : State × Option (Fin 16)) =>
        acc.1.condition = s.condition) rfl ?_ 16 (Nat.le_refl _)
    intro k hk h
    rcases matchStep_cases (rounds matchStep k (s, none)) ⟨k, hk⟩
      with ⟨-, he⟩ | ⟨-, -, he⟩ | ⟨c, -, -, ⟨-, he⟩ | ⟨-, he⟩⟩
    · rw [he]
      exact h
    · rw [he]
      exact h
    · rw [he]
      exact h
    · rw [he]
      exact (hcharged _ _).trans h

/-- What a tick with the button up leaves: the loop runs, in the game
unless the game is over. -/
structure Idled (s u : State) : Prop where
  latches : SameLatches s u
  condition : u.condition = true
  initGame : u.initGame = false
  faces : u.faces = s.faces
  counter : u.tmrTckCounter = s.tmrTckCounter + 1
  gs : u.gs = .game ∨ u.gameOver = true

/-- A tick that draws and does nothing else. -/
theorem Playing.idled {s : State} {b : Board} (h : Playing s)
    (hm : SameMarks s.board b) : Idled s (s.played b) :=
  ⟨⟨rfl, rfl, rfl, rfl⟩, h.condition, h.initGame,
    funext fun c => (hm c).1, rfl, .inl h.gs⟩

/-- The match check after it. -/
theorem Idled.matched {s u : State} (h : Idled s u) (hgs : u.gs = .game)
    (ho : u.gameOver = false) (hl : 1 ≤ u.p1.lives ∧ u.p1.lives ≤ 5) :
    Idled s (matchPhase u) := by
  have hf := matchPhase_frame u
  refine ⟨h.latches.trans (matchPhase_latches u).1,
    (matchPhase_condition u).trans h.condition,
    hf.initGame.trans h.initGame, ?_, hf.tmrTckCounter.trans h.counter, ?_⟩
  · rw [← h.faces]
    exact funext fun c => hf.value c
  · rcases matchPhase_outcome ho hl with ⟨-, -, -, hsame, -⟩ | ⟨hlost, -⟩
    · exact .inl (hsame.trans hgs)
    · exact .inr hlost

section

variable {p₀ : State × List (Fin 16)} {s : State} {log : List (Fin 16)}
  {p : Phase}

/-- A playing tick of a run. -/
theorem Playing.goes {u : State} (h : Playing s) (hr : Goes p₀ (s, log))
    (hok : noSlip s tick)
    (hon : s.lb = true → ∃ k, onCard mode0x115 s.mouse k = true)
    (hu : playUntilMatch mode0x115 (timerIntHandler s) = some u) :
    Goes p₀ (victoryPhase (matchPhase u),
      log ++ turnedUp s.board (matchPhase u).board) := by
  have hnext := hr.next hok (noGap_tick hon) (h.step hu)
  rw [logTurns_keeps (not_deals_game h.gs), victoryPhase_board] at hnext
  exact hnext

/-- A tick with the button up: the phase moves on, or a card lands. -/
theorem idle_tick (h₀ : LoggedReach noSlip p₀) (h : Playing s)
    (hr : Goes p₀ (s, log)) (hlb : s.lb = false) (hp : Shows s.board p) :
    (∃ b q, Goes p₀ (victoryPhase (s.played b), log)
        ∧ Idled s (s.played b) ∧ SameMarks s.board b ∧ Shows b q
        ∧ q.landing = p.landing
        ∧ (((s.tmrTckCounter + 1) % 2 = 0 ∧ q = p.moved)
          ∨ ((s.tmrTckCounter + 1) % 2 ≠ 0 ∧ q = p)))
      ∨ ∃ u q, Goes p₀ (victoryPhase u, log ++ p.landing)
        ∧ Idled s u ∧ Shows u.board q ∧ q.landing = []
        ∧ (s.tmrTckCounter + 1) % 2 = 0 ∧ q.togo < p.togo := by
  obtain ⟨b, hu, hmarks, hdraw⟩ := h.untilMatch hlb hp
  have hidled := h.idled hmarks
  have hup : s.lb = true → ∃ k, onCard mode0x115 s.mouse k = true := by
    rw [hlb]
    intro hdown
    cases hdown
  have hnext := h.goes hr (noSlip_tick (.inl hlb)) hup hu
  -- a drawn phase, which the match check leaves
  have hdrawn : ∀ q, Shows b q → matchPhase (s.played b) = s.played b :=
    fun q hq => matchPhase_shows hq
  rcases hdraw with ⟨hev, hmove⟩ | ⟨hodd, rfl⟩
  · cases hmove with
    | moves hq hup =>
        rw [hdrawn _ hq] at hnext
        rw [show (s.played b).board = b from rfl, hup,
          List.append_nil] at hnext
        refine .inl ⟨b, _, hnext, hidled, hmarks, hq, ?_, .inl ⟨hev, rfl⟩⟩
        cases p with
        | rest o => rfl
        | up o j k => rfl
        | down i j k =>
            show (if k + 2 < 10 then Phase.down i j (k + 2)
              else .rest none).landing = []
            split <;> rfl
    | @first g hq hup =>
        rw [hdrawn _ hq] at hnext
        rw [show (s.played b).board = b from rfl, hup] at hnext
        exact .inr ⟨_, _, hnext, hidled, hq, rfl, hev,
          show 0 < 11 by decide⟩
    | @second f g hpair hup =>
        obtain ⟨ho, -, hl⟩ := (outcomeInv_reach (hr.reach h₀).reach).playing
          (by rw [h.gs]; decide)
        obtain ⟨q, hq, hqs⟩ :=
          PairOpens.settled (t := s) (s := s.played b) hpair rfl
        have hturn : turnedUp s.board (matchPhase (s.played b)).board
            = [g] := by
          unfold turnedUp at hup ⊢
          rw [turnsUp_congr fun c =>
            (matchPhase_frame (s.played b)).isFlipped c]
          exact hup
        rw [hturn] at hnext
        refine .inr ⟨_, q, hnext, hidled.matched h.gs ho hl, hq, ?_, hev, ?_⟩
        · rcases hqs with rfl | ⟨i, j, rfl⟩ <;> rfl
        · rcases hqs with rfl | ⟨i, j, rfl⟩
          · exact show 0 < 11 by decide
          · exact show 10 < 11 by decide
  · rw [hdrawn _ hp] at hnext
    rw [show (s.played s.board).board = s.board from rfl,
      turnedUp_cardArray rfl, List.append_nil] at hnext
    exact .inl ⟨_, p, hnext, hidled, hmarks, hp, rfl, .inr ⟨hodd, rfl⟩⟩

end

/-- The game is at rest, or over. -/
def AtRest (s : State) : Prop :=
  (Playing s ∧ ∃ o, Shows s.board (.rest o)) ∨ s.gameOver = true
    ∨ s.victory = true

/-- After a tick the game goes on from the phase it left, unless it is
over. -/
theorem Idled.goes_on {s u : State} (h : Idled s u)
    (hsc : s.scancode ≠ escape) :
    SameLatches s (victoryPhase u) ∧ (victoryPhase u).faces = s.faces
      ∧ (Playing (victoryPhase u) ∧ victoryPhase u = u
        ∨ (victoryPhase u).gameOver = true
        ∨ (victoryPhase u).victory = true) := by
  have hl := (victoryPhase_latches u).1
  obtain ⟨-, hvf, -, hvg, -⟩ := victoryPhase_frame u
  refine ⟨h.latches.trans hl, hvf.trans h.faces, ?_⟩
  rcases h.gs with hgs | hlost
  · rcases victoryPhase_cases u with he | ⟨-, he⟩
    · refine .inl ⟨?_, he⟩
      rw [he]
      exact ⟨hgs, h.initGame, h.condition, by rw [h.latches.scancode]; exact hsc⟩
    · rw [he]
      exact .inr (.inr rfl)
  · exact .inr (.inl (hvg.trans hlost))

/-- With the button up and no key, the game comes to rest, and the card
that was turning has come up. -/
theorem comes_to_rest {p₀ : State × List (Fin 16)}
    (h₀ : LoggedReach noSlip p₀) :
    ∀ (n : Nat) {s : State} {log : List (Fin 16)} {p : Phase},
      2 * p.togo + (s.tmrTckCounter + 1) % 2 ≤ n → Goes p₀ (s, log) →
      Playing s → s.lb = false → Shows s.board p →
      ∃ s', Goes p₀ (s', log ++ p.landing) ∧ SameLatches s s'
        ∧ s'.faces = s.faces ∧ AtRest s' := by
  -- nothing to wait for
  have hdone : ∀ {s : State} {log : List (Fin 16)} {p : Phase},
      p.togo = 0 → Goes p₀ (s, log) → Playing s → Shows s.board p →
      ∃ s', Goes p₀ (s', log ++ p.landing) ∧ SameLatches s s'
        ∧ s'.faces = s.faces ∧ AtRest s' := by
    intro s log p hz hr h hp
    obtain ⟨o, rfl⟩ := Phase.rests hp.wellFormed hz
    refine ⟨s, ?_, SameLatches.refl s, rfl, .inl ⟨h, o, hp⟩⟩
    show Goes p₀ (s, log ++ [])
    rw [List.append_nil]
    exact hr
  intro n
  induction n with
  | zero =>
      intro s log p hn hr h _ hp
      exact hdone (by omega) hr h hp
  | succ n ih =>
      intro s log p hn hr h hlb hp
      by_cases hz : p.togo = 0
      · exact hdone hz hr h hp
      · have hless := Phase.moved_togo hp.wellFormed hz
        rcases idle_tick h₀ h hr hlb hp
          with ⟨b, q, hr', hid, hm, hq, hland, hmove⟩
            | ⟨u, q, hr', hid, hq, hland, hev, hlt⟩
        · -- some card is still turning, so the game is not won
          obtain ⟨i, hi⟩ : ∃ i, i ∈ p.turning := by
            cases p with
            | rest o => exact absurd rfl hz
            | up o j k => exact ⟨j, Finset.mem_singleton_self j⟩
            | down i j k => exact ⟨i, Finset.mem_insert_self i {j}⟩
          have hun : ((s.played b).board.card i).flipSuccess = false :=
            (hm i).2.trans (hp.table.unmatched i (.inr hi))
          rw [victoryPhase_unmatched hun] at hr'
          have hsame : SameLatches s (s.played b) := hid.latches
          have hplay : Playing (s.played b) :=
            ⟨h.gs, h.initGame, h.condition, h.scancode⟩
          have hcount : (s.played b).tmrTckCounter + 1
              = s.tmrTckCounter + 1 + 1 := rfl
          have hn' : 2 * q.togo + ((s.played b).tmrTckCounter + 1) % 2
              ≤ n := by
            rw [hcount]
            rcases hmove with ⟨hev, rfl⟩ | ⟨hodd, rfl⟩
            · omega
            · omega
          obtain ⟨s', hs', hl', hf', hrest⟩ :=
            ih hn' hr' hplay (hsame.lb.trans hlb) hq
          rw [hland] at hs'
          exact ⟨s', hs', hsame.trans hl', hf'.trans hid.faces, hrest⟩
        · obtain ⟨hl, hf, ⟨hplay, he⟩ | hover⟩ := hid.goes_on h.scancode
          · rw [he] at hr' hl hf hplay
            have hn' : 2 * q.togo + (u.tmrTckCounter + 1) % 2 ≤ n := by
              rw [hid.counter]
              omega
            obtain ⟨s', hs', hl', hf', hrest⟩ :=
              ih hn' hr' hplay (hl.lb.trans hlb) hq
            rw [hland, List.append_nil] at hs'
            exact ⟨s', hs', hl.trans hl', hf'.trans hf, hrest⟩
          · exact ⟨_, hr', hl, hf, .inr hover⟩

-- =========================================================== one turn

/-- At rest, with the cursor in the corner and the button up. -/
structure Ready (s : State) : Prop where
  playing : Playing s
  rest : ∃ o, Shows s.board (.rest o)
  poised : Poised s.driver s.mouse false Pointer.init

/-- A card the rules allow lies face down. -/
theorem Shows.allowed_down {s : State} {o : Option (Fin 16)} {k : Fin 16}
    (h : Shows s.board (.rest o)) (hi : s.initGame = false)
    (hk : s.position.Allows k) : (s.board.card k).isFlipped = true := by
  rw [State.position_playing hi] at hk
  obtain ⟨-, hun, hclosed⟩ := hk
  dsimp only at hun hclosed
  rw [h.waiting] at hclosed
  rw [Board.mem_taken] at hun
  by_contra hup
  rcases (h.table.faceUp k).1 (Bool.eq_false_iff.2 hup) with hm | ho
  · exact hun hm
  · exact hclosed (Option.mem_toFinset.1 ho)

/-- Any card the rules allow can be turned up. -/
theorem exists_turn {p₀ : State × List (Fin 16)} {s : State}
    {log : List (Fin 16)} {k : Fin 16} (h₀ : LoggedReach noSlip p₀)
    (hr : Goes p₀ (s, log)) (h : Ready s) (hk : s.position.Allows k) :
    ∃ s', Goes p₀ (s', log ++ [k]) ∧ s'.faces = s.faces
      ∧ (Ready s' ∨ s'.gameOver = true ∨ s'.victory = true) := by
  obtain ⟨hplay, ⟨o, hrest⟩, hpoised⟩ := h
  have hdown := hrest.allowed_down hplay.initGame hk
  -- put the cursor on the card, and the button down
  obtain ⟨q, hr₁, hq⟩ := hr.packets (toSpot k) hplay.condition hpoised
  rw [reaches_spot] at hq
  have hplay₁ : Playing (s.pointing q) :=
    ⟨hplay.gs, hplay.initGame, hplay.condition, hplay.scancode⟩
  have hlb₁ : (s.pointing q).lb = true := hq.lb
  have hon : onCard mode0x115 (s.pointing q).mouse k = true := by
    rw [show (s.pointing q).mouse = spot k from hq.cursor]
    exact onCard_spot k
  -- the tick that starts the card
  obtain ⟨hu, hup⟩ := hplay₁.click hrest hlb₁ hon hdown
  have hr₂ := hplay₁.goes hr₁
    (noSlip_tick (.inr hrest.rest_still.still.isFlipping))
    (fun _ => ⟨k, hon⟩) hu
  rw [matchPhase_shows hup] at hr₂
  have hun : (Board.card { s.board with
      cardArray := setFlipping s.board.cardArray k true } k).flipSuccess
      = false := hup.table.unmatched k (.inr (Finset.mem_singleton_self k))
  rw [victoryPhase_unmatched hun] at hr₂
  have hnone : turnedUp (s.pointing q).board { s.board with
      cardArray := setFlipping s.board.cardArray k true } = [] := by
    refine turnedUp_eq_nil fun c => turnsUp_same ?_
    show ((setFlipping s.board.cardArray k true).get c).isFlipped = _
    rw [setFlipping_get]
    split <;> rfl
  have hr₃ : Goes p₀ ((s.pointing q).played { s.board with
      cardArray := setFlipping s.board.cardArray k true }, log) := by
    have hempty := congrArg (log ++ ·) hnone
    rw [List.append_nil] at hempty
    rw [← hempty]
    exact hr₂
  -- back to the corner, and wait
  obtain ⟨q', hr₄, hq'⟩ := hr₃.packets toCorner hplay₁.condition hq
  rw [returns_home] at hq'
  obtain ⟨s', hr₅, hlat, hfaces, hat⟩ :=
    comes_to_rest h₀ _ (Nat.le_refl _) hr₄ (p := .up o k 0)
      ⟨hplay.gs, hplay.initGame, hplay.condition, hplay.scancode⟩ hq'.lb hup
  refine ⟨s', hr₅, hfaces.trans ?_, ?_⟩
  · funext c
    show ((setFlipping s.board.cardArray k true).get c).value = _
    rw [setFlipping_get]
    split <;> rfl
  · rcases hat with ⟨hplay', hrest'⟩ | hover
    · refine .inl ⟨hplay', hrest', ?_⟩
      rw [hlat.driver, hlat.mouse]
      exact hq'
    · exact .inr hover

/-- Where a played line leads, over the cards it was played on. -/
theorem position_of_log {s : State} {ks : List (Fin 16)}
    {faces : Fin 16 → CardNumber × CardSuit}
    (hr : LoggedReach noSlip (s, ks)) (hf : s.faces = faces) :
    s.position = newGame.after faces ks := by
  rw [← hf]
  exact (refineInv_reach hr).plays.position

/-- Any line the rules allow can be played, and then the game waits for
the next card, or is over. -/
theorem exists_line {p₀ : State × List (Fin 16)} {s : State}
    {log : List (Fin 16)} (h₀ : LoggedReach noSlip p₀)
    (hr : Goes p₀ (s, log)) (h : Ready s) (ks : List (Fin 16))
    (hks : s.position.Legal s.faces ks) :
    ∃ s', Goes p₀ (s', log ++ ks) ∧ s'.faces = s.faces
      ∧ (Ready s' ∨ s'.gameOver = true ∨ s'.victory = true) := by
  induction ks using List.reverseRecOn with
  | nil => exact ⟨s, by rwa [List.append_nil], rfl, .inl h⟩
  | append_singleton ks k ih =>
      obtain ⟨hlegal, hallow⟩ := Position.legal_concat.1 hks
      obtain ⟨s', hr', hf, hend⟩ := ih hlegal
      -- the position the line has led to
      have hpos := position_of_log (hr'.reach h₀) hf
      rw [Position.after_append,
        ← position_of_log (hr.reach h₀) rfl] at hpos
      rw [← hpos] at hallow
      have hplays := (refineInv_reach (hr'.reach h₀)).plays
      rcases hend with hready | hlost | hwon
      · obtain ⟨s'', hr'', hf'', hend''⟩ := exists_turn h₀ hr' hready hallow
        refine ⟨s'', ?_, hf''.trans hf, hend''⟩
        rw [← List.append_assoc]
        exact hr''
      · have hz := hplays.lost.1 hlost
        exact absurd hallow.alive (by dsimp only at hz; omega)
      · have hall := hplays.won hwon
        dsimp only at hall
        exact absurd (by rw [hall]; exact Finset.mem_univ k) hallow.untaken

-- ========================================================= the opening

/-- What a player sees on dealt cards. -/
def cardFaces (cards : Cards) (i : Fin 16) : CardNumber × CardSuit :=
  (cards.get i).value

/-- The preview of a dealt board, `n` ticks after the key. -/
def inPreview (cards : Cards) (n : Nat) : State :=
  { start cards with gs := .game, tmrTckCounter := n }

/-- The key in the menu starts the preview. -/
theorem step_chosePlay (cards : Cards) :
    step mode0x115 (start cards) (keyTick pKeyBreakcode)
      = some (inPreview cards 0) := rfl

/-- A tick of the preview draws. -/
theorem step_inPreview (cards : Cards) (n : Nat) :
    step mode0x115 (inPreview cards n) tick
      = draw mode0x115 (previewStart (inPreview cards (n + 1))) := by
  rw [step_tick rfl]
  rfl

section

variable {rands : List Rand} {cards : Cards}
  (hdeal : initializeGameCards rands = some cards)

include hdeal

/-- A dealt board is fresh, and nothing on it turns. -/
theorem dealt_inPreview (n : Nat) : Dealt (inPreview cards n).board :=
  dealt_of_deal hdeal ⟨rfl, fun _ => List.Vector.get_replicate ..⟩

/-- In the preview no third card slips in. -/
theorem noSlip_preview (n : Nat) : noSlip (inPreview cards n) tick :=
  noSlip_tick (.inr (dealt_inPreview hdeal n).still.isFlipping)

/-- The start, with nothing turned up. -/
theorem start_logged : LoggedReach noSlip (start cards, []) :=
  .start ⟨⟨rands, cards, hdeal, rfl⟩, rfl⟩

/-- The run into the preview, up to its last tick. -/
theorem inPreview_goes : ∀ n, n < 240 →
    Goes (start cards, []) (inPreview cards n, []) := by
  intro n
  induction n with
  | zero =>
      intro _
      have hmenu : ∀ t, TickState mode0x115 (start cards)
          (keyTick pKeyBreakcode) t → t.gs ≠ .game := by
        intro t hts hgs
        have hsame := hts.frame.2.1
        rw [hgs] at hsame
        cases hsame
      have hstart : Goes (start cards, []) (start cards, []) := .start rfl
      have hnext := hstart.next (fun t hts hgs => absurd hgs (hmenu t hts))
        (fun t hts hgap => hmenu t hts hgap.1) (step_chosePlay cards)
      rw [logTurns_keeps (fun hd => by cases hd.1)] at hnext
      rw [@turnedUp_cardArray (start cards).board
        (inPreview cards 0).board rfl] at hnext
      exact hnext
  | succ n ih =>
      intro hn
      have hstill := (dealt_inPreview hdeal (n + 1)).still.isFlipping
      have hcount : (inPreview cards (n + 1)).tmrTckCounter % 240 ≠ 0 := by
        show (n + 1) % 240 ≠ 0
        omega
      have hstep := step_inPreview cards n
      rw [draw_preview_early hcount hstill] at hstep
      have hnext := (ih (by omega)).next (noSlip_preview hdeal n)
        (noGap_tick fun hdown => by cases hdown) hstep
      rw [logTurns_keeps (not_deals_game rfl)] at hnext
      rw [@turnedUp_cardArray (inPreview cards n).board
        (inPreview cards (n + 1)).board rfl] at hnext
      exact hnext

/-- The preview of any deal ends in a game that waits for its first
card. -/
theorem exists_ready : ∃ s, Goes (start cards, []) (s, []) ∧ Ready s
    ∧ s.faces = cardFaces cards := by
  have hdealt := dealt_inPreview hdeal 240
  obtain ⟨b, hb, hrest⟩ := preview_lands hdealt
  have hcount : (inPreview cards 240).tmrTckCounter % 240 = 0 :=
    Nat.mod_self 240
  have hstart : previewStart (inPreview cards 240)
      = { inPreview cards 240 with
          initGame := false
          board := { (inPreview cards 240).board with
            cardArray := (inPreview cards 240).board.cardArray.map
              Card.startFlipping } } := if_pos hcount
  have hstep : step mode0x115 (inPreview cards 239) tick
      = some { inPreview cards 240 with initGame := false, board := b } := by
    rw [step_inPreview, hstart, draw_eq]
    dsimp only
    rw [hb]
    rfl
  have hmarks : SameMarks (inPreview cards 240).board b := by
    have hdrawn : draw mode0x115 (previewStart (inPreview cards 240))
        = some { inPreview cards 240 with initGame := false, board := b } := by
      rw [hstart, draw_eq]
      dsimp only
      rw [hb]
      rfl
    exact preview_sameMarks hdrawn
  have hup : turnedUp (inPreview cards 239).board b = [] := by
    refine turnedUp_eq_nil fun c => ?_
    unfold turnsUp
    have hopen : ((inPreview cards 239).board.card c).isFlipped = false :=
      (hdealt.fresh c).1
    rw [hopen]
    rfl
  have hnext := (inPreview_goes hdeal 239 (by decide)).next
    (noSlip_preview hdeal 239) (noGap_tick fun hdown => by cases hdown) hstep
  rw [logTurns_keeps (not_deals_game rfl), hup] at hnext
  refine ⟨_, hnext, ⟨⟨rfl, rfl, rfl, show (0 : UInt8) ≠ escape by decide⟩,
    ⟨none, hrest⟩,
    ⟨aligned_init, rfl, rfl, rfl, rfl⟩⟩, ?_⟩
  funext c
  exact (hmarks c).1

-- ================================================== every legal line

/-- Every legal line is played by some run, which then waits for the next
card, or is over. -/
theorem exists_played (ks : List (Fin 16))
    (h : newGame.Legal (cardFaces cards) ks) :
    ∃ s, LoggedReach noSlip (s, ks) ∧ s.faces = cardFaces cards
      ∧ (Ready s ∨ s.gameOver = true ∨ s.victory = true) := by
  have h₀ := start_logged hdeal
  obtain ⟨s, hr, hready, hf⟩ := exists_ready hdeal
  rw [← hf] at h
  have hpos := position_of_log (hr.reach h₀) hf
  rw [← hf] at hpos
  obtain ⟨s', hr', hf', hend⟩ :=
    exists_line h₀ hr hready ks (by rw [hpos]; exact h)
  exact ⟨s', hr'.reach h₀, hf'.trans hf, hend⟩

/-- The lines a dealt board is played along, in runs without a slip, are
exactly the legal ones. -/
theorem played_iff_legal (ks : List (Fin 16)) :
    (∃ s, LoggedReach noSlip (s, ks) ∧ s.faces = cardFaces cards)
      ↔ newGame.Legal (cardFaces cards) ks := by
  constructor
  · intro hplayed
    obtain ⟨s, hr, hf⟩ := hplayed
    rw [← hf]
    exact (refineInv_reach hr).plays.legal
  · intro h
    obtain ⟨s, hr, hf, -⟩ := exists_played hdeal ks h
    exact ⟨s, hr, hf⟩

end

/-- On the board dealt in order card 15 can be played on card 0, and
card 0 cannot. -/
theorem played_iff_legal_ordered :
    (∃ s, LoggedReach noSlip (s, [0, 15])
        ∧ s.faces = cardFaces orderedCards)
      ∧ ¬∃ s, LoggedReach noSlip (s, [0, 0])
        ∧ s.faces = cardFaces orderedCards :=
  ⟨(played_iff_legal orderedRands_deal _).2 (by decide +kernel),
    fun h => absurd ((played_iff_legal orderedRands_deal _).1 h)
      (by decide +kernel)⟩

end Lcom.Proj
