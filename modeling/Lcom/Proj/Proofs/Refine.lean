/-
A run without a slip plays a legal game of pairs.

Every tick of the game is one of two things. Either no card comes up, and
the game stands where it stood: frames of a turn, clicks, the match check
on a pair that is already turning down. Or one card comes up, which was
allowed to, and the state moves by exactly one turn of the rules
(`play_refines`). Everything else in the loop leaves the game alone, and
a deal begins a new one. So the log of a run is a legal line of play, and
the state is where that line leads (`plays_log`).

What is known of legal lines is then known of runs: the number of cards
turned up is fixed by the matches, the lives and the open card, and no
game lasts longer than twenty-four turns (`turns_account`).
-/
import Lcom.Proj.Turns
import Lcom.Proj.Proofs.FairPlay
import Lcom.Proj.Proofs.Twins

namespace Lcom.Proj

open Machine

-- ================================================== the waiting card

/-- The card of a phase that waits for a second one. -/
def Phase.waiting : Phase → Option (Fin 16)
  | .rest o => o
  | .up o _ _ => o
  | .down _ _ _ => none

/-- On a table the cards that wait are open and do not turn. -/
theorem Table.isWaiting_iff {b : Board} {O T : Finset (Fin 16)}
    {facing : Bool} {p : Int × Int} (h : Table b O T facing p)
    (i : Fin 16) : (b.card i).isWaiting = true ↔ i ∈ O ∧ i ∉ T := by
  unfold Card.isWaiting
  rw [Bool.and_eq_true, Bool.not_eq_true', h.isOpen_iff i,
    ← h.turning.isFlipping i, Bool.not_eq_true]

/-- A board that shows a phase has at most one card waiting. -/
theorem Shows.waiting {b : Board} {p : Phase} (h : Shows b p) :
    b.waiting = p.waiting := by
  refine find_finRange fun i => ?_
  rw [h.table.isWaiting_iff i]
  cases p with
  | rest o =>
      show i ∈ o.toFinset ∧ i ∉ (∅ : Finset (Fin 16)) ↔ o = some i
      rw [Option.mem_toFinset, Option.mem_def]
      exact ⟨fun h => h.1, fun h => ⟨h, Finset.notMem_empty i⟩⟩
  | up o j k =>
      show i ∈ o.toFinset ∧ i ∉ ({j} : Finset (Fin 16)) ↔ o = some i
      rw [Option.mem_toFinset, Option.mem_def, Finset.mem_singleton]
      refine ⟨fun h => h.1, fun ho => ⟨ho, fun hij => ?_⟩⟩
      subst hij
      exact h.wellFormed.1 ho
  | down i' j k =>
      show i ∈ ({i', j} : Finset (Fin 16)) ∧ i ∉ ({i', j} : Finset (Fin 16))
        ↔ none = some i
      exact iff_of_false (fun h => h.2 h.1) nofun

-- ============================================================ the draw

/-- The phase after a draw that lands nothing new. -/
def Phase.moved : Phase → Phase
  | .rest o => .rest o
  | .up o j k => .up o j (k + 1)
  | .down i j k => if k + 2 < 10 then .down i j (k + 2) else .rest none

theorem Phase.waiting_moved (p : Phase) : p.moved.waiting = p.waiting := by
  cases p with
  | rest o => rfl
  | up o j k => rfl
  | down i j k =>
      show (if k + 2 < 10 then Phase.down i j (k + 2)
        else .rest none).waiting = none
      split <;> rfl

/-- What a draw does to a board in a phase: nothing comes up; the first
card of a pair comes up; the second one does. -/
inductive DrawMove (b b' : Board) : Phase → Prop
  | moves {p : Phase} : Shows b' p.moved → turnedUp b b' = [] →
      DrawMove b b' p
  | first {g : Fin 16} : Shows b' (.rest (some g)) → turnedUp b b' = [g] →
      DrawMove b b' (.up none g 20)
  | second {f g : Fin 16} : PairOpens b b' f g → turnedUp b b' = [g] →
      DrawMove b b' (.up (some f) g 20)

/-- Boards with one array turn nothing up. -/
theorem turnedUp_cardArray {b b' : Board}
    (h : b'.cardArray = b.cardArray) : turnedUp b b' = [] := by
  refine turnedUp_eq_nil fun c => turnsUp_same ?_
  unfold Board.card
  rw [h]

/-- The draw of a card turning up. -/
theorem drawMove_up {b b' : Board} {o : Option (Fin 16)} {j : Fin 16}
    {k : Nat} (h : Shows b (.up o j k))
    (hb : turnCards (List.finRange 16) b = some b') :
    DrawMove b b' (.up o j k) := by
  rcases turnCards_turning (Finset.singleton_nonempty j)
      (lands_singleton j) (List.finRange 16) b k h.wellFormed.2
      h.table.turning
    with ⟨hlt, b₁, hb₁, harr, ht⟩ | ⟨hge, b₁, hb₁, hland⟩
  · rw [hb] at hb₁
    cases hb₁
    rw [countP_finRange, Finset.card_singleton] at hlt ht
    refine .moves ⟨h.table.going harr ?_, h.wellFormed.1, hlt⟩
      (turnedUp_cardArray harr)
    show Turning b' {j} true
      (spinning ({j} : Finset (Fin 16)).card (k + 1))
    rw [Finset.card_singleton]
    exact ht
  · rw [hb] at hb₁
    cases hb₁
    rw [countP_finRange, Finset.card_singleton] at hge
    have hk : k = 20 := by
      have := h.wellFormed.2
      omega
    subst hk
    have hup := turnedUp_eq_singleton (turnsUp_landed hland
      (h.table.turning.isFlipped j (Finset.mem_singleton_self j)))
    cases o with
    | none => exact .first (shows_of_landed_alone h hland).1 hup
    | some f => exact .second (pairOpens_of_landed h hland) hup

/-- The draw of a pair turning down. -/
theorem drawMove_down {b b' : Board} {i j : Fin 16} {k : Nat}
    (h : Shows b (.down i j k))
    (hb : turnCards (List.finRange 16) b = some b') :
    DrawMove b b' (.down i j k) := by
  obtain ⟨hij, hk, hv⟩ := h.wellFormed
  have hcard : ({i, j} : Finset (Fin 16)).card = 2 :=
    Finset.card_pair (Fin.ne_of_lt hij)
  rcases turnCards_turning (Finset.insert_nonempty i {j})
      (lands_pair hij) (List.finRange 16) b k hk h.table.turning
    with ⟨hlt, b₁, hb₁, harr, ht⟩ | ⟨hge, b₁, hb₁, hland⟩
  · rw [hb] at hb₁
    cases hb₁
    rw [countP_finRange, hcard] at hlt ht
    refine .moves ?_ (turnedUp_cardArray harr)
    show Shows b' (if k + 2 < 10 then _ else _)
    rw [if_pos hlt]
    have ht' : Turning b' {i, j} false
        (spinning ({i, j} : Finset (Fin 16)).card (k + 2)) := by
      rw [hcard]
      exact ht
    refine ⟨h.table.going harr ht', hij, hlt, ?_⟩
    unfold Board.card at hv ⊢
    rw [harr]
    exact hv
  · rw [hb] at hb₁
    cases hb₁
    rw [countP_finRange, hcard] at hge
    have ht : Table b' (({i, j} : Finset (Fin 16)) \ {i, j}) ∅ false
        (1, 0) := h.table.landed hland
    rw [Finset.sdiff_self] at ht
    refine .moves ?_ (turnedUp_eq_nil fun c => ?_)
    · show Shows b' (if k + 2 < 10 then _ else _)
      rw [if_neg (by omega)]
      exact shows_rest (o := none) ht
    · -- the pair lay face up before it was turned
      unfold turnsUp
      rw [hland.card c]
      by_cases hc : c ∈ ({i, j} : Finset (Fin 16))
      · rw [if_pos hc]
        simp
      · rw [if_neg hc]
        simp

/-- The draw of a board in a phase. -/
theorem drawMove {b b' : Board} {p : Phase} (h : Shows b p)
    (hb : turnCards (List.finRange 16) b = some b') : DrawMove b b' p := by
  cases p with
  | rest o =>
      rw [turnCards_still h.rest_still.still.isFlipping] at hb
      cases hb
      exact .moves h (turnedUp_cardArray rfl)
  | up o j k => exact drawMove_up h hb
  | down i j k => exact drawMove_down h hb

-- =========================================================== the click

/-- The click starts a face-down card or none: the same card waits. -/
theorem clickPhase_waiting (s : State) :
    (clickPhase mode0x115 s).board.waiting = s.board.waiting := by
  refine Board.waiting_congr fun c => ?_
  by_cases hany : ∃ i, (s.board.card i).isFlipping = true
  · obtain ⟨i, hi⟩ := hany
    rw [clickPhase_turning hi]
  · have hstill : ∀ i, (s.board.card i).isFlipping = false := fun i =>
      Bool.eq_false_iff.2 fun hi => hany ⟨i, hi⟩
    rcases (clickPhase_still hstill).2 with hb | ⟨k, -, -, hk, hb⟩
    · rw [hb]
    · rw [hb]
      show ((setFlipping s.board.cardArray k true).get c).isWaiting = _
      rw [setFlipping_get]
      by_cases hc : c = k
      · subst hc
        rw [if_pos rfl]
        unfold Card.isWaiting Card.isOpen
        dsimp only
        show (!(s.board.card c).isFlipped && _ && _) = _
        rw [hk]
        rfl
      · rw [if_neg hc]
        rfl

-- =========================================================== the match

/-- The game of a state after the preview. -/
theorem State.position_playing {s : State} (h : s.initGame = false) :
    s.position
      = { taken := s.board.taken, opened := s.board.waiting
          lives := s.p1.lives } := by
  unfold State.position
  rw [h]
  rfl

/-- Two states in the same game. -/
theorem State.position_congr {s s' : State} (hi : s'.initGame = s.initGame)
    (ht : s'.board.taken = s.board.taken)
    (hw : s'.board.waiting = s.board.waiting) (hp : s'.p1 = s.p1) :
    s'.position = s.position := by
  unfold State.position
  rw [hi, ht, hw, hp]

/-- Nothing waits once the open pair is judged. -/
theorem judged_waiting {u : State} {i j : Fin 16} {T : Finset (Fin 16)}
    {facing : Bool} {p : Int × Int} (h : Table u.board {i, j} T facing p) :
    (matched u j i).board.waiting = none
      ∧ (mismatch u j i).board.waiting = none := by
  have hout : ∀ c, ¬(c = j ∨ c = i) → (u.board.card c).isOpen = false := by
    intro c hc
    refine Bool.eq_false_iff.2 fun ho => hc ?_
    have := (h.isOpen_iff c).1 ho
    rw [Finset.mem_insert, Finset.mem_singleton] at this
    exact this.symm
  constructor
  · refine find_finRange fun c => iff_of_false (fun hc => ?_) nofun
    rw [matched_card] at hc
    unfold Card.isWaiting at hc
    split at hc
    · simp [Card.succeed, Card.isOpen] at hc
    · next hne =>
        rw [hout c hne] at hc
        cases hc
  · refine find_finRange fun c => iff_of_false (fun hc => ?_) nofun
    rw [mismatch_card] at hc
    unfold Card.isWaiting at hc
    split at hc
    · simp [Card.startFlipping] at hc
    · next hne =>
        rw [hout c hne] at hc
        cases hc

/-- A match takes both cards. -/
theorem matched_taken (u : State) (i j : Fin 16) :
    (matched u j i).board.taken = insert i (insert j u.board.taken) := by
  ext c
  rw [Board.mem_taken, matched_card, Finset.mem_insert, Finset.mem_insert,
    Board.mem_taken]
  by_cases hc : c = j ∨ c = i
  · rw [if_pos hc]
    exact iff_of_true rfl (hc.symm.imp_right .inl)
  · rw [if_neg hc]
    rw [not_or] at hc
    simp [hc.1, hc.2]

/-- A mismatch takes none. -/
theorem mismatch_taken (u : State) (i j : Fin 16) :
    (mismatch u j i).board.taken = u.board.taken := by
  refine Board.taken_congr fun c => ?_
  rw [mismatch_card]
  split <;> rfl

-- ============================================================ the tick

/-- What a step does to the game: nothing comes up and it stands where
it stood, or an allowed card comes up and it moves by one turn. -/
def OneTurn (s s' : State) : Prop :=
  (turnedUp s.board s'.board = [] ∧ s'.position = s.position)
    ∨ ∃ g, turnedUp s.board s'.board = [g] ∧ s.position.Allows g
      ∧ s'.position = s.position.turnUp s.faces g

/-- The state the click of a tick from `t` finds, on a board that showed
`p`: drawn on even ticks only. -/
structure AfterDraw (t s : State) (p : Phase) : Prop where
  initGame : s.initGame = t.initGame
  p1 : s.p1 = t.p1
  lb : s.lb = t.lb
  mouse : s.mouse = t.mouse
  taken : s.board.taken = t.board.taken
  drawn : (t.tmrTckCounter % 2 = 0 ∧ DrawMove t.board s.board p)
    ∨ (t.tmrTckCounter % 2 ≠ 0 ∧ s.board = t.board)

theorem playUntilMatch_afterDraw {t u : State} {p : Phase}
    (h : Shows t.board p) (hu : playUntilMatch mode0x115 t = some u) :
    ∃ s, AfterDraw t s p ∧ u = clickPhase mode0x115 s := by
  obtain ⟨b, hb, rfl⟩ := playUntilMatch_eq_some hu
  obtain ⟨hsame, -, hdrv, hmouse, -⟩ := pauseKey_frame { t with board := b }
  refine ⟨_, ⟨hsame.initGame, hsame.p1, ?_, hmouse, ?_, ?_⟩, rfl⟩
  · unfold State.lb
    rw [hdrv]
  · rw [hsame.board]
    split at hb
    · exact Board.taken_congr fun c => (turnCards_sameMarks hb c).2
    · cases hb
      rfl
  · rw [hsame.board]
    by_cases hev : t.tmrTckCounter % 2 = 0
    · rw [if_pos hev] at hb
      exact .inl ⟨hev, drawMove h hb⟩
    · rw [if_neg hev] at hb
      cases hb
      exact .inr ⟨hev, rfl⟩

section

variable {t s : State} {p q : Phase} {f g : Fin 16}

/-- After a draw that leaves a phase, click and match check change
nothing the game is read from. -/
theorem AfterDraw.position (h : AfterDraw t s p) (hq : Shows s.board q) :
    turnedUp t.board (matchPhase (clickPhase mode0x115 s)).board
        = turnedUp t.board s.board
      ∧ (matchPhase (clickPhase mode0x115 s)).position
        = { t.position with
            opened := if t.initGame then none else q.waiting } := by
  obtain ⟨q', hq'⟩ := clickPhase_shows hq
  rw [matchPhase_shows hq']
  obtain ⟨hc1, -, hci, -, -, -, hcm⟩ := clickPhase_frame mode0x115 s
  constructor
  · unfold turnedUp
    rw [turnsUp_congr (clickPhase_isFlipped mode0x115 s)]
  · unfold State.position
    rw [hci, h.initGame, hc1, h.p1, clickPhase_waiting, hq.waiting,
      Board.taken_congr (fun c => (hcm c).2), h.taken]

/-- Nothing came up, and the same card waits. -/
theorem AfterDraw.still (h : AfterDraw t s p) (ht : Shows t.board p)
    (hq : Shows s.board q) (hw : q.waiting = p.waiting)
    (hup : turnedUp t.board s.board = []) :
    OneTurn t (matchPhase (clickPhase mode0x115 s)) := by
  obtain ⟨hturn, hpos⟩ := h.position hq
  refine .inl ⟨hturn.trans hup, ?_⟩
  rw [hpos, hw, ← ht.waiting]
  rfl

/-- The first card of a pair came up. -/
theorem AfterDraw.first (h : AfterDraw t s (.up none g 20))
    (ht : Shows t.board (.up none g 20)) (hinit : t.initGame = false)
    (hl : 0 < t.p1.lives) (hq : Shows s.board (.rest (some g)))
    (hup : turnedUp t.board s.board = [g]) :
    OneTurn t (matchPhase (clickPhase mode0x115 s)) := by
  obtain ⟨hturn, hpos⟩ := h.position hq
  have ho : t.position.opened = none := by
    rw [State.position_playing hinit]
    exact ht.waiting
  have hun := ht.table.unmatched g (.inr (Finset.mem_singleton_self g))
  refine .inr ⟨g, hturn.trans hup, ⟨hl, ?_, by rw [ho]; exact nofun⟩, ?_⟩
  · show g ∉ t.board.taken
    rw [Board.mem_taken, hun]
    decide
  · rw [hpos, Position.turnUp_first ho, hinit]
    rfl

/-- The card that comes up beside an open one was allowed to. -/
theorem PairOpens.allowed (h : PairOpens t.board s.board f g)
    (hinit : t.initGame = false) (hl : 0 < t.p1.lives) :
    t.position.opened = some f ∧ t.position.Allows g := by
  have hw : t.board.waiting = some f := h.before.waiting
  have ho : t.position.opened = some f := by
    rw [State.position_playing hinit]
    exact hw
  have hun := h.before.table.unmatched g
    (.inr (Finset.mem_singleton_self g))
  refine ⟨ho, hl, ?_, ?_⟩
  · show g ∉ t.board.taken
    rw [Board.mem_taken, hun]
    decide
  · rw [ho]
    exact fun he => h.ne (Option.some.inj he)

/-- What the match check finds after a pair has opened, let through by
the guard: the pair, in board order, and if it does not match then no
third card. -/
theorem PairOpens.judged (h : PairOpens t.board s.board f g)
    (hev : t.tmrTckCounter % 2 = 0) (hlb : s.lb = t.lb)
    (hmouse : s.mouse = t.mouse) (hok : ¬ThirdCardSlips t) :
    ∃ i j T, i < j ∧ ({i, j} : Finset (Fin 16)) = {f, g}
      ∧ Table (clickPhase mode0x115 s).board {i, j} T true (1, 0)
      ∧ (((t.board.card f).value = (t.board.card g).value
          ∧ matchPhase (clickPhase mode0x115 s)
            = matched (clickPhase mode0x115 s) j i)
        ∨ ((t.board.card f).value ≠ (t.board.card g).value ∧ T = ∅
          ∧ matchPhase (clickPhase mode0x115 s)
            = mismatch (clickPhase mode0x115 s) j i)) := by
  obtain ⟨hany, -⟩ := clickPhase_still h.table.still.isFlipping
  obtain ⟨T, htable, hT⟩ := h.click hev hlb hmouse
  obtain ⟨i, j, hij, hfg, hm⟩ := matchPhase_pair h.ne htable hany
  have hpair : ({i, j} : Finset (Fin 16)) = {f, g} := by
    rcases hfg with ⟨rfl, rfl⟩ | ⟨rfl, rfl⟩
    · rfl
    · exact Finset.pair_comm _ _
  have hiff : ((clickPhase mode0x115 s).board.card j).value
        = ((clickPhase mode0x115 s).board.card i).value
      ↔ (t.board.card f).value = (t.board.card g).value := by
    rw [h.value, h.value]
    rcases hfg with ⟨rfl, rfl⟩ | ⟨rfl, rfl⟩
    · exact eq_comm
    · exact Iff.rfl
  rw [← hpair] at htable
  refine ⟨i, j, T, hij, hpair, htable, ?_⟩
  by_cases hv : (t.board.card f).value = (t.board.card g).value
  · exact .inl ⟨hv, hm.trans (if_pos (hiff.2 hv))⟩
  · refine .inr ⟨hv, ?_, hm.trans (if_neg fun he => hv (hiff.1 he))⟩
    rcases hT with rfl | ⟨k, -, -, hslip⟩
    · rfl
    · exact absurd (hslip hv) hok

/-- The second card of a pair came up. -/
theorem AfterDraw.second (h : AfterDraw t s p) (hinit : t.initGame = false)
    (hl : 1 ≤ t.p1.lives ∧ t.p1.lives ≤ 5) (hok : ¬ThirdCardSlips t)
    (hev : t.tmrTckCounter % 2 = 0)
    (hpair : PairOpens t.board s.board f g)
    (hup : turnedUp t.board s.board = [g]) :
    OneTurn t (matchPhase (clickPhase mode0x115 s)) := by
  obtain ⟨ho, hallow⟩ := hpair.allowed hinit hl.1
  obtain ⟨i, j, T, hij, hset, htable, hjudged⟩ :=
    hpair.judged hev h.lb h.mouse hok
  obtain ⟨hwm, hwx⟩ := judged_waiting htable
  obtain ⟨hc1, -, hci, -, -, -, hcm⟩ := clickPhase_frame mode0x115 s
  have hf := matchPhase_frame (clickPhase mode0x115 s)
  have hinit' : (matchPhase (clickPhase mode0x115 s)).initGame = false :=
    hf.initGame.trans (hci.trans (h.initGame.trans hinit))
  have htaken : (clickPhase mode0x115 s).board.taken = t.board.taken :=
    (Board.taken_congr fun c => (hcm c).2).trans h.taken
  have hp1 : (clickPhase mode0x115 s).p1 = t.p1 := hc1.trans h.p1
  have hturn : turnedUp t.board (matchPhase (clickPhase mode0x115 s)).board
      = turnedUp t.board s.board := by
    unfold turnedUp
    rw [turnsUp_congr fun c => (hf.isFlipped c).trans
      (clickPhase_isFlipped mode0x115 s c)]
  refine .inr ⟨g, hturn.trans hup, hallow, ?_⟩
  rw [State.position_playing hinit']
  rcases hjudged with ⟨hv, hm⟩ | ⟨hv, rfl, hm⟩
  · have hpair' : insert i (insert j t.board.taken)
        = insert f (insert g t.board.taken) := by
      rw [Finset.insert_eq i, Finset.insert_eq j, ← Finset.union_assoc,
        ← Finset.insert_eq i, hset, Finset.insert_eq f, Finset.union_assoc,
        ← Finset.insert_eq g, ← Finset.insert_eq f]
    rw [Position.turnUp_match ho hv, hm, hwm, matched_taken, htaken]
    refine Position.ext hpair' rfl ?_
    show (clickPhase mode0x115 s).p1.lives = t.p1.lives
    rw [hp1]
  · rw [Position.turnUp_mismatch ho hv, hm, hwx, mismatch_taken, htaken]
    refine Position.ext rfl rfl ?_
    show (mismatch (clickPhase mode0x115 s) j i).p1.lives = t.p1.lives - 1
    rw [mismatch_lives (by rw [hp1]; exact hl)
      (htable.still.isFlipping j), hp1]

end

/-- A playing tick, let through by the guard, is at most one turn. -/
theorem play_refines {t u : State} {p : Phase} (h : Shows t.board p)
    (hinit : t.initGame = false) (hl : 1 ≤ t.p1.lives ∧ t.p1.lives ≤ 5)
    (hok : ¬ThirdCardSlips t) (hu : playUntilMatch mode0x115 t = some u) :
    OneTurn t (matchPhase u) := by
  obtain ⟨s, hs, rfl⟩ := playUntilMatch_afterDraw h hu
  rcases hs.drawn with ⟨hev, hmove⟩ | ⟨-, hb⟩
  · cases hmove with
    | moves hq hup => exact hs.still h hq (Phase.waiting_moved p) hup
    | first hq hup => exact hs.first h hinit hl.1 hq hup
    | second hpair hup => exact hs.second hinit hl hok hev hpair hup
  · refine hs.still h (q := p) (by rw [hb]; exact h) rfl ?_
    exact turnedUp_cardArray (by rw [hb])

/-- A playing tick loses the game exactly with the last life. -/
theorem play_lost {t u : State} {p : Phase} (h : Shows t.board p)
    (ho : t.gameOver = false) (hl : 1 ≤ t.p1.lives ∧ t.p1.lives ≤ 5)
    (hok : ¬ThirdCardSlips t) (hu : playUntilMatch mode0x115 t = some u) :
    (matchPhase u).gameOver = true ↔ (matchPhase u).p1.lives = 0 := by
  obtain ⟨hp1, -, hgo, -, -, -, -⟩ := playUntilMatch_frame hu
  rw [← hgo] at ho
  rw [← hp1] at hl
  obtain ⟨-, -, ⟨hp, hsame, -⟩ | ⟨i, j, -, hm, hflip, -⟩⟩ :=
    play_shows h hok hu
  · rw [hsame, ho, hp]
    exact iff_of_false nofun (by omega)
  · have hlives := mismatch_lives hl hflip i
    rw [hm]
    rcases mismatch_charge hl j i
      with ⟨hsame, -⟩ | ⟨-, ⟨hz, hlost, -⟩ | ⟨hz, hgo', -⟩⟩
    · rw [hsame] at hlives
      omega
    · exact iff_of_true hlost (by omega)
    · rw [hgo', ho]
      exact iff_of_false nofun (by omega)

-- ====================================================== over whole runs

/-- Before the preview ends nothing has been turned up. -/
structure RefineInv (p : State × List (Fin 16)) : Prop where
  preview : p.1.initGame = true → p.2 = []
  plays : PlaysLog p

/-- A dealt board begins a new game. -/
theorem Dealt.newGame {s : State} (h : Fresh s.board.cardArray)
    (hinit : s.initGame = true) (hl : s.p1.lives = 5)
    (ho : s.gameOver = false) (hv : s.victory = false) :
    RefineInv (s, []) := by
  have hpos : s.position = Proj.newGame := by
    refine Position.ext ?_ ?_ hl
    · show s.board.taken = ∅
      refine Finset.eq_empty_of_forall_notMem fun i hi => ?_
      have hun : (s.board.card i).flipSuccess = false := (h i).2.2
      rw [Board.mem_taken, hun] at hi
      cases hi
    · unfold State.position
      rw [hinit]
      rfl
  refine ⟨fun _ => rfl, trivial, hpos, ?_, fun h => ?_⟩
  · rw [hpos, ho]
    exact iff_of_false nofun (by decide)
  · rw [hv] at h
    cases h

theorem refineInv_start {p : State × List (Fin 16)} (h : LoggedStarts p) :
    RefineInv p := by
  obtain ⟨s, log⟩ := p
  obtain ⟨⟨rands, cards, hdeal, hs⟩, hlog⟩ := h
  dsimp only at hs hlog
  subst hs hlog
  exact Dealt.newGame (initializeGameCards_spec hdeal).2 rfl rfl rfl rfl

/-- The game is read off what belongs to it. -/
theorem SameGame.position {s s' : State} (h : SameGame s s') :
    s'.position = s.position :=
  State.position_congr h.initGame (by rw [h.board]) (by rw [h.board]) h.p1

theorem SameGame.faces {s s' : State} (h : SameGame s s') :
    s'.faces = s.faces := by
  funext c
  show (s'.board.card c).value = _
  rw [h.board]
  rfl

theorem SameGame.oneTurn {s s' : State} (h : SameGame s s') :
    OneTurn s s' :=
  .inl ⟨turnedUp_cardArray (by rw [h.board]), h.position⟩

/-- A turn of the game the input branches left alone. -/
theorem OneTurn.after_sameGame {s t s' : State} (hsame : SameGame s t)
    (h : OneTurn t s') : OneTurn s s' := by
  unfold OneTurn at h ⊢
  rw [hsame.board, hsame.position, hsame.faces] at h
  exact h

/-- The victory test wins the game or leaves it. -/
theorem victoryPhase_frame (s : State) :
    (victoryPhase s).position = s.position
      ∧ (victoryPhase s).faces = s.faces
      ∧ (victoryPhase s).initGame = s.initGame
      ∧ (victoryPhase s).gameOver = s.gameOver
      ∧ ((victoryPhase s).victory = true →
        s.victory = true ∨ s.position.taken = Finset.univ) := by
  rcases victoryPhase_cases s with he | ⟨hall, he⟩
  · rw [he]
    exact ⟨rfl, rfl, rfl, rfl, .inl⟩
  · rw [he]
    refine ⟨rfl, rfl, rfl, rfl, fun _ => .inr ?_⟩
    ext i
    show i ∈ s.board.taken ↔ _
    rw [Board.mem_taken]
    exact iff_of_true (allMatched_iff.1 hall i) (Finset.mem_univ i)

/-- A step that makes one turn or none. -/
theorem RefineInv.turn {s s' : State} {log : List (Fin 16)}
    (h : RefineInv (s, log)) (hd : ¬Deals s s') (hturn : OneTurn s s')
    (hf : s'.faces = s.faces)
    (hi : s'.initGame = true →
      s.initGame = true ∧ turnedUp s.board s'.board = [])
    (hlost : s'.gameOver = true ↔ s'.position.lives = 0)
    (hwon : s'.victory = true → s'.position.taken = Finset.univ) :
    RefineInv (s', logTurns log s s') := by
  obtain ⟨hpre, hlegal, hplay, -, -⟩ := h
  dsimp only at hpre hlegal hplay
  rw [logTurns_keeps hd]
  refine ⟨fun hi' => ?_, ?_, ?_, hlost, hwon⟩
  · obtain ⟨hinit, hup⟩ := hi hi'
    dsimp only
    rw [hup, hpre hinit]
    rfl
  · dsimp only
    rw [hf]
    rcases hturn with ⟨hup, -⟩ | ⟨g, hup, hallow, -⟩
    · rw [hup, List.append_nil]
      exact hlegal
    · rw [hup, Position.legal_concat, ← hplay]
      exact ⟨hlegal, hallow⟩
  · dsimp only
    rw [hf]
    rcases hturn with ⟨hup, hpos⟩ | ⟨g, hup, -, hpos⟩
    · rw [hup, List.append_nil, hpos, hplay]
    · rw [hup, Position.after_concat, hpos, hplay]

/-- The preview ends with every card face down. -/
theorem preview_waiting {t s' : State} (h : Dealt t.board)
    (hinit : t.initGame = true)
    (hdraw : draw mode0x115 (previewStart t) = some s') :
    s'.position.opened = none := by
  unfold State.position
  rw [draw_eq] at hdraw
  obtain ⟨b, hb, rfl⟩ := Option.map_eq_some_iff.1 hdraw
  unfold previewStart at hb ⊢
  split at hb
  · obtain ⟨b', hb', hrest⟩ := preview_lands h
    rw [hb] at hb'
    cases hb'
    rw [if_pos ‹_›]
    exact hrest.waiting
  · rw [if_neg ‹_›]
    show (if t.initGame = true then none else b.waiting) = none
    rw [hinit]
    rfl

/-- A preview tick turns the dealt board over, or nothing. -/
theorem refineInv_preview {s t s' : State} {log : List (Fin 16)}
    (h : RefineInv (s, log)) (hph : PhaseInv s) (hsame : SameGame s t)
    (hgs : s.gs = .game) (hinit : t.initGame = true)
    (hdraw : draw mode0x115 (previewStart t) = some s') :
    RefineInv (s', logTurns log s s') := by
  have hdealt := (hph.sameGame hsame).preview hinit
  have hmarks := preview_sameMarks hdraw
  obtain ⟨hp1, ho, hv⟩ := preview_outcome hdraw
  have hinit' : s.initGame = true := hsame.initGame.symm.trans hinit
  have hup : turnedUp t.board s'.board = [] := by
    refine turnedUp_eq_nil fun c => ?_
    unfold turnsUp
    have hopen : (t.board.card c).isFlipped = false := (hdealt.fresh c).1
    rw [hopen]
    rfl
  have hopened : t.position.opened = none := by
    unfold State.position
    rw [hinit]
    rfl
  have hpos : s'.position = t.position := by
    refine Position.ext (Board.taken_congr fun c => (hmarks c).2) ?_ ?_
    · rw [hopened]
      exact preview_waiting hdealt hinit hdraw
    · show s'.p1.lives = t.p1.lives
      rw [hp1]
  have hturn : OneTurn t s' := .inl ⟨hup, hpos⟩
  refine h.turn (not_deals_game hgs) (hturn.after_sameGame hsame) ?_
    (fun _ => ⟨hinit', by rw [← hsame.board]; exact hup⟩) ?_ ?_
  · rw [← hsame.faces]
    funext c
    exact (hmarks c).1
  · rw [ho, hsame.gameOver, hpos, hsame.position]
    exact h.plays.lost
  · rw [hv, hsame.victory, hpos, hsame.position]
    exact h.plays.won

/-- A playing tick that the guard admits. -/
theorem refineInv_play {s t u : State} {log : List (Fin 16)}
    (h : RefineInv (s, log)) (hout : OutcomeInv s) (hph : PhaseInv s)
    (hsame : SameGame s t) (hgs : s.gs = .game)
    (hinit : t.initGame = false) (hok : ¬ThirdCardSlips t)
    (hu : playUntilMatch mode0x115 t = some u) :
    RefineInv (victoryPhase (matchPhase u),
      logTurns log s (victoryPhase (matchPhase u))) := by
  obtain ⟨hgo, hvic, hl⟩ := hout.playing (by rw [hgs]; decide)
  rw [← hsame.gameOver] at hgo
  rw [← hsame.p1] at hl
  obtain ⟨p, hp⟩ := (hph.sameGame hsame).play hinit
  have hlost := play_lost hp hgo hl hok hu
  obtain ⟨-, hui, -, huv, -, -, hmarks⟩ := playUntilMatch_frame hu
  have hf := matchPhase_frame u
  obtain ⟨hvp, hvf, hvi, hvg, hvv⟩ := victoryPhase_frame (matchPhase u)
  have hturn : OneTurn t (victoryPhase (matchPhase u)) := by
    have hm := play_refines hp hinit hl hok hu
    unfold OneTurn at hm ⊢
    rw [hvp, victoryPhase_board]
    exact hm
  refine h.turn (not_deals_game hgs) (hturn.after_sameGame hsame) ?_
    (fun hi => ?_) ?_ (fun hv => ?_)
  · rw [hvf, ← hsame.faces]
    funext c
    exact (hf.value c).trans (hmarks c).1
  · rw [hvi, hf.initGame, hui, hinit] at hi
    cases hi
  · rw [hvg, hvp]
    exact hlost
  · rw [hvp]
    rcases hvv hv with hv | htaken
    · rw [hf.victory, huv, hsame.victory, hvic] at hv
      cases hv
    · exact htaken

/-- One admitted step. -/
theorem refineInv_step {p p' : State × List (Fin 16)} {n : Notification}
    (hr : LoggedReach noSlip p) (h : RefineInv p) (hok : noSlip p.1 n)
    (hw : loggedStep p n = some p') : RefineInv p' := by
  have hout := outcomeInv_reach hr.reach
  have hph := phaseInv_reach hr.reach
  obtain ⟨s, log⟩ := p
  obtain ⟨s', log'⟩ := p'
  obtain ⟨hs, hlog⟩ := loggedStep_eq_some hw
  dsimp only at hs hlog hout hph
  subst hlog
  cases step_kind hs with
  | quiet hsame hgs _ =>
      refine h.turn (not_deals_quiet hgs) hsame.oneTurn hsame.faces
        (fun hi => ⟨hsame.initGame.symm.trans hi, ?_⟩) ?_ ?_
      · exact turnedUp_cardArray (by rw [hsame.board])
      · rw [hsame.gameOver, hsame.position]
        exact h.plays.lost
      · rw [hsame.victory, hsame.position]
        exact h.plays.won
  | preview hts hgs hinit hdraw =>
      obtain ⟨hsame, hgs', -⟩ := hts.frame
      exact refineInv_preview h hph hsame (hgs'.symm.trans hgs) hinit hdraw
  | play hts hgs hinit hu =>
      obtain ⟨hsame, hgs', -⟩ := hts.frame
      exact refineInv_play h hout hph hsame (hgs'.symm.trans hgs) hinit
        (hok _ hts hgs hinit) hu
  | restart hts hgs _ hdeal =>
      rw [logTurns_deals ⟨hts.frame.2.1.symm.trans hgs, rfl⟩]
      exact Dealt.newGame (initializeGameCards_spec hdeal).2 rfl rfl rfl rfl

theorem refineInv_reach {p : State × List (Fin 16)}
    (h : LoggedReach noSlip p) : RefineInv p :=
  h.invariant (fun _ => refineInv_start)
    fun _ _ _ hr hinv hok hs => refineInv_step hr hinv hok hs

/-- A run without a slip plays a legal game of pairs: the cards that have
come up since the deal are a legal line, and where that line leads is
where the game stands. -/
theorem plays_log {p : State × List (Fin 16)} (h : LoggedReach noSlip p) :
    PlaysLog p :=
  (refineInv_reach h).plays

/-- The run that matches card 0 with card 15 plays a game. -/
theorem plays_log_match :
    ∃ p, LoggedReach noSlip p ∧ (p.1.board.card 0).flipSuccess = true
      ∧ PlaysLog p := by
  obtain ⟨s, hs, hP⟩ := matchRun.endOfTick admits_noSlip
  obtain ⟨log, hlog⟩ := exists_log hs.reach
  exact ⟨(s, log), hlog, (of_decide_eq_true hP).2, plays_log hlog⟩

/-- The account of the cards turned up: one for every matched card, two
for every life lost and one for the card that waits, at most twenty-four
in a game, and in a game that is won sixteen and two for every life
lost. -/
theorem turns_account {p : State × List (Fin 16)}
    (h : LoggedReach noSlip p) :
    p.2.length = p.1.position.taken.card + 2 * (5 - p.1.p1.lives)
        + p.1.position.opened.toFinset.card
      ∧ p.2.length ≤ 24
      ∧ (p.1.victory = true →
        p.2.length = 16 + 2 * (5 - p.1.p1.lives)) := by
  obtain ⟨hlegal, hplay, -, hwon⟩ := (refineInv_reach h).plays
  have hkept : p.1.position.Kept 5 (0 + p.2.length) := by
    rw [hplay]
    exact hlegal.kept (Position.kept_fresh (by decide))
  rw [Nat.zero_add] at hkept
  refine ⟨hkept.count, ?_, fun hv => ?_⟩
  · have hbound := hkept.bound (by decide)
    rw [Fintype.card_fin] at hbound
    exact hbound
  · have hall := hwon hv
    have ho : p.1.position.opened = none := by
      refine Option.eq_none_iff_forall_not_mem.2 fun f hf => ?_
      exact hkept.aside f hf (by rw [hall]; exact Finset.mem_univ f)
    have hcount := hkept.count
    rw [hall, ho, Finset.card_univ, Fintype.card_fin] at hcount
    exact hcount

/-- The run of `matchRun`, up to the match. -/
def firstMatchRun : Script admits fun s =>
    decide (s.position.taken
        = Finset.univ.filter (fun i => i.val = 0 ∨ i.val = 15)
      ∧ s.position.opened = none
      ∧ s.p1.lives = 5) where
  notifications := opening ++ ticks 241 ++ shift 3 3 ++ ticks 83
  shows := by decide +kernel

/-- When cards 0 and 15 have been matched at the first attempt, two
cards have been turned up. -/
theorem turns_account_match :
    ∃ p, LoggedReach noSlip p ∧ p.1.position.taken = {0, 15}
      ∧ p.2.length = 2 := by
  obtain ⟨s, hs, hP⟩ := firstMatchRun.reach admits_noSlip
  obtain ⟨hfirst, ho, hl⟩ := of_decide_eq_true hP
  have htaken : s.position.taken = {0, 15} := hfirst.trans (by decide)
  obtain ⟨log, hlog⟩ := exists_log hs
  refine ⟨(s, log), hlog, htaken, ?_⟩
  have h := (turns_account hlog).1
  dsimp only at h
  rw [h, htaken, ho, hl]
  rfl

end Lcom.Proj
