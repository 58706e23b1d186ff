/-
The match loop, for every board.

One round does nothing, remembers the card, matches it with the
remembered one, or sends both back (`matchStep_cases`). From that, by
induction over the rounds: values and faces never change and matches
are never taken back (`matchRounds_frame`); the outcome of the loop is
decided by the lives alone (`matchRounds_outcome`); with one open card
the loop does nothing (`matchRounds_single`), and with exactly two it is
one comparison (`matchRounds_pair`). The victory test that follows it is
at the end.
-/
import Lcom.Proj.Proofs.Click

namespace Lcom.Proj

open Machine

-- ========================================================= one round

/-- One card of the board, read back after an update. -/
theorem setCard_card (s : State) (k i : Fin 16) (f : Card → Card) :
    (s.setCard k f).board.card i
      = if i = k then f (s.board.card i) else s.board.card i := by
  unfold State.setCard Board.card
  by_cases h : i = k
  · subst h
    rw [if_pos rfl]
    exact List.Vector.get_set_same ..
  · rw [if_neg h]
    exact List.Vector.get_set_of_ne (Ne.symm h) _

/-- Two cards updated alike, read back. -/
theorem setBoth_card {f : Card → Card} (hf : ∀ c, f (f c) = f c)
    (s : State) (i k j : Fin 16) :
    ((s.setCard i f).setCard k f).board.card j
      = if j = i ∨ j = k then f (s.board.card j) else s.board.card j := by
  rw [setCard_card, setCard_card]
  by_cases hk : j = k
  · rw [if_pos hk, if_pos (Or.inr hk)]
    split
    · exact hf _
    · rfl
  · rw [if_neg hk]
    by_cases hi : j = i
    · rw [if_pos hi, if_pos (Or.inl hi)]
    · rw [if_neg hi, if_neg (by simp [hi, hk])]

theorem matched_card (s : State) (i k j : Fin 16) :
    (matched s i k).board.card j
      = if j = i ∨ j = k then (s.board.card j).succeed
        else s.board.card j :=
  setBoth_card (f := Card.succeed) (fun _ => rfl) s i k j

/-- Losing a life touches the player and the outcome only. -/
theorem chargeLife_frame (s : State) :
    s.chargeLife.board = s.board ∧ s.chargeLife.victory = s.victory
      ∧ s.chargeLife.initGame = s.initGame
      ∧ s.chargeLife.tmrTckCounter = s.tmrTckCounter
      ∧ s.chargeLife.p1.lives = s.p1.loseLife.lives := by
  unfold State.chargeLife
  split <;> exact ⟨rfl, rfl, rfl, rfl, rfl⟩

theorem charged_board (s : State) (i : Fin 16) :
    (s.charged i).board = s.board := by
  unfold State.charged
  split
  · exact (chargeLife_frame s).1
  · rfl

/-- A mismatch marks both cards as turning. -/
theorem mismatch_card (s : State) (i k j : Fin 16) :
    (mismatch s i k).board.card j
      = if j = i ∨ j = k then (s.board.card j).startFlipping
        else s.board.card j := by
  have h := setBoth_card (f := Card.startFlipping) (fun _ => rfl)
    (s.charged i) i k j
  rw [charged_board] at h
  exact h

/-- The four things a round can do. -/
theorem matchStep_cases (acc : State × Option (Fin 16)) (i : Fin 16) :
    ((acc.1.board.card i).isOpen = false ∧ matchStep acc i = acc)
      ∨ ((acc.1.board.card i).isOpen = true ∧ acc.2 = none
        ∧ matchStep acc i = (acc.1, some i))
      ∨ ∃ k, (acc.1.board.card i).isOpen = true ∧ acc.2 = some k
        ∧ (((acc.1.board.card i).value = (acc.1.board.card k).value
            ∧ matchStep acc i = (matched acc.1 i k, some k))
          ∨ ((acc.1.board.card i).value ≠ (acc.1.board.card k).value
            ∧ matchStep acc i = (mismatch acc.1 i k, some k))) := by
  unfold matchStep
  cases ho : (acc.1.board.card i).isOpen with
  | false => exact .inl ⟨rfl, rfl⟩
  | true =>
      refine .inr ?_
      cases hk : acc.2 with
      | none => exact .inl ⟨rfl, rfl, rfl⟩
      | some k =>
          refine .inr ⟨k, rfl, rfl, ?_⟩
          by_cases hv : (acc.1.board.card i).value
              = (acc.1.board.card k).value
          · exact .inl ⟨hv, by simp only [if_true, if_pos hv]⟩
          · exact .inr ⟨hv, by simp only [if_true, if_neg hv]⟩

/-- The match loop remembers only cards it has visited. -/
theorem remembered_lt (s : State) {n : Nat} (hn : n ≤ 16) :
    ∀ k, (rounds matchStep n (s, none)).2 = some k → k.val < n := by
  refine rounds_induction
    (P := fun n (acc : State × Option (Fin 16)) =>
      ∀ k, acc.2 = some k → k.val < n)
    (fun k hk => by cases hk) ?_ n hn
  intro n hn ih k hk
  rcases matchStep_cases (rounds matchStep n (s, none)) ⟨n, hn⟩
    with ⟨-, h⟩ | ⟨-, -, h⟩ | ⟨k', -, hk', h⟩
  · rw [h] at hk
    exact Nat.lt_succ_of_lt (ih k hk)
  · rw [h] at hk
    cases hk
    exact Nat.lt_succ_self n
  · have hrem : (matchStep (rounds matchStep n (s, none)) ⟨n, hn⟩).2
        = some k' := by
      rcases h with ⟨-, h⟩ | ⟨-, h⟩ <;> rw [h]
    rw [hrem] at hk
    cases hk
    exact Nat.lt_succ_of_lt (ih _ hk')

-- ========================================================= the frame

/-- What the match loop leaves alone. Matches are only added. -/
structure MatchFrame (s s' : State) : Prop where
  victory : s'.victory = s.victory
  initGame : s'.initGame = s.initGame
  tmrTckCounter : s'.tmrTckCounter = s.tmrTckCounter
  increaseWidth : s'.board.increaseWidth = s.board.increaseWidth
  otherSide : s'.board.otherSide = s.board.otherSide
  value : ∀ i, (s'.board.card i).value = (s.board.card i).value
  isFlipped : ∀ i, (s'.board.card i).isFlipped = (s.board.card i).isFlipped
  flipSuccess : ∀ i, (s.board.card i).flipSuccess = true →
    (s'.board.card i).flipSuccess = true

theorem MatchFrame.refl (s : State) : MatchFrame s s :=
  ⟨rfl, rfl, rfl, rfl, rfl, fun _ => rfl, fun _ => rfl, fun _ h => h⟩

theorem MatchFrame.trans {s₁ s₂ s₃ : State} (h : MatchFrame s₁ s₂)
    (h' : MatchFrame s₂ s₃) : MatchFrame s₁ s₃ :=
  ⟨h'.victory.trans h.victory, h'.initGame.trans h.initGame,
    h'.tmrTckCounter.trans h.tmrTckCounter,
    h'.increaseWidth.trans h.increaseWidth,
    h'.otherSide.trans h.otherSide,
    fun i => (h'.value i).trans (h.value i),
    fun i => (h'.isFlipped i).trans (h.isFlipped i),
    fun i hi => h'.flipSuccess i (h.flipSuccess i hi)⟩

theorem matched_frame (s : State) (i k : Fin 16) :
    MatchFrame s (matched s i k) := by
  refine ⟨rfl, rfl, rfl, rfl, rfl, fun j => ?_, fun j => ?_, fun j hj => ?_⟩
  · rw [matched_card]
    split <;> rfl
  · rw [matched_card]
    split <;> rfl
  · rw [matched_card]
    split
    · rfl
    · exact hj

theorem mismatch_frame (s : State) (i k : Fin 16) :
    MatchFrame s (mismatch s i k) := by
  have hrest : (s.charged i).victory = s.victory
      ∧ (s.charged i).initGame = s.initGame
      ∧ (s.charged i).tmrTckCounter = s.tmrTckCounter := by
    obtain ⟨-, h1, h2, h3, -⟩ := chargeLife_frame s
    unfold State.charged
    split
    · exact ⟨h1, h2, h3⟩
    · exact ⟨rfl, rfl, rfl⟩
  obtain ⟨h1, h2, h3⟩ := hrest
  have hb := charged_board s i
  refine ⟨h1, h2, h3, ?_, ?_, fun j => ?_, fun j => ?_, fun j hj => ?_⟩
  · show (s.charged i).board.increaseWidth = _
    rw [hb]
  · show (s.charged i).board.otherSide = _
    rw [hb]
  · rw [mismatch_card]
    split <;> rfl
  · rw [mismatch_card]
    split <;> rfl
  · rw [mismatch_card]
    split <;> exact hj

theorem matchStep_frame (acc : State × Option (Fin 16)) (i : Fin 16) :
    MatchFrame acc.1 (matchStep acc i).1 := by
  rcases matchStep_cases acc i with ⟨-, h⟩ | ⟨-, -, h⟩ | ⟨k, -, -, h⟩
  · rw [h]
    exact MatchFrame.refl _
  · rw [h]
    exact MatchFrame.refl _
  · rcases h with ⟨-, h⟩ | ⟨-, h⟩
    · rw [h]
      exact matched_frame _ _ _
    · rw [h]
      exact mismatch_frame _ _ _

/-- The match loop changes no value and no face, and takes back no
match. -/
theorem matchRounds_frame (s : State) {n : Nat} (hn : n ≤ 16) :
    MatchFrame s (matchRounds n s) := by
  unfold matchRounds
  refine rounds_induction
    (P := fun _ (acc : State × Option (Fin 16)) => MatchFrame s acc.1)
    (MatchFrame.refl s) ?_ n hn
  intro k hk h
  exact h.trans (matchStep_frame _ _)

theorem matchPhase_frame (s : State) : MatchFrame s (matchPhase s) := by
  unfold matchPhase
  split
  · exact MatchFrame.refl s
  · exact matchRounds_frame s (Nat.le_refl _)

-- ============================================== one or two open cards

/-- A round at a card that is not open does nothing. -/
theorem matchStep_closed {acc : State × Option (Fin 16)} {i : Fin 16}
    (h : (acc.1.board.card i).isOpen = false) : matchStep acc i = acc := by
  unfold matchStep
  rw [h, if_neg (by decide)]

/-- With at most one open card the match loop does nothing. -/
theorem matchRounds_single {s : State}
    (h : ∀ i j, (s.board.card i).isOpen = true →
      (s.board.card j).isOpen = true → i = j) :
    matchRounds 16 s = s := by
  have hrun := rounds_induction (f := matchStep) (s := (s, none))
    (P := fun n (acc : State × Option (Fin 16)) => acc.1 = s
      ∧ ∀ k, acc.2 = some k →
        (s.board.card k).isOpen = true ∧ k.val < n)
    ⟨rfl, fun k hk => by cases hk⟩ ?_ 16 (Nat.le_refl _)
  · exact hrun.1
  · intro n hn hacc
    obtain ⟨hs, hk⟩ := hacc
    rcases matchStep_cases (rounds matchStep n (s, none)) ⟨n, hn⟩
      with ⟨-, he⟩ | ⟨ho, -, he⟩ | ⟨k, ho, hrem, -⟩
    · rw [he]
      exact ⟨hs, fun k hk' => ⟨(hk k hk').1, Nat.lt_succ_of_lt (hk k hk').2⟩⟩
    · rw [he]
      refine ⟨hs, fun k hk' => ?_⟩
      cases hk'
      rw [hs] at ho
      exact ⟨ho, Nat.lt_succ_self n⟩
    · -- a remembered card and this one would both be open
      rw [hs] at ho
      obtain ⟨hok, hlt⟩ := hk k hrem
      have := h _ _ ho hok
      rw [← this] at hlt
      exact absurd hlt (Nat.lt_irrefl n)

/-- The verdict on two open cards. -/
def judged (s : State) (j i : Fin 16) : State :=
  if (s.board.card j).value = (s.board.card i).value then matched s j i
  else mismatch s j i

/-- The verdict leaves the other cards alone. -/
theorem judged_card {s : State} {i j c : Fin 16} (hi : c ≠ i)
    (hj : c ≠ j) : (judged s j i).board.card c = s.board.card c := by
  unfold judged
  split
  · rw [matched_card, if_neg (by simp [hi, hj])]
  · rw [mismatch_card, if_neg (by simp [hi, hj])]

/-- With exactly two open cards the match loop is one comparison. -/
theorem matchRounds_pair {s : State} {i j : Fin 16} (hij : i < j)
    (h : ∀ c, (s.board.card c).isOpen = true ↔ c = i ∨ c = j) :
    matchRounds 16 s = judged s j i := by
  have hclosed : ∀ c, c ≠ i → c ≠ j → (s.board.card c).isOpen = false :=
    fun c hi hj => Bool.eq_false_iff.2 fun ho =>
      ((h c).1 ho).elim hi hj
  have hval : i.val < j.val := hij
  have hrun := rounds_induction (f := matchStep) (s := (s, none))
    (P := fun n acc => acc =
      if n ≤ i.val then (s, none)
      else if n ≤ j.val then (s, some i) else (judged s j i, some i))
    (by rw [if_pos (Nat.zero_le _)]) ?_ 16 (Nat.le_refl _)
  · unfold matchRounds
    rw [hrun, if_neg (by omega), if_neg (by omega)]
  · intro n hn ih
    rw [ih]
    have hne : ∀ c : Fin 16, c.val ≠ n → (⟨n, hn⟩ : Fin 16) ≠ c := by
      intro c hc he
      subst he
      exact hc rfl
    rcases Nat.lt_trichotomy n i.val with hlt | heq | hgt
    · rw [if_pos (by omega), if_pos (by omega)]
      exact matchStep_closed
        (hclosed _ (hne i (by omega)) (hne j (by omega)))
    · have hi : (⟨n, hn⟩ : Fin 16) = i := Fin.ext heq
      rw [if_pos (by omega), if_neg (by omega), if_pos (by omega), hi]
      unfold matchStep
      rw [(h i).2 (.inl rfl), if_pos rfl]
    · rw [if_neg (by omega)]
      rcases Nat.lt_trichotomy n j.val with hlt | heq | hgt'
      · rw [if_pos (by omega), if_neg (by omega), if_pos (by omega)]
        exact matchStep_closed
          (hclosed _ (hne i (by omega)) (hne j (by omega)))
      · have hj : (⟨n, hn⟩ : Fin 16) = j := Fin.ext heq
        rw [if_pos (by omega), if_neg (by omega), if_neg (by omega), hj]
        unfold matchStep judged
        rw [(h j).2 (.inr rfl), if_pos rfl]
        dsimp only
        split <;> rfl
      · rw [if_neg (by omega), if_neg (by omega), if_neg (by omega)]
        apply matchStep_closed
        show ((judged s j i).board.card _).isOpen = false
        rw [judged_card (hne i (by omega)) (hne j (by omega))]
        exact hclosed _ (hne i (by omega)) (hne j (by omega))

-- =================================================== the victory test

/-- The victory test sets the outcome only on a fully matched board. -/
theorem victoryPhase_cases (s : State) :
    victoryPhase s = s
      ∨ (s.board.allMatched = true
        ∧ victoryPhase s = { s with gs := .exit, victory := true }) := by
  unfold victoryPhase
  split
  next h => exact .inr ⟨h.2, rfl⟩
  next => exact .inl rfl

/-- The victory test leaves the board and the player alone. -/
theorem victoryPhase_board (s : State) :
    (victoryPhase s).board = s.board := by
  unfold victoryPhase
  split <;> rfl

theorem victoryPhase_p1 (s : State) : (victoryPhase s).p1 = s.p1 := by
  unfold victoryPhase
  split <;> rfl

end Lcom.Proj
