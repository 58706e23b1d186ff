/-
The pictures of the cards stay on the deck.

A deal gives every card a column and a row of the deck, and nothing after
it changes them: the animation, the click and the match loop write flags
only (`SamePictures`). So in every run every card of the board has a
picture (`reach_onDeck`).
-/
import Lcom.Proj.Proofs.Deal
import Lcom.Proj.Proofs.Match
import Lcom.Proj.Proofs.Steps

namespace Lcom.Proj

open Machine

-- ============================================================== pictures

/-- The deck has 13 columns and 4 rows. -/
structure Card.OnDeck (c : Card) : Prop where
  left : 0 ≤ c.x
  right : c.x ≤ 12
  top : 0 ≤ c.y
  bottom : c.y ≤ 3

/-- Every card of the board has a picture. -/
def Board.OnDeck (b : Board) : Prop := ∀ i, (b.card i).OnDeck

/-- Two boards with the same pictures. -/
def SamePictures (b b' : Board) : Prop :=
  ∀ i, (b'.card i).x = (b.card i).x ∧ (b'.card i).y = (b.card i).y

theorem SamePictures.refl (b : Board) : SamePictures b b :=
  fun _ => ⟨rfl, rfl⟩

theorem SamePictures.trans {b₁ b₂ b₃ : Board} (h : SamePictures b₁ b₂)
    (h' : SamePictures b₂ b₃) : SamePictures b₁ b₃ := fun i =>
  ⟨(h' i).1.trans (h i).1, (h' i).2.trans (h i).2⟩

theorem Board.OnDeck.same {b b' : Board} (h : b.OnDeck)
    (hs : SamePictures b b') : b'.OnDeck := by
  intro i
  obtain ⟨hleft, hright, htop, hbottom⟩ := h i
  obtain ⟨hx, hy⟩ := hs i
  rw [← hx] at hleft hright
  rw [← hy] at htop hbottom
  exact ⟨hleft, hright, htop, hbottom⟩

-- ============================================================== the deal

/-- A dealt card has the picture of its pick. -/
theorem dealCard_onDeck {p : Nat × Nat} (h : p.1 < 4 ∧ p.2 < 13) :
    (dealCard p).OnDeck := by
  obtain ⟨hrow, hcolumn⟩ := h
  unfold dealCard
  constructor
  · exact Int.natCast_nonneg p.2
  · show (p.2 : Int) ≤ 12
    omega
  · exact Int.natCast_nonneg p.1
  · show (p.1 : Int) ≤ 3
    omega

theorem initializeGameCards_onDeck {rands : List Rand} {b : Board}
    (h : initializeGameCards rands = some b.cardArray) : b.OnDeck := by
  unfold initializeGameCards at h
  split at h
  next rf rs rest =>
    split at h
    next picks rest' hsel =>
      obtain ⟨⟨cards, rest''⟩, hshuf, hcards⟩ :=
        Option.map_eq_some_iff.1 h
      have hd := selectCards_distinct (Nat.le_refl 1)
        (distinctBelow_first rf.val rs.val) hsel
      obtain ⟨σ, hσ⟩ := shuffleCards_perm 15 0 _ _ _ _ (by decide) hshuf
      intro i
      show (b.cardArray.get i).OnDeck
      rw [← hcards]
      dsimp only
      rw [hσ i, layCards_get]
      exact dealCard_onDeck ⟨hd.row _ (pickAt (σ i)).isLt,
        hd.column _ (pickAt (σ i)).isLt⟩
    next => cases h
  next => cases h

-- ============================================================== the tick

theorem flipCards_samePictures (facing : Bool) (stop : Int) (b : Board) :
    SamePictures b (flipCards facing stop b).1 := by
  intro i
  by_cases h : b.turned facing = stop
  · rw [flipCards_done_card h]
    cases (b.card i).isFlipping <;> exact ⟨rfl, rfl⟩
  · rw [flipCards_going h]
    exact ⟨rfl, rfl⟩

theorem turnCard_samePictures {b b' : Board} {i : Fin 16}
    (h : turnCard b i = some b') : SamePictures b b' := by
  unfold turnCard at h
  split at h
  · split at h
    · cases h
    · injection h with h
      subst h
      split
      · exact flipCards_samePictures _ _ _
      · exact flipCards_samePictures _ _ _
  · injection h with h
    subst h
    exact SamePictures.refl _

theorem turnCards_samePictures {is : List (Fin 16)} {b b' : Board}
    (h : turnCards is b = some b') : SamePictures b b' := by
  induction is generalizing b with
  | nil => cases h; exact SamePictures.refl _
  | cons i is ih =>
      unfold turnCards at h
      cases hi : turnCard b i with
      | none => rw [hi] at h; cases h
      | some b₁ =>
          rw [hi] at h
          exact (turnCard_samePictures hi).trans (ih h)

theorem previewStart_samePictures (t : State) :
    SamePictures t.board (previewStart t).board := by
  unfold previewStart
  split
  · intro i
    show ((t.board.cardArray.map Card.startFlipping).get i).x = _
      ∧ ((t.board.cardArray.map Card.startFlipping).get i).y = _
    rw [List.Vector.get_map]
    exact ⟨rfl, rfl⟩
  · exact SamePictures.refl _

theorem clickPhase_samePictures (m : ModeInfo) (s : State) :
    SamePictures s.board (clickPhase m s).board := by
  unfold clickPhase
  split
  · split
    · exact SamePictures.refl _
    · intro i
      show ((flipCardOnClick m s.mouse s.board.cardArray).get i).x = _
        ∧ ((flipCardOnClick m s.mouse s.board.cardArray).get i).y = _
      obtain ⟨v, hv⟩ := flipCardOnClick_frame m s.mouse s.board.cardArray i
      rw [hv]
      exact ⟨rfl, rfl⟩
  · exact SamePictures.refl _

theorem matchStep_samePictures (acc : State × Option (Fin 16))
    (i : Fin 16) :
    SamePictures acc.1.board (matchStep acc i).1.board := by
  rcases matchStep_cases acc i
    with ⟨-, h⟩ | ⟨-, -, h⟩ | ⟨k, -, -, ⟨-, h⟩ | ⟨-, h⟩⟩
  · rw [h]
    exact SamePictures.refl _
  · rw [h]
    exact SamePictures.refl _
  · rw [h]
    intro j
    rw [matched_card]
    split <;> exact ⟨rfl, rfl⟩
  · rw [h]
    intro j
    rw [mismatch_card]
    split <;> exact ⟨rfl, rfl⟩

theorem matchPhase_samePictures (s : State) :
    SamePictures s.board (matchPhase s).board := by
  unfold matchPhase
  split
  · exact SamePictures.refl _
  · unfold matchRounds
    refine rounds_induction
      (P := fun _ (acc : State × Option (Fin 16)) =>
        SamePictures s.board acc.1.board)
      (SamePictures.refl _) ?_ 16 (Nat.le_refl 16)
    intro k hk h
    exact h.trans (matchStep_samePictures _ _)

-- ============================================================== the runs

/-- A step deals a new board or keeps the pictures. -/
theorem onDeck_step {s s' : State} {n : Notification}
    (h : s.board.OnDeck) (hs : step mode0x115 s n = some s') :
    s'.board.OnDeck := by
  cases step_kind hs with
  | quiet hsame _ _ =>
      rw [hsame.board]
      exact h
  | preview hts _ _ hdraw =>
      rw [draw_eq] at hdraw
      obtain ⟨b, hb, rfl⟩ := Option.map_eq_some_iff.1 hdraw
      rw [← hts.frame.1.board] at h
      exact (h.same (previewStart_samePictures _)).same
        (turnCards_samePictures hb)
  | @play t u hts _ _ hu =>
      obtain ⟨b, hb, rfl⟩ := playUntilMatch_eq_some hu
      have hdrawn : SamePictures t.board b := by
        split at hb
        · exact turnCards_samePictures hb
        · cases hb
          exact SamePictures.refl _
      rw [← hts.frame.1.board] at h
      have hkey : (pauseKey { t with board := b }).board.OnDeck := by
        rw [(pauseKey_frame { t with board := b }).1.board]
        exact h.same hdrawn
      rw [victoryPhase_board]
      exact (hkey.same (clickPhase_samePictures _ _)).same
        (matchPhase_samePictures _)
  | restart _ _ _ hdeal => exact initializeGameCards_onDeck hdeal

/-- In every run every card has a picture. -/
theorem reach_onDeck {s : State} (h : Reach anyStep s) : s.board.OnDeck := by
  refine h.invariant (fun s hs => ?_) fun _ _ _ _ hd _ hs =>
    onDeck_step hd hs
  obtain ⟨rands, cards, hdeal, rfl⟩ := hs
  exact initializeGameCards_onDeck hdeal

end Lcom.Proj
