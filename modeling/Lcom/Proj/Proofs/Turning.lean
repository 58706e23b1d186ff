/-
How a set of cards turns together.

When the turning cards all show one face and one side, a flip call does
to the animation globals what `spin` does to a pair of numbers, and the
whole turn is the orbit of `(1, 0)`: `spinning n k` after `k` calls on
`n` cards. Whether the shared width hits its stop exactly is then a
finite question about that orbit. It does for one card going up
(twenty-one calls), two cards going down (ten) and sixteen going down
(two), the only sets that ever turn together in a run without a slip
(`lands_one`, `lands_two`, `lands_all`).

`turnCards_turning` lifts this to the drawing loop: every turning card
it meets is one call, and a turn that lands in the middle of the loop
leaves the rest of it nothing to do.
-/
import Lcom.Proj.Proofs.Animation

namespace Lcom.Proj

-- ========================================================== the orbit

/-- One flip call on `n` cards that turn together: their width and
their side. -/
def spin (n : Nat) (p : Int × Int) : Int × Int :=
  let o := if p.1 > 10 then 1 else p.2
  (if o = 0 then p.1 + n else p.1 - n, o)

/-- Width and side after `k` calls. -/
def spinning (n k : Nat) : Int × Int := (spin n)^[k] (1, 0)

theorem spinning_zero (n : Nat) : spinning n 0 = (1, 0) := rfl

theorem spinning_succ (n k : Nat) :
    spinning n (k + 1) = spin n (spinning n k) :=
  Function.iterate_succ_apply' ..

/-- The turn of `n` cards reaches its stop at call `K` and not before,
and no call before it finds a width below one. -/
structure Lands (n : Nat) (stop : Int) (K : Nat) : Prop where
  width_pos : ∀ k, k < K → 1 ≤ (spinning n k).1
  going : ∀ k, k + 1 < K → (spinning n (k + 1)).1 ≠ stop
  landing : (spinning n K).1 = stop

/-- One card turning up. -/
theorem lands_one : Lands 1 0 21 :=
  ⟨by decide, fun k hk => by
    have h : ∀ k, k < 20 → (spinning 1 (k + 1)).1 ≠ 0 := by decide
    exact h k (by omega), by decide⟩

/-- Two cards turning down. -/
theorem lands_two : Lands 2 1 10 :=
  ⟨by decide, fun k hk => by
    have h : ∀ k, k < 9 → (spinning 2 (k + 1)).1 ≠ 1 := by decide
    exact h k (by omega), by decide⟩

/-- The whole board turning down. -/
theorem lands_all : Lands 16 1 2 :=
  ⟨by decide, fun k hk => by
    have h : ∀ k, k < 1 → (spinning 16 (k + 1)).1 ≠ 1 := by decide
    exact h k (by omega), by decide⟩

-- ================================================== cards in one turn

/-- The turning cards are `T`, they all show `facing`, and width and
side are `p`. -/
structure Turning (b : Board) (T : Finset (Fin 16)) (facing : Bool)
    (p : Int × Int) : Prop where
  isFlipping : ∀ i, (b.card i).isFlipping = true ↔ i ∈ T
  isFlipped : ∀ i ∈ T, (b.card i).isFlipped = facing
  width : b.increaseWidth = p.1
  otherSide : ∀ i, b.otherSide.get i = if i ∈ T then p.2 else 0

/-- Nothing turns, and the animation globals are as at the start. -/
structure Still (b : Board) : Prop where
  isFlipping : ∀ i, (b.card i).isFlipping = false
  width : b.increaseWidth = 1
  otherSide : ∀ i, b.otherSide.get i = 0

/-- Where a flip function stops. -/
def flipStop (facing : Bool) : Int := if facing then 0 else 1

/-- `b'` is `b` with the turn of `T` completed. -/
structure Landed (b b' : Board) (T : Finset (Fin 16)) (facing : Bool) :
    Prop where
  card : ∀ i, b'.card i = if i ∈ T then
    { b.card i with isFlipping := false, isFlipped := !facing }
    else b.card i
  still : Still b'

section

variable {b : Board} {T : Finset (Fin 16)} {facing : Bool} {p : Int × Int}

theorem Turning.not_flipping (h : Turning b T facing p) {i : Fin 16}
    (hi : i ∉ T) : (b.card i).isFlipping = false :=
  Bool.eq_false_iff.2 fun hf => hi ((h.isFlipping i).1 hf)

/-- The sides a flip call leaves. -/
theorem Turning.mark (h : Turning b T facing p) (i : Fin 16) :
    (b.markOtherSide facing).get i
      = if i ∈ T then (spin T.card p).2 else 0 := by
  rw [markOtherSide_get, h.otherSide, h.width]
  by_cases hi : i ∈ T
  · rw [(h.isFlipping i).2 hi, h.isFlipped i hi]
    unfold spin
    simp [hi]
  · rw [h.not_flipping hi]
    simp [hi]

/-- The width a flip call leaves. -/
theorem Turning.turned (h : Turning b T facing p) :
    b.turned facing = (spin T.card p).1 := by
  have hdelta : ∀ i, widthDelta (b.cardArray.get i)
      ((b.markOtherSide facing).get i)
      = if i ∈ T then if (spin T.card p).2 = 0 then 1 else -1 else 0 := by
    intro i
    unfold widthDelta
    rw [h.mark i]
    by_cases hi : i ∈ T
    · have hf : (b.cardArray.get i).isFlipping = true :=
        (h.isFlipping i).2 hi
      simp only [hf, hi, if_true]
    · have hf : (b.cardArray.get i).isFlipping = false :=
        h.not_flipping hi
      simp only [hf, hi, if_false, Bool.false_eq_true]
  unfold Board.turned
  rw [turnWidth_eq_sum, h.width, Finset.sum_congr rfl fun i _ => hdelta i,
    Finset.sum_ite_mem, Finset.univ_inter, Finset.sum_const, nsmul_eq_mul]
  unfold spin
  dsimp only
  by_cases ho : (if p.1 > 10 then 1 else p.2) = 0
  · rw [if_pos ho, if_pos ho]
    omega
  · rw [if_neg ho, if_neg ho]
    omega

/-- A call that does not reach its stop moves width and sides only. -/
theorem Turning.flip_going (h : Turning b T facing p)
    (hstop : (spin T.card p).1 ≠ flipStop facing) :
    (flipCards facing (flipStop facing) b).1.cardArray = b.cardArray
      ∧ Turning (flipCards facing (flipStop facing) b).1 T facing
        (spin T.card p) := by
  rw [flipCards_going (by rw [h.turned]; exact hstop)]
  exact ⟨rfl, h.isFlipping, h.isFlipped, h.turned, h.mark⟩

/-- A call that reaches its stop completes the turn. -/
theorem Turning.flip_lands (h : Turning b T facing p) (hT : T.Nonempty)
    (hstop : (spin T.card p).1 = flipStop facing) :
    Landed b (flipCards facing (flipStop facing) b).1 T facing := by
  have hdone : b.turned facing = flipStop facing := by
    rw [h.turned]
    exact hstop
  have hcard : ∀ i, (flipCards facing (flipStop facing) b).1.card i
      = if i ∈ T then
          { b.card i with isFlipping := false, isFlipped := !facing }
        else b.card i := by
    intro i
    rw [flipCards_done_card hdone]
    by_cases hi : i ∈ T
    · rw [if_pos hi, if_pos ((h.isFlipping i).2 hi)]
    · rw [if_neg hi, h.not_flipping hi, if_neg (by decide)]
  obtain ⟨j, hj⟩ := hT
  refine ⟨hcard, fun i => ?_, ?_, fun i => ?_⟩
  · rw [hcard i]
    by_cases hi : i ∈ T
    · rw [if_pos hi]
    · rw [if_neg hi]
      exact h.not_flipping hi
  · exact flipCards_done_width hdone
      (anyFlipping_iff.2 ⟨j, (h.isFlipping j).2 hj⟩)
  · rw [flipCards_done_other hdone]
    by_cases hi : i ∈ T
    · rw [if_pos ((h.isFlipping i).2 hi)]
    · rw [h.not_flipping hi, if_neg (by decide), h.mark, if_neg hi]

/-- The drawing loop at a turning card is one flip call. -/
theorem Turning.turnCard (h : Turning b T facing p) (hw : 1 ≤ p.1)
    {i : Fin 16} (hi : i ∈ T) :
    Proj.turnCard b i
      = some (flipCards facing (flipStop facing) b).1 := by
  unfold Proj.turnCard
  rw [(h.isFlipping i).2 hi, if_pos rfl, h.width, if_neg (by omega),
    h.isFlipped i hi]
  cases facing <;> rfl

end

-- =================================================== the drawing loop

/-- Cards that lie still are drawn without a flip call. -/
theorem turnCards_idle {b : Board} {is : List (Fin 16)}
    (h : ∀ i ∈ is, (b.card i).isFlipping = false) :
    turnCards is b = some b := by
  induction is with
  | nil => rfl
  | cons i is ih =>
      unfold turnCards turnCard
      rw [h i (List.mem_cons_self ..), if_neg (by decide)]
      exact ih fun j hj => h j (List.mem_cons_of_mem _ hj)

/-- A still board is drawn without a flip call. -/
theorem turnCards_still {b : Board}
    (h : ∀ i, (b.card i).isFlipping = false) (is : List (Fin 16)) :
    turnCards is b = some b :=
  turnCards_idle fun i _ => h i

theorem draw_still {s : State}
    (h : ∀ i, (s.board.card i).isFlipping = false) :
    draw mode0x115 s = some s := by
  rw [draw_eq, turnCards_still h]
  rfl

/-- The drawing loop on cards that turn together: one call for each
card of `T` it meets, until the turn lands. -/
theorem turnCards_turning {T : Finset (Fin 16)} {facing : Bool} {K : Nat}
    (hT : T.Nonempty) (hl : Lands T.card (flipStop facing) K) :
    ∀ (is : List (Fin 16)) (b : Board) (k : Nat), k < K →
      Turning b T facing (spinning T.card k) →
      (k + is.countP (· ∈ T) < K
        ∧ ∃ b', turnCards is b = some b' ∧ b'.cardArray = b.cardArray
          ∧ Turning b' T facing
            (spinning T.card (k + is.countP (· ∈ T))))
      ∨ (K ≤ k + is.countP (· ∈ T)
        ∧ ∃ b', turnCards is b = some b' ∧ Landed b b' T facing) := by
  intro is
  induction is with
  | nil =>
      intro b k hk h
      exact .inl ⟨hk, b, rfl, rfl, h⟩
  | cons i is ih =>
      intro b k hk h
      by_cases hi : i ∈ T
      · have hcall := h.turnCard (hl.width_pos k hk) hi
        have hcount : (i :: is).countP (· ∈ T)
            = is.countP (· ∈ T) + 1 := List.countP_cons_of_pos (by simpa)
        rw [hcount]
        unfold turnCards
        rw [hcall]
        dsimp only
        by_cases hlast : k + 1 = K
        · -- this call lands; nothing turns for the rest of the loop
          have hland := h.flip_lands hT (by
            rw [← spinning_succ, hlast]
            exact hl.landing)
          refine .inr ⟨by omega, _, ?_, hland⟩
          exact turnCards_still hland.still.isFlipping is
        · obtain ⟨harr, hgo⟩ := h.flip_going (by
            rw [← spinning_succ]
            exact hl.going k (by omega))
          rw [← spinning_succ] at hgo
          have hshift : k + (is.countP (· ∈ T) + 1)
              = k + 1 + is.countP (· ∈ T) := by omega
          rw [hshift]
          rcases ih _ (k + 1) (by omega) hgo
            with ⟨hlt, b', hb', harr', ht⟩ | ⟨hle, b', hb', hland⟩
          · exact .inl ⟨hlt, b', hb', harr'.trans harr, ht⟩
          · refine .inr ⟨hle, b', hb', ?_, hland.still⟩
            intro j
            rw [hland.card j]
            unfold Board.card
            rw [harr]
      · have hcount : (i :: is).countP (· ∈ T) = is.countP (· ∈ T) :=
          List.countP_cons_of_neg (by simpa)
        rw [hcount]
        unfold turnCards Proj.turnCard
        rw [h.not_flipping hi, if_neg (by decide)]
        exact ih b k hk h

/-- The whole loop meets every card of `T` once. -/
theorem countP_finRange (T : Finset (Fin 16)) :
    (List.finRange 16).countP (· ∈ T) = T.card := by
  rw [List.countP_eq_length_filter,
    ← List.toFinset_card_of_nodup ((List.nodup_finRange 16).filter _)]
  congr 1
  ext i
  simp

-- ============================================= the widths that are drawn

/-- Every turning card the drawing loop meets finds a width of at least
one. -/
def WidthsPositive : List (Fin 16) → Board → Prop
  | [], _ => True
  | i :: is, b => ((b.card i).isFlipping = true → 1 ≤ b.increaseWidth)
      ∧ ∀ b', turnCard b i = some b' → WidthsPositive is b'

/-- What the pictures of one card are squeezed by. -/
theorem drawCard_widths {p : Pen} {i : Fin 16} {b : Board}
    (h : (b.card i).isFlipping = true → 1 ≤ b.increaseWidth) :
    (drawCard p i b).trapped = false
      ∧ ∀ d ∈ (drawCard p i b).draws, ∀ j front w,
        d = .squeezed j front w → 1 ≤ w := by
  have hflip : ∀ f d, d ∈ flipDraws f b → ∀ j front w,
      d = .squeezed j front w → w = b.increaseWidth := by
    intro f d hd j front w he
    obtain ⟨k, -, hk⟩ := List.mem_filterMap.1 hd
    split at hk
    · subst he
      cases hk
      rfl
    · cases hk
  unfold drawCard
  dsimp only
  by_cases hf : (b.card i).isFlipping = true
  · have hw := h hf
    rw [if_pos hf, if_neg (by omega)]
    refine ⟨rfl, fun d hd j front w he => ?_⟩
    rw [hflip _ d hd j front w he]
    exact hw
  · rw [if_neg hf]
    split
    · refine ⟨rfl, fun d hd j front w he => ?_⟩
      rw [List.mem_singleton.1 hd] at he
      cases he
    · refine ⟨rfl, fun d hd j front w he => ?_⟩
      rw [List.mem_singleton.1 hd] at he
      cases he

/-- The pictures of the drawing loop. -/
theorem drawCards_widths {m : ModeInfo} :
    ∀ (is : List (Fin 16)) (p : Pen) (b : Board), WidthsPositive is b →
      (drawCards m is p b).trapped = false
        ∧ ∀ d ∈ (drawCards m is p b).draws, ∀ j front w,
          d = .squeezed j front w → 1 ≤ w := by
  intro is
  induction is with
  | nil =>
      intro p b _
      exact ⟨rfl, fun d hd => by cases hd⟩
  | cons i is ih =>
      intro p b hpos
      obtain ⟨hw, hrest⟩ := hpos
      obtain ⟨htrap, hdraws⟩ := drawCard_widths (p := p) hw
      have hcard := drawCard_result p i b
      unfold Frame.result at hcard
      rw [htrap, if_neg (by decide)] at hcard
      unfold drawCards
      dsimp only
      rw [htrap, if_neg (by decide)]
      split
      · exact ⟨htrap, hdraws⟩
      · obtain ⟨htrap', hdraws'⟩ :=
          ih (p.advance m) _ (hrest _ hcard.symm)
        refine ⟨htrap', fun d hd => ?_⟩
        rcases List.mem_append.1 hd with hd | hd
        · exact hdraws d hd
        · exact hdraws' d hd

theorem widthsPositive_still {b : Board}
    (h : ∀ i, (b.card i).isFlipping = false) :
    ∀ is : List (Fin 16), WidthsPositive is b := by
  intro is
  induction is with
  | nil => trivial
  | cons i is ih =>
      refine ⟨fun hf => ?_, fun b' hb' => ?_⟩
      · rw [h i] at hf
        cases hf
      · unfold turnCard at hb'
        rw [h i, if_neg (by decide)] at hb'
        cases hb'
        exact ih

-- ============================================= the boards it passes

/-- `P` holds of the board whenever the drawing loop comes to a card. -/
def EachBoard (P : Board → Prop) : List (Fin 16) → Board → Prop
  | [], _ => True
  | i :: is, b => P b ∧ ∀ b', turnCard b i = some b' → EachBoard P is b'

theorem EachBoard.mono {P Q : Board → Prop} (hPQ : ∀ b, P b → Q b) :
    ∀ {is : List (Fin 16)} {b : Board}, EachBoard P is b →
      EachBoard Q is b := by
  intro is
  induction is with
  | nil => intro b _; trivial
  | cons i is ih =>
      intro b h
      exact ⟨hPQ b h.1, fun b' hb' => ih (h.2 b' hb')⟩

theorem eachBoard_still {b : Board} (h : Still b) :
    ∀ is : List (Fin 16), EachBoard Still is b := by
  intro is
  induction is with
  | nil => trivial
  | cons i is ih =>
      refine ⟨h, fun b' hb' => ?_⟩
      unfold turnCard at hb'
      rw [h.isFlipping i, if_neg (by decide)] at hb'
      cases hb'
      exact ih

/-- Cards that turn together pass through the turn they are in, and lie
still once it has landed. -/
theorem eachBoard_turning {T : Finset (Fin 16)} {facing : Bool}
    {K : Nat} (hT : T.Nonempty) (hl : Lands T.card (flipStop facing) K) :
    ∀ (is : List (Fin 16)) (b : Board) (k : Nat), k < K →
      Turning b T facing (spinning T.card k) →
      EachBoard (fun b => Still b
        ∨ ∃ k < K, Turning b T facing (spinning T.card k)) is b := by
  intro is
  induction is with
  | nil => intro b k _ _; trivial
  | cons i is ih =>
      intro b k hk h
      refine ⟨.inr ⟨k, hk, h⟩, fun b' hb' => ?_⟩
      by_cases hi : i ∈ T
      · rw [h.turnCard (hl.width_pos k hk) hi] at hb'
        cases hb'
        by_cases hlast : k + 1 = K
        · have hland := h.flip_lands hT (by
            rw [← spinning_succ, hlast]
            exact hl.landing)
          exact (eachBoard_still hland.still is).mono fun b => .inl
        · obtain ⟨-, hgo⟩ := h.flip_going (by
            rw [← spinning_succ]
            exact hl.going k (by omega))
          rw [← spinning_succ] at hgo
          exact ih _ (k + 1) (by omega) hgo
      · unfold Proj.turnCard at hb'
        rw [h.not_flipping hi, if_neg (by decide)] at hb'
        cases hb'
        exact ih b k hk h

/-- Every board of a turn has a width of at least one. -/
theorem eachBoard_width {T : Finset (Fin 16)} {facing : Bool} {K : Nat}
    (hT : T.Nonempty) (hl : Lands T.card (flipStop facing) K)
    (is : List (Fin 16)) {b : Board} {k : Nat} (hk : k < K)
    (h : Turning b T facing (spinning T.card k)) :
    EachBoard (fun b => 1 ≤ b.increaseWidth) is b := by
  refine (eachBoard_turning hT hl is b k hk h).mono fun b' hb' => ?_
  rcases hb' with hstill | ⟨k', hk', hturn⟩
  · rw [hstill.width]
  · rw [hturn.width]
    exact hl.width_pos k' hk'

theorem EachBoard.widthsPositive :
    ∀ {is : List (Fin 16)} {b : Board},
      EachBoard (fun b => 1 ≤ b.increaseWidth) is b → WidthsPositive is b := by
  intro is
  induction is with
  | nil => intro b _; trivial
  | cons i is ih =>
      intro b h
      exact ⟨fun _ => h.1, fun b' hb' => ih (h.2 b' hb')⟩

theorem widthsPositive_turning {T : Finset (Fin 16)} {facing : Bool}
    {K : Nat} (hT : T.Nonempty) (hl : Lands T.card (flipStop facing) K)
    (is : List (Fin 16)) (b : Board) (k : Nat) (hk : k < K)
    (h : Turning b T facing (spinning T.card k)) : WidthsPositive is b :=
  (eachBoard_width hT hl is hk h).widthsPositive

end Lcom.Proj
