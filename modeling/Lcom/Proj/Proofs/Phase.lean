/-
The game a player is meant to see, and when a board shows it.

Between two ticks nothing turns and at most one card is open (`rest`),
or one card is turning up beside at most one open card (`up`), or a
mismatching pair is turning down (`down`). `Shows b p` ties a board to a
phase: who turns and how far, who lies open, and that every other card
is matched or face down.

`Table` is the same with the sets given directly. It also describes the
two moments inside a tick at which two cards lie open and nothing has
been done about them yet.
-/
import Lcom.Proj.Slip
import Lcom.Proj.Proofs.Deal
import Lcom.Proj.Proofs.Match
import Lcom.Proj.Proofs.Turning

namespace Lcom.Proj

open Machine

-- ======================================================== the table

/-- The cards `T` turn, the cards `O` lie open, and every other card is
face down unless it is matched. -/
structure Table (b : Board) (O T : Finset (Fin 16)) (facing : Bool)
    (p : Int × Int) : Prop where
  turning : Turning b T facing p
  faceUp : ∀ i, (b.card i).isFlipped = false
    ↔ (b.card i).flipSuccess = true ∨ i ∈ O
  unmatched : ∀ i, i ∈ O ∨ i ∈ T → (b.card i).flipSuccess = false

section

variable {b b' : Board} {O T : Finset (Fin 16)} {facing : Bool}
  {p : Int × Int}

/-- Open cards, as the match check sees them. -/
theorem Table.isOpen_iff (h : Table b O T facing p) (i : Fin 16) :
    (b.card i).isOpen = true ↔ i ∈ O := by
  unfold Card.isOpen
  rw [Bool.and_eq_true, Bool.not_eq_true', Bool.not_eq_true', h.faceUp i]
  constructor
  · intro hcard
    obtain ⟨hm | ho, hun⟩ := hcard
    · rw [hun] at hm
      cases hm
    · exact ho
  · intro ho
    exact ⟨.inr ho, h.unmatched i (.inl ho)⟩

/-- Matched cards lie face up and do not turn. -/
theorem Table.matched_open (h : Table b O T facing p) {i : Fin 16}
    (hm : (b.card i).flipSuccess = true) :
    (b.card i).isFlipped = false ∧ (b.card i).isFlipping = false := by
  refine ⟨(h.faceUp i).2 (.inl hm), h.turning.not_flipping fun hi => ?_⟩
  rw [h.unmatched i (.inr hi)] at hm
  cases hm

/-- The cards in play are those open or turning. -/
theorem Table.inPlay_eq (h : Table b O T facing p) :
    inPlay b = O ∪ T := by
  ext i
  simp only [inPlay, Finset.mem_filter, Finset.mem_univ, true_and,
    Finset.mem_union]
  rw [h.faceUp i, h.turning.isFlipping i]
  constructor
  · intro hcard
    obtain ⟨hun, (hm | ho) | ht⟩ := hcard
    · rw [hun] at hm
      cases hm
    · exact .inl ho
    · exact .inr ht
  · intro hi
    refine ⟨h.unmatched i hi, ?_⟩
    rcases hi with ho | ht
    · exact .inl (.inr ho)
    · exact .inr ht

/-- Moving the animation on does not change the table. -/
theorem Table.going (h : Table b O T facing p) {q : Int × Int}
    (harr : b'.cardArray = b.cardArray) (ht : Turning b' T facing q) :
    Table b' O T facing q := by
  have hcard : ∀ i, b'.card i = b.card i := fun i => by
    unfold Board.card
    rw [harr]
  refine ⟨ht, fun i => ?_, fun i hi => ?_⟩
  · rw [hcard i]
    exact h.faceUp i
  · rw [hcard i]
    exact h.unmatched i hi

theorem Still.turning (h : Still b) (facing : Bool) :
    Turning b ∅ facing (1, 0) := by
  refine ⟨fun i => ?_, fun i hi => ?_, h.width, fun i => ?_⟩
  · rw [h.isFlipping i]
    simp
  · simp at hi
  · rw [h.otherSide i]
    simp

/-- A table on which nothing turns, from the first frame. -/
theorem Table.still (h : Table b O ∅ facing (1, 0)) : Still b :=
  ⟨fun _ => h.turning.not_flipping (by simp), h.turning.width,
    fun i => by rw [h.turning.otherSide i]; simp⟩

/-- A landed turn opens the cards it turned up, and closes those it
turned down. -/
theorem Table.landed (h : Table b O T facing p)
    (hl : Landed b b' T facing) :
    Table b' (if facing then O ∪ T else O \ T) ∅ facing (1, 0) := by
  refine ⟨hl.still.turning facing, fun i => ?_, fun i hi => ?_⟩
  · rw [hl.card i]
    by_cases hi : i ∈ T
    · have hun := h.unmatched i (.inr hi)
      rw [if_pos hi]
      cases facing
      · simp [hun, hi]
      · simp [hi]
    · rw [if_neg hi, h.faceUp i]
      cases facing
      · simp [hi]
      · simp [hi]
  · have hsub : i ∈ O ∨ i ∈ T := by
      cases facing
      · simp only [Bool.false_eq_true, if_false, Finset.mem_sdiff,
          Finset.notMem_empty, or_false] at hi
        exact .inl hi.1
      · simpa using hi
    rw [hl.card i]
    split
    · exact h.unmatched i hsub
    · exact h.unmatched i hsub

/-- Starting a face-down card on a still table. -/
theorem Table.click (h : Table b O ∅ facing (1, 0)) {k : Fin 16}
    (hk : (b.card k).isFlipped = true) :
    Table { b with cardArray := setFlipping b.cardArray k true } O {k} true
      (1, 0) := by
  have hcard : ∀ i, Board.card
      { b with cardArray := setFlipping b.cardArray k true } i
      = if i = k then (b.card i).startFlipping else b.card i :=
    fun i => setFlipping_get _ _ _ _
  refine ⟨⟨fun i => ?_, fun i hi => ?_, h.turning.width, fun i => ?_⟩,
    fun i => ?_, fun i hi => ?_⟩
  · rw [hcard i, Finset.mem_singleton]
    by_cases hi : i = k
    · simp [hi, Card.startFlipping]
    · rw [if_neg hi, h.turning.isFlipping i]
      simp [hi]
  · rw [Finset.mem_singleton] at hi
    rw [hcard i, if_pos hi, hi]
    exact hk
  · show b.otherSide.get i = _
    rw [h.still.otherSide i]
    simp
  · rw [hcard i]
    split
    · exact h.faceUp i
    · exact h.faceUp i
  · have hun : (b.card i).flipSuccess = false := by
      rcases hi with hi | hi
      · exact h.unmatched i (.inl hi)
      · rw [Finset.mem_singleton] at hi
        subst hi
        refine Bool.eq_false_iff.2 fun hm => ?_
        rw [(h.faceUp i).2 (.inl hm)] at hk
        cases hk
    rw [hcard i]
    split <;> exact hun

end

-- ======================================================== the phases

/-- What the player sees between two ticks. -/
inductive Phase
  | rest (open? : Option (Fin 16))
  | up (first : Option (Fin 16)) (j : Fin 16) (calls : Nat)
  | down (i j : Fin 16) (calls : Nat)
  deriving DecidableEq

/-- The open cards of a phase. -/
def Phase.opened : Phase → Finset (Fin 16)
  | .rest o => o.toFinset
  | .up o _ _ => o.toFinset
  | .down i j _ => {i, j}

/-- The turning cards of a phase. -/
def Phase.turning : Phase → Finset (Fin 16)
  | .rest _ => ∅
  | .up _ j _ => {j}
  | .down i j _ => {i, j}

/-- The face the turning cards show. -/
def Phase.facing : Phase → Bool
  | .rest _ => false
  | .up _ _ _ => true
  | .down _ _ _ => false

/-- The flip calls made in the present turn. -/
def Phase.calls : Phase → Nat
  | .rest _ => 0
  | .up _ _ k => k
  | .down _ _ k => k

/-- Turning cards are not the open ones, a turn is not overdue, and
only a mismatch is turned down. -/
def Phase.WellFormed (b : Board) : Phase → Prop
  | .rest _ => True
  | .up o j k => o ≠ some j ∧ k < 21
  | .down i j k => i < j ∧ k < 10 ∧ (b.card i).value ≠ (b.card j).value

/-- The board shows the phase. -/
structure Shows (b : Board) (p : Phase) : Prop where
  table : Table b p.opened p.turning p.facing
    (spinning p.turning.card p.calls)
  wellFormed : p.WellFormed b

/-- A board on which nothing turns and at most one card lies open. -/
theorem shows_rest {b : Board} {o : Option (Fin 16)} {facing : Bool}
    (h : Table b o.toFinset ∅ facing (1, 0)) : Shows b (.rest o) :=
  ⟨⟨h.still.turning false, h.faceUp, h.unmatched⟩, trivial⟩

/-- A resting board is still. -/
theorem Shows.rest_still {b : Board} {o : Option (Fin 16)}
    (h : Shows b (.rest o)) : Table b o.toFinset ∅ false (1, 0) := h.table

/-- At most two cards are in play. -/
theorem Shows.inPlay_card {b : Board} {p : Phase} (h : Shows b p) :
    (inPlay b).card ≤ 2 := by
  have hone : ∀ o : Option (Fin 16), o.toFinset.card ≤ 1 := by
    intro o
    cases o <;> simp
  rw [h.table.inPlay_eq]
  cases p with
  | rest o =>
      show (o.toFinset ∪ ∅).card ≤ 2
      rw [Finset.union_empty]
      have := hone o
      omega
  | up o j k =>
      show (o.toFinset ∪ {j}).card ≤ 2
      have hu := Finset.card_union_le o.toFinset {j}
      have := hone o
      rw [Finset.card_singleton] at hu
      omega
  | down i j k =>
      show (({i, j} : Finset (Fin 16)) ∪ {i, j}).card ≤ 2
      rw [Finset.union_self]
      exact Finset.card_le_two

/-- A board on which nothing turns shows a rest. -/
theorem Shows.rests {b : Board} {p : Phase} (h : Shows b p)
    (hany : b.anyFlipping = false) : ∃ o, Shows b (.rest o) := by
  have hno : ∀ i, i ∉ p.turning := by
    intro i hi
    have hflip := anyFlipping_iff.2 ⟨i, (h.table.turning.isFlipping i).2 hi⟩
    rw [hany] at hflip
    cases hflip
  cases p with
  | rest o => exact ⟨o, h⟩
  | up o j k => exact absurd (Finset.mem_singleton_self j) (hno j)
  | down i j k => exact absurd (Finset.mem_insert_self i {j}) (hno i)

/-- A board with every card matched shows a rest. -/
theorem Shows.still_of_allMatched {b : Board} {p : Phase} (h : Shows b p)
    (hall : ∀ i, (b.card i).flipSuccess = true) : Still b := by
  have hno : ∀ i, i ∉ p.turning := by
    intro i hi
    have := h.table.unmatched i (.inr hi)
    rw [hall i] at this
    cases this
  cases p with
  | rest o => exact h.rest_still.still
  | up o j k => exact absurd (Finset.mem_singleton_self j) (hno j)
  | down i j k => exact absurd (Finset.mem_insert_self i {j}) (hno i)

/-- The values that a turn keeps, the phase keeps. -/
theorem Phase.WellFormed.congr {b b' : Board} {p : Phase}
    (h : p.WellFormed b) (hv : ∀ i, (b'.card i).value = (b.card i).value) :
    p.WellFormed b' := by
  cases p with
  | rest o => trivial
  | up o j k => exact h
  | down i j k =>
      refine ⟨h.1, h.2.1, ?_⟩
      rw [hv i, hv j]
      exact h.2.2

/-- One card lands at the twenty-first call. -/
theorem lands_singleton (j : Fin 16) :
    Lands ({j} : Finset (Fin 16)).card (flipStop true) 21 := by
  rw [Finset.card_singleton]
  exact lands_one

/-- Two cards land at the tenth call. -/
theorem lands_pair {i j : Fin 16} (hij : i < j) :
    Lands ({i, j} : Finset (Fin 16)).card (flipStop false) 10 := by
  rw [Finset.card_pair (Fin.ne_of_lt hij)]
  exact lands_two

-- ======================================================== the preview

/-- A dealt board: all cards face up, nothing turned yet. -/
structure Dealt (b : Board) : Prop where
  fresh : Fresh b.cardArray
  still : Still b

/-- The dealt board with every card started. -/
theorem preview_table {b : Board} (h : Dealt b) :
    Table { b with cardArray := b.cardArray.map Card.startFlipping }
      Finset.univ Finset.univ false
      (spinning (Finset.univ : Finset (Fin 16)).card 0) := by
  have hcard : ∀ i, Board.card
      { b with cardArray := b.cardArray.map Card.startFlipping } i
      = (b.card i).startFlipping := fun i => List.Vector.get_map _ _ _
  refine ⟨⟨fun i => ?_, fun i _ => ?_, h.still.width, fun i => ?_⟩,
    fun i => ?_, fun i _ => ?_⟩
  · rw [hcard i]
    simp [Card.startFlipping]
  · rw [hcard i]
    exact (h.fresh i).1
  · show b.otherSide.get i = _
    rw [h.still.otherSide i]
    simp [spinning_zero]
  · rw [hcard i]
    exact iff_of_true (h.fresh i).1 (.inr (Finset.mem_univ i))
  · rw [hcard i]
    exact (h.fresh i).2.2

/-- Sixteen cards land at the second call. -/
theorem lands_univ :
    Lands (Finset.univ : Finset (Fin 16)).card (flipStop false) 2 := by
  rw [Finset.card_univ, Fintype.card_fin]
  exact lands_all

/-- The preview turns the whole board over in one draw. -/
theorem preview_landed {b : Board} (h : Dealt b) :
    ∃ b', turnCards (List.finRange 16)
        { b with cardArray := b.cardArray.map Card.startFlipping } = some b'
      ∧ Landed { b with cardArray := b.cardArray.map Card.startFlipping } b'
        Finset.univ false := by
  rcases turnCards_turning Finset.univ_nonempty lands_univ
      (List.finRange 16) _ 0 (by decide) (preview_table h).turning
    with ⟨hlt, -⟩ | ⟨-, b', hb', hland⟩
  · rw [countP_finRange] at hlt
    simp at hlt
  · exact ⟨b', hb', hland⟩

/-- The board the preview leaves is at rest. -/
theorem preview_lands {b : Board} (h : Dealt b) :
    ∃ b', turnCards (List.finRange 16)
        { b with cardArray := b.cardArray.map Card.startFlipping } = some b'
      ∧ Shows b' (.rest none) := by
  obtain ⟨b', hb', hland⟩ := preview_landed h
  have ht : Table b' (Finset.univ \ Finset.univ) ∅ false (1, 0) :=
    (preview_table h).landed hland
  rw [Finset.sdiff_self] at ht
  exact ⟨b', hb', shows_rest (o := none) ht⟩

end Lcom.Proj
