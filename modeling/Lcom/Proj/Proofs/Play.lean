/-
One playing tick, phase by phase.

The draw moves the phase on, or completes the second card of a pair
(`draw_shows`). The click starts a card only on a still board. The match
check changes nothing on a board that shows a phase
(`matchPhase_shows`): with two open cards it is the mismatch that is
already turning down, and it costs no second life. So the only tick in
which anything is decided is the one that completes a pair, and there
the guard `noSlip` keeps the click away from a mismatch
(`play_shows`).

The same case analysis counts what is revealed: a tick reveals a
mismatching pair exactly when it charges a life.
-/
import Lcom.Proj.Proofs.Phase

namespace Lcom.Proj

open Machine

-- ============================================================ the draw

/-- The pair `f`, `g` lies open after `g`, turning up beside `f`, has
been drawn for the last time. -/
structure PairOpens (b b' : Board) (f g : Fin 16) : Prop where
  ne : f ≠ g
  before : Shows b (.up (some f) g 20)
  landed : Landed b b' {g} true
  table : Table b' {f, g} ∅ true (1, 0)
  revealed : newMismatches b b'
    = if (b.card f).value = (b.card g).value then 0 else 1

/-- The card that has landed is the one that came up. -/
theorem turnsUp_landed {b b' : Board} {g : Fin 16}
    (hl : Landed b b' {g} true) (hg : (b.card g).isFlipped = true)
    (c : Fin 16) : turnsUp b b' c = true ↔ c = g := by
  unfold turnsUp
  by_cases hc : c = g
  · subst hc
    rw [hl.card c, if_pos (Finset.mem_singleton_self c), hg]
    simp
  · rw [hl.card c, if_neg (by simpa using hc)]
    simp [hc]

/-- It reveals a mismatch with the open card beside it, and with no
other card. -/
theorem revealsMismatch_landed {b b' : Board} {f g : Fin 16}
    (h : Shows b (.up (some f) g 20)) (hl : Landed b b' {g} true)
    (c : Fin 16) : revealsMismatch b b' g c = true
      ↔ c = f ∧ (b.card f).value ≠ (b.card g).value := by
  have hne : f ≠ g := fun he => h.wellFormed.1 (by rw [he])
  have hopen : (b.card c).isFlipped = false
      ↔ (b.card c).flipSuccess = true ∨ c = f := by
    rw [h.table.faceUp c]
    show _ ∨ c ∈ ({f} : Finset (Fin 16)) ↔ _
    rw [Finset.mem_singleton]
  unfold revealsMismatch
  simp only [Bool.and_eq_true, Bool.not_eq_true', decide_eq_true_eq]
  constructor
  · intro hreveals
    obtain ⟨⟨⟨⟨hc, -⟩, hun⟩, -⟩, hv⟩ := hreveals
    rcases hopen.1 hc with hm | rfl
    · rw [hun] at hm
      cases hm
    · exact ⟨rfl, hv⟩
  · intro hreveals
    obtain ⟨rfl, hv⟩ := hreveals
    have hup := hopen.2 (.inr rfl)
    refine ⟨⟨⟨⟨hup, ?_⟩, ?_⟩, ?_⟩, hv⟩
    · rw [hl.card c, if_neg (by simpa using hne)]
      exact hup
    · exact h.table.unmatched c (.inl (Finset.mem_singleton_self c))
    · exact h.table.unmatched g (.inr (Finset.mem_singleton_self g))

/-- A card that has landed beside an open one. -/
theorem pairOpens_of_landed {b b' : Board} {f g : Fin 16}
    (h : Shows b (.up (some f) g 20)) (hl : Landed b b' {g} true) :
    PairOpens b b' f g := by
  have htable : Table b' {f, g} ∅ true (1, 0) := by
    have ht : Table b' ({f} ∪ {g}) ∅ true (1, 0) := h.table.landed hl
    rw [← Finset.insert_eq] at ht
    exact ht
  have hup := turnsUp_landed hl
    (h.table.turning.isFlipped g (Finset.mem_singleton_self g))
  have hrev := revealsMismatch_landed h hl
  refine ⟨fun he => h.wellFormed.1 (by rw [he]), h, hl, htable, ?_⟩
  by_cases hv : (b.card f).value = (b.card g).value
  · rw [if_pos hv]
    refine newMismatches_eq_zero fun j hj i => Bool.eq_false_iff.2 fun hi => ?_
    rw [(hup j).1 hj, hrev] at hi
    exact hi.2 hv
  · rw [if_neg hv]
    refine newMismatches_eq_one (i := f) hup fun c => ?_
    rw [hrev c]
    exact ⟨fun hc => hc.1, fun hc => ⟨hc, hv⟩⟩

/-- A card that has landed alone is the open one. -/
theorem shows_of_landed_alone {b b' : Board} {g : Fin 16} {k : Nat}
    (h : Shows b (.up none g k)) (hl : Landed b b' {g} true) :
    Shows b' (.rest (some g)) ∧ newMismatches b b' = 0 := by
  constructor
  · have ht : Table b' (∅ ∪ {g}) ∅ true (1, 0) := h.table.landed hl
    rw [Finset.empty_union] at ht
    exact shows_rest (o := some g) ht
  · refine newMismatches_eq_zero fun j _ i => Bool.eq_false_iff.2 fun hi => ?_
    unfold revealsMismatch at hi
    simp only [Bool.and_eq_true, Bool.not_eq_true', decide_eq_true_eq] at hi
    obtain ⟨⟨⟨⟨hup, -⟩, hun⟩, -⟩, -⟩ := hi
    rcases (h.table.faceUp i).1 hup with hm | ho
    · rw [hun] at hm
      cases hm
    · exact absurd ho (Finset.notMem_empty i)

/-- The same cards reveal nothing. -/
theorem newMismatches_cardArray {b b' : Board}
    (h : b'.cardArray = b.cardArray) : newMismatches b b' = 0 := by
  refine newMismatches_same fun j hj => ?_
  unfold Board.card at hj ⊢
  rw [h] at hj
  exact hj

/-- A draw keeps the board in a phase, or opens a pair. -/
def DrawShows (b : Board) : Prop :=
  ∃ b', turnCards (List.finRange 16) b = some b'
    ∧ ((∃ p', Shows b' p' ∧ newMismatches b b' = 0)
      ∨ ∃ f g, PairOpens b b' f g)

/-- The draw of a card turning up. -/
theorem draw_up {b : Board} {o : Option (Fin 16)} {j : Fin 16} {k : Nat}
    (h : Shows b (.up o j k)) : DrawShows b := by
  rcases turnCards_turning (Finset.singleton_nonempty j)
      (lands_singleton j) (List.finRange 16) b k h.wellFormed.2
      h.table.turning
    with ⟨hlt, b', hb', harr, ht⟩ | ⟨hge, b', hb', hland⟩
  · rw [countP_finRange, Finset.card_singleton] at hlt ht
    have ht' : Turning b' {j} true
        (spinning ({j} : Finset (Fin 16)).card (k + 1)) := by
      rw [Finset.card_singleton]
      exact ht
    exact ⟨b', hb', .inl ⟨.up o j (k + 1),
      ⟨h.table.going harr ht', h.wellFormed.1, hlt⟩,
      newMismatches_cardArray harr⟩⟩
  · -- it lands, which takes exactly twenty-one calls
    rw [countP_finRange, Finset.card_singleton] at hge
    have hk : k = 20 := by
      have := h.wellFormed.2
      omega
    subst hk
    refine ⟨b', hb', ?_⟩
    cases o with
    | none => exact .inl ⟨_, shows_of_landed_alone h hland⟩
    | some f => exact .inr ⟨f, j, pairOpens_of_landed h hland⟩

/-- The draw of a pair turning down. -/
theorem draw_down {b : Board} {i j : Fin 16} {k : Nat}
    (h : Shows b (.down i j k)) : DrawShows b := by
  obtain ⟨hij, hk, hv⟩ := h.wellFormed
  have hcard : ({i, j} : Finset (Fin 16)).card = 2 :=
    Finset.card_pair (Fin.ne_of_lt hij)
  rcases turnCards_turning (Finset.insert_nonempty i {j})
      (lands_pair hij) (List.finRange 16) b k hk h.table.turning
    with ⟨hlt, b', hb', harr, ht⟩ | ⟨-, b', hb', hland⟩
  · rw [countP_finRange] at ht hlt
    have hwf : Phase.WellFormed b (.down i j (k + 2)) := by
      rw [hcard] at hlt
      exact ⟨hij, hlt, hv⟩
    refine ⟨b', hb', .inl ⟨.down i j (k + 2),
      ⟨h.table.going harr ?_, hwf.congr fun c => ?_⟩,
      newMismatches_cardArray harr⟩⟩
    · show Turning b' {i, j} false
        (spinning ({i, j} : Finset (Fin 16)).card (k + 2))
      have hshift : k + 2 = k + ({i, j} : Finset (Fin 16)).card := by
        rw [hcard]
      rw [hshift]
      exact ht
    · unfold Board.card
      rw [harr]
  · have ht : Table b' (({i, j} : Finset (Fin 16)) \ {i, j}) ∅ false
        (1, 0) := h.table.landed hland
    rw [Finset.sdiff_self] at ht
    refine ⟨b', hb', .inl ⟨.rest none, shows_rest (o := none) ht,
      newMismatches_same fun c hc => ?_⟩⟩
    rw [hland.card c] at hc
    split at hc
    · cases hc
    · exact hc

theorem draw_shows {b : Board} {p : Phase} (h : Shows b p) :
    DrawShows b := by
  cases p with
  | rest o =>
      exact ⟨b, turnCards_still h.rest_still.still.isFlipping _,
        .inl ⟨_, h, newMismatches_cardArray rfl⟩⟩
  | up o j k => exact draw_up h
  | down i j k => exact draw_down h

-- =========================================================== the click

/-- On a still board the click starts the face-down card under the
cursor, or nothing; the guard stays down. -/
theorem clickPhase_still {s : State}
    (h : ∀ i, (s.board.card i).isFlipping = false) :
    (clickPhase mode0x115 s).isAnyCardFlipping = false
      ∧ ((clickPhase mode0x115 s).board = s.board
        ∨ ∃ k, s.lb = true ∧ onCard mode0x115 s.mouse k = true
          ∧ (s.board.card k).isFlipped = true
          ∧ (clickPhase mode0x115 s).board = { s.board with
            cardArray := setFlipping s.board.cardArray k true }) := by
  have hany : s.board.anyFlipping = false := anyFlipping_still h
  unfold clickPhase
  cases hlb : s.lb with
  | false =>
      rw [if_neg (by decide)]
      exact ⟨rfl, .inl rfl⟩
  | true =>
      rw [if_pos rfl, hany, if_neg (by decide)]
      refine ⟨rfl, ?_⟩
      rcases flipCardOnClick_cases mode0x115 s.mouse h
        with ⟨k, hon, hdown, he⟩ | ⟨-, he⟩
      · refine .inr ⟨k, rfl, hon, hdown, ?_⟩
        show Board.mk _ _ _ = _
        rw [he]
      · left
        show Board.mk _ _ _ = _
        rw [he]

/-- While a card turns the click does nothing. -/
theorem clickPhase_turning {s : State} {i : Fin 16}
    (h : (s.board.card i).isFlipping = true) :
    (clickPhase mode0x115 s).board = s.board := by
  unfold clickPhase
  rw [anyFlipping_iff.2 ⟨i, h⟩]
  split <;> rfl

/-- The click on a board that shows a phase. -/
theorem clickPhase_shows {s : State} {p : Phase} (h : Shows s.board p) :
    ∃ p', Shows (clickPhase mode0x115 s).board p' := by
  cases p with
  | rest o =>
      obtain ⟨-, hb | ⟨k, -, -, hdown, hb⟩⟩ :=
        clickPhase_still h.rest_still.still.isFlipping
      · rw [hb]
        exact ⟨_, h⟩
      · have ht := h.rest_still.click hdown
        rw [hb]
        refine ⟨.up o k 0, ht, fun ho => ?_, by decide⟩
        -- the open card lies face up, the clicked one face down
        have hup := (h.table.faceUp k).2 (.inr (by
          show k ∈ o.toFinset
          rw [ho]
          exact Finset.mem_singleton_self k))
        rw [hup] at hdown
        cases hdown
  | up o j k =>
      rw [clickPhase_turning
        ((h.table.turning.isFlipping j).2 (Finset.mem_singleton_self j))]
      exact ⟨_, h⟩
  | down i j k =>
      rw [clickPhase_turning
        ((h.table.turning.isFlipping i).2 (Finset.mem_insert_self i {j}))]
      exact ⟨_, h⟩

-- =========================================================== the match

/-- Updating a card to what it is changes nothing. -/
theorem setCard_self {s : State} {k : Fin 16} {f : Card → Card}
    (h : f (s.board.card k) = s.board.card k) : s.setCard k f = s := by
  unfold State.setCard
  rw [h]
  have hset : s.board.cardArray.set k (s.board.card k)
      = s.board.cardArray := by
    refine List.Vector.ext fun i => ?_
    by_cases hi : k = i
    · subst hi
      rw [List.Vector.get_set_same]
      rfl
    · rw [List.Vector.get_set_of_ne hi]
  rw [hset]

/-- A card that turns already is not started again. -/
theorem startFlipping_self {c : Card} (h : c.isFlipping = true) :
    c.startFlipping = c := by
  cases c
  simp_all [Card.startFlipping]

/-- A mismatch that is being turned down costs nothing more. -/
theorem mismatch_turning {s : State} {i j : Fin 16}
    (hi : (s.board.card i).isFlipping = true)
    (hj : (s.board.card j).isFlipping = true) : mismatch s j i = s := by
  unfold mismatch State.charged
  rw [if_neg (by rw [hj]; decide), setCard_self (startFlipping_self hj),
    setCard_self (startFlipping_self hi)]

/-- On a board that shows a phase the match check does nothing. -/
theorem matchPhase_shows {u : State} {p : Phase} (h : Shows u.board p) :
    matchPhase u = u := by
  have hone : ∀ o : Option (Fin 16),
      (∀ c, (u.board.card c).isOpen = true ↔ c ∈ o.toFinset) →
      matchRounds 16 u = u := by
    intro o ho
    refine matchRounds_single fun i j hi hj => ?_
    rw [ho, Option.mem_toFinset] at hi hj
    exact Option.mem_unique hi hj
  unfold matchPhase
  split
  · rfl
  · cases p with
    | rest o => exact hone o h.table.isOpen_iff
    | up o j k => exact hone o h.table.isOpen_iff
    | down i j k =>
        obtain ⟨hij, -, hv⟩ := h.wellFormed
        have hopen : ∀ c, (u.board.card c).isOpen = true
            ↔ c = i ∨ c = j := fun c => by
          rw [h.table.isOpen_iff c]
          show c ∈ ({i, j} : Finset (Fin 16)) ↔ _
          rw [Finset.mem_insert, Finset.mem_singleton]
        rw [matchRounds_pair hij hopen]
        unfold judged
        rw [if_neg (Ne.symm hv)]
        exact mismatch_turning
          ((h.table.turning.isFlipping i).2 (Finset.mem_insert_self i {j}))
          ((h.table.turning.isFlipping j).2 (by simp [Phase.turning]))

/-- Two open cards, in board order. -/
theorem matchPhase_pair {u : State} {f g : Fin 16} {T : Finset (Fin 16)}
    {facing : Bool} {p : Int × Int} (hne : f ≠ g)
    (h : Table u.board {f, g} T facing p)
    (hany : u.isAnyCardFlipping = false) :
    ∃ i j, i < j ∧ ((i = f ∧ j = g) ∨ (i = g ∧ j = f))
      ∧ matchPhase u = judged u j i := by
  have hopen : ∀ c, (u.board.card c).isOpen = true ↔ c = f ∨ c = g :=
    fun c => by
      rw [h.isOpen_iff c, Finset.mem_insert, Finset.mem_singleton]
  unfold matchPhase
  rw [hany, if_neg (by decide)]
  rcases Fin.lt_or_lt_of_ne hne with hlt | hlt
  · exact ⟨f, g, hlt, .inl ⟨rfl, rfl⟩, matchRounds_pair hlt hopen⟩
  · refine ⟨g, f, hlt, .inr ⟨rfl, rfl⟩, matchRounds_pair hlt fun c => ?_⟩
    rw [hopen c, or_comm]

/-- Matching the open pair clears the table. -/
theorem Table.matched {u : State} {i j : Fin 16} {T : Finset (Fin 16)}
    {facing : Bool} {p : Int × Int}
    (h : Table u.board {i, j} T facing p) (hT : ∀ c ∈ T, c ≠ i ∧ c ≠ j) :
    Table (Proj.matched u j i).board ∅ T facing p := by
  have hcard := matched_card u j i
  have hpair : ∀ c, c = j ∨ c = i ↔ c ∈ ({i, j} : Finset (Fin 16)) := by
    intro c
    rw [Finset.mem_insert, Finset.mem_singleton, or_comm]
  refine ⟨⟨fun c => ?_, fun c hc => ?_, h.turning.width,
    h.turning.otherSide⟩, fun c => ?_, fun c hc => ?_⟩
  · rw [hcard c]
    split <;> exact h.turning.isFlipping c
  · rw [hcard c]
    split <;> exact h.turning.isFlipped c hc
  · rw [hcard c]
    by_cases hc : c = j ∨ c = i
    · rw [if_pos hc]
      have hup := (h.faceUp c).2 (.inr ((hpair c).1 hc))
      exact iff_of_true hup (.inl rfl)
    · rw [if_neg hc, h.faceUp c, ← hpair c]
      simp [hc]
  · rcases hc with hc | hc
    · exact absurd hc (Finset.notMem_empty c)
    · obtain ⟨hci, hcj⟩ := hT c hc
      rw [hcard c, if_neg (by simp [hci, hcj])]
      exact h.unmatched c (.inr hc)

/-- A match leaves nothing open, and at most one card turning. -/
theorem shows_match {u : State} {i j : Fin 16} {T : Finset (Fin 16)}
    (h : Table u.board {i, j} T true (1, 0))
    (hT : T = ∅ ∨ ∃ k, T = {k} ∧ k ∉ ({i, j} : Finset (Fin 16))) :
    ∃ p, Shows (matched u j i).board p := by
  rcases hT with rfl | ⟨k, rfl, hk⟩
  · exact ⟨.rest none, shows_rest (o := none) (h.matched (by simp))⟩
  · refine ⟨.up none k 0, h.matched (fun c hc => ?_), by simp, by decide⟩
    rw [Finset.mem_singleton] at hc
    rw [Finset.mem_insert, Finset.mem_singleton, not_or] at hk
    rw [hc]
    exact hk

/-- A mismatch sends the open pair back. -/
theorem shows_mismatch {u : State} {i j : Fin 16} (hij : i < j)
    (h : Table u.board {i, j} ∅ true (1, 0))
    (hv : (u.board.card i).value ≠ (u.board.card j).value) :
    Shows (mismatch u j i).board (.down i j 0) := by
  have hcard := mismatch_card u j i
  have hf := mismatch_frame u j i
  have hpair : ∀ c, c = j ∨ c = i ↔ c ∈ ({i, j} : Finset (Fin 16)) := by
    intro c
    rw [Finset.mem_insert, Finset.mem_singleton, or_comm]
  have hfs : ∀ c, ((mismatch u j i).board.card c).flipSuccess
      = (u.board.card c).flipSuccess := fun c => by
    rw [hcard c]
    split <;> rfl
  refine ⟨⟨⟨fun c => ?_, fun c hc => ?_, ?_, fun c => ?_⟩, fun c => ?_,
    fun c hc => ?_⟩, hij, by decide, ?_⟩
  · rw [hcard c]
    show _ ↔ c ∈ ({i, j} : Finset (Fin 16))
    rw [← hpair c]
    by_cases hc : c = j ∨ c = i
    · rw [if_pos hc]
      exact iff_of_true rfl hc
    · rw [if_neg hc]
      have hstill := h.still.isFlipping c
      rw [hstill]
      simp [hc]
  · rw [hf.isFlipped c]
    exact (h.faceUp c).2 (.inr hc)
  · exact hf.increaseWidth.trans h.turning.width
  · rw [hf.otherSide, h.still.otherSide c]
    simp [Phase.calls, spinning_zero]
  · rw [hf.isFlipped c, hfs c]
    exact h.faceUp c
  · rw [hfs c]
    exact h.unmatched c (.inl (hc.elim id id))
  · rw [hf.value i, hf.value j]
    exact hv

-- ============================================================ the tick

/-- What a playing tick does to the phase, the lives and the count of
revealed pairs: either nothing is charged and nothing revealed, or one
pair is revealed, sent back and charged. -/
def PlayOutcome (t u : State) (p : Phase) : Prop :=
  ((matchPhase u).p1 = u.p1 ∧ (matchPhase u).gameOver = u.gameOver
      ∧ newMismatches t.board (matchPhase u).board = 0)
    ∨ ∃ i j, p = .down i j 0 ∧ matchPhase u = mismatch u j i
      ∧ (u.board.card j).isFlipping = false
      ∧ newMismatches t.board (matchPhase u).board = 1

/-- A tick whose draw leaves a phase. -/
theorem play_of_shows {t s : State} {p : Phase}
    (h : Shows s.board p) (hzero : newMismatches t.board s.board = 0) :
    ∃ p', Shows (matchPhase (clickPhase mode0x115 s)).board p'
      ∧ PlayOutcome t (clickPhase mode0x115 s) p' := by
  obtain ⟨p', hp'⟩ := clickPhase_shows h
  have hm := matchPhase_shows hp'
  refine ⟨p', by rw [hm]; exact hp', .inl ⟨by rw [hm], by rw [hm], ?_⟩⟩
  rw [hm, newMismatches_congr (clickPhase_isFlipped mode0x115 s)]
  exact hzero

/-- The tick that opens a mismatching pair under a held button, with a
third card under the cursor, is the one `noSlip` excludes. -/
theorem PairOpens.slips {t s : State} {f g k : Fin 16}
    (h : PairOpens t.board s.board f g)
    (hev : t.tmrTckCounter % 2 = 0) (hlb : t.lb = true)
    (hv : (t.board.card f).value ≠ (t.board.card g).value)
    (hon : onCard mode0x115 t.mouse k = true)
    (hk : (s.board.card k).isFlipped = true) : ThirdCardSlips t := by
  have hg : g ∈ ({g} : Finset (Fin 16)) := Finset.mem_singleton_self g
  have hturn : Turning t.board {g} true (1, 1) := by
    have hframe : spinning ({g} : Finset (Fin 16)).card 20 = (1, 1) := by
      rw [Finset.card_singleton]
      decide
    rw [← hframe]
    exact h.before.table.turning
  have hkg : k ∉ ({g} : Finset (Fin 16)) := by
    intro hmem
    have hup := (h.table.faceUp k).2 (.inr (by
      rw [Finset.mem_singleton] at hmem
      simp [hmem]))
    rw [hup] at hk
    cases hk
  have hkcard : s.board.card k = t.board.card k := by
    rw [h.landed.card k, if_neg hkg]
  refine ⟨hev, hlb, hturn.width, g, ⟨?_, ?_, ?_⟩, ⟨f, ?_, ?_, hv⟩,
    k, hon, ?_, ?_⟩
  · exact (hturn.isFlipping g).2 hg
  · exact hturn.isFlipped g hg
  · rw [hturn.otherSide g, if_pos hg]
    decide
  · exact (h.before.table.faceUp f).2 (.inr (Finset.mem_singleton_self f))
  · exact h.before.table.unmatched f (.inl (Finset.mem_singleton_self f))
  · rw [← hkcard]
    exact hk
  · exact hturn.not_flipping hkg

/-- A click beside the open pair starts nothing, or a third card; if the
pair does not match, that is the excluded tick. -/
theorem PairOpens.click {t s : State} {f g : Fin 16}
    (h : PairOpens t.board s.board f g) (hev : t.tmrTckCounter % 2 = 0)
    (hlb : s.lb = t.lb) (hmouse : s.mouse = t.mouse) :
    ∃ T, Table (clickPhase mode0x115 s).board {f, g} T true (1, 0)
      ∧ (T = ∅ ∨ ∃ k, T = {k} ∧ k ∉ ({f, g} : Finset (Fin 16))
        ∧ ((t.board.card f).value ≠ (t.board.card g).value →
          ThirdCardSlips t)) := by
  rcases (clickPhase_still h.table.still.isFlipping).2
    with hb | ⟨k, hdown, hon, hk, hb⟩
  · rw [hb]
    exact ⟨∅, h.table, .inl rfl⟩
  · have hne : k ∉ ({f, g} : Finset (Fin 16)) := by
      intro hmem
      have hup := (h.table.faceUp k).2 (.inr hmem)
      rw [hup] at hk
      cases hk
    rw [hb]
    refine ⟨{k}, h.table.click hk, .inr ⟨k, rfl, hne, fun hv => ?_⟩⟩
    exact h.slips hev (hlb ▸ hdown) hv (hmouse ▸ hon) hk

/-- The click turns no value over. -/
theorem PairOpens.value {t s : State} {f g : Fin 16}
    (h : PairOpens t.board s.board f g) (c : Fin 16) :
    ((clickPhase mode0x115 s).board.card c).value
      = (t.board.card c).value := by
  have hmarks := (clickPhase_frame mode0x115 s).2.2.2.2.2.2
  rw [(hmarks c).1, h.landed.card c]
  split <;> rfl

/-- The pair counts as revealed in this tick, unless it matches. -/
theorem PairOpens.reveals {t s : State} {f g : Fin 16}
    (h : PairOpens t.board s.board f g) :
    newMismatches t.board (matchPhase (clickPhase mode0x115 s)).board
      = if (t.board.card f).value = (t.board.card g).value then 0
        else 1 := by
  rw [← h.revealed]
  refine newMismatches_congr fun c => ?_
  rw [(matchPhase_frame _).isFlipped c, clickPhase_isFlipped]

/-- A tick whose draw opens a pair. -/
theorem play_of_pair {t s : State} {f g : Fin 16}
    (h : PairOpens t.board s.board f g) (hev : t.tmrTckCounter % 2 = 0)
    (hlb : s.lb = t.lb) (hmouse : s.mouse = t.mouse)
    (hok : ¬ThirdCardSlips t) :
    ∃ p', Shows (matchPhase (clickPhase mode0x115 s)).board p'
      ∧ PlayOutcome t (clickPhase mode0x115 s) p' := by
  obtain ⟨hany, -⟩ := clickPhase_still h.table.still.isFlipping
  obtain ⟨T, htable, hT⟩ := h.click hev hlb hmouse
  obtain ⟨i, j, hij, hfg, hm⟩ := matchPhase_pair h.ne htable hany
  have hpair : ({f, g} : Finset (Fin 16)) = {i, j} := by
    rcases hfg with ⟨rfl, rfl⟩ | ⟨rfl, rfl⟩
    · rfl
    · exact Finset.pair_comm _ _
  have hiff : ((clickPhase mode0x115 s).board.card j).value
        = ((clickPhase mode0x115 s).board.card i).value
      ↔ (t.board.card f).value = (t.board.card g).value := by
    rw [h.value, h.value]
    rcases hfg with ⟨rfl, rfl⟩ | ⟨rfl, rfl⟩
    · exact eq_comm
    · exact Iff.rfl
  rw [hpair] at htable hT
  have hreveals := h.reveals
  by_cases hv : (t.board.card f).value = (t.board.card g).value
  · -- a match: both cards leave the game, whatever was clicked
    rw [if_pos hv] at hreveals
    have hm : matchPhase (clickPhase mode0x115 s)
        = matched (clickPhase mode0x115 s) j i :=
      hm.trans (if_pos (hiff.2 hv))
    obtain ⟨p', hp'⟩ := shows_match htable
      (hT.imp_right fun ⟨k, hk, hne, _⟩ => ⟨k, hk, hne⟩)
    refine ⟨p', by rw [hm]; exact hp', .inl ⟨?_, ?_, hreveals⟩⟩
    · rw [hm]
      rfl
    · rw [hm]
      rfl
  · -- a mismatch: the guard rules the click out
    rw [if_neg hv] at hreveals
    have hm : matchPhase (clickPhase mode0x115 s)
        = mismatch (clickPhase mode0x115 s) j i :=
      hm.trans (if_neg fun he => hv (hiff.1 he))
    rcases hT with rfl | ⟨k, -, -, hslip⟩
    · refine ⟨.down i j 0, ?_, .inr ⟨i, j, rfl, hm, ?_, hreveals⟩⟩
      · rw [hm]
        exact shows_mismatch hij htable fun he => hv (hiff.1 he.symm)
      · exact htable.still.isFlipping j
    · exact absurd (hslip hv) hok

/-- A playing tick from a board that shows a phase, let through by the
guard, ends on a board that shows one. -/
theorem play_shows {t u : State} {p : Phase} (h : Shows t.board p)
    (hok : ¬ThirdCardSlips t) (hu : playUntilMatch mode0x115 t = some u) :
    ∃ p', Shows (matchPhase u).board p' ∧ PlayOutcome t u p' := by
  obtain ⟨b, hb, rfl⟩ := playUntilMatch_eq_some hu
  obtain ⟨hsame, -, hdrv, hmouse, -⟩ := pauseKey_frame { t with board := b }
  have hlb : (pauseKey { t with board := b }).lb = t.lb := by
    unfold State.lb
    rw [hdrv]
  by_cases hev : t.tmrTckCounter % 2 = 0
  · rw [if_pos hev] at hb
    obtain ⟨b', hb', hdraw⟩ := draw_shows h
    rw [hb] at hb'
    cases hb'
    rcases hdraw with ⟨p', hp', hzero⟩ | ⟨f, g, hpair⟩
    · refine play_of_shows (p := p') ?_ ?_
      · rw [hsame.board]
        exact hp'
      · rw [hsame.board]
        exact hzero
    · refine play_of_pair (f := f) (g := g) ?_ hev hlb hmouse hok
      rw [hsame.board]
      exact hpair
  · rw [if_neg hev] at hb
    cases hb
    refine play_of_shows (p := p) ?_ ?_
    · rw [hsame.board]
      exact h
    · rw [hsame.board]
      exact newMismatches_same fun _ hj => hj

end Lcom.Proj
