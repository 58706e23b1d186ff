/-
The deal, for every sequence of random values it completes on.

The selection keeps the entries below its index distinct and inside the
deck (`DistinctBelow`, `selectCards_distinct`): a candidate is compared
with all of them, and a repeated one does not advance the index. The
number and suit tables are injective on the deck (`dealCard_value_inj`),
so eight distinct picks are eight distinct values, each laid at a
position and at its mirror image. The shuffle only moves cards
(`shuffleCards_perm`), its index never leaves the board.

`initializeGameCards_spec` is what the rest of the development uses: the
sixteen cards are paired, and every flag is cleared.
-/
import Lcom.Machine.Pairing
import Lcom.Proj.Game

namespace Lcom.Proj

open Machine

-- ====================================================== the selection

/-- The entries below `n` are distinct cards of the deck. -/
structure DistinctBelow (n : Nat) (picks : Picks) : Prop where
  inj : ∀ a b : Fin 8, a.val < n → b.val < n →
    picks.get a = picks.get b → a = b
  row : ∀ a : Fin 8, a.val < n → (picks.get a).1 < 4
  column : ∀ a : Fin 8, a.val < n → (picks.get a).2 < 13

/-- The scan changes entry `i` at most. -/
theorem scanPicks_frame (i : Fin 8) (cand : Nat × Nat) {a : Fin 8}
    (ha : a ≠ i) : ∀ (js : List (Fin 8)) (picks : Picks),
    (scanPicks i cand js picks).1.get a = picks.get a := by
  intro js
  induction js with
  | nil => intro picks; rfl
  | cons j js ih =>
      intro picks
      unfold scanPicks
      split
      · rfl
      · rw [ih, List.Vector.get_set_of_ne (Ne.symm ha)]

/-- A scan that reports nothing has met no entry equal to the
candidate. -/
theorem scanPicks_fresh {i : Fin 8} {cand : Nat × Nat} :
    ∀ {js : List (Fin 8)} {picks : Picks}, (∀ j ∈ js, j ≠ i) →
      (scanPicks i cand js picks).2 = false →
      ∀ j ∈ js, picks.get j ≠ cand := by
  intro js
  induction js with
  | nil => intro picks _ _ j hj; cases hj
  | cons k js ih =>
      intro picks hne h j hj
      unfold scanPicks at h
      split at h
      next => cases h
      next hk =>
        rcases List.mem_cons.1 hj with rfl | hj
        · exact fun he => hk he.symm
        · have := ih (fun j hj => hne j (List.mem_cons_of_mem _ hj)) h j hj
          rwa [List.Vector.get_set_of_ne
            (Ne.symm (hne j (List.mem_cons_of_mem _ hj)))] at this

/-- A scan over at least one entry that reports nothing has stored the
candidate. -/
theorem scanPicks_stored {i : Fin 8} {cand : Nat × Nat} :
    ∀ {js : List (Fin 8)} {picks : Picks},
      js ≠ [] ∨ picks.get i = cand →
      (scanPicks i cand js picks).2 = false →
      (scanPicks i cand js picks).1.get i = cand := by
  intro js
  induction js with
  | nil =>
      intro picks hor _
      rcases hor with h | h
      · exact absurd rfl h
      · exact h
  | cons k js ih =>
      intro picks _ h
      unfold scanPicks at h ⊢
      split at h
      next => cases h
      next hk =>
        rw [if_neg hk]
        exact ih (.inr (List.Vector.get_set_same ..)) h

theorem mem_below (i j : Fin 8) :
    j ∈ (List.finRange 8).filter (fun j => j.val < i.val)
      ↔ j.val < i.val := by
  simp

theorem below_ne (i : Fin 8) :
    ∀ j ∈ (List.finRange 8).filter (fun j => j.val < i.val), j ≠ i := by
  rintro j hj rfl
  exact Nat.lt_irrefl _ ((mem_below j j).1 hj)

/-- An accepted candidate is none of the entries before, and is stored
after them. -/
theorem scanPicks_accepted {i : Fin 8} (hi : 1 ≤ i.val) {cand : Nat × Nat}
    {picks : Picks}
    (h : (scanPicks i cand
      ((List.finRange 8).filter fun j => j.val < i.val) picks).2 = false) :
    (∀ j : Fin 8, j.val < i.val → picks.get j ≠ cand)
      ∧ (scanPicks i cand
        ((List.finRange 8).filter fun j => j.val < i.val) picks).1.get i
          = cand := by
  constructor
  · intro j hj
    exact scanPicks_fresh (below_ne i) h j ((mem_below i j).2 hj)
  · refine scanPicks_stored (.inl ?_) h
    exact List.ne_nil_of_mem ((mem_below i ⟨0, by decide⟩).2 hi)

/-- One accepted candidate extends the distinct entries by one. -/
theorem scanPicks_extends {i : Fin 8} (hi : 1 ≤ i.val) {rf rs : Nat}
    {picks : Picks} (hd : DistinctBelow i.val picks)
    (h : (scanPicks i (rf % 4, rs % 13)
      ((List.finRange 8).filter fun j => j.val < i.val) picks).2 = false) :
    DistinctBelow (i.val + 1) (scanPicks i (rf % 4, rs % 13)
      ((List.finRange 8).filter fun j => j.val < i.val) picks).1 := by
  obtain ⟨hfresh, hstored⟩ := scanPicks_accepted hi h
  have hold : ∀ a : Fin 8, a ≠ i → _ := fun a ha =>
    scanPicks_frame i (rf % 4, rs % 13) ha
      ((List.finRange 8).filter fun j => j.val < i.val) picks
  have hlt : ∀ a : Fin 8, a.val < i.val + 1 → a ≠ i → a.val < i.val := by
    intro a ha hai
    have : a.val ≠ i.val := fun he => hai (Fin.ext he)
    omega
  refine ⟨fun a b ha hb hab => ?_, fun a ha => ?_, fun a ha => ?_⟩
  · by_cases hai : a = i
    · by_cases hbi : b = i
      · rw [hai, hbi]
      · rw [hai, hstored, hold b hbi] at hab
        exact absurd hab.symm (hfresh b (hlt b hb hbi))
    · by_cases hbi : b = i
      · rw [hbi, hstored, hold a hai] at hab
        exact absurd hab (hfresh a (hlt a ha hai))
      · rw [hold a hai, hold b hbi] at hab
        exact hd.inj a b (hlt a ha hai) (hlt b hb hbi) hab
  · by_cases hai : a = i
    · rw [hai, hstored]
      exact Nat.mod_lt _ (by decide)
    · rw [hold a hai]
      exact hd.row a (hlt a ha hai)
  · by_cases hai : a = i
    · rw [hai, hstored]
      exact Nat.mod_lt _ (by decide)
    · rw [hold a hai]
      exact hd.column a (hlt a ha hai)

/-- A rejected candidate leaves the distinct entries as they were. -/
theorem scanPicks_keeps {i : Fin 8} {cand : Nat × Nat} {picks : Picks}
    {js : List (Fin 8)} (hd : DistinctBelow i.val picks) :
    DistinctBelow i.val (scanPicks i cand js picks).1 := by
  have hold : ∀ a : Fin 8, a.val < i.val →
      (scanPicks i cand js picks).1.get a = picks.get a := fun a ha =>
    scanPicks_frame i cand (fun he => by rw [he] at ha; omega) js picks
  refine ⟨fun a b ha hb hab => ?_, fun a ha => ?_, fun a ha => ?_⟩
  · rw [hold a ha, hold b hb] at hab
    exact hd.inj a b ha hb hab
  · rw [hold a ha]
    exact hd.row a ha
  · rw [hold a ha]
    exact hd.column a ha

/-- The selection ends with eight distinct cards of the deck. -/
theorem selectCards_distinct {rands rest : List Rand} {i : Nat}
    {picks picks' : Picks} (hi : 1 ≤ i) (hd : DistinctBelow i picks)
    (h : selectCards rands i picks = some (picks', rest)) :
    DistinctBelow 8 picks' := by
  fun_induction selectCards rands i picks with
  | case1 i picks hlt rf rs more r ih =>
      refine ih ?_ ?_ h
      · split <;> omega
      · by_cases hr : r.2 = true
        · rw [if_pos hr]
          exact scanPicks_keeps (i := ⟨i, hlt⟩) hd
        · rw [if_neg hr]
          exact scanPicks_extends (i := ⟨i, hlt⟩) hi hd
            (Bool.eq_false_iff.2 hr)
  | case2 => cases h
  | case3 rands i picks hge =>
      cases h
      exact ⟨fun a b _ _ => hd.inj a b (by omega) (by omega),
        fun a _ => hd.row a (by omega), fun a _ => hd.column a (by omega)⟩

-- ======================================================== the values

/-- Number and suit tell two cards of the deck apart. -/
theorem dealCard_value_inj {p q : Nat × Nat} (hp : p.1 < 4 ∧ p.2 < 13)
    (hq : q.1 < 4 ∧ q.2 < 13)
    (h : (dealCard p).value = (dealCard q).value) : p = q := by
  have hnum : ∀ a b : Fin 13,
      getCardNumber a.val = getCardNumber b.val → a = b := by decide
  have hsuit : ∀ a b : Fin 4,
      getCardSuit a.val = getCardSuit b.val → a = b := by decide
  obtain ⟨h1, h2⟩ := Prod.mk.inj h
  have e1 := hsuit ⟨p.1, hp.1⟩ ⟨q.1, hq.1⟩ h2
  have e2 := hnum ⟨p.2, hp.2⟩ ⟨q.2, hq.2⟩ h1
  exact Prod.ext (congrArg Fin.val e1) (congrArg Fin.val e2)

theorem layCards_get (picks : Picks) (k : Fin 16) :
    (layCards picks).get k = dealCard (picks.get (pickAt k)) := by
  unfold layCards
  rw [List.Vector.get_ofFn]

/-- Two positions hold the same pick exactly when they are equal or
mirror images. -/
theorem pickAt_eq_iff : ∀ i j : Fin 16,
    pickAt j = pickAt i ↔ j = i ∨ j = Fin.rev i := by
  decide

/-- The cards as laid are paired. -/
theorem layCards_paired {picks : Picks} (hd : DistinctBelow 8 picks) :
    Paired fun k => ((layCards picks).get k).value := by
  refine paired_of_twin (τ := Fin.rev) (by decide) fun i j => ?_
  rw [← pickAt_eq_iff, layCards_get, layCards_get]
  constructor
  · intro h
    refine hd.inj _ _ (pickAt j).isLt (pickAt i).isLt ?_
    exact dealCard_value_inj
      ⟨hd.row _ (pickAt j).isLt, hd.column _ (pickAt j).isLt⟩
      ⟨hd.row _ (pickAt i).isLt, hd.column _ (pickAt i).isLt⟩ h
  · intro h
    rw [h]

-- ======================================================= the shuffle

/-- The shuffle never picks an index outside the board. -/
theorem shuffleIndex_lt {i : Nat} (hi : i < 16) (r : Rand) :
    shuffleIndex i r.val < 16 := by
  have hr : r.val < (16 - i) * (randMax / (16 - i) + 1) :=
    calc r.val < randMax + 1 := r.isLt
      _ ≤ (16 - i) * (randMax / (16 - i) + 1) :=
        Nat.lt_mul_div_succ randMax (by omega)
  have hq : r.val / (randMax / (16 - i) + 1) < 16 - i :=
    Nat.div_lt_of_lt_mul (by rwa [Nat.mul_comm])
  unfold shuffleIndex
  omega

/-- One swap moves the cards by a transposition. -/
theorem swapCards_perm {i j : Nat} (hi : i < 16) (hj : j < 16)
    (cards : Cards) (k : Fin 16) :
    (swapCards cards i j).get k
      = cards.get (Equiv.swap ⟨i, hi⟩ ⟨j, hj⟩ k) := by
  unfold swapCards
  rw [dif_pos ⟨hi, hj⟩, List.Vector.get_ofFn]

/-- The shuffle moves the cards by a permutation. -/
theorem shuffleCards_perm : ∀ (n i : Nat) (rands rest : List Rand)
    (cards cards' : Cards), i + n ≤ 16 →
      shuffleCards n i rands cards = some (cards', rest) →
      ∃ σ : Equiv.Perm (Fin 16), ∀ k, cards'.get k = cards.get (σ k) := by
  intro n
  induction n with
  | zero =>
      intro i rands rest cards cards' _ h
      cases h
      exact ⟨1, fun _ => rfl⟩
  | succ n ih =>
      intro i rands rest cards cards' hin h
      cases rands with
      | nil => cases h
      | cons r more =>
          have hi : i < 16 := by omega
          obtain ⟨σ, hσ⟩ := ih (i + 1) more rest _ cards' (by omega) h
          refine ⟨σ.trans (Equiv.swap ⟨i, hi⟩ ⟨_, shuffleIndex_lt hi r⟩),
            fun k => ?_⟩
          rw [hσ k, swapCards_perm hi (shuffleIndex_lt hi r)]
          rfl

-- ========================================================== the deal

/-- Every flag is cleared: face up, not turning, not matched. -/
def Fresh (cards : Cards) : Prop :=
  ∀ i, (cards.get i).isFlipped = false ∧ (cards.get i).isFlipping = false
    ∧ (cards.get i).flipSuccess = false

/-- The first pick alone is distinct. -/
theorem distinctBelow_first (rf rs : Nat) :
    DistinctBelow 1 ((List.Vector.replicate 8 (0, 0)).set 0
      (rf % 4, rs % 13)) := by
  have hzero : ∀ a : Fin 8, a.val < 1 → a = 0 := by decide
  refine ⟨fun a b ha hb _ => ?_, fun a ha => ?_, fun a ha => ?_⟩
  · rw [hzero a ha, hzero b hb]
  · rw [hzero a ha, List.Vector.get_set_same]
    exact Nat.mod_lt _ (by decide)
  · rw [hzero a ha, List.Vector.get_set_same]
    exact Nat.mod_lt _ (by decide)

/-- A completed deal: eight values, each at two positions, and every
flag cleared. -/
theorem initializeGameCards_spec {rands : List Rand} {cards : Cards}
    (h : initializeGameCards rands = some cards) :
    Paired (fun i => (cards.get i).value) ∧ Fresh cards := by
  unfold initializeGameCards at h
  split at h
  next rf rs rest =>
    split at h
    next picks rest' hsel =>
      obtain ⟨⟨cards', rest''⟩, hshuf, rfl⟩ := Option.map_eq_some_iff.1 h
      have hd := selectCards_distinct (Nat.le_refl 1)
        (distinctBelow_first rf.val rs.val) hsel
      obtain ⟨σ, hσ⟩ := shuffleCards_perm 15 0 _ _ _ _ (by decide) hshuf
      refine ⟨?_, fun i => ?_⟩
      · have hp := (layCards_paired hd).comp σ
        have he : (fun i => (cards'.get i).value)
            = (fun k => ((layCards picks).get k).value) ∘ σ := by
          funext i
          exact congrArg Card.value (hσ i)
        show Paired fun i => (cards'.get i).value
        rw [he]
        exact hp
      · show (cards'.get i).isFlipped = false ∧ _
        rw [hσ i, layCards_get]
        exact ⟨rfl, rfl, rfl⟩
    next => cases h
  next => cases h

/-- Random values that pick the first eight cards of the first deck row
in order and leave them where they are laid. -/
def orderedRands : List Rand :=
  [0, 0, 0, 1, 0, 2, 0, 3, 0, 4, 0, 5, 0, 6, 0, 7] ++ List.replicate 15 0

/-- The board they deal: position `i` and position `15 - i` hold the
`i`-th card of the row. -/
def orderedCards : Cards := layCards (.ofFn fun i => (0, i.val))

theorem orderedRands_deal :
    initializeGameCards orderedRands = some orderedCards := by
  decide +kernel

end Lcom.Proj
