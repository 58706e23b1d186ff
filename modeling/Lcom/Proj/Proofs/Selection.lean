/-
The deal, for every stream of random values.

The selection consumes the stream two values at a time, and the pairs it
has seen determine where it stands: its entries are the distinct ones
among them, in order of first occurrence (`Selected`). It therefore ends
on every stream with eight distinct pairs, as soon as the eighth has
come up. The shuffle takes fifteen more values and moves the cards
around, whatever they are.
-/
import Lcom.Proj.Proofs.Deal

namespace Lcom.Proj

-- ========================================================== the streams

/-- `n` values of the stream, from the `a`-th on. -/
def draws (r : ℕ → Rand) : ℕ → ℕ → List Rand
  | _, 0 => []
  | a, n + 1 => r a :: draws r (a + 1) n

/-- The `k`-th pair of the stream: deck row and deck column. -/
def pairAt (r : ℕ → Rand) (k : ℕ) : ℕ × ℕ :=
  ((r (2 * k)).val % 4, (r (2 * k + 1)).val % 13)

/-- The distinct ones among the first `c` pairs, in order of first
occurrence. -/
def distinctPairs (r : ℕ → Rand) (c : ℕ) : List (ℕ × ℕ) :=
  ((List.range c).map (pairAt r)).eraseDups

theorem draws_length (r : ℕ → Rand) (a n : ℕ) :
    (draws r a n).length = n := by
  induction n generalizing a with
  | zero => rfl
  | succ n ih => simp [draws, ih]

theorem mem_distinctPairs {r : ℕ → Rand} {c : ℕ} {p : ℕ × ℕ} :
    p ∈ distinctPairs r c ↔ ∃ k < c, pairAt r k = p := by
  simp [distinctPairs, List.mem_eraseDups]

/-- One more pair is appended if it is new. -/
theorem distinctPairs_succ (r : ℕ → Rand) (c : ℕ) :
    distinctPairs r (c + 1) = distinctPairs r c
      ++ if pairAt r c ∈ distinctPairs r c then [] else [pairAt r c] := by
  have hmem : pairAt r c ∈ distinctPairs r c
      ↔ pairAt r c ∈ (List.range c).map (pairAt r) := List.mem_eraseDups
  have hsplit : distinctPairs r (c + 1) = distinctPairs r c
      ++ ([pairAt r c].removeAll ((List.range c).map (pairAt r))).eraseDups := by
    unfold distinctPairs
    rw [List.range_succ, List.map_append, List.eraseDups_append]
    rfl
  rw [hsplit]
  congr 1
  unfold List.removeAll
  by_cases h : pairAt r c ∈ (List.range c).map (pairAt r)
  · rw [if_pos (hmem.2 h), List.filter_cons_of_neg (by simpa using h)]
    rfl
  · rw [if_neg fun h' => h (hmem.1 h'),
      List.filter_cons_of_pos (by simpa using h)]
    rfl

-- ======================================================== the selection

/-- The entries below `i` are the list `D`. -/
structure Selected (D : List (ℕ × ℕ)) (i : ℕ) (picks : Picks) : Prop where
  length : D.length = i
  get : ∀ j : Fin 8, j.val < i → D[j.val]? = some (picks.get j)

theorem Selected.mem_iff {D : List (ℕ × ℕ)} {i : ℕ} {picks : Picks}
    (h : Selected D i picks) (hi : i ≤ 8) {p : ℕ × ℕ} :
    p ∈ D ↔ ∃ j : Fin 8, j.val < i ∧ picks.get j = p := by
  constructor
  · intro hp
    obtain ⟨j, hj⟩ := List.mem_iff_getElem?.1 hp
    have hlt : j < i := by
      obtain ⟨hlen, -⟩ := List.getElem?_eq_some_iff.1 hj
      rwa [h.length] at hlen
    have hget := h.get ⟨j, by omega⟩ hlt
    exact ⟨⟨j, by omega⟩, hlt, Option.some.inj (hget.symm.trans hj)⟩
  · rintro ⟨j, hj, rfl⟩
    exact List.mem_of_getElem? (h.get j hj)

/-- All eight entries are the list. -/
theorem Selected.toList {D : List (ℕ × ℕ)} {picks : Picks}
    (h : Selected D 8 picks) : picks.toList = D := by
  refine List.ext_getElem? fun j => ?_
  by_cases hj : j < 8
  · rw [h.get ⟨j, hj⟩ hj, List.Vector.get_eq_get_toList]
    simp
  · rw [List.getElem?_eq_none (by simp; omega),
      List.getElem?_eq_none (by rw [h.length]; omega)]

/-- A scan that reports a repeated pair has met it. -/
theorem scanPicks_repeated {i : Fin 8} {cand : ℕ × ℕ} :
    ∀ {js : List (Fin 8)} {picks : Picks}, (∀ j ∈ js, j ≠ i) →
      (scanPicks i cand js picks).2 = true →
      ∃ j ∈ js, picks.get j = cand := by
  intro js
  induction js with
  | nil => intro picks _ h; cases h
  | cons k js ih =>
      intro picks hne h
      unfold scanPicks at h
      split at h
      next hk => exact ⟨k, List.mem_cons_self .., hk.symm⟩
      next hk =>
        obtain ⟨j, hj, hget⟩ :=
          ih (fun j hj => hne j (List.mem_cons_of_mem _ hj)) h
        have hji := hne j (List.mem_cons_of_mem _ hj)
        rw [List.Vector.get_set_of_ne (Ne.symm hji)] at hget
        exact ⟨j, List.mem_cons_of_mem _ hj, hget⟩

section

variable {D : List (ℕ × ℕ)} {i : Fin 8} {picks : Picks}

/-- A repeated candidate is in the list and leaves it. -/
theorem Selected.repeated (h : Selected D i.val picks) {cand : ℕ × ℕ}
    (hr : (scanPicks i cand
      ((List.finRange 8).filter fun j => j.val < i.val) picks).2 = true) :
    cand ∈ D ∧ Selected D i.val (scanPicks i cand
      ((List.finRange 8).filter fun j => j.val < i.val) picks).1 := by
  constructor
  · obtain ⟨j, hj, hget⟩ := scanPicks_repeated (below_ne i) hr
    exact (h.mem_iff i.isLt.le).2 ⟨j, (mem_below i j).1 hj, hget⟩
  · refine ⟨h.length, fun j hj => ?_⟩
    rw [scanPicks_frame i cand (fun he => by rw [he] at hj; omega)]
    exact h.get j hj

/-- A new candidate is not in the list and extends it. -/
theorem Selected.fresh (h : Selected D i.val picks) (hi : 1 ≤ i.val)
    {cand : ℕ × ℕ}
    (hr : (scanPicks i cand
      ((List.finRange 8).filter fun j => j.val < i.val) picks).2 = false) :
    cand ∉ D ∧ Selected (D ++ [cand]) (i.val + 1) (scanPicks i cand
      ((List.finRange 8).filter fun j => j.val < i.val) picks).1 := by
  obtain ⟨hfresh, hstored⟩ := scanPicks_accepted hi hr
  constructor
  · intro hmem
    obtain ⟨j, hj, hget⟩ := (h.mem_iff i.isLt.le).1 hmem
    exact hfresh j hj hget
  · refine ⟨by simp [h.length], fun j hj => ?_⟩
    by_cases hji : j = i
    · subst hji
      rw [hstored, ← h.length]
      simp
    · have hlt : j.val < i.val := by
        have : j.val ≠ i.val := fun he => hji (Fin.ext he)
        omega
      rw [scanPicks_frame i cand hji,
        List.getElem?_append_left (by rw [h.length]; exact hlt)]
      exact h.get j hlt

end

/-- Two values of the stream. -/
theorem draws_two (r : ℕ → Rand) {c m : ℕ} (h : 2 * (c + 1) ≤ m) :
    draws r (2 * c) (m - 2 * c)
      = r (2 * c) :: r (2 * c + 1)
        :: draws r (2 * (c + 1)) (m - 2 * (c + 1)) := by
  rw [show m - 2 * c = (m - 2 * (c + 1)) + 1 + 1 by omega]
  rfl

/-- One round of the selection moves on by one pair. -/
theorem selectCards_round (r : ℕ → Rand) {c i : ℕ} {picks : Picks}
    (hpos : 1 ≤ i) (hi : i < 8) (h : Selected (distinctPairs r c) i picks) :
    ∃ i' picks', 1 ≤ i' ∧ i' ≤ 8
      ∧ Selected (distinctPairs r (c + 1)) i' picks'
      ∧ ∀ m, 2 * (c + 1) ≤ m →
        selectCards (draws r (2 * c) (m - 2 * c)) i picks
          = selectCards (draws r (2 * (c + 1)) (m - 2 * (c + 1))) i'
            picks' := by
  have hround : ∀ m, 2 * (c + 1) ≤ m →
      selectCards (draws r (2 * c) (m - 2 * c)) i picks
        = selectCards (draws r (2 * (c + 1)) (m - 2 * (c + 1)))
          (if (scanPicks ⟨i, hi⟩ (pairAt r c)
            ((List.finRange 8).filter fun j => j.val < i) picks).2 then i
            else i + 1)
          (scanPicks ⟨i, hi⟩ (pairAt r c)
            ((List.finRange 8).filter fun j => j.val < i) picks).1 := by
    intro m hm
    rw [draws_two r hm, selectCards, dif_pos hi]
    rfl
  cases hr : (scanPicks ⟨i, hi⟩ (pairAt r c)
      ((List.finRange 8).filter fun j => j.val < i) picks).2 with
  | true =>
      obtain ⟨hmem, hsel⟩ := Selected.repeated (i := ⟨i, hi⟩) h hr
      have hnext : distinctPairs r (c + 1) = distinctPairs r c := by
        rw [distinctPairs_succ, if_pos hmem, List.append_nil]
      rw [← hnext] at hsel
      refine ⟨i, _, hpos, hi.le, hsel, fun m hm => ?_⟩
      rw [hround m hm, hr, if_pos rfl]
  | false =>
      obtain ⟨hmem, hsel⟩ := Selected.fresh (i := ⟨i, hi⟩) h hpos hr
      have hnext : distinctPairs r (c + 1)
          = distinctPairs r c ++ [pairAt r c] := by
        rw [distinctPairs_succ, if_neg hmem]
      rw [← hnext] at hsel
      refine ⟨i + 1, _, by omega, hi, hsel, fun m hm => ?_⟩
      rw [hround m hm, hr, if_neg (by decide)]

/-- The selection ends by the pair that is the eighth distinct one. -/
theorem selectCards_ends (r : ℕ → Rand) {N : ℕ}
    (hN : 8 ≤ (distinctPairs r N).length) :
    ∀ (k c i : ℕ) (picks : Picks), c + k = N → 1 ≤ i → i ≤ 8 →
      Selected (distinctPairs r c) i picks →
      ∃ c' picks', c' ≤ N ∧ Selected (distinctPairs r c') 8 picks'
        ∧ ∀ m, 2 * N ≤ m →
          selectCards (draws r (2 * c) (m - 2 * c)) i picks
            = some (picks', draws r (2 * c') (m - 2 * c')) := by
  intro k
  induction k with
  | zero =>
      intro c i picks hc _ hle h
      obtain rfl : c = N := by omega
      obtain rfl : i = 8 := by
        have := h.length
        omega
      refine ⟨c, picks, le_refl c, h, fun m _ => ?_⟩
      rw [selectCards, dif_neg (by decide)]
  | succ k ih =>
      intro c i picks hc hpos hle h
      by_cases hi : i < 8
      · obtain ⟨i', picks', hpos', hle', h', hround⟩ :=
          selectCards_round r hpos hi h
        obtain ⟨c', picks'', hc', hsel, hend⟩ :=
          ih (c + 1) i' picks' (by omega) hpos' hle' h'
        refine ⟨c', picks'', hc', hsel, fun m hm => ?_⟩
        rw [hround m (by omega), hend m hm]
      · obtain rfl : i = 8 := by omega
        refine ⟨c, picks, by omega, h, fun m _ => ?_⟩
        rw [selectCards, dif_neg (by decide)]

/-- Fifteen values are enough for the shuffle. -/
theorem shuffleCards_ends : ∀ (n i : ℕ) (rands : List Rand)
    (cards : Cards), n ≤ rands.length →
      ∃ cards' rest, shuffleCards n i rands cards = some (cards', rest) := by
  intro n
  induction n with
  | zero => intro i rands cards _; exact ⟨cards, rands, rfl⟩
  | succ n ih =>
      intro i rands cards hlen
      cases rands with
      | nil => simp at hlen
      | cons r rest => exact ih (i + 1) rest _ (by simpa using hlen)

-- ============================================================ the board

/-- A memory board of the eight picks: the cards as laid, moved around;
each pick twice; rank and suit as the deck says, all flags down; and rank
and suit tell the cards apart. -/
structure MemoryBoard (picks : Picks) (cards : Cards) : Prop where
  moved : ∃ σ : Equiv.Perm (Fin 16), ∀ k,
    cards.get k = (layCards picks).get (σ k)
  twice : ∀ i : Fin 8, (Finset.univ.filter fun k : Fin 16 =>
    (cards.get k).y = (picks.get i).1 ∧ (cards.get k).x = (picks.get i).2).card
      = 2
  value : ∀ k, (cards.get k).num = getCardNumber (cards.get k).x
    ∧ (cards.get k).suit = getCardSuit (cards.get k).y
  fresh : Fresh cards
  distinct : ∀ k l, (cards.get k).value = (cards.get l).value
    ↔ (cards.get k).x = (cards.get l).x ∧ (cards.get k).y = (cards.get l).y

/-- Each pick lies at two positions. -/
theorem card_pickAt (σ : Equiv.Perm (Fin 16)) (i : Fin 8) :
    (Finset.univ.filter fun k : Fin 16 => pickAt (σ k) = i).card = 2 := by
  have hlaid : ∀ i : Fin 8,
      (Finset.univ.filter fun k : Fin 16 => pickAt k = i).card = 2 := by
    decide
  have hmoved : (Finset.univ.filter fun k : Fin 16 => pickAt (σ k) = i)
      = (Finset.univ.filter fun k : Fin 16 => pickAt k = i).map
        σ.symm.toEmbedding := by
    ext k
    simp [Finset.mem_map_equiv]
  rw [hmoved, Finset.card_map]
  exact hlaid i

/-- Eight distinct picks, laid and moved around, are a memory board. -/
theorem memoryBoard_of_moved {picks : Picks} {cards : Cards}
    (hd : DistinctBelow 8 picks) (σ : Equiv.Perm (Fin 16))
    (hσ : ∀ k, cards.get k = (layCards picks).get (σ k)) :
    MemoryBoard picks cards := by
  have hget : ∀ k, cards.get k = dealCard (picks.get (pickAt (σ k))) := by
    intro k
    rw [hσ k, layCards_get]
  refine ⟨⟨σ, hσ⟩, fun i => ?_, fun k => ?_, fun k => ?_, fun k l => ?_⟩
  · rw [← card_pickAt σ i]
    congr 1
    ext k
    have hiff : picks.get (pickAt (σ k)) = picks.get i
        ↔ pickAt (σ k) = i :=
      ⟨hd.inj _ _ (pickAt (σ k)).isLt i.isLt, fun h => by rw [h]⟩
    rw [Finset.mem_filter, Finset.mem_filter, ← hiff, hget k, Prod.ext_iff]
    simp [dealCard]
  · rw [hget k]
    exact ⟨rfl, rfl⟩
  · rw [hget k]
    exact ⟨rfl, rfl, rfl⟩
  · rw [hget k, hget l]
    have hdeck : ∀ j, (picks.get j).1 < 4 ∧ (picks.get j).2 < 13 :=
      fun j => ⟨hd.row j j.isLt, hd.column j j.isLt⟩
    constructor
    · intro h
      rw [dealCard_value_inj (hdeck _) (hdeck _) h]
      exact ⟨rfl, rfl⟩
    · rintro ⟨hx, hy⟩
      have hpick : picks.get (pickAt (σ k)) = picks.get (pickAt (σ l)) :=
        Prod.ext (Int.ofNat_inj.1 hy) (Int.ofNat_inj.1 hx)
      rw [hpick]

theorem first_lt : 0 < 8 := by decide

/-- The arrays after the first pick. -/
def firstPick (r : ℕ → Rand) : Picks :=
  (List.Vector.replicate 8 (0, 0)).set ⟨0, first_lt⟩ (pairAt r 0)

theorem selected_first (r : ℕ → Rand) :
    Selected (distinctPairs r 1) 1 (firstPick r) := by
  refine ⟨rfl, fun j hj => ?_⟩
  obtain rfl : j = ⟨0, first_lt⟩ := Fin.ext (by simpa using hj)
  unfold firstPick
  rw [List.Vector.get_set_same]
  rfl

/-- Eight distinct pairs are all seen after finitely many. -/
theorem exists_distinctPairs {r : ℕ → Rand}
    (h : ∃ s : Finset ℕ, 8 ≤ (s.image (pairAt r)).card) :
    ∃ N, 8 ≤ (distinctPairs r N).length := by
  obtain ⟨s, hs⟩ := h
  refine ⟨s.sup id + 1, hs.trans ?_⟩
  have hsub : s.image (pairAt r)
      ⊆ (distinctPairs r (s.sup id + 1)).toFinset := by
    intro p hp
    obtain ⟨k, hk, rfl⟩ := Finset.mem_image.1 hp
    have hle : k ≤ s.sup id := Finset.le_sup (f := id) hk
    exact List.mem_toFinset.2 (mem_distinctPairs.2 ⟨k, by omega, rfl⟩)
  exact (Finset.card_le_card hsub).trans (List.toFinset_card_le _)

/-- On every stream with eight distinct pairs the selection ends with the
first eight of them, in order of first occurrence, and the deal is a
memory board of these. -/
theorem deal_memory_board (r : ℕ → Rand)
    (h : ∃ s : Finset ℕ, 8 ≤ (s.image (pairAt r)).card) :
    ∃ c picks n, picks.toList = distinctPairs r c ∧ ∀ m, n ≤ m →
      selectCards (draws r 2 (m - 2)) 1 (firstPick r)
          = some (picks, draws r (2 * c) (m - 2 * c))
        ∧ ∃ cards, initializeGameCards (draws r 0 m) = some cards
          ∧ MemoryBoard picks cards := by
  obtain ⟨N, hN⟩ := exists_distinctPairs h
  have hpos : 1 ≤ N := by
    rcases Nat.eq_zero_or_pos N with rfl | hpos
    · simp [distinctPairs] at hN
    · exact hpos
  obtain ⟨c, picks, hc, hsel, hend⟩ := selectCards_ends r hN (N - 1) 1 1
    (firstPick r) (by omega) (le_refl 1) (by decide) (selected_first r)
  refine ⟨c, picks, 2 * N + 15, hsel.toList, fun m hm => ?_⟩
  have hselect := hend m (by omega)
  refine ⟨hselect, ?_⟩
  obtain ⟨cards, rest, hshuffle⟩ := shuffleCards_ends 15 0
    (draws r (2 * c) (m - 2 * c)) (layCards picks)
    (by rw [draws_length]; omega)
  obtain ⟨σ, hσ⟩ := shuffleCards_perm 15 0 _ _ _ _ (by decide) hshuffle
  have hdraws : draws r 0 m = r 0 :: r 1 :: draws r 2 (m - 2) :=
    draws_two r (c := 0) (m := m) (by omega)
  have hdistinct : DistinctBelow 8 picks :=
    selectCards_distinct (le_refl 1) (distinctBelow_first _ _) hselect
  refine ⟨cards, ?_, memoryBoard_of_moved hdistinct σ hσ⟩
  have hfirst : firstPick r = (List.Vector.replicate 8 (0, 0)).set 0
      ((r 0).val % 4, (r 1).val % 13) := rfl
  have hselect' := hselect
  rw [hfirst] at hselect'
  rw [hdraws]
  simp only [initializeGameCards, hselect', hshuffle, Option.map_some]

/-- The numbers from zero on, one after the other. -/
def countingRands (k : ℕ) : Rand :=
  ⟨k % (randMax + 1), Nat.mod_lt k (Nat.succ_pos randMax)⟩

theorem countingRands_distinct :
    8 ≤ ((Finset.range 8).image (pairAt countingRands)).card := by
  decide

/-- The numbers from zero on deal a memory board. -/
theorem deal_memory_board_counting :
    ∃ picks cards m, initializeGameCards (draws countingRands 0 m)
        = some cards
      ∧ MemoryBoard picks cards := by
  obtain ⟨c, picks, n, -, hdeal⟩ :=
    deal_memory_board countingRands ⟨_, countingRands_distinct⟩
  obtain ⟨-, cards, hcards, hboard⟩ := hdeal n (le_refl n)
  exact ⟨picks, cards, n, hcards, hboard⟩

end Lcom.Proj
