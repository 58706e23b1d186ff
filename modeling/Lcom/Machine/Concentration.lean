/-
The game of pairs, on any set of cards.

A `Position` is what a player keeps in mind: the cards taken, the card
that lies open, the lives left. A turn brings up one card. Beside no
open card it stays open; beside an open card of its value both are
taken; beside any other both go back and a life is lost.

A line of play is a list of cards. It is legal if every card it brings
up lies face down, and no turn is made after the last life
(`Position.Legal`). Two things follow for every legal line, whatever the
values are:

- each turn is paid for, by half a taken pair, half a life, or the card
  that lies open, so the length of the line is known from the position
  it ends in (`Kept`), and no line is longer than the cards and two for
  every life but the last (`Kept.bound`);
- as long as a life is left the game can be won without losing another,
  if every value occurs on two cards (`exists_winning`).
-/
import Lcom.Machine.Pairing
import Lcom.Machine.Reach

namespace Lcom.Machine

variable {κ ν : Type*}

-- ========================================================== the rules

/-- Where a game stands. -/
@[ext] structure Position (κ : Type*) where
  taken : Finset κ
  opened : Option κ
  lives : Nat

/-- Nothing taken, nothing open. -/
def Position.fresh (lives : Nat) : Position κ :=
  { taken := ∅, opened := none, lives := lives }

/-- A life is left and the card lies face down. -/
structure Position.Allows (g : Position κ) (k : κ) : Prop where
  alive : 0 < g.lives
  untaken : k ∉ g.taken
  closed : g.opened ≠ some k

variable [DecidableEq κ] [DecidableEq ν]

instance (g : Position κ) (k : κ) : Decidable (g.Allows k) :=
  decidable_of_iff (0 < g.lives ∧ k ∉ g.taken ∧ g.opened ≠ some k)
    ⟨fun h => ⟨h.1, h.2.1, h.2.2⟩, fun h => ⟨h.1, h.2, h.3⟩⟩

/-- One card comes up. -/
def Position.turnUp (value : κ → ν) (g : Position κ) (k : κ) :
    Position κ :=
  match g.opened with
  | none => { g with opened := some k }
  | some f =>
      if value f = value k then
        { g with taken := insert f (insert k g.taken), opened := none }
      else { g with opened := none, lives := g.lives - 1 }

/-- Every card of the line is allowed when it comes up. -/
def Position.Legal (value : κ → ν) (g : Position κ) (ks : List κ) : Prop :=
  Through (Position.turnUp value) Position.Allows g ks

instance Position.decidableLegal (value : κ → ν) :
    ∀ (g : Position κ) (ks : List κ), Decidable (g.Legal value ks)
  | _, [] => inferInstanceAs (Decidable True)
  | g, k :: ks =>
      have := Position.decidableLegal value (g.turnUp value k) ks
      inferInstanceAs (Decidable (g.Allows k ∧ Position.Legal value _ ks))

/-- The position a line leads to. -/
def Position.after (value : κ → ν) (g : Position κ) (ks : List κ) :
    Position κ :=
  ks.foldl (Position.turnUp value) g

section

variable {value : κ → ν} {g : Position κ} {f k : κ}

theorem Position.turnUp_first (h : g.opened = none) :
    g.turnUp value k = { g with opened := some k } := by
  unfold Position.turnUp
  rw [h]

theorem Position.turnUp_match (h : g.opened = some f)
    (hv : value f = value k) :
    g.turnUp value k
      = { g with taken := insert f (insert k g.taken), opened := none } := by
  unfold Position.turnUp
  rw [h]
  exact if_pos hv

theorem Position.turnUp_mismatch (h : g.opened = some f)
    (hv : value f ≠ value k) :
    g.turnUp value k = { g with opened := none, lives := g.lives - 1 } := by
  unfold Position.turnUp
  rw [h]
  exact if_neg hv

/-- A line in two parts. -/
theorem Position.legal_append {ks js : List κ} :
    g.Legal value (ks ++ js)
      ↔ g.Legal value ks ∧ (g.after value ks).Legal value js := by
  induction ks generalizing g with
  | nil =>
      show _ ↔ True ∧ _
      rw [true_and]
      rfl
  | cons i ks ih =>
      show g.Allows i ∧ Position.Legal value (g.turnUp value i) (ks ++ js)
        ↔ (g.Allows i ∧ Position.Legal value (g.turnUp value i) ks) ∧ _
      rw [ih, and_assoc]
      rfl

theorem Position.after_append {ks js : List κ} :
    g.after value (ks ++ js) = (g.after value ks).after value js :=
  List.foldl_append

/-- A line that ends with `k` is a line after which `k` is allowed. -/
theorem Position.legal_concat {ks : List κ} :
    g.Legal value (ks ++ [k])
      ↔ g.Legal value ks ∧ (g.after value ks).Allows k := by
  rw [Position.legal_append]
  refine and_congr_right fun _ => ?_
  show (g.after value ks).Allows k ∧ True ↔ _
  rw [and_true]

theorem Position.after_concat {ks : List κ} :
    g.after value (ks ++ [k]) = (g.after value ks).turnUp value k :=
  Position.after_append

end

-- ======================================================= the accounts

/-- The account of a line of `n` turns that started with `lives` lives:
an open card is not taken, a lost game leaves two cards untaken, and
every turn is paid for. -/
structure Position.Kept (lives n : Nat) (g : Position κ) : Prop where
  spent : g.lives ≤ lives
  aside : ∀ f, g.opened = some f → f ∉ g.taken
  lost : g.lives = 0 →
    g.opened = none ∧ ∃ i j, i ≠ j ∧ i ∉ g.taken ∧ j ∉ g.taken
  count : n = g.taken.card + 2 * (lives - g.lives) + g.opened.toFinset.card

omit [DecidableEq κ] in
theorem Position.kept_fresh {lives : Nat} (h : 0 < lives) :
    Position.Kept lives 0 (Position.fresh lives : Position κ) := by
  refine ⟨Nat.le_refl _, fun f hf => ?_, fun hz => ?_, ?_⟩
  · cases hf
  · exact absurd hz (Nat.ne_of_gt h)
  · simp [Position.fresh]

/-- One turn, first card, match or mismatch. -/
theorem Position.Kept.turnUp {value : κ → ν} {lives n : Nat}
    {g : Position κ} {k : κ} (h : g.Kept lives n) (hk : g.Allows k) :
    (g.turnUp value k).Kept lives (n + 1) := by
  have hcount := h.count
  have halive := hk.alive
  have hspent := h.spent
  cases ho : g.opened with
  | none =>
      rw [Position.turnUp_first ho]
      rw [ho] at hcount
      refine ⟨h.spent, fun f hf => ?_, fun hz => ?_, ?_⟩
      · cases hf
        exact hk.untaken
      · exact absurd hz (Nat.ne_of_gt halive)
      · simp only [Option.toFinset_none, Finset.card_empty] at hcount
        simp only [Option.toFinset_some, Finset.card_singleton]
        omega
  | some f =>
      rw [ho] at hcount
      simp only [Option.toFinset_some, Finset.card_singleton] at hcount
      have hne : f ≠ k := fun he => hk.closed (by rw [ho, he])
      have hf := h.aside f ho
      by_cases hv : value f = value k
      · rw [Position.turnUp_match ho hv]
        refine ⟨h.spent, fun i hi => ?_, fun hz => ?_, ?_⟩
        · cases hi
        · exact absurd hz (Nat.ne_of_gt halive)
        · dsimp only
          rw [Finset.card_insert_of_notMem, Finset.card_insert_of_notMem]
          · simp only [Option.toFinset_none, Finset.card_empty]
            omega
          · exact hk.untaken
          · rw [Finset.mem_insert, not_or]
            exact ⟨hne, hf⟩
      · rw [Position.turnUp_mismatch ho hv]
        refine ⟨by dsimp only; omega, fun i hi => ?_, fun _ => ?_, ?_⟩
        · cases hi
        · exact ⟨rfl, f, k, hne, hf, hk.untaken⟩
        · simp only [Option.toFinset_none, Finset.card_empty]
          omega

/-- The account of a legal line. -/
theorem Position.Legal.kept {value : κ → ν} {lives : Nat} {ks : List κ} :
    ∀ {n : Nat} {g : Position κ}, g.Kept lives n → g.Legal value ks →
      (g.after value ks).Kept lives (n + ks.length) := by
  induction ks with
  | nil => intro n g h _; exact h
  | cons k ks ih =>
      intro n g h hl
      rw [List.length_cons, ← Nat.add_assoc, Nat.add_right_comm]
      exact ih (h.turnUp hl.1) hl.2

/-- No line is longer than the cards and two turns for every life but
the last. -/
theorem Position.Kept.bound [Fintype κ] {lives n : Nat} {g : Position κ}
    (h : g.Kept lives n) (hl : 0 < lives) :
    n ≤ Fintype.card κ + 2 * (lives - 1) := by
  have hcount := h.count
  have hspent := h.spent
  by_cases hz : g.lives = 0
  · obtain ⟨ho, i, j, hij, hi, hj⟩ := h.lost hz
    have hsub : insert i (insert j g.taken) ⊆ Finset.univ :=
      Finset.subset_univ _
    have hcard := Finset.card_le_card hsub
    rw [Finset.card_insert_of_notMem (by simp [hij, hi]),
      Finset.card_insert_of_notMem hj, Finset.card_univ] at hcard
    rw [ho] at hcount
    simp only [Option.toFinset_none, Finset.card_empty] at hcount
    omega
  · cases ho : g.opened with
    | none =>
        have hcard := Finset.card_le_univ g.taken
        rw [ho] at hcount
        simp only [Option.toFinset_none, Finset.card_empty] at hcount
        omega
    | some f =>
        have hcard := Finset.card_le_univ (insert f g.taken)
        rw [Finset.card_insert_of_notMem (h.aside f ho)] at hcard
        rw [ho] at hcount
        simp only [Option.toFinset_some, Finset.card_singleton] at hcount
        omega

-- ======================================================== to the end

/-- The position of a game that keeps twins together. -/
structure Position.Fair (value : κ → ν) (g : Position κ) : Prop where
  twins : TwinClosed value fun i => decide (i ∈ g.taken)
  aside : ∀ f, g.opened = some f → f ∉ g.taken

omit [DecidableEq ν] in
/-- The twin of an untaken card is untaken. -/
theorem Position.Fair.twin {value : κ → ν} {g : Position κ}
    (h : g.Fair value) {i j : κ} (hv : value j = value i)
    (hi : i ∉ g.taken) : j ∉ g.taken := by
  intro hj
  have htwin := h.twins j i hv.symm (decide_eq_true hj)
  exact hi (of_decide_eq_true htwin)

/-- Taking a pair keeps twins together. -/
theorem Position.Fair.take {value : κ → ν} (hp : Paired value)
    {g : Position κ} (h : g.Fair value) {f k : κ}
    (ho : g.opened = some f) (hne : f ≠ k) (hv : value f = value k) :
    (g.turnUp value k).Fair value := by
  rw [Position.turnUp_match ho hv]
  refine ⟨?_, fun i hi => by cases hi⟩
  refine h.twins.mark hp hne hv fun i => ?_
  simp only [decide_eq_true_eq, Finset.mem_insert]
  tauto

/-- Beside an open card its twin may come up, and takes both. -/
theorem Position.Fair.match {value : κ → ν} (hp : Paired value)
    {g : Position κ} (h : g.Fair value) (hl : 0 < g.lives) {f : κ}
    (ho : g.opened = some f) :
    ∃ k, g.Allows k
      ∧ g.turnUp value k
        = { g with taken := insert f (insert k g.taken), opened := none }
      ∧ (g.turnUp value k).Fair value := by
  obtain ⟨k, ⟨hkf, hv⟩, -⟩ := hp f
  refine ⟨k, ⟨hl, h.twin hv (h.aside f ho), ?_⟩,
    Position.turnUp_match ho hv.symm, h.take hp ho (Ne.symm hkf) hv.symm⟩
  rw [ho]
  exact fun he => hkf (Option.some.inj he).symm

/-- A first card may come up as long as one is untaken. -/
theorem Position.Fair.first {value : κ → ν} {g : Position κ}
    (h : g.Fair value) (hl : 0 < g.lives) (ho : g.opened = none) {i : κ}
    (hi : i ∉ g.taken) :
    g.Allows i ∧ g.turnUp value i = { g with opened := some i }
      ∧ (g.turnUp value i).Fair value := by
  have hturn : g.turnUp value i = { g with opened := some i } :=
    Position.turnUp_first ho
  refine ⟨⟨hl, hi, by rw [ho]; exact nofun⟩, hturn, ?_⟩
  rw [hturn]
  refine ⟨h.twins, fun f hf => ?_⟩
  cases hf
  exact hi

/-- A turn keeps twins together. -/
theorem Position.Fair.turnUp {value : κ → ν} (hp : Paired value)
    {g : Position κ} (h : g.Fair value) {k : κ} (hk : g.Allows k) :
    (g.turnUp value k).Fair value := by
  cases ho : g.opened with
  | none => exact (h.first hk.alive ho hk.untaken).2.2
  | some f =>
      have hne : f ≠ k := fun he => hk.closed (by rw [ho, he])
      by_cases hv : value f = value k
      · exact h.take hp ho hne hv
      · rw [Position.turnUp_mismatch ho hv]
        exact ⟨h.twins, fun i hi => by cases hi⟩

/-- A legal line keeps twins together. -/
theorem Position.Legal.fair {value : κ → ν} (hp : Paired value)
    {ks : List κ} : ∀ {g : Position κ}, g.Fair value → g.Legal value ks →
      (g.after value ks).Fair value := by
  induction ks with
  | nil => intro g h _; exact h
  | cons k ks ih => intro g h hl; exact ih (h.turnUp hp hl.1) hl.2

omit [DecidableEq ν] in
theorem Position.fair_fresh {value : κ → ν} (lives : Nat) :
    Position.Fair value (Position.fresh lives) := by
  refine ⟨fun i j _ hi => ?_, fun f hf => by cases hf⟩
  simp [Position.fresh] at hi

/-- While a life is left every card can be taken at no further cost. -/
theorem exists_winning [Fintype κ] {value : κ → ν} (hp : Paired value) :
    ∀ (n : Nat) {g : Position κ}, g.Fair value → 0 < g.lives →
      (Finset.univ \ g.taken).card ≤ n →
      ∃ ks, g.Legal value ks
        ∧ g.after value ks
          = { taken := Finset.univ, opened := none, lives := g.lives } := by
  -- each round takes two cards, beside the open card or beside a new one
  have hfewer : ∀ {g : Position κ} {f k : κ}, f ∉ g.taken →
      (Finset.univ \ insert f (insert k g.taken)).card
        < (Finset.univ \ g.taken).card := by
    intro g f k hf
    refine Finset.card_lt_card (Finset.ssubset_iff_of_subset ?_ |>.2 ?_)
    · intro i hi
      simp only [Finset.mem_sdiff, Finset.mem_insert, not_or] at hi ⊢
      exact ⟨hi.1, hi.2.2.2⟩
    · exact ⟨f, by simp [hf], by simp⟩
  intro n
  induction n with
  | zero =>
      intro g h hl hn
      have hall : g.taken = Finset.univ := by
        rw [Nat.le_zero, Finset.card_eq_zero,
          Finset.sdiff_eq_empty_iff_subset] at hn
        exact Finset.univ_subset_iff.1 hn
      have ho : g.opened = none := by
        cases ho : g.opened with
        | none => rfl
        | some f => exact absurd (by simp [hall]) (h.aside f ho)
      exact ⟨[], trivial, Position.ext hall ho rfl⟩
  | succ n ih =>
      intro g h hl hn
      cases ho : g.opened with
      | some f =>
          obtain ⟨k, hk, hturn, hfair⟩ := h.match hp hl ho
          have hlt := hfewer (k := k) (h.aside f ho)
          obtain ⟨ks, hks, hend⟩ := ih hfair (by rw [hturn]; exact hl)
            (by rw [hturn]; dsimp only; omega)
          refine ⟨k :: ks, ⟨hk, hks⟩, ?_⟩
          show (g.turnUp value k).after value ks = _
          rw [hend, hturn]
      | none =>
          by_cases hall : g.taken = Finset.univ
          · exact ⟨[], trivial, Position.ext hall ho rfl⟩
          · obtain ⟨f, hf⟩ : ∃ f, f ∉ g.taken := by
              by_contra hno
              push Not at hno
              exact hall (Finset.eq_univ_iff_forall.2 hno)
            obtain ⟨hal, hturn, hfair⟩ := h.first hl ho hf
            obtain ⟨k, hk, hturn', hfair'⟩ := hfair.match hp
              (by rw [hturn]; exact hl) (f := f) (by rw [hturn])
            have hlt := hfewer (k := k) hf
            obtain ⟨ks, hks, hend⟩ := ih hfair'
              (by rw [hturn', hturn]; exact hl)
              (by rw [hturn', hturn]; dsimp only; omega)
            refine ⟨f :: k :: ks, ⟨hal, hk, hks⟩, ?_⟩
            show ((g.turnUp value f).turnUp value k).after value ks = _
            rw [hend, hturn', hturn]

end Lcom.Machine
