/-
Positions that come in pairs.

`Paired v` says that every position shares its value with exactly one
other, its twin. Pairing survives any relabelling of the positions
(`Paired.comp`), and a labelling whose fibres are the orbits of a
fixed-point-free map is paired (`paired_of_twin`). Half as many values
as positions occur (`Paired.card_image`).

`TwinClosed v m` says that a set of marks never separates twins. Marking
a position together with its twin keeps it (`TwinClosed.mark`).
-/
import Mathlib

namespace Lcom.Machine

variable {ι α : Type*} {v : ι → α}

-- ============================================================ pairing

/-- Every position has exactly one twin. -/
def Paired (v : ι → α) : Prop := ∀ i, ∃! j, j ≠ i ∧ v j = v i

/-- Twins given by a map without fixed points. -/
theorem paired_of_twin {τ : ι → ι} (hne : ∀ i, τ i ≠ i)
    (h : ∀ i j, v j = v i ↔ j = i ∨ j = τ i) : Paired v := by
  intro i
  refine ⟨τ i, ⟨hne i, (h i _).2 (.inr rfl)⟩, ?_⟩
  intro j htwin
  obtain ⟨hji, hv⟩ := htwin
  rcases (h i j).1 hv with rfl | rfl
  · exact absurd rfl hji
  · rfl

/-- Moving the positions around keeps them paired. -/
theorem Paired.comp (h : Paired v) (σ : Equiv.Perm ι) :
    Paired (v ∘ σ) := by
  intro i
  obtain ⟨j, ⟨hji, hv⟩, huniq⟩ := h (σ i)
  refine ⟨σ.symm j, ⟨?_, ?_⟩, ?_⟩
  · intro he
    subst he
    exact hji (σ.apply_symm_apply j).symm
  · show v (σ (σ.symm j)) = v (σ i)
    rw [σ.apply_symm_apply]
    exact hv
  · intro k htwin
    obtain ⟨hki, hk⟩ := htwin
    have hσk : σ k = j := huniq (σ k) ⟨fun he => hki (σ.injective he), hk⟩
    rw [← hσk, σ.symm_apply_apply]

/-- Two positions that share a value with a third, and are not it, are
the same. -/
theorem Paired.unique (h : Paired v) {i j k : ι} (hj : j ≠ i)
    (hvj : v j = v i) (hk : k ≠ i) (hvk : v k = v i) : j = k :=
  (h i).unique ⟨hj, hvj⟩ ⟨hk, hvk⟩

/-- Half as many values as positions. -/
theorem Paired.card_image [Fintype ι] [DecidableEq ι] [DecidableEq α]
    (h : Paired v) :
    (Finset.univ.image v).card * 2 = Fintype.card ι := by
  have hfib : ∀ a ∈ Finset.univ.image v,
      (Finset.univ.filter fun j => v j = a).card = 2 := by
    intro a ha
    obtain ⟨i, -, rfl⟩ := Finset.mem_image.1 ha
    obtain ⟨j, ⟨hji, hv⟩, huniq⟩ := h i
    have hset : (Finset.univ.filter fun k => v k = v i) = {i, j} := by
      ext k
      simp only [Finset.mem_filter, Finset.mem_univ, true_and,
        Finset.mem_insert, Finset.mem_singleton]
      constructor
      · intro hk
        by_cases hki : k = i
        · exact .inl hki
        · exact .inr (huniq k ⟨hki, hk⟩)
      · intro htwin
        rcases htwin with rfl | rfl
        · rfl
        · exact hv
    rw [hset, Finset.card_pair (Ne.symm hji)]
  rw [← Finset.card_univ, Finset.card_eq_sum_card_image v Finset.univ,
    Finset.sum_congr rfl hfib, Finset.sum_const, smul_eq_mul]

-- ============================================================== marks

/-- The marks never separate two positions of one value. -/
def TwinClosed (v : ι → α) (m : ι → Bool) : Prop :=
  ∀ i j, v j = v i → m i = true → m j = true

/-- Marking two distinct positions of one value keeps twins
together. -/
theorem TwinClosed.mark {m m' : ι → Bool} (hp : Paired v)
    (hm : TwinClosed v m) {a b : ι} (hab : a ≠ b) (hv : v a = v b)
    (hm' : ∀ i, m' i = true ↔ m i = true ∨ i = a ∨ i = b) :
    TwinClosed v m' := by
  intro i j hij hi
  rw [hm']
  by_cases hji : j = i
  · subst hji
    exact (hm' j).1 hi
  · rcases (hm' i).1 hi with hi | rfl | rfl
    · exact .inl (hm i j hij hi)
    · exact .inr (.inr (hp.unique hji hij (Ne.symm hab) hv.symm))
    · exact .inr (.inl (hp.unique hji hij hab hv))

/-- Marks and values may be exchanged for equal ones. -/
theorem TwinClosed.congr {v' : ι → α} {m m' : ι → Bool}
    (h : TwinClosed v m) (hv : ∀ i, v' i = v i) (hm : ∀ i, m' i = m i) :
    TwinClosed v' m' := by
  intro i j hij hi
  rw [hv, hv] at hij
  rw [hm] at hi ⊢
  exact h i j hij hi

end Lcom.Machine
