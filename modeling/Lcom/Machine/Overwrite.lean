/-
Programs that overwrite parts of a memory and read none of it.

`Overwrites f C`: whatever the memory holds, `f` leaves the same values
at the addresses in `C` and everything else as it was. Such programs
compose, in sequence (`Overwrites.comp`) and in loops
(`overwrites_foldl`), and they are exactly as independent of the memory
they start from as their addresses say: two runs agree on a part of the
memory for all initial contents if and only if `C` covers it
(`Overwrites.eqOn_iff`).
-/
import Mathlib

namespace Lcom.Machine

variable {α β ι : Type*} {f g : (α → β) → α → β} {C D S : Set α}

/-- `f` overwrites the addresses in `C` and keeps the others. -/
structure Overwrites (f : (α → β) → α → β) (C : Set α) : Prop where
  writes : ∀ a ∈ C, ∃ v, ∀ s, f s a = v
  keeps : ∀ a ∉ C, ∀ s, f s a = s a

theorem overwrites_id : Overwrites (id : (α → β) → α → β) ∅ :=
  ⟨fun _ h => h.elim, fun _ _ _ => rfl⟩

theorem Overwrites.comp (hf : Overwrites f C) (hg : Overwrites g D) :
    Overwrites (fun s => g (f s)) (C ∪ D) := by
  constructor
  · intro a ha
    by_cases hd : a ∈ D
    · obtain ⟨v, hv⟩ := hg.writes a hd
      exact ⟨v, fun s => hv (f s)⟩
    · obtain ⟨v, hv⟩ := hf.writes a (ha.resolve_right hd)
      refine ⟨v, fun s => ?_⟩
      rw [hg.keeps a hd, hv]
  · intro a ha s
    rw [hg.keeps a fun hd => ha (.inr hd), hf.keeps a fun hc => ha (.inl hc)]

/-- A loop of overwriting bodies. -/
theorem overwrites_foldl (is : List ι) {body : (α → β) → ι → α → β}
    {C : ι → Set α} (h : ∀ i ∈ is, Overwrites (fun s => body s i) (C i)) :
    Overwrites (fun s => is.foldl body s) {a | ∃ i ∈ is, a ∈ C i} := by
  induction is with
  | nil =>
      have hempty : {a | ∃ i ∈ ([] : List ι), a ∈ C i} = ∅ := by simp
      rw [hempty]
      exact overwrites_id
  | cons i is ih =>
      have hunion : {a | ∃ j ∈ i :: is, a ∈ C j}
          = C i ∪ {a | ∃ j ∈ is, a ∈ C j} := by
        ext a
        simp
      rw [hunion]
      exact (h i (by simp)).comp (ih fun j hj => h j (by simp [hj]))

/-- Memories that agree still agree afterwards. -/
theorem Overwrites.eqOn (h : Overwrites f C) {s t : α → β}
    (hst : Set.EqOn s t S) : Set.EqOn (f s) (f t) S := by
  intro a ha
  by_cases hc : a ∈ C
  · obtain ⟨v, hv⟩ := h.writes a hc
    rw [hv, hv]
  · rw [h.keeps a hc, h.keeps a hc]
    exact hst ha

/-- Runs from any two memories agree on `S` if and only if all of `S` is
overwritten. -/
theorem Overwrites.eqOn_iff [Nontrivial β] (h : Overwrites f C) :
    (∀ s t, Set.EqOn (f s) (f t) S) ↔ S ⊆ C := by
  constructor
  · intro hall a ha
    by_contra hc
    obtain ⟨u, v, huv⟩ := exists_pair_ne β
    have hfuv := hall (fun _ => u) (fun _ => v) ha
    rw [h.keeps a hc, h.keeps a hc] at hfuv
    exact huv hfuv
  · intro hsub s t a ha
    obtain ⟨v, hv⟩ := h.writes a (hsub ha)
    rw [hv, hv]

end Lcom.Machine
