/-
Counted loops as folds.

`rounds f n s` is a `for (i = 0; i < n; i++)` loop with body `f`, cut
off after `n` of its `N` rounds, so that an invariant can speak of the
state between two rounds (`rounds_induction`).

For a loop that visits its indices in another order two shapes are
enough here: a body that does nothing at any index leaves the state
alone (`foldl_eq_self`), and a body that acts at one index of the list
leaves what it does there (`foldl_eq_single`).

A loop of writes is watched through one value of its state: if its bodies
keep the value or make it `v`, and one of them makes it `v`, then it is
`v` afterwards (`foldl_writes`).
-/
import Mathlib

namespace Lcom.Machine

variable {σ ι : Type*} {N : Nat}

-- ===================================================== counted rounds

/-- The state after the first `n` rounds of a loop over `Fin N`. -/
def rounds (f : σ → Fin N → σ) (n : Nat) (s : σ) : σ :=
  ((List.finRange N).take n).foldl f s

/-- Before the first round nothing has happened. -/
theorem rounds_zero (f : σ → Fin N → σ) (s : σ) : rounds f 0 s = s := rfl

/-- One more round runs the body at the next index. -/
theorem rounds_succ (f : σ → Fin N → σ) (s : σ) {n : Nat} (h : n < N) :
    rounds f (n + 1) s = f (rounds f n s) ⟨n, h⟩ := by
  unfold rounds
  rw [List.take_add_one, List.foldl_append]
  have hget : (List.finRange N)[n]? = some ⟨n, h⟩ := by
    rw [List.getElem?_eq_getElem (by simpa using h)]
    simp
  rw [hget]
  rfl

/-- Loop induction: what holds before the first round and survives each
round holds between any two. -/
theorem rounds_induction {f : σ → Fin N → σ} {P : Nat → σ → Prop} {s : σ}
    (h0 : P 0 s)
    (hstep : ∀ n (h : n < N), P n (rounds f n s) →
      P (n + 1) (f (rounds f n s) ⟨n, h⟩)) :
    ∀ n, n ≤ N → P n (rounds f n s) := by
  intro n
  induction n with
  | zero => intro _; exact h0
  | succ n ih =>
      intro hn
      rw [rounds_succ f s (by omega)]
      exact hstep n (by omega) (ih (by omega))

-- Callers go through the rules above; unfolding a loop of sixteen rounds
-- during unification is never what a proof wants.
attribute [irreducible] rounds

-- ======================================================= other orders

/-- A loop whose body does nothing at `s` ends in `s`. -/
theorem foldl_eq_self {f : σ → ι → σ} {s : σ} {l : List ι}
    (h : ∀ i ∈ l, f s i = s) : l.foldl f s = s := by
  induction l with
  | nil => rfl
  | cons i l ih =>
      rw [List.foldl_cons, h i (List.mem_cons_self ..)]
      exact ih fun j hj => h j (List.mem_cons_of_mem _ hj)

/-- A loop whose body acts at one index only: nothing happens before
it, nothing happens after it. -/
theorem foldl_eq_single {f : σ → ι → σ} {s : σ} {l : List ι} {i : ι}
    (hmem : i ∈ l) (hnd : l.Nodup) (hbefore : ∀ j ∈ l, j ≠ i → f s j = s)
    (hafter : ∀ j ∈ l, j ≠ i → f (f s i) j = f s i) :
    l.foldl f s = f s i := by
  obtain ⟨l₁, l₂, rfl⟩ := List.append_of_mem hmem
  obtain ⟨-, hnd₂, hdisj⟩ := List.nodup_append.1 hnd
  have hi₁ : ∀ j ∈ l₁, j ≠ i := fun j hj =>
    hdisj j hj i (List.mem_cons_self ..)
  have hi₂ : ∀ j ∈ l₂, j ≠ i := by
    intro j hj he
    subst he
    exact (List.nodup_cons.1 hnd₂).1 hj
  rw [List.foldl_append, List.foldl_cons,
    foldl_eq_self fun j hj => hbefore j (by simp [hj]) (hi₁ j hj)]
  exact foldl_eq_self fun j hj => hafter j (by simp [hj]) (hi₂ j hj)

-- ===================================================== loops of writes

variable {β : Type*} (get : σ → β) {v : β}

/-- Bodies that keep the value or make it `v` leave it kept or `v`. -/
theorem foldl_keeps {f : σ → ι → σ} (l : List ι)
    (h : ∀ i ∈ l, ∀ s, get (f s i) = v ∨ get (f s i) = get s) (s : σ) :
    get (l.foldl f s) = v ∨ get (l.foldl f s) = get s := by
  induction l generalizing s with
  | nil => exact .inr rfl
  | cons i l ih =>
      rw [List.foldl_cons]
      rcases ih (fun j hj => h j (List.mem_cons_of_mem _ hj)) (f s i)
        with hv | hk
      · exact .inl hv
      · rw [hk]
        exact h i (List.mem_cons_self ..) s

/-- If moreover one of them makes it `v`, it is `v`. -/
theorem foldl_writes {f : σ → ι → σ} (l : List ι)
    (h : ∀ i ∈ l, ∀ s, get (f s i) = v ∨ get (f s i) = get s)
    (hw : ∃ i ∈ l, ∀ s, get (f s i) = v) (s : σ) :
    get (l.foldl f s) = v := by
  obtain ⟨i, hi, hiv⟩ := hw
  obtain ⟨before, after, rfl⟩ := List.append_of_mem hi
  rw [List.foldl_append, List.foldl_cons]
  rcases foldl_keeps get after (fun j hj => h j (by simp [hj]))
    (f (before.foldl f s) i) with hv | hk
  · exact hv
  · rw [hk]
    exact hiv _

end Lcom.Machine
