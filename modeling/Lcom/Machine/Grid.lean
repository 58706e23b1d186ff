/-
Cells of a row-major grid in a memory that wraps around.

Cell `i` occupies the `B` bytes from `i * B` modulo `M` on
(`cellStart`). As long as no offset reaches `M` two distinct cells never
share a byte (`not_overlap`). Once offsets wrap they do: a cell at or
past `M` lands on a cell below it (`overlap_low`), and a cell below `M`
is hit by a wrapped one as soon as the cells go far enough
(`overlap_wrapped`).

A row of `X` cells whose column index may be `X` itself names the first
cell of the next row twice. Otherwise position and index determine each
other (`index_inj`).
-/
import Mathlib

namespace Lcom.Machine

-- ============================================================= cells

/-- Where cell `i` starts. -/
def cellStart (M B i : Nat) : Nat := i * B % M

/-- Cells `i` and `j` share a byte. -/
def Overlap (M B i j : Nat) : Prop :=
  cellStart M B i < cellStart M B j + B
    ∧ cellStart M B j < cellStart M B i + B

variable {M B i j : Nat}

/-- A cell overlaps itself. -/
theorem overlap_self (hB : 0 < B) : Overlap M B i i :=
  ⟨Nat.lt_add_of_pos_right hB, Nat.lt_add_of_pos_right hB⟩

theorem cellStart_of_lt (h : i * B < M) : cellStart M B i = i * B :=
  Nat.mod_eq_of_lt h

theorem cellStart_of_wrap (h : M ≤ i * B) (h2 : i * B < 2 * M) :
    cellStart M B i = i * B - M := by
  unfold cellStart
  rw [Nat.mod_eq_sub_mod h, Nat.mod_eq_of_lt (by omega)]

/-- Two cells below the wrap share a byte only if they are the same. -/
theorem not_overlap (hi : i * B < M) (hj : j * B < M) (hne : i ≠ j) :
    ¬Overlap M B i j := by
  unfold Overlap
  rw [cellStart_of_lt hi, cellStart_of_lt hj]
  rcases Nat.lt_or_gt_of_ne hne with h | h
  · have := Nat.mul_le_mul_right B (show i + 1 ≤ j from h)
    rw [Nat.add_mul, Nat.one_mul] at this
    omega
  · have := Nat.mul_le_mul_right B (show j + 1 ≤ i from h)
    rw [Nat.add_mul, Nat.one_mul] at this
    omega

/-- A cell past the wrap lands on one below it. -/
theorem overlap_low {n : Nat} (hB : 0 < B) (hi : M ≤ i * B)
    (hin : cellStart M B i + B ≤ n * B) (hM : 0 < M) :
    ∃ j, j < n ∧ j * B < M ∧ j ≠ i ∧ Overlap M B i j := by
  have hlt : cellStart M B i < M := Nat.mod_lt _ hM
  have hle := Nat.div_mul_le_self (cellStart M B i) B
  have hgt := Nat.lt_div_mul_add (a := cellStart M B i) hB
  have hjM : cellStart M B i / B * B < M := by omega
  refine ⟨cellStart M B i / B, ?_, hjM, ?_, ?_⟩
  · refine Nat.lt_of_mul_lt_mul_right (a := B) ?_
    omega
  · intro he
    rw [he] at hjM
    omega
  · unfold Overlap
    rw [cellStart_of_lt hjM]
    omega

/-- A cell below the wrap is hit by a wrapped one, once the cells up to
`T` reach past its last byte. -/
theorem overlap_wrapped {T : Nat} (hB : 0 < B) (hBM : B ≤ M)
    (hi : i * B < M) (hT : M ≤ T * B) (hreach : i * B + M < (T + 1) * B) :
    ∃ j, j ≤ T ∧ M ≤ j * B ∧ Overlap M B i j := by
  rw [Nat.add_mul, Nat.one_mul] at hreach
  have hle := Nat.div_mul_le_self (i * B + M) B
  have hgt := Nat.lt_div_mul_add (a := i * B + M) hB
  obtain ⟨q, hq⟩ : ∃ q, q = (i * B + M) / B := ⟨_, rfl⟩
  rw [← hq] at hle hgt
  by_cases hqM : M ≤ q * B
  · refine ⟨q, ?_, hqM, ?_⟩
    · refine Nat.lt_succ_iff.1 (Nat.lt_of_mul_lt_mul_right (a := B) ?_)
      rw [Nat.succ_mul]
      omega
    · unfold Overlap
      rw [cellStart_of_lt hi, cellStart_of_wrap hqM (by omega)]
      omega
  · -- the cell across the wrap starts below it: take the next one
    have hsucc : (q + 1) * B = q * B + B := by
      rw [Nat.add_mul, Nat.one_mul]
    refine ⟨q + 1, ?_, by omega, ?_⟩
    · refine Nat.lt_of_mul_lt_mul_right (a := B) ?_
      omega
    · unfold Overlap
      rw [cellStart_of_lt hi, cellStart_of_wrap (by omega) (by omega)]
      omega

/-- A wrapped cell that hits one below the wrap reaches past it. -/
theorem reach_of_overlap {T : Nat} (hi : i * B < M) (hj : M ≤ j * B)
    (hj2 : j * B < 2 * M) (hjT : j ≤ T) (h : Overlap M B i j) :
    M ≤ T * B ∧ i * B + M < (T + 1) * B := by
  unfold Overlap at h
  rw [cellStart_of_lt hi, cellStart_of_wrap hj hj2] at h
  have hT := Nat.mul_le_mul_right B hjT
  rw [Nat.add_mul, Nat.one_mul]
  omega

-- ========================================================= positions

variable {X x y x' y' : Nat}

/-- Every index up to row `Y` has a position. -/
theorem index_surj {Y : Nat} (hX : 0 < X) (h : i ≤ X * Y) :
    ∃ x y, x < X ∧ y ≤ Y ∧ X * y + x = i := by
  refine ⟨i % X, i / X, Nat.mod_lt _ hX, ?_, ?_⟩
  · exact Nat.div_le_of_le_mul h
  · exact Nat.div_add_mod i X

/-- Every index up to the end of row `Y` has a position whose column
may be `X`. -/
theorem index_surj_last {Y : Nat} (hX : 0 < X) (h : i ≤ X * Y + X) :
    ∃ x y, x ≤ X ∧ y ≤ Y ∧ X * y + x = i := by
  rcases Nat.lt_or_eq_of_le h with hlt | rfl
  · obtain ⟨x, y, hx, hy, rfl⟩ := index_surj (Y := Y + 1) hX
      (show i ≤ X * (Y + 1) by rw [Nat.mul_succ]; omega)
    refine ⟨x, y, Nat.le_of_lt hx, ?_, rfl⟩
    refine Nat.lt_succ_iff.1 (Nat.lt_of_mul_lt_mul_left (a := X) ?_)
    rw [Nat.mul_succ]
    omega
  · exact ⟨X, Y, Nat.le_refl _, Nat.le_refl _, rfl⟩

/-- Two positions of one index, the second with a column up to `X`: the
same, unless the first is the start of a row the second runs into. -/
theorem index_inj (hx : x < X) (hx' : x' ≤ X) (hstart : 0 < x ∨ y = 0)
    (h : X * y + x = X * y' + x') : x = x' ∧ y = y' := by
  rcases Nat.lt_or_eq_of_le hx' with hlt | rfl
  · have hy : y = y' := by
      have h1 := congrArg (· / X) h
      simp only [Nat.mul_add_div (Nat.zero_lt_of_lt hx),
        Nat.div_eq_of_lt hx, Nat.div_eq_of_lt hlt, Nat.add_zero] at h1
      exact h1
    subst hy
    exact ⟨by omega, rfl⟩
  · exfalso
    rcases hstart with hpos | rfl
    · have hrem := congrArg (· % x') h
      simp only [Nat.mul_add_mod, Nat.mod_self, Nat.mod_eq_of_lt hx] at hrem
      omega
    · rw [Nat.mul_zero, Nat.zero_add] at h
      omega

end Lcom.Machine
