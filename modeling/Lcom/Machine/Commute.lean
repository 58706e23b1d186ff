/-
Inputs that may change places.

Two inputs commute if either order leads to the same state, or to none.
Where every input of one kind commutes with every input of another, what
a run leaves does not depend on how the two kinds are interleaved: it is
determined by two views of the run, one without the inputs of the one
kind, the other without those of the other (`exec_eq_of_views`). The
inputs of neither kind stand in both views, and hold the two together.
-/
import Lcom.Machine.Reach

namespace Lcom.Machine

variable {σ ι : Type*} {step : σ → ι → Option σ}

/-- Either order leads to the same state, or to none. -/
def Commutes (step : σ → ι → Option σ) (i j : ι) : Prop :=
  ∀ s, (step s i).bind (fun s' => step s' j)
    = (step s j).bind fun s' => step s' i

theorem Commutes.symm {i j : ι} (h : Commutes step i j) :
    Commutes step j i := fun s => (h s).symm

theorem exec_cons (s : σ) (i : ι) (is : List ι) :
    exec step s (i :: is) = (step s i).bind fun s' => exec step s' is := by
  cases h : step s i with
  | none => simp [exec, h]
  | some s' => simp [exec, h]

/-- An input may be taken before others it commutes with. -/
theorem exec_move {i : ι} {before : List ι}
    (h : ∀ j ∈ before, Commutes step i j) (after : List ι) (s : σ) :
    exec step s (before ++ i :: after)
      = exec step s (i :: (before ++ after)) := by
  induction before generalizing s with
  | nil => rfl
  | cons j before ih =>
      have hj : Commutes step i j := h j List.mem_cons_self
      have hrest := ih fun k hk => h k (List.mem_cons_of_mem j hk)
      calc exec step s (j :: (before ++ i :: after))
          = (step s j).bind fun s' =>
              exec step s' (i :: (before ++ after)) := by
            rw [exec_cons]
            exact Option.bind_congr fun s' _ => hrest s'
        _ = ((step s j).bind fun s' => step s' i).bind fun s' =>
              exec step s' (before ++ after) := by
            rw [Option.bind_assoc]
            exact Option.bind_congr fun s' _ => exec_cons s' i _
        _ = ((step s i).bind fun s' => step s' j).bind fun s' =>
              exec step s' (before ++ after) := by
            rw [hj s]
        _ = exec step s (i :: (j :: before ++ after)) := by
            rw [Option.bind_assoc, exec_cons]
            exact Option.bind_congr fun s' _ => (exec_cons s' j _).symm

section

variable {a b : ι → Bool}

/-- A run without the inputs of a kind. -/
def view (hidden : ι → Bool) (is : List ι) : List ι :=
  is.filter fun i => !hidden i

theorem view_append (is js : List ι) :
    view a (is ++ js) = view a is ++ view a js := List.filter_append ..

theorem view_cons_hidden {i : ι} (h : a i = true) (is : List ι) :
    view a (i :: is) = view a is := by
  simp [view, h]

theorem view_cons_shown {i : ι} (h : a i = false) (is : List ι) :
    view a (i :: is) = i :: view a is := by
  simp [view, h]

theorem view_hidden {is : List ι} (h : ∀ i ∈ is, a i = true) :
    view a is = [] :=
  List.filter_eq_nil_iff.2 fun i hi => by simp [h i hi]

theorem view_shown {is : List ι} (h : ∀ i ∈ is, a i = false) :
    view a is = is :=
  List.filter_eq_self.2 fun i hi => by simp [h i hi]

/-- The first input a view shows, and what stands before it. -/
theorem view_eq_cons {i : ι} {is js : List ι} (h : view a js = i :: is) :
    ∃ before after, js = before ++ i :: after
      ∧ (∀ j ∈ before, a j = true) ∧ view a after = is := by
  obtain ⟨before, after, rfl, hhid, -, hrest⟩ := List.filter_eq_cons_iff.1 h
  refine ⟨before, after, rfl, fun j hj => ?_, hrest⟩
  simpa using hhid j hj

/-- The head of one run, found in the other: only inputs it commutes with
stand before it, and without it the runs look the same again. -/
theorem views_take (hdisj : ∀ i, b i = true → a i = false)
    {i : ι} {is js : List ι} (hi : b i = false)
    (hb : view b (i :: is) = view b js) (ha : view a (i :: is) = view a js) :
    ∃ before after, js = before ++ i :: after
      ∧ (∀ j ∈ before, a i = true ∧ b j = true)
      ∧ view b is = view b (before ++ after)
      ∧ view a is = view a (before ++ after) := by
  rw [view_cons_shown hi] at hb
  obtain ⟨before, after, rfl, hbefore, hrest⟩ := view_eq_cons hb.symm
  have hshown : view a before = before :=
    view_shown fun j hj => hdisj j (hbefore j hj)
  rw [view_append, hshown] at ha
  cases hai : a i with
  | true =>
      refine ⟨before, after, rfl, fun j hj => ⟨rfl, hbefore j hj⟩, ?_, ?_⟩
      · rw [view_append, view_hidden hbefore, hrest]
        rfl
      · rw [view_cons_hidden hai, view_cons_hidden hai] at ha
        rw [view_append, hshown]
        exact ha
  | false =>
      -- `i` stands in both views, so nothing stands before it
      rw [view_cons_shown hai, view_cons_shown hai] at ha
      cases before with
      | nil =>
          refine ⟨[], after, rfl, by simp, hrest.symm, ?_⟩
          exact (List.cons.inj ha).2
      | cons j before =>
          have hij : i = j := (List.cons.inj ha).1
          have hbj := hbefore j List.mem_cons_self
          rw [← hij, hi] at hbj
          cases hbj

/-- Runs that look the same in both views leave the same state. -/
theorem exec_eq_of_views (hdisj : ∀ i, a i = true → b i = false)
    (hcomm : ∀ i j, a i = true → b j = true → Commutes step i j) :
    ∀ (is js : List ι), view b is = view b js → view a is = view a js →
      ∀ s, exec step s is = exec step s js := by
  have hdisj' : ∀ i, b i = true → a i = false := by
    intro i hb
    cases ha : a i with
    | false => rfl
    | true => rw [hdisj i ha] at hb; cases hb
  intro is
  induction is with
  | nil =>
      intro js hb ha s
      cases js with
      | nil => rfl
      | cons j js =>
          -- an input shown in neither view would be of both kinds
          cases hbj : b j with
          | false => rw [view_cons_shown hbj] at hb; cases hb
          | true =>
              rw [view_cons_shown (hdisj' j hbj)] at ha
              cases ha
  | cons i is ih =>
      intro js hb ha s
      -- the view that shows `i` finds it
      obtain ⟨before, after, rfl, hmove, hvb, hva⟩ :
          ∃ before after, js = before ++ i :: after
            ∧ (∀ j ∈ before, Commutes step i j)
            ∧ view b is = view b (before ++ after)
            ∧ view a is = view a (before ++ after) := by
        cases hbi : b i with
        | false =>
            obtain ⟨before, after, hjs, hkinds, hvb, hva⟩ :=
              views_take hdisj' hbi hb ha
            exact ⟨before, after, hjs, fun j hj =>
              hcomm i j (hkinds j hj).1 (hkinds j hj).2, hvb, hva⟩
        | true =>
            obtain ⟨before, after, hjs, hkinds, hva, hvb⟩ :=
              views_take hdisj (hdisj' i hbi) ha hb
            exact ⟨before, after, hjs, fun j hj =>
              (hcomm j i (hkinds j hj).2 (hkinds j hj).1).symm, hvb, hva⟩
      rw [exec_move hmove, exec_cons, exec_cons]
      exact Option.bind_congr fun s' _ => ih _ hvb hva s'

end

end Lcom.Machine
