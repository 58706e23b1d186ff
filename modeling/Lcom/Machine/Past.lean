/-
What the past of a run says: properties of histories.

A history is the list of inputs so far, oldest first. `Since Q P` holds
of one if `P` held at some point of it and `Q` of every input after
that, and `Once P` if `P` held at some point at all.

`exec_induction` is the induction over a run that carries its history
along: what holds at the start with nothing behind it, and survives one
more input, holds at the end with the whole list behind it. For a
machine that never refuses, a property that survives an input exactly if
the input is good holds after every input of a run exactly if all of
them are (`prefixes_iff_through`).
-/
import Lcom.Machine.Reach

namespace Lcom.Machine

variable {σ ι : Type*}

-- ================================================== past-time operators

/-- `P` at some point, and `Q` of every input since. -/
def Since (Q : ι → Prop) (P : List ι → Prop) (past : List ι) : Prop :=
  ∃ before after, past = before ++ after ∧ P before ∧ ∀ i ∈ after, Q i

/-- `P` at some point. -/
def Once (P : List ι → Prop) : List ι → Prop := Since (fun _ => True) P

variable {Q : ι → Prop} {P : List ι → Prop} {past : List ι}

theorem since_now (h : P past) : Since Q P past :=
  ⟨past, [], by simp, h, by simp⟩

/-- One more input of the kind changes nothing. -/
theorem Since.snoc (h : Since Q P past) {i : ι} (hi : Q i) :
    Since Q P (past ++ [i]) := by
  obtain ⟨before, after, rfl, hp, hq⟩ := h
  refine ⟨before, after ++ [i], by simp, hp, ?_⟩
  intro j hj
  rcases List.mem_append.1 hj with hj | hj
  · exact hq j hj
  · rw [List.mem_singleton.1 hj]
    exact hi

/-- What held once still held once. -/
theorem Once.append (h : Once P past) (later : List ι) :
    Once P (past ++ later) := by
  obtain ⟨before, after, rfl, hp, -⟩ := h
  exact ⟨before, after ++ later, by simp, hp, fun _ _ => trivial⟩

/-- Since some point, so once. -/
theorem Since.once (h : Since Q P past) : Once P past := by
  obtain ⟨before, after, hsplit, hp, -⟩ := h
  exact ⟨before, after, hsplit, hp, fun _ _ => trivial⟩

-- ================================================ runs with their past

variable {step : σ → ι → Option σ}

theorem exec_cons_of_step {s s' : σ} {i : ι} (h : step s i = some s')
    (is : List ι) : exec step s (i :: is) = exec step s' is := by
  simp only [exec, h]

/-- A run of two lists is a run of one and then of the other. -/
theorem exec_append (s : σ) (is js : List ι) :
    exec step s (is ++ js)
      = (exec step s is).bind fun s' => exec step s' js := by
  induction is generalizing s with
  | nil => rfl
  | cons i is ih =>
      simp only [List.cons_append, exec]
      cases step s i with
      | none => rfl
      | some s' => exact ih s'

theorem exec_snoc (s : σ) (is : List ι) (i : ι) :
    exec step s (is ++ [i]) = (exec step s is).bind fun s' => step s' i := by
  rw [exec_append]
  congr 1
  funext s'
  simp only [exec]
  cases step s' i <;> rfl

/-- What holds along a run holds along the first part of it. -/
theorem Along.left {Q : σ → ι → Prop} {s : σ} {is js : List ι}
    (h : Along step Q s (is ++ js)) : Along step Q s is := by
  intro before i after hsplit
  refine h before i (after ++ js) ?_
  rw [hsplit]
  simp

/-- A machine that treats its inputs as another one treats their images
runs as that one does. -/
theorem exec_map {κ : Type*} {step' : σ → κ → Option σ} {f : ι → κ}
    {Q : σ → ι → Prop} (h : ∀ s i, Q s i → step s i = step' s (f i)) :
    ∀ {is : List ι} {s : σ}, Along step Q s is →
      exec step s is = exec step' s (is.map f) := by
  intro is
  induction is with
  | nil => intro s _; rfl
  | cons i is ih =>
      intro s hs
      obtain ⟨hq, hrest⟩ := along_cons.1 hs
      simp only [List.map_cons, exec, ← h s i hq]
      cases hi : step s i with
      | none => rfl
      | some s' => exact ih (hrest s' hi)

/-- Induction along a run whose inputs satisfy `ok`. -/
theorem exec_induction {I : List ι → σ → Prop} {ok : σ → ι → Prop} {s : σ}
    (hinit : I [] s)
    (hstep : ∀ past t i t', I past t → ok t i → step t i = some t' →
      I (past ++ [i]) t')
    {is : List ι} {s' : σ} (hok : Along step ok s is)
    (h : exec step s is = some s') : I is s' := by
  induction is using List.reverseRecOn generalizing s' with
  | nil => cases h; exact hinit
  | append_singleton is i ih =>
      rw [exec_snoc, Option.bind_eq_some_iff] at h
      obtain ⟨t, ht, hs⟩ := h
      exact hstep is t i s' (ih hok.left ht) (hok is i [] rfl t ht) hs

-- ========================================== runs from a reached state

variable {init : σ → Prop} {ok : σ → ι → Prop} {a b : σ}

/-- What is reached from a reached state is reached. -/
theorem Reachable.trans (ha : Reachable step init ok a)
    (h : Reachable step (· = a) ok b) : Reachable step init ok b := by
  induction h with
  | start hs => exact hs ▸ ha
  | step _ hok hs ih => exact .step ih hok hs

/-- A run from one state is a list of inputs. -/
theorem Reachable.run (h : Reachable step (· = a) ok b) :
    ∃ is, exec step a is = some b := by
  induction h with
  | start hs => exact ⟨[], congrArg some hs.symm⟩
  | @step b b' i _ _ hs ih =>
      obtain ⟨is, his⟩ := ih
      refine ⟨is ++ [i], ?_⟩
      rw [exec_snoc, his]
      exact hs

/-- A machine that takes only inputs another takes, and steps only as that
one does, reaches no more. -/
theorem Reachable.widen {step' : σ → ι → Option σ} {ok' : σ → ι → Prop}
    (hwide : ∀ s i, ok' s i → ok s i)
    (hstep : ∀ s i s', step' s i = some s' → step s i = some s')
    (h : Reachable step' init ok' b) : Reachable step init ok b := by
  induction h with
  | start hs => exact .start hs
  | step _ hok hs ih => exact .step ih (hwide _ _ hok) (hstep _ _ _ hs)

-- ============================================== runs that never stop

/-- A property of every state of a run, input by input. -/
theorem prefixes_iff_through {next : σ → ι → σ} {P : σ → Prop}
    {good : σ → ι → Prop}
    (h : ∀ s i, P s → (P (next s i) ↔ good s i)) :
    ∀ {is : List ι} {s : σ}, P s →
      ((∀ js, js <+: is → P (js.foldl next s)) ↔ Through next good s is) := by
  intro is
  induction is with
  | nil =>
      intro s hs
      refine iff_of_true (fun js hjs => ?_) trivial
      rw [List.prefix_nil.1 hjs]
      exact hs
  | cons i is ih =>
      intro s hs
      constructor
      · intro hall
        have hnext : P (next s i) := hall [i] ⟨is, rfl⟩
        refine ⟨(h s i hs).1 hnext, (ih hnext).1 fun js hjs => ?_⟩
        exact hall (i :: js) (List.cons_prefix_cons.2 ⟨rfl, hjs⟩)
      · intro hthrough js hjs
        obtain ⟨hgood, hrest⟩ := hthrough
        rcases js with - | ⟨j, js⟩
        · exact hs
        · obtain ⟨rfl, hrest'⟩ := List.cons_prefix_cons.1 hjs
          exact (ih ((h s j hs).2 hgood)).2 hrest js hrest'

end Lcom.Machine
