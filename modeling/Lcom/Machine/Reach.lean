/-
Runs of a machine that consumes one input per step and may refuse to
step (`none`: it has stopped, it is stuck, or it died).

`Reachable step init ok` is the set of states reached from an `init`
state by steps whose state and input satisfy the guard `ok`. The guard
is what makes one statement serve twice: with the trivial guard it
speaks of every run, with a narrower one only of the runs that avoid
the steps the guard excludes. `Reachable.invariant` is the induction,
packaged once; its step may use what is known of reachable states, so
that one invariant can rest on another.

`withHistory` pairs a machine with a ghost value that watches every
step, for statements that count what has happened so far. The ghost
never feeds back (`Reachable.forget`). `withLog` is the same for a ghost
that watches the inputs; every run has a log (`Reachable.logged`).

`exec` runs a fixed list of inputs, so that a concrete run can be
replayed by computation (`reachable_of_exec`, `execForced`). `Along` is
a property of every input of such a run, taken in the state that
receives it; where an abstract machine simulates the concrete one and
decides the property exactly, so does the abstract run
(`along_iff_through`).
-/
import Mathlib

namespace Lcom.Machine

variable {σ ι γ : Type*}

-- ================================================ guarded reachability

/-- The states reached from `init` by steps that satisfy `ok`. -/
inductive Reachable (step : σ → ι → Option σ) (init : σ → Prop)
    (ok : σ → ι → Prop) : σ → Prop
  | start {s : σ} : init s → Reachable step init ok s
  | step {s s' : σ} {i : ι} : Reachable step init ok s → ok s i →
      step s i = some s' → Reachable step init ok s'

variable {step : σ → ι → Option σ} {init : σ → Prop}
  {ok : σ → ι → Prop}

/-- What holds at the start and survives every admitted step from a
reachable state holds of every reachable state. -/
theorem Reachable.invariant {I : σ → Prop} (hinit : ∀ s, init s → I s)
    (hstep : ∀ s i s', Reachable step init ok s → I s → ok s i →
      step s i = some s' → I s')
    {s : σ} (h : Reachable step init ok s) : I s := by
  induction h with
  | start hs => exact hinit _ hs
  | step hr hok hs ih => exact hstep _ _ _ hr ih hok hs

-- ==================================================== watching a run

/-- The machine `step` with a ghost that is updated from the two ends
of each step. -/
def withHistory (step : σ → ι → Option σ) (upd : γ → σ → σ → γ) :
    σ × γ → ι → Option (σ × γ) :=
  fun p i => (step p.1 i).map fun s' => (s', upd p.2 p.1 s')

/-- A step of the watched machine is a step of the machine and one
update of the ghost. -/
theorem withHistory_eq_some {upd : γ → σ → σ → γ} {p p' : σ × γ}
    {i : ι} (h : withHistory step upd p i = some p') :
    step p.1 i = some p'.1 ∧ p'.2 = upd p.2 p.1 p'.1 := by
  unfold withHistory at h
  cases hs : step p.1 i with
  | none => rw [hs] at h; cases h
  | some s' =>
      rw [hs] at h
      injection h with h
      subst h
      exact ⟨rfl, rfl⟩

/-- The ghost never feeds back: a watched run is a run. -/
theorem Reachable.forget {upd : γ → σ → σ → γ} {init' : σ × γ → Prop}
    (hinit : ∀ p, init' p → init p.1) {p : σ × γ}
    (h : Reachable (withHistory step upd) init'
      (fun p i => ok p.1 i) p) :
    Reachable step init ok p.1 := by
  induction h with
  | start hs => exact .start (hinit _ hs)
  | step _ hok hs ih => exact .step ih hok (withHistory_eq_some hs).1

/-- Every run has a history. -/
theorem Reachable.remembered {upd : γ → σ → σ → γ} {init' : σ × γ → Prop}
    (hinit : ∀ s, init s → ∃ g, init' (s, g)) {s : σ}
    (h : Reachable step init ok s) :
    ∃ g, Reachable (withHistory step upd) init' (fun p i => ok p.1 i)
      (s, g) := by
  induction h with
  | start hs =>
      obtain ⟨g, hg⟩ := hinit _ hs
      exact ⟨g, .start hg⟩
  | @step s s' i _ hok hs ih =>
      obtain ⟨g, hg⟩ := ih
      refine ⟨upd g s s', .step hg hok ?_⟩
      unfold withHistory
      rw [hs]
      rfl

-- ===================================================== logging a run

/-- The machine `step` with a ghost that is updated from the state and
the input of each step. -/
def withLog (step : σ → ι → Option σ) (upd : γ → σ → ι → γ) :
    σ × γ → ι → Option (σ × γ) :=
  fun p i => (step p.1 i).map fun s' => (s', upd p.2 p.1 i)

/-- A step of the logged machine is a step of the machine and one entry
in the log. -/
theorem withLog_eq_some {upd : γ → σ → ι → γ} {p p' : σ × γ} {i : ι} :
    withLog step upd p i = some p'
      ↔ step p.1 i = some p'.1 ∧ p'.2 = upd p.2 p.1 i := by
  unfold withLog
  rw [Option.map_eq_some_iff]
  constructor
  · intro h
    obtain ⟨s', hs, rfl⟩ := h
    exact ⟨hs, rfl⟩
  · intro h
    exact ⟨p'.1, h.1, by rw [← h.2]⟩

/-- A logged run is a run. -/
theorem Reachable.unlogged {upd : γ → σ → ι → γ} {init' : σ × γ → Prop}
    (hinit : ∀ p, init' p → init p.1) {p : σ × γ}
    (h : Reachable (withLog step upd) init' (fun p i => ok p.1 i) p) :
    Reachable step init ok p.1 := by
  induction h with
  | start hs => exact .start (hinit _ hs)
  | step _ hok hs ih => exact .step ih hok (withLog_eq_some.1 hs).1

/-- Every run has a log. -/
theorem Reachable.logged {upd : γ → σ → ι → γ} {init' : σ × γ → Prop}
    (hinit : ∀ s, init s → ∃ g, init' (s, g)) {s : σ}
    (h : Reachable step init ok s) :
    ∃ g, Reachable (withLog step upd) init' (fun p i => ok p.1 i)
      (s, g) := by
  induction h with
  | start hs =>
      obtain ⟨g, hg⟩ := hinit _ hs
      exact ⟨g, .start hg⟩
  | step _ hok hs ih =>
      obtain ⟨g, hg⟩ := ih
      exact ⟨_, .step hg hok (withLog_eq_some.2 ⟨hs, rfl⟩)⟩

-- ======================================================= replayed runs

/-- Run a list of inputs, failing on the first refused one. -/
def exec (step : σ → ι → Option σ) : σ → List ι → Option σ
  | s, [] => some s
  | s, i :: is =>
      match step s i with
      | some s' => exec step s' is
      | none => none

/-- The machine that refuses the inputs a test rejects. -/
def restrict (test : σ → ι → Bool) (step : σ → ι → Option σ) :
    σ → ι → Option σ :=
  fun s i => if test s i then step s i else none

/-- A replayed run whose inputs pass a test for the guard is a run. -/
theorem reachable_of_exec {test : σ → ι → Bool}
    (htest : ∀ s i, test s i = true → ok s i) {s s' : σ} {is : List ι}
    (hs : Reachable step init ok s)
    (h : exec (restrict test step) s is = some s') :
    Reachable step init ok s' := by
  induction is generalizing s with
  | nil => cases h; exact hs
  | cons i is ih =>
      unfold exec restrict at h
      cases ht : test s i with
      | false => rw [ht] at h; cases h
      | true =>
          rw [ht, if_pos rfl] at h
          cases hi : step s i with
          | none => rw [hi] at h; cases h
          | some s₁ =>
              rw [hi] at h
              exact ih (.step hs (htest s i ht) hi) h

/-- A replay that hands each state on in evaluated form, by passing it
to a continuation. -/
def execForced (force : σ → (σ → Option σ) → Option σ)
    (step : σ → ι → Option σ) : σ → List ι → Option σ
  | s, [] => some s
  | s, i :: is =>
      match step s i with
      | some s' => force s' fun s' => execForced force step s' is
      | none => none

/-- Evaluating the states changes nothing. -/
theorem execForced_eq {force : σ → (σ → Option σ) → Option σ}
    (hforce : ∀ s k, force s k = k s) (s : σ) (is : List ι) :
    execForced force step s is = exec step s is := by
  induction is generalizing s with
  | nil => rfl
  | cons i is ih =>
      unfold execForced exec
      cases step s i with
      | none => rfl
      | some s' =>
          dsimp only
          rw [hforce]
          exact ih s'

-- ================================================= along a replayed run

/-- `Q` holds of every input of the run, in the state that receives
it. -/
def Along (step : σ → ι → Option σ) (Q : σ → ι → Prop) (s : σ)
    (is : List ι) : Prop :=
  ∀ before i after, is = before ++ i :: after →
    ∀ s', exec step s before = some s' → Q s' i

theorem along_nil {Q : σ → ι → Prop} {s : σ} : Along step Q s [] := by
  intro before i after h
  simp at h

theorem along_cons {Q : σ → ι → Prop} {s : σ} {i : ι} {is : List ι} :
    Along step Q s (i :: is)
      ↔ Q s i ∧ ∀ s', step s i = some s' → Along step Q s' is := by
  constructor
  · intro h
    refine ⟨h [] i is rfl s rfl, fun s' hs before j after hsplit t ht => ?_⟩
    refine h (i :: before) j after (by rw [hsplit]; rfl) t ?_
    unfold exec
    rw [hs]
    exact ht
  · intro hthrough before j after hsplit t ht
    obtain ⟨hq, hrest⟩ := hthrough
    cases before with
    | nil =>
        cases hsplit
        cases ht
        exact hq
    | cons k before =>
        cases hsplit
        unfold exec at ht
        cases hk : step s i with
        | none => rw [hk] at ht; cases ht
        | some s' =>
            rw [hk] at ht
            exact hrest s' hk before j after rfl t ht

/-- Along a step whose outcome is known. -/
theorem along_cons_of_step {Q : σ → ι → Prop} {s s' : σ} {i : ι}
    {is : List ι} (h : step s i = some s') :
    Along step Q s (i :: is) ↔ Q s i ∧ Along step Q s' is := by
  rw [along_cons]
  refine and_congr_right fun _ => ⟨fun hrest => hrest s' h, ?_⟩
  intro hrest t ht
  rw [h] at ht
  cases ht
  exact hrest

/-- Properties that agree on every state and input agree along runs. -/
theorem along_congr {Q Q' : σ → ι → Prop} (h : ∀ s i, Q s i ↔ Q' s i)
    (s : σ) (is : List ι) : Along step Q s is ↔ Along step Q' s is := by
  constructor
  · intro hq before i after hsplit t ht
    exact (h t i).1 (hq before i after hsplit t ht)
  · intro hq before i after hsplit t ht
    exact (h t i).2 (hq before i after hsplit t ht)

/-- Where an invariant of the logged machine makes a property of the log
one of the state, the log can be dropped from the run. -/
theorem along_withLog_iff {upd : γ → σ → ι → γ} {I : σ × γ → Prop}
    {Q : σ × γ → ι → Prop} {good : σ → ι → Prop}
    (hgood : ∀ p i, I p → (Q p i ↔ good p.1 i))
    (hkeep : ∀ p i p', I p → Q p i → withLog step upd p i = some p' →
      I p') :
    ∀ (is : List ι) (p : σ × γ), I p →
      (Along (withLog step upd) Q p is ↔ Along step good p.1 is) := by
  intro is
  induction is with
  | nil => intro p _; exact ⟨fun _ => along_nil, fun _ => along_nil⟩
  | cons i is ih =>
      intro p hp
      rw [along_cons, along_cons, hgood p i hp]
      refine and_congr_right fun hg => ?_
      have hq := (hgood p i hp).2 hg
      constructor
      · intro h s' hs
        have hp' : withLog step upd p i = some (s', upd p.2 p.1 i) :=
          withLog_eq_some.2 ⟨hs, rfl⟩
        exact (ih _ (hkeep p i _ hp hq hp')).1 (h _ hp')
      · intro h p' hp'
        refine (ih p' (hkeep p i p' hp hq hp')).2 (h p'.1 ?_)
        exact (withLog_eq_some.1 hp').1

/-- `good` holds of every input along the abstract run. -/
def Through {α : Type*} (next : α → ι → α) (good : α → ι → Prop) :
    α → List ι → Prop
  | _, [] => True
  | a, i :: is => good a i ∧ Through next good (next a i) is

/-- A simulation that decides the property carries it over whole
runs. -/
theorem along_iff_through {α : Type*} {next : α → ι → α}
    {good : α → ι → Prop} {R : α → σ → Prop} {Q : σ → ι → Prop}
    (hsim : ∀ a s i, R a s → ∃ s', step s i = some s' ∧ R (next a i) s')
    (hgood : ∀ a s i, R a s → (Q s i ↔ good a i)) :
    ∀ (is : List ι) (a : α) (s : σ), R a s →
      (Along step Q s is ↔ Through next good a is) := by
  intro is
  induction is with
  | nil => intro a s _; exact ⟨fun _ => trivial, fun _ => along_nil⟩
  | cons i is ih =>
      intro a s hr
      obtain ⟨s', hs, hr'⟩ := hsim a s i hr
      rw [along_cons_of_step hs, hgood a s i hr, ih (next a i) s' hr']
      exact Iff.rfl

end Lcom.Machine
