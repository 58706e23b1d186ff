/-
A latch that calls write to.

A call may never return, or return without storing, or store a value
(`outcome`). `latch` is the latch as it is; `recent accepts` is what it
should hold if only some of the stored values are to be accepted: the
last accepted one, or what it held at first.

The two agree all along a run exactly if every value that is stored
without being accepted is the one the latch holds already
(`latch_recent_iff`).
-/
import Lcom.Machine.Past

namespace Lcom.Machine

variable {β κ : Type*} {outcome : κ → Option (Option β)}
  {accepts : κ → Option β} {init : β}

/-- The latch after a call, if the call returns. -/
def latch (outcome : κ → Option (Option β)) (v : β) (c : κ) : Option β :=
  (outcome c).map fun stored => stored.getD v

/-- The value accepted last. -/
def recent (accepts : κ → Option β) (init : β) (past : List κ) : β :=
  (past.filterMap accepts).getLast?.getD init

/-- At every point of the calls the latch holds what was accepted
last. -/
def HoldsRecent (call : β → κ → Option β) (accepts : κ → Option β)
    (init : β) (calls : List κ) : Prop :=
  ∀ before after, calls = before ++ after →
    ∀ v, exec call init before = some v → v = recent accepts init before

/-- What the call stores is accepted, or held already. -/
def Harmless (outcome : κ → Option (Option β)) (accepts : κ → Option β)
    (v : β) (c : κ) : Prop :=
  ∀ b, outcome c = some (some b) → accepts c = some b ∨ b = v

theorem recent_snoc (past : List κ) (c : κ) :
    recent accepts init (past ++ [c])
      = (accepts c).getD (recent accepts init past) := by
  unfold recent
  rw [List.filterMap_append]
  cases h : accepts c <;> simp [h]

/-- A harmless call leaves the latch at what was accepted last. -/
theorem Harmless.recent_step
    (haccepts : ∀ c b, accepts c = some b → outcome c = some (some b))
    {past : List κ} {c : κ} {v v' : β} (hv : v = recent accepts init past)
    (h : Harmless outcome accepts v c) (hs : latch outcome v c = some v') :
    v' = recent accepts init (past ++ [c]) := by
  rw [recent_snoc, ← hv]
  obtain ⟨stored, houtcome, rfl⟩ := Option.map_eq_some_iff.1 hs
  cases ha : accepts c with
  | none =>
      cases stored with
      | none => rfl
      | some b =>
          rcases h b houtcome with hb | hb
          · rw [ha] at hb
            cases hb
          · exact hb
  | some b =>
      rw [haccepts c b ha] at houtcome
      cases houtcome
      rfl

theorem latch_recent_iff
    (haccepts : ∀ c b, accepts c = some b → outcome c = some (some b))
    (init : β) (calls : List κ) :
    HoldsRecent (latch outcome) accepts init calls
      ↔ Along (latch outcome) (Harmless outcome accepts) init calls := by
  constructor
  · intro h before c after hsplit v hv b hb
    have hnow := h before (c :: after) hsplit v hv
    have hstore : exec (latch outcome) init (before ++ [c]) = some b := by
      rw [exec_snoc, hv]
      simp [latch, hb]
    have hnext := h (before ++ [c]) after (by rw [hsplit]; simp) b hstore
    rw [recent_snoc, ← hnow] at hnext
    cases ha : accepts c with
    | none => rw [ha] at hnext; exact .inr hnext
    | some b' => rw [ha] at hnext; exact .inl (by rw [hnext]; rfl)
  · intro h before after hsplit v hv
    subst hsplit
    exact exec_induction (I := fun past v => v = recent accepts init past)
      rfl (fun _ _ _ _ hv hq hs => hq.recent_step haccepts hv hs) h.left hv

end Lcom.Machine
