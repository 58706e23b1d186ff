/-
The main loop, with the click's accesses checked.

`step` takes a click on no card to change nothing. In the source such a
click reads `cardArray[posInArray]` with an index that was never
assigned, so what the process does from there on is not determined.
`stepChecked` is the loop over `flipCardOnClickChecked`: it has no result
at a tick that handles such a click (`ClicksGap`).

Where it has a result it is `step`'s (`step_of_checked`), so what holds
of every run of `step` holds of the runs the source determines. What is
said to be possible, or never to stop, is said of `stepChecked`.
-/
import Lcom.Proj.Slip
import Lcom.Proj.Proofs.ClickAccess

namespace Lcom.Proj

-- ============================================================ the loop

/-- The click of `case Game`, as in `clickPhase`, with its accesses
checked. -/
def clickPhaseChecked (m : ModeInfo) (s : State) : Option State :=
  if s.lb then
    if s.board.anyFlipping then some { s with isAnyCardFlipping := true }
    else
      (flipCardOnClickChecked m s.mouse s.board.cardArray).map fun cards =>
        { s with
          isAnyCardFlipping := false
          board := { s.board with cardArray := cards } }
  else some { s with isAnyCardFlipping := false }

/-- What a playing tick draws first: the board, on even ticks. -/
def drawnTick (m : ModeInfo) (s : State) : Option State :=
  if s.tmrTckCounter % 2 = 0 then draw m s else some s

/-- `case Game`. -/
def gameTickChecked (m : ModeInfo) (s : State) : Option State :=
  if s.initGame then draw m (previewStart s)
  else do
    let s ← drawnTick m s
    let s ← clickPhaseChecked m (pauseKey s)
    return victoryPhase (matchPhase s)

/-- `switch (gs)` of the timer branch. -/
def stateTickChecked (m : ModeInfo) (s : State) (rands : List Rand) :
    Option State :=
  if s.gs = .game then gameTickChecked m s else stateTick m s rands

/-- One turn of `while (condition)`. -/
def stepChecked (m : ModeInfo) (s : State) (n : Notification) :
    Option State :=
  if s.condition then
    match input m s n with
    | none => none
    | some (s, skip) =>
        if n.timer && !skip then
          stateTickChecked m (timerIntHandler s) n.rands
        else some s
  else none

/-- The button is down on no card, with no card turning. -/
def ClicksNoCard (m : ModeInfo) (s : State) : Prop :=
  s.lb = true ∧ s.board.anyFlipping = false
    ∧ ∀ k, onCard m s.mouse k = false

/-- The tick from `t` handles a click on no card, once it has drawn. -/
def ClicksGap (m : ModeInfo) (t : State) : Prop :=
  t.gs = .game ∧ t.initGame = false
    ∧ ∃ u, drawnTick m t = some u ∧ ClicksNoCard m u

variable {m : ModeInfo}

theorem clickPhaseChecked_none {s : State} (h : ClicksNoCard m s) :
    clickPhaseChecked m s = none := by
  obtain ⟨hlb, hany, hoff⟩ := h
  unfold clickPhaseChecked
  rw [if_pos hlb, hany, if_neg (by decide), flipCardOnClickChecked_off hoff]
  rfl

theorem clickPhaseChecked_some {s : State} (h : ¬ClicksNoCard m s) :
    clickPhaseChecked m s = some (clickPhase m s) := by
  unfold clickPhaseChecked clickPhase
  cases hlb : s.lb with
  | false => rfl
  | true =>
      cases hany : s.board.anyFlipping with
      | true => rfl
      | false =>
          obtain ⟨k, hk⟩ : ∃ k, onCard m s.mouse k = true := by
            by_contra hoff
            refine h ⟨hlb, hany, fun k => ?_⟩
            exact Bool.eq_false_iff.2 fun hk => hoff ⟨k, hk⟩
          rw [if_pos rfl, if_pos rfl, if_neg (by decide),
            if_neg (by decide), flipCardOnClickChecked_on hk]
          rfl

/-- The pause key leaves the click as it is. -/
theorem clicksNoCard_pauseKey {s : State} :
    ClicksNoCard m (pauseKey s) ↔ ClicksNoCard m s := by
  unfold pauseKey
  split <;> exact Iff.rfl

/-- A tick of the game that handles such a click has no result, and any
other is the tick of the loop. -/
theorem gameTickChecked_cases {t : State} (hgs : t.gs = .game) :
    (ClicksGap m t ∧ gameTickChecked m t = none)
      ∨ (¬ClicksGap m t ∧ gameTickChecked m t = gameTick m t) := by
  unfold gameTickChecked gameTick playUntilMatch
  cases hinit : t.initGame with
  | true =>
      refine .inr ⟨fun hgap => ?_, rfl⟩
      rw [hgap.2.1] at hinit
      cases hinit
  | false =>
      rw [if_neg (by decide), if_neg (by decide)]
      change (ClicksGap m t ∧ (drawnTick m t).bind _ = none)
        ∨ (¬ClicksGap m t ∧ (drawnTick m t).bind _
          = ((drawnTick m t).map _).map _)
      cases hdrawn : drawnTick m t with
      | none =>
          refine .inr ⟨fun hgap => ?_, rfl⟩
          obtain ⟨-, -, u, hu, -⟩ := hgap
          rw [hdrawn] at hu
          cases hu
      | some u =>
          by_cases hclick : ClicksNoCard m u
          · refine .inl ⟨⟨hgs, hinit, u, hdrawn, hclick⟩, ?_⟩
            rw [Option.bind_some,
              clickPhaseChecked_none (clicksNoCard_pauseKey.2 hclick)]
            rfl
          · refine .inr ⟨fun hgap => ?_, ?_⟩
            · obtain ⟨-, -, u', hu', hclick'⟩ := hgap
              rw [hdrawn] at hu'
              cases hu'
              exact hclick hclick'
            · rw [Option.bind_some, clickPhaseChecked_some
                fun h => hclick (clicksNoCard_pauseKey.1 h)]
              rfl

theorem stateTickChecked_cases (t : State) (rands : List Rand) :
    (ClicksGap m t ∧ stateTickChecked m t rands = none)
      ∨ (¬ClicksGap m t
        ∧ stateTickChecked m t rands = stateTick m t rands) := by
  unfold stateTickChecked
  by_cases hgs : t.gs = .game
  · have hstate : stateTick m t rands = gameTick m t := by
      unfold stateTick
      rw [hgs]
    rw [if_pos hgs, hstate]
    exact gameTickChecked_cases hgs
  · rw [if_neg hgs]
    exact .inr ⟨fun hgap => hgs hgap.1, rfl⟩

/-- Without such a click the two loops do the same. -/
theorem stepChecked_eq {s : State} {n : Notification}
    (h : ∀ t, TickState m s n t → ¬ClicksGap m t) :
    stepChecked m s n = step m s n := by
  unfold stepChecked step
  split
  · cases hin : input m s n with
    | none => rfl
    | some q =>
        obtain ⟨s₁, skip⟩ := q
        dsimp only
        split
        · next htick =>
            rw [Bool.and_eq_true, Bool.not_eq_true'] at htick
            obtain ⟨htim, rfl⟩ := htick
            rcases stateTickChecked_cases (m := m) (timerIntHandler s₁)
              n.rands with ⟨hgap, -⟩ | ⟨-, heq⟩
            · exact absurd hgap (h _ ⟨s₁, hin, htim, rfl⟩)
            · exact heq
        · rfl
  · rfl

/-- The checked loop has no result exactly where the loop has none, or
the tick handles such a click. -/
theorem stepChecked_eq_none {s : State} {n : Notification} :
    stepChecked m s n = none
      ↔ step m s n = none ∨ ∃ t, TickState m s n t ∧ ClicksGap m t := by
  by_cases hgap : ∃ t, TickState m s n t ∧ ClicksGap m t
  · refine iff_of_true ?_ (.inr hgap)
    obtain ⟨t, ⟨s₁, hin, htim, rfl⟩, hgap⟩ := hgap
    unfold stepChecked
    rw [hin, htim]
    split
    · rcases stateTickChecked_cases (m := m) (timerIntHandler s₁) n.rands
        with ⟨-, hnone⟩ | ⟨hno, -⟩
      · exact hnone
      · exact absurd hgap hno
    · rfl
  · rw [stepChecked_eq fun t hts hclick => hgap ⟨t, hts, hclick⟩,
      or_iff_left hgap]

/-- A step of the checked loop is one of the loop. -/
theorem step_of_checked {s s' : State} {n : Notification}
    (h : stepChecked m s n = some s') : step m s n = some s' := by
  rw [← h]
  refine (stepChecked_eq fun t hts hgap => ?_).symm
  rw [stepChecked_eq_none.2 (.inr ⟨t, hts, hgap⟩)] at h
  cases h

/-- Drawing leaves button and cursor alone. -/
theorem drawnTick_frame {t u : State} (h : drawnTick m t = some u) :
    u.lb = t.lb ∧ u.mouse = t.mouse := by
  unfold drawnTick at h
  split at h
  · obtain ⟨b, -, rfl⟩ := Option.map_eq_some_iff.1 h
    exact ⟨rfl, rfl⟩
  · cases h
    exact ⟨rfl, rfl⟩

/-- With the button up, or on a card, a tick clicks no gap. -/
theorem not_clicksGap {t : State}
    (h : t.lb = true → ∃ k, onCard m t.mouse k = true) :
    ¬ClicksGap m t := by
  intro hgap
  obtain ⟨-, -, u, hu, hlb, -, hoff⟩ := hgap
  obtain ⟨hlb', hmouse⟩ := drawnTick_frame hu
  obtain ⟨k, hk⟩ := h (hlb'.symm.trans hlb)
  rw [← hmouse, hoff k] at hk
  cases hk

end Lcom.Proj
