/-
Replaying a run of the main loop by computation.

`replay` runs `swiftStep` on the board dealt in order. Its guard is a
test: `noTest` for every run, `admits` for the runs without a slip. What
a replay shows of its last state is true of a reachable one
(`reach_of_replay`), with the history of the run
(`watchedReach_of_replay`).

The notifications of a scripted player are a key, a tick, and a drag of
the cursor by whole cards with the button held. A `Script` is a list of
them that carries what its replay shows.
-/
import Lcom.Proj.Slip
import Lcom.Proj.Proofs.Deal
import Lcom.Proj.Proofs.Swift

namespace Lcom.Proj

open Machine

-- ========================================================== the guards

/-- The test that admits everything. -/
def noTest : State → Notification → Bool := fun _ _ => true

theorem noTest_anyStep (s : State) (n : Notification)
    (_ : noTest s n = true) : anyStep s n := trivial

instance (t : State) : Decidable (ThirdCardSlips t) :=
  inferInstanceAs (Decidable (_ ∧ _ ∧ _ ∧ ∃ _, _))

/-- The test for `noSlip`. -/
def admits (s : State) (n : Notification) : Bool :=
  match input mode0x115 s n with
  | some (s₁, false) =>
      !(n.timer && decide (s₁.gs = .game) && !s₁.initGame
        && s₁.board.anyFlipping
        && decide (ThirdCardSlips (timerIntHandler s₁)))
  | _ => true

theorem admits_noSlip (s : State) (n : Notification)
    (h : admits s n = true) : noSlip s n := by
  intro t hex hgs hinit hslip
  obtain ⟨s₁, hin, htim, rfl⟩ := hex
  unfold admits at h
  rw [hin] at h
  have hgs' : s₁.gs = .game := hgs
  have hinit' : s₁.initGame = false := hinit
  have hany : s₁.board.anyFlipping = true := by
    obtain ⟨-, -, -, j, hj, -⟩ := hslip
    exact anyFlipping_iff.2 ⟨j, hj.1⟩
  simp [htim, hgs', hinit', hany, hslip] at h

-- ========================================================= the replays

/-- Replay notifications on the board dealt in order. -/
def replay (test : State → Notification → Bool) (ns : List Notification) :
    Option State :=
  execForced State.force (restrict test swiftStep) (start orderedCards) ns

theorem start_reach (ok : State → Notification → Prop) :
    Reach ok (start orderedCards) :=
  .start ⟨orderedRands, orderedCards, orderedRands_deal, rfl⟩

/-- What a replay shows of its last state is true of a reachable
one. -/
theorem reach_of_replay {ok : State → Notification → Prop}
    {test : State → Notification → Bool}
    (htest : ∀ s n, test s n = true → ok s n) (ns : List Notification)
    {P : State → Bool} (h : (replay test ns).any P = true) :
    ∃ s, Reach ok s ∧ P s = true := by
  unfold replay at h
  rw [execForced_eq State.force_eq,
    show swiftStep = step mode0x115 from
      funext fun s => funext fun n => swiftStep_eq s n] at h
  cases hs : exec (restrict test (step mode0x115)) (start orderedCards) ns with
  | none => rw [hs] at h; cases h
  | some s =>
      rw [hs] at h
      exact ⟨s, reachable_of_exec htest (start_reach ok) hs, h⟩

/-- Some card comes face up between the two boards, seen from their
rows. -/
def anyTurnsUp (b b' : Board) : Bool :=
  (b.cardArray.toList.zip b'.cardArray.toList).any fun p =>
    p.1.isFlipped && !p.2.isFlipped

theorem anyTurnsUp_of_turnsUp {b b' : Board} {j : Fin 16}
    (h : turnsUp b b' j = true) : anyTurnsUp b b' = true := by
  unfold anyTurnsUp
  rw [zip_rows, List.any_map]
  exact List.any_eq_true.2 ⟨j, List.mem_finRange j, h⟩

/-- `History.update`, which counts only when a card comes up. -/
def swiftUpdate (h : History) (s s' : State) : History :=
  if anyTurnsUp s.board s'.board then h.update s s'
  else if Deals s s' then h.update s s' else h

theorem swiftUpdate_eq : swiftUpdate = History.update := by
  funext h s s'
  unfold swiftUpdate
  split
  · rfl
  · next hup =>
      split
      · rfl
      · next hd =>
          have hzero : newMismatches s.board s'.board = 0 :=
            newMismatches_eq_zero fun j hj =>
              absurd (anyTurnsUp_of_turnsUp hj) hup
          rw [History.update_keeps hd, hzero, Nat.add_zero]

/-- The same replay, with the history of the run. -/
def watchedReplay (test : State → Notification → Bool)
    (ns : List Notification) : Option (State × History) :=
  execForced (fun p k => p.1.force fun s => k (s, p.2))
    (restrict (fun p n => test p.1 n)
      (withHistory swiftStep swiftUpdate))
    (start orderedCards, { dealt := orderedCards, revealed := 0 }) ns

theorem watchedReach_of_replay {ok : State → Notification → Prop}
    {test : State → Notification → Bool}
    (htest : ∀ s n, test s n = true → ok s n) (ns : List Notification)
    {P : State × History → Bool}
    (h : (watchedReplay test ns).any P = true) :
    ∃ p, WatchedReach ok p ∧ P p = true := by
  unfold watchedReplay at h
  rw [execForced_eq (fun (p : State × History) k => State.force_eq p.1 _),
    swiftUpdate_eq, show swiftStep = step mode0x115 from
      funext fun s => funext fun n => swiftStep_eq s n] at h
  cases hp : exec (restrict (fun p n => test p.1 n) watchedStep)
      (start orderedCards, { dealt := orderedCards, revealed := 0 }) ns with
  | none =>
      unfold watchedStep at hp
      rw [hp] at h
      cases h
  | some p =>
      have hstart : WatchedReach ok
          (start orderedCards, { dealt := orderedCards, revealed := 0 }) :=
        .start ⟨orderedRands, orderedCards, orderedRands_deal, rfl⟩
      have hok : ∀ (p : State × History) n, test p.1 n = true → ok p.1 n :=
        fun p n => htest p.1 n
      refine ⟨p, reachable_of_exec hok hstart hp, ?_⟩
      unfold watchedStep at hp
      rw [hp] at h
      exact h

/-- A step of the loop, found by evaluating it. -/
theorem step_of_swift {s : State} {n : Notification} {P : State → Bool}
    (h : (swiftStep s n).any P = true) :
    ∃ s', step mode0x115 s n = some s' ∧ P s' = true := by
  rw [swiftStep_eq] at h
  cases hs : step mode0x115 s n with
  | none => rw [hs] at h; cases h
  | some s' =>
      rw [hs] at h
      exact ⟨s', rfl, h⟩

-- ==================================================== a scripted player

/-- A timer interrupt alone. -/
def tick : Notification :=
  { keyboard := none, mouse := none, timer := true, rands := [] }

/-- A timer interrupt at which `rand` would deal the ordered board. -/
def dealTick : Notification := { tick with rands := orderedRands }

def ticks (n : Nat) : List Notification := List.replicate n tick

/-- The tick from any state sees it with the counter advanced. -/
theorem tickState_tick (s : State) :
    TickState mode0x115 s tick (timerIntHandler s) := ⟨s, rfl, rfl, rfl⟩

/-- A tick of a running loop is the `switch` alone. -/
theorem step_tick {m : ModeInfo} {s : State} (h : s.condition = true) :
    step m s tick = stateTick m (timerIntHandler s) [] := by
  unfold step
  rw [h]
  rfl

/-- A key. -/
def key (code : UInt8) : Notification :=
  { keyboard := some { reads := ⟨some 0x01, some code⟩, junk := 0 }
    mouse := none, timer := false, rands := [] }

/-- A key and a timer interrupt in one notification. -/
def keyTick (code : UInt8) : Notification :=
  { key code with timer := true }

/-- A byte of the mouse. -/
def mouseByte (byte : UInt8) : Notification :=
  { keyboard := none, mouse := some [⟨some 0x21, some byte⟩]
    timer := false, rands := [] }

/-- A packet with the left button down, and one with no movement after
it. Each byte in between moves the cursor once more. -/
def drag (dx dy : Int) : List Notification :=
  [mouseByte ((if dx < 0 then 0x19 else 0x09)
      ||| (if dy < 0 then 0x20 else 0)),
    mouseByte (UInt8.ofNat (dx % 256).toNat),
    mouseByte (UInt8.ofNat (dy % 256).toNat),
    mouseByte 0x09, mouseByte 0, mouseByte 0]

/-- Drag the cursor by columns and rows of cards. -/
def shift (columns rows : Int) : List Notification :=
  drag (66 * columns) (-76 * rows)

/-- Start the game and press the button over card 0. -/
def opening : List Notification :=
  key pKeyBreakcode :: tick :: drag 158 (-80)

/-- Cards 0 and 1 turned up five times over, up to the last click. -/
def fiveMismatches : List Notification :=
  opening ++ ticks 241 ++ shift 1 0 ++ ticks 94 ++ shift (-1) 0
    ++ ticks 94 ++ shift 1 0 ++ ticks 94 ++ shift (-1) 0 ++ ticks 94
    ++ shift 1 0

/-- The eight pairs of the board dealt in order, one after the other, up
to the last click. -/
def eightPairs : List Notification :=
  opening ++ ticks 282 ++ shift 3 3 ++ ticks 42
    -- cards 14 and 1, 2 and 13
    ++ shift (-1) 0 ++ ticks 42
    ++ shift (-1) (-1) ++ shift 0 (-1) ++ shift 0 (-1) ++ ticks 42
    ++ shift 1 0 ++ ticks 42 ++ shift (-1) 3 ++ ticks 42
    -- cards 12 and 3, 7 and 8
    ++ shift (-1) 0 ++ ticks 42
    ++ shift 3 (-1) ++ shift 0 (-1) ++ shift 0 (-1) ++ ticks 42
    ++ shift 0 1 ++ ticks 42 ++ shift (-3) 1 ++ ticks 42
    -- cards 9 and 6, 5 and 10, 11 and 4
    ++ shift 1 0 ++ ticks 42 ++ shift 1 (-1) ++ ticks 42
    ++ shift (-1) 0 ++ ticks 42 ++ shift 1 1 ++ ticks 42
    ++ shift 1 0 ++ ticks 42 ++ shift (-3) (-1)

-- ============================================================= scripts

/-- Notifications, with what their replay shows of the last state. -/
structure Script (test : State → Notification → Bool)
    (P : State → Bool) where
  notifications : List Notification
  shows : (replay test notifications).any P = true

section

variable {ok : State → Notification → Prop}
  {test : State → Notification → Bool} {P : State → Bool}

theorem Script.reach (r : Script test P)
    (htest : ∀ s n, test s n = true → ok s n) :
    ∃ s, Reach ok s ∧ P s = true :=
  reach_of_replay htest r.notifications r.shows

/-- The next tick is admitted and ends in a state with `P`. -/
def afterTick (test : State → Notification → Bool) (P : State → Bool) :
    State → Bool :=
  fun s => test s tick && (swiftStep s tick).any P

/-- What a script shows of the tick after it is true at the end of a
tick. -/
theorem Script.endOfTick (r : Script test (afterTick test P))
    (htest : ∀ s n, test s n = true → ok s n) :
    ∃ s, EndOfTick ok s ∧ P s = true := by
  obtain ⟨s, hs, hP⟩ := r.reach htest
  unfold afterTick at hP
  rw [Bool.and_eq_true, swiftStep_eq] at hP
  cases hstep : step mode0x115 s tick with
  | none => rw [hstep] at hP; cases hP.2
  | some s' =>
      rw [hstep] at hP
      exact ⟨s', ⟨s, tick, _, hs, htest s tick hP.1, tickState_tick s,
        hstep⟩, hP.2⟩

end

/-- The same, with what the replay shows of the history. -/
structure WatchedScript (test : State → Notification → Bool)
    (P : State × History → Bool) where
  notifications : List Notification
  shows : (watchedReplay test notifications).any P = true

theorem WatchedScript.reach {ok : State → Notification → Prop}
    {test : State → Notification → Bool} {P : State × History → Bool}
    (r : WatchedScript test P)
    (htest : ∀ s n, test s n = true → ok s n) :
    ∃ p, WatchedReach ok p ∧ P p = true :=
  watchedReach_of_replay htest r.notifications r.shows

end Lcom.Proj
