/-
Ticks that are lost.

The mouse branch leaves a notification through `continue` while a read
error is pending, and the timer bit of that notification goes with it:
neither `timer_int_handler` nor the tick runs (`SkipsTick`). Nor do they
while `mouse_ih` finds no byte to read: its loop has no bound, and the
timer branch comes after it. `LosesTick` is the two together, in terms of
what the driver reads and where it stands; nothing else loses a tick, in
the project or in lab4's `mouse_test_async`.

A run is watched by a log that counts the notifications with the timer
bit since the counter was last reset (`ticksSinceReset`).
-/
import Lcom.Lab4.MouseAsync
import Lcom.Proj.Proofs.Latches
import Lcom.Proj.Proofs.Replay

namespace Lcom.Proj

open Machine

-- ===================================================== the main loop

/-- Choosing Play in the menu resets the counter, within its tick. -/
def State.resetsCounter (t : State) : Bool :=
  decide (t.gs = .menu) && t.chosePlay

/-- The notifications with the timer bit since the last reset. -/
def ticksSinceReset (count : Nat) (s : State) (n : Notification) : Nat :=
  if (tickState mode0x115 s n).any State.resetsCounter then 0
  else count + n.timer.toNat

/-- The loop with its tick count. -/
abbrev countedStep : State × Nat → Notification → Option (State × Nat) :=
  withLog (step mode0x115) ticksSinceReset

/-- A running loop that receives the timer bit comes to the timer branch
and runs its tick, which makes the state the notification leaves; and
with or without the bit, the counter is left at the count. -/
def KeepsTick (p : State × Nat) (n : Notification) : Prop :=
  (p.1.condition = true → n.timer = true →
    ∃ t, TickState mode0x115 p.1 n t
      ∧ step mode0x115 p.1 n = stateTick mode0x115 t n.rands)
    ∧ ∀ p', countedStep p n = some p' → p'.1.tmrTckCounter = p'.2

/-- No tick of the run is lost. -/
def NoTickLost (cards : Cards) (ns : List Notification) : Prop :=
  Along countedStep KeepsTick (start cards, 0) ns

/-- The notification has the timer bit, and the mouse bit with a read
that is in error or finds an error pending, at another byte than the
second of a packet. -/
def SkipsTick (s : State) (n : Notification) : Prop :=
  s.condition = true ∧ n.timer = true
    ∧ ∃ reads r, n.mouse = some reads ∧ mouseRead reads = some r
      ∧ (r.isError || s.driver.readingError) = true
      ∧ s.driver.counter ≠ 1

/-- The tick is skipped, or the mouse handler is still polling. -/
def LosesTick (s : State) (n : Notification) : Prop :=
  SkipsTick s n
    ∨ s.condition = true ∧ n.timer = true
      ∧ ∃ reads, n.mouse = some reads ∧ StillPolling reads

-- ======================================================== the counter

/-- A tick of the game leaves the counter alone. -/
theorem gameTick_counter {s s' : State}
    (h : gameTick mode0x115 s = some s') :
    s'.tmrTckCounter = s.tmrTckCounter := by
  unfold gameTick at h
  cases hinit : s.initGame with
  | true =>
      rw [hinit, if_pos rfl] at h
      obtain ⟨b, -, rfl⟩ := Option.map_eq_some_iff.1 h
      show (previewStart s).tmrTckCounter = s.tmrTckCounter
      unfold previewStart
      split <;> rfl
  | false =>
      rw [hinit, if_neg (by decide)] at h
      obtain ⟨u, hu, rfl⟩ := Option.map_eq_some_iff.1 h
      have hplay := (playUntilMatch_frame hu).2.2.2.2.1
      have hmatch := (matchPhase_frame u).tmrTckCounter
      rcases victoryPhase_cases (matchPhase u) with hv | ⟨-, hv⟩
      · rw [hv]
        exact hmatch.trans hplay
      · rw [hv]
        exact hmatch.trans hplay

/-- Only Play in the menu resets the counter. -/
theorem TickMoves.counter {t s' : State} {ms : List Trigger}
    (hs : TickMoves mode0x115 t ms s') :
    s'.tmrTckCounter = if t.resetsCounter then 0 else t.tmrTckCounter := by
  have hplay : t.chosePlay = t.playTrigger.isSome := trigger_isSome.symm
  unfold State.resetsCounter
  rw [hplay]
  cases hs with
  | menu hgs hm =>
      cases hm with
      | play hc => simp [hgs, hc, State.clearLb]
      | instructions hc => simp [hc, State.clearLb]
      | instructionsExit hon hcode =>
          have hnone : t.playTrigger = none := by
            refine trigger_eq_none.2 ⟨by rw [hcode]; decide, ?_⟩
            cases hp : t.onPlay with
            | false => rfl
            | true => rw [onInstructions_of_onPlay hp] at hon; cases hon
          simp [hnone, State.clearLb]
      | exit hc => simp [hc]
      | stay hc => simp [hc]
  | game hgs hs => simpa [hgs] using gameTick_counter hs
  | pause hgs hm => cases hm <;> simp [hgs, State.clearLb]
  | instructions hgs hm => cases hm <;> simp [hgs, State.clearLb]
  | restart hgs => simp [hgs, restarted]
  | outcome hgs => simp [hgs]
  | unused hgs => rcases hgs with h | h <;> simp [h]

/-- The mouse branch skips the tick where an error is read or pending,
but for the second byte. -/
theorem input_skip_iff {m : ModeInfo} {s s₁ : State} {n : Notification}
    {skip : Bool} (h : input m s n = some (s₁, skip)) :
    skip = true ↔ ∃ reads r, n.mouse = some reads
      ∧ mouseRead reads = some r
      ∧ (r.isError || s.driver.readingError) = true
      ∧ s.driver.counter ≠ 1 := by
  rcases input_cases h with ⟨hm, rfl, -⟩ | ⟨reads, r, hm, hr, hskip, -⟩
  · simp [hm]
  · rw [hskip, dispatch_skip_iff]
    constructor
    · intro hlost
      exact ⟨reads, r, hm, hr, hlost⟩
    · intro hex
      obtain ⟨reads', r', hreads, hr', hlost⟩ := hex
      rw [hm] at hreads
      cases hreads
      rw [hr] at hr'
      cases hr'
      exact hlost

/-- With the timer bit a running loop comes to its timer branch, unless
it is one of the two. -/
theorem tickState_of_kept {s : State} {n : Notification}
    (hc : s.condition = true) (htim : n.timer = true)
    (hnot : ¬LosesTick s n) :
    ∃ t, TickState mode0x115 s n t
      ∧ step mode0x115 s n = stateTick mode0x115 t n.rands := by
  cases hin : input mode0x115 s n with
  | none => exact absurd (.inr ⟨hc, htim, input_eq_none.1 hin⟩) hnot
  | some q =>
      obtain ⟨s₁, skip⟩ := q
      cases hskip : skip with
      | true =>
          exact absurd (.inl ⟨hc, htim, (input_skip_iff hin).1 hskip⟩) hnot
      | false =>
          subst hskip
          refine ⟨_, ⟨s₁, hin, htim, rfl⟩, ?_⟩
          unfold step
          rw [hc, hin, htim]
          rfl

/-- Neither of the two comes to the timer branch. -/
theorem not_tickState_of_lost {s t : State} {n : Notification}
    (h : LosesTick s n) : ¬TickState mode0x115 s n t := by
  intro hts
  obtain ⟨s₁, hin, -⟩ := hts
  rcases h with ⟨-, -, hskip⟩ | ⟨-, -, hpoll⟩
  · cases (input_skip_iff hin).2 hskip
  · rw [input_eq_none.2 hpoll] at hin
    cases hin

/-- Where the counter agrees with the count, a notification keeps its
tick unless it is one that loses it. -/
theorem keepsTick_iff {p : State × Nat} (hp : p.1.tmrTckCounter = p.2)
    (n : Notification) : KeepsTick p n ↔ ¬LosesTick p.1 n := by
  constructor
  · intro hkeep hlost
    obtain ⟨hcond, htim⟩ : p.1.condition = true ∧ n.timer = true := by
      rcases hlost with h | h <;> exact ⟨h.1, h.2.1⟩
    obtain ⟨t, hts, -⟩ := hkeep.1 hcond htim
    exact not_tickState_of_lost hlost hts
  · intro hnot
    refine ⟨fun hc htim => tickState_of_kept hc htim hnot, fun p' hp' => ?_⟩
    obtain ⟨hs, hcount⟩ := withLog_eq_some.1 hp'
    rcases step_cases hs with ⟨t, hts, ht, htick⟩ | ⟨ht, skip, hin, htim⟩
    · rw [hcount, (stateTick_moves htick).counter, hts.frame.2.2, hp]
      unfold ticksSinceReset
      rw [ht]
      obtain ⟨-, -, hbit, -⟩ := hts
      simp [hbit]
    · -- no tick ran, so there was no timer bit
      have hbit : n.timer = false := by
        cases hbit : n.timer with
        | false => rfl
        | true =>
            rw [hbit, Bool.true_and, Bool.not_eq_false'] at htim
            exact absurd (.inl ⟨step_condition hs, hbit,
              (input_skip_iff hin).1 htim⟩) hnot
      rw [hcount, (input_frame hin).2.2, hp]
      unfold ticksSinceReset
      rw [ht, hbit]
      rfl

/-- Exactly the notifications of `LosesTick` lose a tick of the main
loop. -/
theorem noTickLost_iff (cards : Cards) (ns : List Notification) :
    NoTickLost cards ns
      ↔ Along (step mode0x115) (fun s n => ¬LosesTick s n) (start cards) ns
    := by
  refine along_withLog_iff
    (I := fun p : State × Nat => p.1.tmrTckCounter = p.2)
    (fun p n hp => keepsTick_iff hp n) ?_ ns (start cards, 0) rfl
  intro p n p' _ hkeep hp'
  exact hkeep.2 p' hp'

end Lcom.Proj

-- ============================================================== lab4

namespace Lcom.Lab4

open Machine Proj

/-- The notifications with the timer bit since the last mouse
notification, which resets the counter. -/
def ticksSinceReset (count : Nat) (_ : AsyncState) (n : AsyncNotification) :
    Nat :=
  (if n.mouse.isSome then 0 else count) + n.timer.toNat

/-- A running test that receives the timer bit comes to the timer branch
and counts there; and with or without the bit, the idle counter is left
at the count. -/
def KeepsTick (idleTime : UInt8) (p : AsyncState × Nat)
    (n : AsyncNotification) : Prop :=
  (p.1.tmrTckCounter < idleTime.toNat * 60 → n.timer = true →
    ∃ s₁, input p.1 n.mouse = some (s₁, false)
      ∧ step idleTime p.1 n = some (timerBranch s₁ true))
    ∧ ∀ p', withLog (step idleTime) ticksSinceReset p n = some p' →
      p'.1.tmrTckCounter = p'.2

/-- No tick of the test is lost. -/
def NoTickLost (idleTime : UInt8) (ns : List AsyncNotification) : Prop :=
  Along (withLog (step idleTime) ticksSinceReset) (KeepsTick idleTime)
    (AsyncState.init, 0) ns

/-- As in the main loop. -/
def LosesTick (idleTime : UInt8) (s : AsyncState) (n : AsyncNotification) :
    Prop :=
  s.tmrTckCounter < idleTime.toNat * 60 ∧ n.timer = true
    ∧ ∃ reads, n.mouse = some reads
      ∧ (StillPolling reads ∨ ∃ r, mouseRead reads = some r
        ∧ (r.isError || s.driver.readingError) = true
        ∧ s.driver.counter ≠ 1)

theorem timerBranch_counter (s : AsyncState) (timer : Bool) :
    (timerBranch s timer).tmrTckCounter
      = s.tmrTckCounter + timer.toNat := by
  cases timer <;> rfl

/-- One turn of the test: without the mouse bit the timer branch alone,
with it the counter restarts and the `continue` may follow. -/
theorem step_cases {idleTime : UInt8} {s s' : AsyncState}
    {n : AsyncNotification} (h : step idleTime s n = some s') :
    (n.mouse = none ∧ s'.tmrTckCounter = s.tmrTckCounter + n.timer.toNat)
      ∨ ∃ reads r, n.mouse = some reads ∧ mouseRead reads = some r
        ∧ s'.tmrTckCounter
          = if (s.driver.after r).dispatch = .skip then 0
            else n.timer.toNat := by
  unfold step at h
  split at h
  · obtain ⟨q, hin, rfl⟩ := Option.map_eq_some_iff.1 h
    unfold input at hin
    cases hm : n.mouse with
    | none =>
        rw [hm] at hin
        cases hin
        exact .inl ⟨rfl, timerBranch_counter s n.timer⟩
    | some reads =>
        rw [hm] at hin
        unfold mouseBranch at hin
        dsimp only at hin
        rw [mouseIh_eq, Option.map_map] at hin
        obtain ⟨r, hr, rfl⟩ := Option.map_eq_some_iff.1 hin
        refine .inr ⟨reads, r, rfl, hr, ?_⟩
        by_cases hskip : (s.driver.after r).dispatch = .skip
        · simp [hskip]
        · simp [hskip, timerBranch_counter]
  · cases h

/-- Only a running test steps. -/
theorem step_running {idleTime : UInt8} {s s' : AsyncState}
    {n : AsyncNotification} (h : step idleTime s n = some s') :
    s.tmrTckCounter < idleTime.toNat * 60 := by
  unfold step at h
  split at h
  · assumption
  · cases h

/-- The mouse branch comes back with the read, and skips as the main
loop's does. -/
theorem input_mouse {s : AsyncState} {reads : List PortReads}
    {r : MouseRead} (hr : mouseRead reads = some r) :
    ∃ s₁, input s (some reads)
      = some (s₁, decide ((s.driver.after r).dispatch = .skip)) := by
  unfold input mouseBranch
  dsimp only
  rw [mouseIh_eq, hr]
  exact ⟨_, rfl⟩

/-- Without a byte to read it does not come back. -/
theorem input_polling {s : AsyncState} {reads : List PortReads}
    (h : StillPolling reads) : input s (some reads) = none := by
  unfold input mouseBranch
  dsimp only
  rw [mouseIh_eq, mouseRead_eq_none.2 h]
  rfl

/-- The branches before the timer's, where no tick is lost. -/
theorem input_of_kept {idleTime : UInt8} {s : AsyncState}
    {n : AsyncNotification} (hrun : s.tmrTckCounter < idleTime.toNat * 60)
    (htim : n.timer = true) (hnot : ¬LosesTick idleTime s n) :
    ∃ s₁, input s n.mouse = some (s₁, false) := by
  cases hm : n.mouse with
  | none => exact ⟨s, rfl⟩
  | some reads =>
      cases hr : mouseRead reads with
      | none =>
          exact absurd ⟨hrun, htim, reads, hm,
            .inl (mouseRead_eq_none.1 hr)⟩ hnot
      | some r =>
          obtain ⟨s₁, hin⟩ := @input_mouse s _ _ hr
          have hgo : (s.driver.after r).dispatch ≠ .skip := fun hskip =>
            hnot ⟨hrun, htim, reads, hm,
              .inr ⟨r, hr, (dispatch_skip_iff _ _).1 hskip⟩⟩
          rw [decide_eq_false hgo] at hin
          exact ⟨s₁, hin⟩

theorem keepsTick_iff {idleTime : UInt8} {p : AsyncState × Nat}
    (hp : p.1.tmrTckCounter = p.2) (n : AsyncNotification) :
    KeepsTick idleTime p n ↔ ¬LosesTick idleTime p.1 n := by
  constructor
  · intro hkeep hlost
    obtain ⟨hrun, htim, reads, hm, hcase⟩ := hlost
    obtain ⟨s₁, hin, -⟩ := hkeep.1 hrun htim
    rw [hm] at hin
    rcases hcase with hpoll | ⟨r, hr, hskip⟩
    · rw [input_polling hpoll] at hin
      cases hin
    · obtain ⟨s₂, hin₂⟩ := @input_mouse p.1 _ _ hr
      rw [hin₂, decide_eq_true ((dispatch_skip_iff _ _).2 hskip)] at hin
      cases hin
  · intro hnot
    refine ⟨fun hrun htim => ?_, fun p' hp' => ?_⟩
    · obtain ⟨s₁, hin⟩ := input_of_kept hrun htim hnot
      refine ⟨s₁, hin, ?_⟩
      unfold step
      rw [if_pos hrun, hin, htim]
      rfl
    · obtain ⟨hs, hcount⟩ := withLog_eq_some.1 hp'
      rw [hcount]
      unfold ticksSinceReset
      rcases step_cases hs with ⟨hm, hs'⟩ | ⟨reads, r, hm, hr, hs'⟩
      · rw [hs', hm, hp]
        rfl
      · rw [hs', hm]
        by_cases hskip : (p.1.driver.after r).dispatch = .skip
        · -- the branch is left early, so there was no timer bit
          have hbit : n.timer = false := by
            cases hbit : n.timer with
            | false => rfl
            | true =>
                exact absurd ⟨step_running hs, hbit, reads, hm,
                  .inr ⟨r, hr, (dispatch_skip_iff _ _).1 hskip⟩⟩ hnot
          rw [if_pos hskip, hbit]
          rfl
        · rw [if_neg hskip]
          simp

/-- Exactly the notifications of `LosesTick` lose a tick of the test. -/
theorem noTickLost_iff (idleTime : UInt8) (ns : List AsyncNotification) :
    NoTickLost idleTime ns
      ↔ Along (step idleTime) (fun s n => ¬LosesTick idleTime s n)
        AsyncState.init ns := by
  refine along_withLog_iff
    (I := fun p : AsyncState × Nat => p.1.tmrTckCounter = p.2)
    (fun p n hp => keepsTick_iff hp n) ?_ ns (AsyncState.init, 0) rfl
  intro p n p' _ hkeep hp'
  exact hkeep.2 p' hp'

end Lcom.Lab4

-- ======================================================== both loops

namespace Lcom.Proj

open Machine

/-- A tick is lost exactly where a notification with the timer bit also
has the mouse bit, and the mouse handler finds no byte to read, or one
read in error or with an error pending at another byte than the second:
in every run of the main loop, and in every run of lab4's test. -/
theorem no_tick_lost_iff (cards : Cards) (ns : List Notification)
    (idleTime : UInt8) (as : List Lab4.AsyncNotification) :
    (NoTickLost cards ns
        ↔ Along (step mode0x115) (fun s n => ¬LosesTick s n)
          (start cards) ns)
      ∧ (Lab4.NoTickLost idleTime as
        ↔ Along (Lab4.step idleTime)
          (fun s n => ¬Lab4.LosesTick idleTime s n)
          Lab4.AsyncState.init as) :=
  ⟨noTickLost_iff cards ns, Lab4.noTickLost_iff idleTime as⟩

/-- A mouse byte with the parity bit set, as one read. -/
def parityError : List PortReads := [⟨some 0xA1, some 0x08⟩]

/-- The first byte of the mouse arrives with a parity error, together
with a timer interrupt, which is lost. -/
theorem tick_lost :
    ¬NoTickLost orderedCards [{ tick with mouse := some parityError }]
      ∧ ¬Lab4.NoTickLost 1 [{ mouse := some parityError, timer := true }]
    := by
  constructor
  · rw [noTickLost_iff, along_cons]
    intro h
    exact h.1 (.inl ⟨rfl, rfl, parityError, .bad 0x08, rfl, rfl, rfl,
      by decide⟩)
  · rw [Lab4.noTickLost_iff, along_cons]
    intro h
    exact h.1 ⟨by decide, rfl, parityError, rfl,
      .inr ⟨.bad 0x08, rfl, rfl, by decide⟩⟩

end Lcom.Proj
