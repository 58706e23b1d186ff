/-
When `mouse_test_async` ends.

The idle counter is watched from the last mouse notification on: it has
counted every tick since, and at most one more, the tick that came with
that notification (`idle_invariant`). So the test is over once there is a
stretch without the mouse that has `idle_time` seconds of ticks in it,
and it is not over before there is one, but for that one tick
(`mouseTestAsync_idle`). Ticks that come with a mouse interrupt in error
may be lost, and delay the end by no more than this.
-/
import Lcom.Lab4.Async
import Lcom.Lab4.Proofs.Remote
import Lcom.Machine.Past
import Lcom.Proj.Proofs.Ticks

namespace Lcom.Lab4

open Machine Proj

-- ============================================================= the ticks

/-- The ticks of a stretch. -/
def ticks (ns : List AsyncNotification) : Nat := ns.countP fun n => n.timer

/-- A stretch without the mouse. -/
def Idle (ns : List AsyncNotification) : Prop := ∀ n ∈ ns, n.mouse = none

/-- The tick that came with the last notification, if that had the mouse
bit. -/
def lastTick (ns : List AsyncNotification) : Nat :=
  match ns.getLast? with
  | none => 0
  | some n => if n.mouse.isSome && n.timer then 1 else 0

theorem ticks_snoc (ns : List AsyncNotification) (n : AsyncNotification) :
    ticks (ns ++ [n]) = ticks ns + n.timer.toNat := by
  unfold ticks
  rw [List.countP_append, List.countP_singleton]
  cases n.timer <;> rfl

theorem Idle.snoc {ns : List AsyncNotification} (h : Idle ns)
    {n : AsyncNotification} (hn : n.mouse = none) : Idle (ns ++ [n]) := by
  intro n' hn'
  rcases List.mem_append.1 hn' with hn' | hn'
  · exact h n' hn'
  · rw [List.mem_singleton.1 hn']
    exact hn

/-- The counter after a history: the ticks since the last mouse
notification, and at most the one that came with it. -/
def CountsIdle (past : List AsyncNotification) (s : AsyncState) : Prop :=
  ∃ before idle, past = before ++ idle ∧ Idle idle
    ∧ s.tmrTckCounter ≤ ticks idle + lastTick before

section

variable {idleTime : UInt8} {s s' : AsyncState}

theorem countsIdle_step {past : List AsyncNotification}
    {n : AsyncNotification} (h : CountsIdle past s)
    (hs : step idleTime s n = some s') : CountsIdle (past ++ [n]) s' := by
  obtain ⟨before, idle, rfl, hidle, hc⟩ := h
  rcases step_cases hs with ⟨hm, hc'⟩ | ⟨reads, r, hm, -, hc'⟩
  · refine ⟨before, idle ++ [n], by rw [List.append_assoc], hidle.snoc hm,
      ?_⟩
    rw [ticks_snoc, hc']
    omega
  · -- the counter starts over
    refine ⟨before ++ idle ++ [n], [], (List.append_nil _).symm, nofun, ?_⟩
    have hlast : lastTick (before ++ idle ++ [n]) = n.timer.toNat := by
      unfold lastTick
      rw [List.getLast?_concat]
      dsimp only
      rw [hm]
      cases n.timer <;> rfl
    rw [hlast, hc']
    split <;> omega

/-- The counter along every run. -/
theorem idle_invariant {past : List AsyncNotification}
    (h : exec (step idleTime) AsyncState.init past = some s) :
    CountsIdle past s := by
  have hall : Along (step idleTime) (fun _ _ => True) AsyncState.init past :=
    fun _ _ _ _ _ _ => trivial
  exact exec_induction ⟨[], [], rfl, nofun, Nat.le_refl 0⟩
    (fun _ _ _ _ hi _ hs => countsIdle_step hi hs) hall h

/-- Without the mouse every tick is counted. -/
theorem exec_stretch : ∀ {ns : List AsyncNotification} {s : AsyncState},
    Idle ns → exec (step idleTime) s ns = some s' →
    s'.tmrTckCounter = s.tmrTckCounter + ticks ns := by
  intro ns
  induction ns with
  | nil =>
      intro s _ h
      cases h
      rfl
  | cons n ns ih =>
      intro s hidle h
      unfold exec at h
      cases hs : step idleTime s n with
      | none =>
          rw [hs] at h
          cases h
      | some t =>
          rw [hs] at h
          have hrest := ih (fun n' hn' => hidle n' (by simp [hn'])) h
          have hcons : ticks (n :: ns) = ticks ns + n.timer.toNat := by
            unfold ticks
            rw [List.countP_cons]
            cases n.timer <;> rfl
          rcases step_cases hs with ⟨-, hc⟩ | ⟨reads, r, hm, -⟩
          · rw [hrest, hc, hcons]
            omega
          · rw [hidle n (by simp)] at hm
            cases hm

-- ============================================================= the loop

/-- The handler returns. -/
def Read (n : AsyncNotification) : Prop :=
  ∀ reads, n.mouse = some reads → mouseRead reads ≠ none

/-- A running test takes every notification whose handler returns. -/
theorem step_read {n : AsyncNotification}
    (hrun : s.tmrTckCounter < idleTime.toNat * 60) (hn : Read n) :
    ∃ s', step idleTime s n = some s' := by
  unfold step
  rw [if_pos hrun]
  cases hm : n.mouse with
  | none => exact ⟨_, rfl⟩
  | some reads =>
      obtain ⟨r, hr⟩ := Option.ne_none_iff_exists'.1 (hn reads hm)
      obtain ⟨s₁, hin⟩ := @input_mouse s _ _ hr
      rw [hin]
      exact ⟨_, rfl⟩

/-- The loop ends where the run has reached the limit, -/
theorem asyncLoop_ends : ∀ {ns : List AsyncNotification} {s : AsyncState},
    (asyncLoop idleTime s ns).result = some s' →
    ∃ before after, ns = before ++ after
      ∧ exec (step idleTime) s before = some s'
      ∧ idleTime.toNat * 60 ≤ s'.tmrTckCounter := by
  intro ns
  induction ns with
  | nil =>
      intro s h
      unfold asyncLoop at h
      split at h
      · cases h
      · cases h
        exact ⟨[], [], rfl, rfl, by omega⟩
  | cons n ns ih =>
      intro s h
      unfold asyncLoop at h
      split at h
      · cases hs : step idleTime s n with
        | none =>
            rw [hs] at h
            cases h
        | some t =>
            rw [hs] at h
            obtain ⟨before, after, rfl, hexec, hc⟩ := ih h
            exact ⟨n :: before, after, rfl,
              (exec_cons_of_step hs before).trans hexec, hc⟩
      · cases h
        exact ⟨[], n :: ns, rfl, rfl, by omega⟩

/-- and goes on as long as it has not. -/
theorem asyncLoop_runs : ∀ {ns : List AsyncNotification} {s : AsyncState},
    (∀ n ∈ ns, Read n) → (asyncLoop idleTime s ns).result = none →
    ∃ s', exec (step idleTime) s ns = some s'
      ∧ s'.tmrTckCounter < idleTime.toNat * 60 := by
  intro ns
  induction ns with
  | nil =>
      intro s _ h
      unfold asyncLoop at h
      split at h
      · next hrun => exact ⟨s, rfl, hrun⟩
      · cases h
  | cons n ns ih =>
      intro s hread h
      unfold asyncLoop at h
      split at h
      · next hrun =>
          obtain ⟨t, hs⟩ := step_read hrun (hread n (by simp))
          rw [hs] at h
          obtain ⟨s', hexec, hc⟩ := ih (fun n' hn' =>
            hread n' (by simp [hn'])) h
          exact ⟨s', (exec_cons_of_step hs ns).trans hexec, hc⟩
      · cases h

/-- A stretch with enough ticks ends the loop. -/
theorem asyncLoop_stretch {before idle after : List AsyncNotification}
    (hread : ∀ n ∈ before ++ idle ++ after, Read n) (hidle : Idle idle)
    (h : idleTime.toNat * 60 ≤ ticks idle) :
    (asyncLoop idleTime s (before ++ idle ++ after)).result ≠ none := by
  intro hnone
  obtain ⟨s', hexec, hc⟩ := asyncLoop_runs hread hnone
  rw [exec_append, Option.bind_eq_some_iff] at hexec
  obtain ⟨t, ht, hafter⟩ := hexec
  rw [exec_append, Option.bind_eq_some_iff] at ht
  obtain ⟨u, -, hu⟩ := ht
  have hcount := exec_stretch hidle hu
  cases after with
  | nil =>
      cases hafter
      omega
  | cons n after =>
      unfold exec at hafter
      cases hs : step idleTime t n with
      | none =>
          rw [hs] at hafter
          cases hafter
      | some t' =>
          have hrun := step_running hs
          omega

end

-- ============================================================= the test

/-- The mouse is enabled before the loop, and the command after it
returns, whatever it returns. -/
structure AsyncSession.Answered (w : AsyncSession) : Prop where
  enable : (enableMouseData w.stream w.enable).result = some 0
  disable : (disableMouseData w.disable w.streamAgain).result ≠ none

/-- Such a test returns 0 if its loop ends. -/
theorem AsyncSession.Answered.result {w : AsyncSession} (h : w.Answered)
    (idleTime : UInt8) (s : AsyncState) :
    (mouseTestAsync idleTime s w).result
      = (asyncLoop idleTime s w.messages).result.map fun _ => 0 := by
  have hact : ∀ a : AsyncAction, (Polled.act a).result = some () :=
    fun _ => rfl
  have henable : ((polled (enableMouseData w.stream w.enable)).lift
      AsyncAction.mouse).result = some 0 := h.enable
  obtain ⟨v, hv⟩ := Option.ne_none_iff_exists'.1 h.disable
  have hdisable : ((polled (disableMouseData w.disable
      w.streamAgain)).lift AsyncAction.mouse).result = some v := hv
  unfold mouseTestAsync
  rw [Polled.bind_returns henable]
  dsimp only
  rw [if_neg (by decide), Polled.bind_returns (hact _),
    Polled.bind_returns (hact _)]
  cases hl : (asyncLoop idleTime s w.messages).result with
  | none =>
      have hloop : ((asyncLoop idleTime s w.messages).lift
          fun p => AsyncAction.mouse (.print p)).result = none := hl
      exact Polled.bind_hangs hloop _
  | some s' =>
      have hloop : ((asyncLoop idleTime s w.messages).lift
          fun p => AsyncAction.mouse (.print p)).result = some s' := hl
      rw [Polled.bind_returns hloop, Polled.bind_returns (hact _),
        Polled.bind_returns hdisable, Polled.bind_returns (hact _)]
      rfl

/-- The test ends once the mouse has been idle, and not before: it
returns 0 if there is a stretch without the mouse with `idle_time`
seconds of ticks in it; and if it returns 0 there is one, but that one of
those ticks may have come with the last mouse interrupt before it. -/
theorem mouseTestAsync_idle (idleTime : UInt8) {w : AsyncSession}
    (h : w.Answered) (hread : ∀ n ∈ w.messages, Read n) :
    ((∃ before idle after, w.messages = before ++ idle ++ after
        ∧ Idle idle ∧ idleTime.toNat * 60 ≤ ticks idle) →
      (mouseTestAsync idleTime AsyncState.init w).result = some 0)
      ∧ ((mouseTestAsync idleTime AsyncState.init w).result = some 0 →
        ∃ before idle after, w.messages = before ++ idle ++ after
          ∧ Idle idle
          ∧ idleTime.toNat * 60 ≤ ticks idle + lastTick before) := by
  rw [h.result]
  constructor
  · rintro ⟨before, idle, after, hw, hidle, hticks⟩
    rw [hw] at hread ⊢
    obtain ⟨s', hs'⟩ := Option.ne_none_iff_exists'.1
      (asyncLoop_stretch (s := AsyncState.init) hread hidle hticks)
    rw [hs']
    rfl
  · intro hres
    obtain ⟨s', hs', -⟩ := Option.map_eq_some_iff.1 hres
    obtain ⟨past, after, hw, hexec, hc⟩ := asyncLoop_ends hs'
    obtain ⟨before, idle, rfl, hidle, hcount⟩ := idle_invariant hexec
    exact ⟨before, idle, after, hw, hidle, hc.trans hcount⟩

/-- A second without the mouse, after a byte that came with a tick. -/
def idleSecond (ticks : Nat) : AsyncSession :=
  { stream := prompt, enable := prompt
    messages := { mouse := some (cleanRead 0x08).reads, timer := true }
      :: List.replicate ticks { mouse := none, timer := true }
    disable := prompt, streamAgain := prompt }

theorem answered_idleSecond (ticks : Nat) : (idleSecond ticks).Answered := by
  have hdisable : (disableMouseData prompt prompt).result = some 0 := rfl
  exact ⟨rfl, Option.ne_none_iff_exists'.2 ⟨0, hdisable⟩⟩

/-- Sixty ticks are enough. -/
theorem mouseTestAsync_idle_second :
    (mouseTestAsync 1 AsyncState.init (idleSecond 60)).result = some 0 := by
  refine (mouseTestAsync_idle 1 (answered_idleSecond 60) ?_).1
    ⟨[_], List.replicate 60 { mouse := none, timer := true }, [], rfl,
      fun n hn => ?_, ?_⟩
  · intro n hn reads hm
    rcases List.mem_cons.1 hn with rfl | hn
    · cases hm
      nofun
    · rw [List.eq_of_mem_replicate hn] at hm
      cases hm
  · rw [List.eq_of_mem_replicate hn]
  · unfold ticks
    rw [List.countP_replicate]
    decide

end Lcom.Lab4
