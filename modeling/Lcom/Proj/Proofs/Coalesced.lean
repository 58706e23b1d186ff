/-
What the loop makes of its interrupts does not depend on how they reach
it.

The kernel may deliver several interrupts in one notification, and the
keyboard's and the mouse's in either order. A notification is handled as
its interrupts would be one by one, keyboard, mouse, timer, unless its
tick is skipped (`step_interrupts`); and an interrupt of the keyboard
commutes with one of the mouse, since the two branches have no variable
in common (`keyboard_commutes_mouse`). So two runs without a skipped tick
leave the same state if between any two ticks they saw the same from
either device (`runs_agree`).
-/
import Lcom.Machine.Commute
import Lcom.Machine.Past
import Lcom.Proj.Proofs.Ticks

namespace Lcom.Proj

open Machine

-- ======================================================== the interrupts

/-- One interrupt, with what its handler reads, or what `rand` gives. -/
inductive Interrupt
  | keyboard (reads : KbcReads)
  | mouse (reads : List PortReads)
  | timer (rands : List Rand)
  deriving DecidableEq

/-- The notification of one interrupt. -/
def Interrupt.notification : Interrupt → Notification
  | .keyboard reads =>
      { keyboard := some reads, mouse := none, timer := false, rands := [] }
  | .mouse reads =>
      { keyboard := none, mouse := some reads, timer := false, rands := [] }
  | .timer rands =>
      { keyboard := none, mouse := none, timer := true, rands := rands }

/-- The interrupts of a notification, in the order of the branches. -/
def Notification.interrupts (n : Notification) : List Interrupt :=
  n.keyboard.toList.map .keyboard ++ n.mouse.toList.map .mouse
    ++ if n.timer then [.timer n.rands] else []

/-- One turn of the loop for one interrupt. -/
def interruptStep (s : State) (i : Interrupt) : Option State :=
  step mode0x115 s i.notification

def Interrupt.isKeyboard : Interrupt → Bool
  | .keyboard _ => true
  | _ => false

def Interrupt.isMouse : Interrupt → Bool
  | .mouse _ => true
  | _ => false

/-- What the keyboard and the timer did, in order. -/
abbrev keyboardView (is : List Interrupt) : List Interrupt :=
  view Interrupt.isMouse is

/-- What the mouse and the timer did, in order. -/
abbrev mouseView (is : List Interrupt) : List Interrupt :=
  view Interrupt.isKeyboard is

section

variable {s : State} (hc : s.condition = true)
include hc

theorem interruptStep_keyboard (reads : KbcReads) :
    interruptStep s (.keyboard reads)
      = some (keyboardBranch s (some reads)) := by
  unfold interruptStep step
  rw [if_pos hc]
  rfl

theorem interruptStep_mouse (reads : List PortReads) :
    interruptStep s (.mouse reads)
      = (mouseBranch mode0x115 s reads).map Prod.fst := by
  have hin : input mode0x115 s (Interrupt.notification (.mouse reads))
      = mouseBranch mode0x115 s reads := rfl
  unfold interruptStep step
  rw [if_pos hc, hin]
  cases mouseBranch mode0x115 s reads with
  | none => rfl
  | some p => rfl

theorem interruptStep_timer (rands : List Rand) :
    interruptStep s (.timer rands)
      = stateTick mode0x115 (timerIntHandler s) rands := by
  unfold interruptStep step
  rw [if_pos hc]
  rfl

end

-- =========================================================== the order

/-- The mouse branch does not look at the key, nor change it. -/
theorem mouseBranch_keyboard (m : ModeInfo) (s : State) (reads : KbcReads)
    (turns : List PortReads) :
    mouseBranch m (keyboardBranch s (some reads)) turns
      = (mouseBranch m s turns).map fun p =>
          (keyboardBranch p.1 (some reads), p.2) := by
  unfold mouseBranch
  rw [Option.map_map]
  refine Option.map_congr fun d _ => ?_
  dsimp only [Function.comp]
  cases d.dispatch with
  | skip => rfl
  | resync => rfl
  | byte => rfl

/-- The interrupts of keyboard and mouse may change places. -/
theorem keyboard_commutes_mouse (i j : Interrupt)
    (hi : i.isKeyboard = true) (hj : j.isMouse = true) :
    Commutes interruptStep i j := by
  intro s
  cases i with
  | mouse turns => cases hi
  | timer rands => cases hi
  | keyboard reads =>
      cases j with
      | keyboard reads' => cases hj
      | timer rands => cases hj
      | mouse turns =>
          cases hc : s.condition with
          | false =>
              have hstop : ∀ i, interruptStep s i = none := by
                intro i
                unfold interruptStep step
                rw [hc]
                rfl
              rw [hstop, hstop]
              rfl
          | true =>
              rw [interruptStep_keyboard hc, interruptStep_mouse hc,
                Option.bind_some, interruptStep_mouse
                  (s := keyboardBranch s (some reads)) hc,
                mouseBranch_keyboard]
              cases hm : mouseBranch mode0x115 s turns with
              | none => rfl
              | some p =>
                  have hp : p.1.condition = true := by
                    have hin : input mode0x115 s
                        (Interrupt.notification (.mouse turns))
                        = some (p.1, p.2) := hm
                    exact (input_condition hin).trans hc
                  rw [Option.map_some, Option.map_some, Option.map_some,
                    Option.bind_some, interruptStep_keyboard hp]

/-- Runs in which the two devices did the same between the ticks leave
the same state. -/
theorem interrupts_in_any_order (is js : List Interrupt)
    (hkey : keyboardView is = keyboardView js)
    (hmouse : mouseView is = mouseView js) (s : State) :
    exec interruptStep s is = exec interruptStep s js := by
  refine exec_eq_of_views (a := Interrupt.isKeyboard)
    (b := Interrupt.isMouse) ?_ keyboard_commutes_mouse is js hkey hmouse s
  intro i hi
  cases i with
  | keyboard reads => rfl
  | mouse turns => cases hi
  | timer rands => cases hi

-- ====================================================== the coalescing

/-- A notification whose tick is not skipped is handled as its interrupts would
be, one by one. -/
theorem step_interrupts {s s' : State} {n : Notification}
    (hs : step mode0x115 s n = some s') (hkeep : ¬SkipsTick s n) :
    exec interruptStep s n.interrupts = some s' := by
  have hc := step_condition hs
  -- the keyboard
  have hkey : exec interruptStep s (n.keyboard.toList.map .keyboard)
      = some (keyboardBranch s n.keyboard) := by
    cases n.keyboard with
    | none => rfl
    | some reads =>
        show exec interruptStep s [.keyboard reads] = _
        rw [exec_cons, interruptStep_keyboard hc]
        rfl
  -- then the mouse
  obtain ⟨s₁, skip, hin⟩ : ∃ s₁ skip,
      input mode0x115 s n = some (s₁, skip) := by
    rcases step_cases hs with ⟨t, ⟨s₁, hin, -⟩, -⟩ | ⟨-, skip, hin, -⟩
    · exact ⟨s₁, false, hin⟩
    · exact ⟨s', skip, hin⟩
  have hmouse : exec interruptStep (keyboardBranch s n.keyboard)
      (n.mouse.toList.map .mouse) = some s₁ := by
    have hc' : (keyboardBranch s n.keyboard).condition = true := by
      cases n.keyboard <;> exact hc
    unfold input at hin
    cases hm : n.mouse with
    | none =>
        rw [hm] at hin
        cases hin
        rfl
    | some turns =>
        rw [hm] at hin
        dsimp only at hin
        show exec interruptStep _ [.mouse turns] = _
        rw [exec_cons, interruptStep_mouse hc', hin]
        rfl
  -- then the tick, which is not lost
  have hc₁ : s₁.condition = true := (input_condition hin).trans hc
  have htick : exec interruptStep s₁
      (if n.timer then [.timer n.rands] else []) = some s' := by
    unfold step at hs
    rw [if_pos hc, hin] at hs
    dsimp only at hs
    cases htim : n.timer with
    | false =>
        rw [htim, Bool.false_and, if_neg (by decide)] at hs
        exact hs
    | true =>
        have hskip : skip = false := by
          by_contra hlost
          rw [Bool.not_eq_false] at hlost
          exact hkeep ⟨hc, htim, (input_skip_iff hin).1 hlost⟩
        rw [htim, hskip, if_pos (by decide)] at hs
        show exec interruptStep s₁ [.timer n.rands] = _
        rw [exec_cons, interruptStep_timer hc₁, hs]
        rfl
  unfold Notification.interrupts
  rw [exec_append, exec_append, hkey, Option.bind_some, hmouse,
    Option.bind_some, htick]

/-- So is a run. -/
theorem exec_interrupts : ∀ (ns : List Notification) {s s' : State},
    exec (step mode0x115) s ns = some s' →
    Along (step mode0x115) (fun s n => ¬SkipsTick s n) s ns →
    exec interruptStep s (ns.flatMap Notification.interrupts) = some s' := by
  intro ns
  induction ns with
  | nil => intro s s' hs _; exact hs
  | cons n ns ih =>
      intro s s' hs hkeep
      rw [exec_cons] at hs
      obtain ⟨s₁, hn, hrest⟩ := Option.bind_eq_some_iff.1 hs
      obtain ⟨hkeep₁, hkeeps⟩ := along_cons.1 hkeep
      rw [List.flatMap_cons, exec_append, step_interrupts hn hkeep₁,
        Option.bind_some]
      exact ih hrest (hkeeps s₁ hn)

/-- Two runs from one state that skip no tick end in one state, if the
keyboard and the timer, and the mouse and the timer, did the same in
both: it does not matter in which order the two devices came between two
ticks, nor which interrupts came in one notification. -/
theorem runs_agree {s s₁ s₂ : State} {ns₁ ns₂ : List Notification}
    (h₁ : exec (step mode0x115) s ns₁ = some s₁)
    (h₂ : exec (step mode0x115) s ns₂ = some s₂)
    (hkeep₁ : Along (step mode0x115) (fun s n => ¬SkipsTick s n) s ns₁)
    (hkeep₂ : Along (step mode0x115) (fun s n => ¬SkipsTick s n) s ns₂)
    (hkey : keyboardView (ns₁.flatMap Notification.interrupts)
      = keyboardView (ns₂.flatMap Notification.interrupts))
    (hmouse : mouseView (ns₁.flatMap Notification.interrupts)
      = mouseView (ns₂.flatMap Notification.interrupts)) : s₁ = s₂ := by
  have hrun := interrupts_in_any_order _ _ hkey hmouse s
  rw [exec_interrupts ns₁ h₁ hkeep₁, exec_interrupts ns₂ h₂ hkeep₂] at hrun
  exact Option.some.inj hrun

/-- Single interrupts skip no tick. -/
theorem along_interrupts (is : List Interrupt) (s : State) :
    Along (step mode0x115) (fun s n => ¬SkipsTick s n) s
      (is.map Interrupt.notification) := by
  intro before n after hsplit s' _ hlost
  have hn : n ∈ is.map Interrupt.notification := by
    rw [hsplit]
    exact List.mem_append_right before List.mem_cons_self
  obtain ⟨i, -, rfl⟩ := List.mem_map.1 hn
  obtain ⟨-, htim, reads, r, hmouse, -⟩ := hlost
  cases i with
  | keyboard reads' => cases htim
  | mouse turns => cases htim
  | timer rands => cases hmouse

/-- A key, a byte of the mouse and a tick in one notification, or one by
one with the byte first. -/
def openingTick : Notification :=
  { keyTick pKeyBreakcode with mouse := some [⟨some 0x21, some 8⟩] }

/-- The first key, byte and tick, together or one by one. -/
theorem runs_agree_opening :
    exec (step mode0x115) (start orderedCards) [openingTick]
      = exec (step mode0x115) (start orderedCards)
        [mouseByte 8, key pKeyBreakcode, tick] := by
  obtain ⟨s₁, h₁⟩ : ∃ s₁, exec (step mode0x115) (start orderedCards)
      [openingTick] = some s₁ := ⟨_, rfl⟩
  obtain ⟨s₂, h₂⟩ : ∃ s₂, exec (step mode0x115) (start orderedCards)
      [mouseByte 8, key pKeyBreakcode, tick] = some s₂ := ⟨_, rfl⟩
  have hkeep₁ : Along (step mode0x115) (fun s n => ¬SkipsTick s n)
      (start orderedCards) [openingTick] := by
    refine along_cons.2 ⟨fun hlost => ?_, fun _ _ => along_nil⟩
    obtain ⟨-, -, reads, r, hmouse, hr, herr, -⟩ := hlost
    cases hmouse
    have hgood : mouseRead [⟨some 0x21, some 8⟩] = some (.good 8) := rfl
    rw [hgood] at hr
    cases hr
    cases herr
  have hkeep₂ := along_interrupts [.mouse [⟨some 0x21, some 8⟩],
    .keyboard { reads := ⟨some 0x01, some pKeyBreakcode⟩, junk := 0 },
    .timer []] (start orderedCards)
  rw [h₁, h₂, runs_agree h₁ h₂ hkeep₁ hkeep₂ rfl rfl]

end Lcom.Proj
