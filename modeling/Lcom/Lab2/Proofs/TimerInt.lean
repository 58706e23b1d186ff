/-
`timer_test_int` and the counter it never resets.

One call is known exactly (`timerLoop_eq`): it prints a line at every
multiple of 60 the counter passes, and it is over once the counter has
reached 60 times its argument. From zero that is a line a second for
`time` seconds (`timerTestInt_counts`).

In a sequence of calls the counter goes on from the call before. So the
calls together print as many lines as the longest of them was asked for,
not their sum: a call prints the seconds it was asked for beyond all
earlier ones, and one that was asked for no more returns at once
(`calls_print`).
-/
import Lcom.Lab2.TimerInt
import Lcom.Proj.Proofs.Timer

namespace Lcom.Lab2

open Device Machine Proj

-- ============================================================= the loop

/-- `time * frequency`. -/
def deadline (time : UInt8) : Nat := 60 * time.toNat

theorem deadline_eq (time : UInt8) :
    time.toNat * frequency.toNat = deadline time := Nat.mul_comm _ _

section

variable {time : UInt8} {c : Nat}

theorem timerLoop_over (h : deadline time ≤ c) (ns : List Bool) :
    timerLoop time c ns = .pure c := by
  have hover : ¬c < deadline time := by omega
  cases ns with
  | nil => rw [timerLoop, deadline_eq, if_neg hover]
  | cons timer ns => rw [timerLoop, deadline_eq, if_neg hover]

/-- A message in the loop. -/
theorem timerLoop_cons (h : c < deadline time) (timer : Bool)
    (ns : List Bool) :
    timerLoop time c (timer :: ns)
      = if timer then
          (printSecond (c + 1)).bind fun _ => timerLoop time (c + 1) ns
        else timerLoop time c ns := by
  rw [timerLoop, deadline_eq, if_pos h]

/-- The lines between two values of the counter. -/
def lines (c c' : Nat) : List TimerAction :=
  List.replicate (c' / 60 - c / 60) .printElapsedTime

/-- A tick prints its line. -/
theorem printSecond_lines {ρ : Type*} {c' : Nat} (h : c + 1 ≤ c')
    (result : Option ρ) :
    (printSecond (c + 1)).bind (fun _ => ⟨lines (c + 1) c', result⟩)
      = (⟨lines c c', result⟩ : Polled TimerAction ρ) := by
  unfold printSecond
  split
  · next hsecond =>
      rw [Polled.bind_returns rfl]
      have hlen : c' / 60 - c / 60 = (c' / 60 - (c + 1) / 60) + 1 := by
        omega
      unfold lines
      rw [hlen, List.replicate_succ]
      rfl
  · next hsecond =>
      rw [Polled.bind_returns rfl]
      have hlen : c' / 60 - c / 60 = c' / 60 - (c + 1) / 60 := by omega
      unfold lines
      rw [hlen]
      rfl

/-- The loop, from any value of the counter: it counts the interrupts up
to its deadline, and prints a line at every multiple of 60. -/
theorem timerLoop_eq (ns : List Bool) :
    timerLoop time c ns
      = ⟨lines c (min (c + ns.count true) (max c (deadline time))),
        if c + ns.count true < deadline time then none
        else some (max c (deadline time))⟩ := by
  have hover : ∀ {c : Nat} (ns : List Bool), deadline time ≤ c →
      timerLoop time c ns
        = ⟨lines c (min (c + ns.count true) (max c (deadline time))),
          if c + ns.count true < deadline time then none
          else some (max c (deadline time))⟩ := by
    intro c ns h
    have hmax : max c (deadline time) = c := max_eq_left h
    have hmin : min (c + ns.count true) c = c := min_eq_right (by omega)
    rw [timerLoop_over h, hmax, hmin, if_neg (by omega)]
    unfold lines
    rw [Nat.sub_self]
    rfl
  induction ns generalizing c with
  | nil =>
      by_cases hmore : c < deadline time
      · have hmin : min (c + ([] : List Bool).count true)
            (max c (deadline time)) = c := by
          rw [List.count_nil]
          omega
        rw [timerLoop, deadline_eq, if_pos hmore, hmin, List.count_nil,
          Nat.add_zero, if_pos hmore]
        unfold lines
        rw [Nat.sub_self]
        rfl
      · exact hover [] (by omega)
  | cons timer ns ih =>
      by_cases hmore : c < deadline time
      · rw [timerLoop_cons hmore]
        cases timer with
        | false =>
            rw [if_neg (by decide), ih, List.count_cons_of_ne (by decide)]
        | true =>
            have hmax : max (c + 1) (deadline time)
                = max c (deadline time) := by omega
            have hcount : c + 1 + ns.count true
                = c + (true :: ns).count true := by
              rw [List.count_cons_self]
              omega
            have hrest := @ih (c + 1)
            rw [hmax, hcount] at hrest
            rw [if_pos rfl, hrest]
            refine printSecond_lines ?_ _
            rw [List.count_cons_self]
            omega
      · exact hover (timer :: ns) (by omega)

end

-- ============================================================= one call

/-- `timer_set_frequency(0, 60)` succeeds, and programs counter 0. -/
theorem frequency_set (dev : I8254) :
    (timerSetFrequency 0 frequency dev).1 = 0
      ∧ (timerSetFrequency 0 frequency dev).2.counters
        = Function.update dev.counters 0
          { access := lsbMsb, nibble := (dev.counters 0).nibble
            reload := 19886#16 } :=
  timerSetFrequency_programs dev 0 ⟨by decide, by decide⟩

/-- The call in three cases: it was not subscribed; or its loop does not
end; or it ends, and what it returns is how the unsubscription went. -/
theorem timerTestInt_cases (call : TimerCall) (g : Globals) :
    (call.subscribes = false
        ∧ timerTestInt call g = ⟨[.subscribe], some (1, g)⟩)
      ∨ ∃ loop, loop = timerLoop call.time g.tmrTckCounter call.messages
        ∧ call.subscribes = true
        ∧ (loop.result = none
            ∧ timerTestInt call g = ⟨.subscribe :: loop.trace, none⟩
          ∨ ∃ c, loop.result = some c
            ∧ timerTestInt call g
              = ⟨.subscribe :: loop.trace ++ [.unsubscribe],
                some (if call.unsubscribes then 0 else 2,
                  ⟨c, (timerSetFrequency 0 frequency g.dev).2⟩)⟩) := by
  have hact : ∀ a : TimerAction, (Polled.act a).result = some () :=
    fun _ => rfl
  unfold timerTestInt
  rw [Polled.bind_returns (hact .subscribe)]
  cases hs : call.subscribes with
  | false => exact .inl ⟨rfl, rfl⟩
  | true =>
      refine .inr ⟨_, rfl, rfl, ?_⟩
      have hset : timerSetFrequency 0 frequency g.dev
          = (0, (timerSetFrequency 0 frequency g.dev).2) :=
        Prod.ext (frequency_set g.dev).1 rfl
      rw [hset]
      dsimp only
      rw [if_neg (by decide), if_neg (by decide)]
      cases hl : (timerLoop call.time g.tmrTckCounter
          call.messages).result with
      | none =>
          left
          unfold Polled.bind
          rw [hl]
          exact ⟨rfl, rfl⟩
      | some c =>
          refine .inr ⟨c, rfl, ?_⟩
          rw [Polled.bind_returns hl,
            Polled.bind_returns (hact .unsubscribe)]
          rfl

/-- The lines of a call that is over. -/
theorem count_test (c c' : Nat) :
    (.subscribe :: lines c c' ++ [TimerAction.unsubscribe]).count
      .printElapsedTime = c' / 60 - c / 60 := by
  unfold lines
  rw [List.count_append, List.count_cons_of_ne (by decide),
    List.count_replicate_self, List.count_cons_of_ne (by decide)]
  rfl

theorem count_test_unsubscribe (c c' : Nat) :
    (.subscribe :: lines c c' ++ [TimerAction.unsubscribe]).count
      .unsubscribe = 1 := by
  unfold lines
  rw [List.count_append, List.count_cons_of_ne (by decide),
    List.count_replicate, if_neg (by decide), List.count_cons_self]
  rfl

/-- A subscribed call, from any value of the counter: whatever has come
so far, it has printed a line for every multiple of 60 the counter has
passed on its way to 60 times the argument; it is over exactly if the
counter has got there; and then the timer has been programmed for 60
interrupts a second, and the other two have not been touched. -/
theorem timerTestInt_counts (call : TimerCall) (g : Globals)
    (h : call.subscribes = true) :
    (timerTestInt call g).trace.count .printElapsedTime
        = min (g.tmrTckCounter + call.messages.count true)
            (max g.tmrTckCounter (deadline call.time)) / 60
          - g.tmrTckCounter / 60
      ∧ ((timerTestInt call g).result = none
        ↔ g.tmrTckCounter + call.messages.count true
          < deadline call.time)
      ∧ ∀ status g', (timerTestInt call g).result = some (status, g') →
        status = (if call.unsubscribes then 0 else 2)
          ∧ g'.tmrTckCounter = max g.tmrTckCounter (deadline call.time)
          ∧ (g'.dev.counters 0).reload = 19886#16
          ∧ ∀ k, k ≠ 0 → g'.dev.counters k = g.dev.counters k := by
  rcases timerTestInt_cases call g with ⟨hs, -⟩ | ⟨loop, hloop, -, hcases⟩
  · rw [h] at hs
    cases hs
  · rw [timerLoop_eq] at hloop
    have hres := congrArg Polled.result hloop
    have htrace := congrArg Polled.trace hloop
    dsimp only at hres htrace
    rcases hcases with ⟨hnone, htest⟩ | ⟨c, hsome, htest⟩
    · rw [hnone] at hres
      have hless : g.tmrTckCounter + call.messages.count true
          < deadline call.time := by
        by_contra hmore
        rw [if_neg hmore] at hres
        cases hres
      rw [htest, htrace, List.count_cons_of_ne (by decide)]
      unfold lines
      rw [List.count_replicate_self]
      refine ⟨rfl, iff_of_true rfl hless, fun status g' h' => ?_⟩
      cases h'
    · have hmore : ¬g.tmrTckCounter + call.messages.count true
          < deadline call.time := by
        intro hless
        rw [hsome, if_pos hless] at hres
        cases hres
      rw [hsome, if_neg hmore, Option.some.injEq] at hres
      rw [htest, htrace]
      refine ⟨count_test _ _, iff_of_false nofun hmore,
        fun status g' h' => ?_⟩
      cases h'
      refine ⟨rfl, hres, ?_, fun k hk => ?_⟩
      · show ((timerSetFrequency 0 frequency g.dev).2.counters 0).reload = _
        rw [(frequency_set g.dev).2, Function.update_self]
      · show (timerSetFrequency 0 frequency g.dev).2.counters k = _
        rw [(frequency_set g.dev).2, Function.update_of_ne hk]

/-- Two seconds, of which one had passed before. -/
theorem timerTestInt_counts_second :
    (timerTestInt
      { time := 2, subscribes := true
        messages := List.replicate 60 true, unsubscribes := true }
      ⟨60, pcTimer⟩).trace.count .printElapsedTime = 1 := by
  rw [(timerTestInt_counts _ _ rfl).1, List.count_replicate_self]
  decide

-- ====================================================== calls in sequence

/-- The seconds a call waits for: none if it is not subscribed. -/
def TimerCall.seconds (call : TimerCall) : Nat :=
  if call.subscribes then call.time.toNat else 0

/-- The longest of the calls. -/
def longest (cs : List TimerCall) : Nat :=
  (cs.map TimerCall.seconds).foldr max 0

/-- A call that returns, from a whole number of seconds. -/
theorem timerTestInt_returns {call : TimerCall} {m status : Nat}
    {g g' : Globals} (hm : g.tmrTckCounter = 60 * m)
    (h : (timerTestInt call g).result = some (status, g')) :
    (timerTestInt call g).trace.count .printElapsedTime
        = max m call.seconds - m
      ∧ g'.tmrTckCounter = 60 * max m call.seconds
      ∧ (timerTestInt call g).trace.count .unsubscribe
        = if call.subscribes then 1 else 0 := by
  unfold TimerCall.seconds
  rcases timerTestInt_cases call g
    with ⟨hs, htest⟩ | ⟨loop, hloop, hs, ⟨-, htest⟩ | ⟨c, hsome, htest⟩⟩
  · rw [htest] at h ⊢
    cases h
    rw [hs, if_neg (by decide), if_neg (by decide), Nat.max_zero,
      Nat.sub_self]
    exact ⟨rfl, hm, rfl⟩
  · rw [htest] at h
    cases h
  · rw [timerLoop_eq] at hloop
    subst hloop
    have hmore : ¬g.tmrTckCounter + call.messages.count true
        < deadline call.time := by
      intro hless
      rw [if_pos hless] at hsome
      cases hsome
    rw [if_neg hmore, Option.some.injEq] at hsome
    rw [htest] at h ⊢
    cases h
    rw [hs, if_pos rfl, if_pos rfl, count_test, count_test_unsubscribe]
    unfold deadline at hsome hmore ⊢
    rw [hm] at hsome hmore ⊢
    refine ⟨by omega, ?_, rfl⟩
    show c = _
    omega

/-- Calls that all return, from a whole number of seconds. -/
theorem calls_spec : ∀ (cs : List TimerCall) {m : Nat} {g g' : Globals},
    g.tmrTckCounter = 60 * m → (calls g cs).result = some g' →
    (calls g cs).trace.count .printElapsedTime = max m (longest cs) - m
      ∧ g'.tmrTckCounter = 60 * max m (longest cs)
      ∧ (calls g cs).trace.count .unsubscribe
        = cs.countP fun call => call.subscribes := by
  intro cs
  induction cs with
  | nil =>
      intro m g g' hm hres
      cases hres
      have hmax : max m (longest []) = m := max_eq_left (Nat.zero_le m)
      rw [hmax, Nat.sub_self]
      exact ⟨rfl, hm, rfl⟩
  | cons call rest ih =>
      intro m g g' hm hres
      unfold calls at hres ⊢
      obtain ⟨⟨status, g₁⟩, hcall, hrest⟩ := Polled.bind_result.1 hres
      obtain ⟨hprints, hcounter, hundone⟩ := timerTestInt_returns hm hcall
      obtain ⟨hprints', hcounter', hundone'⟩ := ih hcounter hrest
      have hlongest : longest (call :: rest)
          = max call.seconds (longest rest) := rfl
      rw [Polled.bind_returns hcall]
      dsimp only
      rw [List.count_append, List.count_append, hprints, hprints',
        hcounter', hundone, hundone', hlongest, List.countP_cons]
      refine ⟨by omega, by omega, by omega⟩

/-- Calls in one process that all return print as many lines as the
longest subscribed one was asked for, and no more; each of them that
subscribed has unsubscribed. -/
theorem calls_print (dev : I8254) (cs : List TimerCall) (g : Globals)
    (h : (calls ⟨0, dev⟩ cs).result = some g) :
    (calls ⟨0, dev⟩ cs).trace.count .printElapsedTime = longest cs
      ∧ g.tmrTckCounter = 60 * longest cs
      ∧ (calls ⟨0, dev⟩ cs).trace.count .unsubscribe
        = cs.countP fun call => call.subscribes := by
  obtain ⟨hprints, hcounter, hundone⟩ := calls_spec cs (m := 0) rfl h
  rw [Nat.zero_max] at hprints hcounter
  exact ⟨hprints, hcounter, hundone⟩

/-- A call that is subscribed, with as many interrupts. -/
def callOf (time : UInt8) (ticks : Nat) : TimerCall :=
  { time, subscribes := true, messages := List.replicate ticks true
    unsubscribes := true }

/-- Two seconds twice, then one: two lines, and the second and the third
call return before any interrupt. -/
theorem calls_print_again :
    (calls ⟨0, pcTimer⟩ [callOf 2 120, callOf 2 0, callOf 1 0]).trace.count
      .printElapsedTime = 2 := by
  have hreturns : (calls ⟨0, pcTimer⟩
      [callOf 2 120, callOf 2 0, callOf 1 0]).result.isSome = true := by
    decide +kernel
  obtain ⟨g, hg⟩ := Option.isSome_iff_exists.1 hreturns
  exact (calls_print pcTimer _ g hg).1

end Lcom.Lab2
