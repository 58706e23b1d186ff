/-
lab2's `timer_test_int` (lab2/lab2.c): program timer 0 for 60 interrupts
a second, and print a line every second until `time` of them have passed.

The seconds are told by `tmr_tck_counter`, which `timer_int_handler`
counts up and which nothing ever resets; so the test takes it from the
call before, and the model runs calls one after another (`calls`).

The kernel answers the subscription and its removal (`subscribes`,
`unsubscribes`); the port I/O of `timer_set_frequency` succeeds. A
message of the loop is whether its interrupt mask has the bit of
`IRQ_SETPOLICY`, which is the timer's. `timer_print_elapsed_time` belongs
to the library. A test that has used up its messages is still running.
-/
import Lcom.Lab2.TimerConf
import Lcom.Machine.Poll

namespace Lcom.Lab2

open Device Machine Proj

/-- What the test does. -/
inductive TimerAction
  | subscribe
  | unsubscribe
  | printElapsedTime
  deriving DecidableEq, Repr

/-- What one call leaves to the next: `tmr_tck_counter`, and the timer. -/
structure Globals where
  tmrTckCounter : Nat
  dev : I8254

/-- `frequency`. -/
def frequency : UInt32 := 60

/-- One line every 60 ticks. -/
def printSecond (tmrTckCounter : Nat) : Polled TimerAction Unit :=
  if tmrTckCounter % 60 = 0 then .act .printElapsedTime else .pure ()

/-- `while (tmr_tck_counter < time * frequency)`: the counter it ends
with. -/
def timerLoop (time : UInt8) (c : Nat) :
    List Bool → Polled TimerAction Nat
  | [] =>
      if c < time.toNat * frequency.toNat then ⟨[], none⟩ else .pure c
  | timer :: ns =>
      if c < time.toNat * frequency.toNat then
        if timer then
          (printSecond (c + 1)).bind fun _ => timerLoop time (c + 1) ns
        else timerLoop time c ns
      else .pure c

/-- A call: its argument, the answers of the kernel and the messages. -/
structure TimerCall where
  time : UInt8
  subscribes : Bool
  messages : List Bool
  unsubscribes : Bool

/-- `timer_test_int`: what it returns and what it leaves. -/
def timerTestInt (call : TimerCall) (g : Globals) :
    Polled TimerAction (Nat × Globals) :=
  (Polled.act .subscribe).bind fun _ =>
    if call.subscribes = false then .pure (1, g)
    else
      match timerSetFrequency 0 frequency g.dev with
      | (status, dev) =>
          if status ≠ 0 then
            (Polled.act .unsubscribe).bind fun _ =>
              .pure (1, { g with dev := dev })
          else
            (timerLoop call.time g.tmrTckCounter call.messages).bind
              fun c => (Polled.act .unsubscribe).bind fun _ =>
                .pure (if call.unsubscribes then 0 else 2, ⟨c, dev⟩)

/-- Calls in one process, one after another. -/
def calls (g : Globals) : List TimerCall → Polled TimerAction Globals
  | [] => .pure g
  | call :: rest =>
      (timerTestInt call g).bind fun r => calls r.2 rest

end Lcom.Lab2
