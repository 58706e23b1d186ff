/-
lab4's `mouse_test_async` (lab4/lab4.c) as a whole: what it sets up, its
loop with the packets it prints, and what it undoes.

A turn of the loop is `step`; the loop is over once the idle counter has
reached `idle_time` seconds of 60 ticks, and a test whose handler polls
for good, or that has used up its notifications, is still running. A
message that is no notification has neither bit.

Only the command that enables the mouse is looked at; the test
subscribes the interrupts of the mouse and of the timer whether or not
that works, and undoes both.
-/
import Lcom.Lab4.Tests

namespace Lcom.Lab4

open Machine Proj

/-- What the test does: something to do with the mouse, or the
subscription of the timer. -/
inductive AsyncAction
  | mouse (action : Action)
  | subscribeTimer
  | unsubscribeTimer
  deriving DecidableEq, Repr

/-- What the mouse branch prints. -/
def asyncPrinted (s : AsyncState) (n : AsyncNotification) :
    Option Packet :=
  match n.mouse with
  | none => none
  | some reads =>
      match mouseIh s.driver reads with
      | none => none
      | some d => if d.dispatch = .byte then printed d else none

/-- `while (tmr_tck_counter < idle_time * 60)`. -/
def asyncLoop (idleTime : UInt8) (s : AsyncState) :
    List AsyncNotification → Polled Packet AsyncState
  | [] =>
      if s.tmrTckCounter < idleTime.toNat * 60 then ⟨[], none⟩ else .pure s
  | n :: ns =>
      if s.tmrTckCounter < idleTime.toNat * 60 then
        match step idleTime s n with
        | none => ⟨[], none⟩
        | some s' =>
            { asyncLoop idleTime s' ns with
              trace := (asyncPrinted s n).toList
                ++ (asyncLoop idleTime s' ns).trace }
      else .pure s

/-- What `mouse_test_async` meets, as `mouse_test_packet` does. -/
structure AsyncSession where
  stream : List Turn
  enable : List Turn
  messages : List AsyncNotification
  disable : List Turn
  streamAgain : List Turn

/-- `mouse_test_async`, from the globals as they are. -/
def mouseTestAsync (idleTime : UInt8) (s : AsyncState) (w : AsyncSession) :
    Polled AsyncAction Nat :=
  ((polled (enableMouseData w.stream w.enable)).lift .mouse).bind fun r =>
    if r ≠ 0 then .pure 1
    else
      (Polled.act (.mouse .subscribe)).bind fun _ =>
      (Polled.act .subscribeTimer).bind fun _ =>
      ((asyncLoop idleTime s w.messages).lift
        fun p => .mouse (.print p)).bind fun _ =>
      (Polled.act (.mouse .unsubscribe)).bind fun _ =>
      ((polled (disableMouseData w.disable w.streamAgain)).lift
        .mouse).bind fun _ =>
      (Polled.act .unsubscribeTimer).bind fun _ => .pure 0

end Lcom.Lab4
