/-
Which gestures `mouse_test_gesture` finds.

A stroke is drawn packet by packet until its total arrives at `x_len`
(`stroke_cases`). What follows is coded twice and differently. After the
left stroke the loop waits for the button to be released, so the stroke
may go on (`exec_hold`). After the right one any packet that still has
the button sends it back to the start, and nothing of the rest of the
gesture leaves it again (`exec_idle`): a right stroke counts only if it
ends on the packet that arrives.
-/
import Lcom.Lab4.Proofs.Gesture

namespace Lcom.Lab4

open Machine Proj

variable {xLen tolerance : UInt8}

-- ========================================================== the strokes

/-- Good packets in state `n` draw a stroke, which leads to `next`. -/
def DrawnIn (xLen tolerance : UInt8) (n next : Nat)
    (good : MousePacket → Prop) : Prop :=
  ∀ x p, good p → gestureStep xLen tolerance ⟨n, x⟩ p
    = strokeStep xLen n next (x + p.deltaX)

theorem drawnIn_left (xLen tolerance : UInt8) :
    DrawnIn xLen tolerance 1 2 (UpRight tolerance) := by
  intro x p hp
  rw [gestureStep_one, if_pos hp]

theorem drawnIn_right (xLen tolerance : UInt8) :
    DrawnIn xLen tolerance 4 5 (DownRight tolerance) := by
  intro x p hp
  rw [gestureStep_four, if_pos hp]

section

variable {n next : Nat} {good : MousePacket → Prop}
  {stroke : List MousePacket}

/-- A stroke that falls short is added up. -/
theorem exec_short
    (hstep : DrawnIn xLen tolerance n next good)
    (hgood : ∀ p ∈ stroke, good p) (h : Short xLen stroke) :
    exec (gestureStep xLen tolerance) ⟨n, 0⟩ stroke
      = some ⟨n, total stroke⟩ := by
  induction stroke using List.reverseRecOn with
  | nil => rfl
  | append_singleton l p ih =>
      have hl : Short xLen l := fun l' hl' =>
        h l' (hl'.trans (List.prefix_append l [p]))
      obtain ⟨hint, hx⟩ := h (l ++ [p]) (List.prefix_refl _) (by simp)
      rw [total_snoc] at hint hx ⊢
      rw [exec_snoc, ih (fun q hq => hgood q (by simp [hq])) hl,
        Option.bind_some, hstep _ p (hgood p (by simp))]
      unfold strokeStep
      rw [if_pos hint, if_neg (not_le.2 hx)]

/-- A stroke that arrives moves on. -/
theorem exec_arrives
    (hstep : DrawnIn xLen tolerance n next good)
    (hgood : ∀ p ∈ stroke, good p) (h : Arrives xLen stroke) :
    exec (gestureStep xLen tolerance) ⟨n, 0⟩ stroke
      = some ⟨next, total stroke⟩ := by
  obtain ⟨before, p, rfl, hshort, hint, hx⟩ := h
  rw [total_snoc] at hint hx ⊢
  rw [exec_snoc,
    exec_short hstep (fun q hq => hgood q (by simp [hq])) hshort,
    Option.bind_some, hstep _ p (hgood p (by simp))]
  unfold strokeStep
  rw [if_pos hint, if_pos hx]

/-- A stroke falls short, or arrives somewhere, or overflows. -/
theorem stroke_cases
    (hstep : DrawnIn xLen tolerance n next good)
    (hgood : ∀ p ∈ stroke, good p) :
    Short xLen stroke ∨ (∃ l rest, stroke = l ++ rest ∧ Arrives xLen l)
      ∨ exec (gestureStep xLen tolerance) ⟨n, 0⟩ stroke = none := by
  induction stroke using List.reverseRecOn with
  | nil =>
      refine .inl fun l hl hne => ?_
      exact absurd (List.prefix_nil.1 hl) hne
  | append_singleton l p ih =>
      have hgl : ∀ q ∈ l, good q := fun q hq => hgood q (by simp [hq])
      rcases ih hgl with hshort | ⟨l', rest, rfl, hl'⟩ | hnone
      · by_cases hint : IsInt (total (l ++ [p]))
        · by_cases hx : (xLen.toNat : Int) ≤ total (l ++ [p])
          · exact .inr (.inl ⟨l ++ [p], [], by simp, l, p, rfl, hshort,
              hint, hx⟩)
          · refine .inl fun l' hl' hne => ?_
            rcases List.prefix_concat_iff.1 hl' with rfl | hl'
            · exact ⟨hint, not_le.1 hx⟩
            · exact hshort l' hl' hne
        · refine .inr (.inr ?_)
          rw [exec_snoc, exec_short hstep hgl hshort, Option.bind_some,
            hstep _ p (hgood p (by simp)), ← total_snoc]
          exact if_neg hint
      · exact .inr (.inl ⟨l', rest ++ [p], by simp, hl'⟩)
      · refine .inr (.inr ?_)
        rw [exec_snoc, hnone]
        rfl

/-- A short stroke does not reach. -/
theorem Reaches.not_short (h : Reaches xLen stroke) :
    ¬Short xLen stroke := by
  obtain ⟨l, hl, hne, hx⟩ := h
  intro hshort
  exact absurd (hshort l hl hne).2 (not_lt.2 hx)

end

-- ======================================================== the two halves

/-- Past `x_len` the left stroke may go on. -/
theorem exec_hold (x : Int) {l : List MousePacket}
    (h : ∀ p ∈ l, p.lb = true) :
    exec (gestureStep xLen tolerance) ⟨2, x⟩ l = some ⟨2, x⟩ := by
  induction l with
  | nil => rfl
  | cons p l ih =>
      have hstep : gestureStep xLen tolerance ⟨2, x⟩ p = some ⟨2, x⟩ := by
        rw [gestureStep_two, if_pos (h p (by simp))]
      rw [exec_cons_of_step hstep]
      exact ih fun q hq => h q (by simp [hq])

/-- Nothing without the left button leaves the start. -/
theorem exec_idle (x : Int) {l : List MousePacket}
    (h : ∀ p ∈ l, p.lb = false) :
    exec (gestureStep xLen tolerance) ⟨0, x⟩ l = some ⟨0, x⟩ := by
  induction l with
  | nil => rfl
  | cons p l ih =>
      have hstep : gestureStep xLen tolerance ⟨0, x⟩ p = some ⟨0, x⟩ := by
        rw [gestureStep_zero, if_neg (by simp [h p (by simp)])]
      rw [exec_cons_of_step hstep]
      exact ih fun q hq => h q (by simp [hq])

/-- A half of the gesture: the press, the stroke, the packet after it. -/
theorem exec_half {m n : Nat} {press : MousePacket}
    (h : gestureStep xLen tolerance ⟨m, 0⟩ press = some ⟨n, 0⟩)
    (stroke : List MousePacket) (last : MousePacket) :
    exec (gestureStep xLen tolerance) ⟨m, 0⟩ (press :: stroke ++ [last])
      = (exec (gestureStep xLen tolerance) ⟨n, 0⟩ stroke).bind
          fun g => gestureStep xLen tolerance g last := by
  rw [exec_snoc, exec_cons_of_step h]

variable (i : GestureInput xLen tolerance)

theorem press_step :
    gestureStep xLen tolerance Gesture.init i.press = some ⟨1, 0⟩ := by
  unfold Gesture.init
  rw [gestureStep_zero, if_pos i.press_lb]

theorem rightPress_step :
    gestureStep xLen tolerance ⟨3, 0⟩ i.rightPress = some ⟨4, 0⟩ := by
  rw [gestureStep_three, if_pos i.rightPress_rb]

/-- A left stroke that arrives somewhere leads to state 2. -/
theorem exec_left {l rest : List MousePacket} (hl : l ++ rest = i.left)
    (h : Arrives xLen l) :
    exec (gestureStep xLen tolerance) ⟨1, 0⟩ i.left
      = some ⟨2, total l⟩ := by
  have hgood := i.left_good
  rw [← hl] at hgood ⊢
  rw [exec_append, exec_arrives (drawnIn_left xLen tolerance)
    (fun p hp => hgood p (by simp [hp])) h, Option.bind_some]
  exact exec_hold _ fun p hp => (hgood p (by simp [hp])).1

/-- The left half leads to state 3 unless its stroke overflows. -/
theorem exec_leftHalf :
    exec (gestureStep xLen tolerance) Gesture.init
        (i.press :: i.left ++ [i.release]) = some ⟨3, 0⟩
        ∧ (∃ l, l <+: i.left ∧ Arrives xLen l)
      ∨ exec (gestureStep xLen tolerance) Gesture.init
        (i.press :: i.left ++ [i.release]) = none
        ∧ ¬∃ l, l <+: i.left ∧ Arrives xLen l := by
  have hhalf : exec (gestureStep xLen tolerance) Gesture.init
      (i.press :: i.left ++ [i.release]) = _ :=
    exec_half (press_step i) i.left i.release
  rw [hhalf]
  rcases stroke_cases (drawnIn_left xLen tolerance) i.left_good with
    hshort | ⟨l, rest, hl, ha⟩ | hnone
  · exact absurd hshort i.left_far.not_short
  · refine .inl ⟨?_, l, ⟨rest, hl.symm⟩, ha⟩
    rw [exec_left i hl.symm ha, Option.bind_some, gestureStep_two,
      if_neg (by simp [i.release_none.1])]
  · refine .inr ⟨by rw [hnone]; rfl, ?_⟩
    rintro ⟨l, ⟨rest, hl⟩, ha⟩
    rw [exec_left i hl ha] at hnone
    cases hnone

/-- The right half leads to state 6 if its stroke ends where it
arrives. -/
theorem exec_rightHalf_arrives (h : Arrives xLen i.right) :
    exec (gestureStep xLen tolerance) ⟨3, 0⟩
        (i.rightPress :: i.right ++ [i.last])
      = some ⟨6, total i.right⟩ := by
  rw [exec_half (rightPress_step i),
    exec_arrives (drawnIn_right xLen tolerance) i.right_good h,
    Option.bind_some, gestureStep_five, if_neg (by simp [i.last_none.2.2])]

/-- Otherwise it leads back to the start, or its stroke overflows. -/
theorem exec_rightHalf_overshoots (h : ¬Arrives xLen i.right) :
    exec (gestureStep xLen tolerance) ⟨3, 0⟩
        (i.rightPress :: i.right ++ [i.last]) = none
      ∨ ∃ x, exec (gestureStep xLen tolerance) ⟨3, 0⟩
        (i.rightPress :: i.right ++ [i.last]) = some ⟨0, x⟩ := by
  have hstep := drawnIn_right xLen tolerance
  rw [exec_half (rightPress_step i)]
  rcases stroke_cases hstep i.right_good with
    hshort | ⟨l, rest, hl, ha⟩ | hnone
  · exact absurd hshort i.right_far.not_short
  · right
    have hgood := i.right_good
    have honly := i.right_only
    cases rest with
    | nil =>
        rw [List.append_nil] at hl
        exact absurd (hl ▸ ha) h
    | cons q rest =>
        refine ⟨total l, ?_⟩
        rw [hl] at hgood honly ⊢
        have hback : gestureStep xLen tolerance ⟨5, total l⟩ q
            = some ⟨0, total l⟩ := by
          rw [gestureStep_five, if_pos (hgood q (by simp)).1]
        rw [exec_append,
          exec_arrives hstep (fun p hp => hgood p (by simp [hp])) ha,
          Option.bind_some, exec_cons_of_step hback,
          exec_idle _ fun p hp => (honly p (by simp [hp])).1,
          Option.bind_some, gestureStep_zero,
          if_neg (by simp [i.last_none.1])]
  · left
    rw [hnone]
    rfl

/-- The loop finds a gesture if and only if the right stroke ends on the
packet that takes it to `x_len` and neither stroke overflows before. -/
theorem gesture_complete_iff (xLen tolerance : UInt8)
    (i : GestureInput xLen tolerance) {bs : List ByteRead}
    (hfeeds : Feeds bs i.packets) :
    (∃ s, exec (turn xLen tolerance) GestureState.init (turns bs) = some s
        ∧ s.gesture.counterExit = 6)
      ↔ (∃ l, l <+: i.left ∧ Arrives xLen l) ∧ Arrives xLen i.right := by
  have hturns : (∃ s, exec (turn xLen tolerance) GestureState.init
      (turns bs) = some s ∧ s.gesture.counterExit = 6)
      ↔ ∃ g, exec (gestureStep xLen tolerance) Gesture.init i.packets
        = some g ∧ g.counterExit = 6 := by
    rw [← exec_turns Gesture.init hfeeds aligned_init]
    constructor
    · rintro ⟨s, hs, hsix⟩
      exact ⟨s.gesture, congrArg (Option.map GestureState.gesture) hs, hsix⟩
    · rintro ⟨g, hg, hsix⟩
      obtain ⟨s, hs, rfl⟩ := Option.map_eq_some_iff.1 hg
      exact ⟨s, hs, hsix⟩
  rw [hturns]
  unfold GestureInput.packets
  rw [exec_append]
  rcases exec_leftHalf i with ⟨hleft, hl⟩ | ⟨hleft, hl⟩
  · rw [hleft, Option.bind_some]
    refine ⟨?_, ?_⟩
    · rintro ⟨g, hg, hsix⟩
      refine ⟨hl, ?_⟩
      by_contra hr
      rcases exec_rightHalf_overshoots i hr with hnone | ⟨x, hzero⟩
      · rw [hnone] at hg
        cases hg
      · rw [hzero] at hg
        cases hg
        cases hsix
    · rintro ⟨-, hr⟩
      exact ⟨_, exec_rightHalf_arrives i hr, rfl⟩
  · rw [hleft]
    simp [hl]

theorem tenRight_left : ∀ p ∈ [tenRight true false], UpRight 5 p := by
  simp only [List.forall_mem_singleton]
  decide

theorem tenRight_right : DownRight 5 (tenRight false true) := by decide

theorem tenRight_reaches (lb rb : Bool) (more : List MousePacket) :
    Reaches 10 (tenRight lb rb :: more) :=
  ⟨[tenRight lb rb], ⟨more, rfl⟩, by simp, le_refl _⟩

theorem tenRight_arrives (lb rb : Bool) : Arrives 10 [tenRight lb rb] := by
  refine ⟨[], tenRight lb rb, rfl, fun l hl hne => ?_, ?_, le_refl _⟩
  · exact absurd (List.prefix_nil.1 hl) hne
  · show IsInt 10
    decide

/-- A left stroke of one packet and a right stroke of `n + 1`, ten to the
right each. -/
def tens (n : Nat) : GestureInput 10 5 where
  press := resting true false
  left := [tenRight true false]
  release := resting false false
  rightPress := resting false true
  right := List.replicate (n + 1) (tenRight false true)
  last := resting false false
  press_lb := rfl
  left_good := tenRight_left
  left_far := tenRight_reaches true false []
  release_none := ⟨rfl, rfl, rfl⟩
  rightPress_rb := rfl
  right_good := fun _ hp => List.eq_of_mem_replicate hp ▸ tenRight_right
  right_only := fun _ hp => List.eq_of_mem_replicate hp ▸ ⟨rfl, rfl⟩
  right_far := tenRight_reaches false true _
  last_none := ⟨rfl, rfl, rfl⟩

/-- A right stroke of one packet is found. -/
theorem gesture_complete_one :
    ∃ s, exec (turn 10 5) GestureState.init
        (turns (((tens 0).packets.flatMap MousePacket.encode).map
          cleanRead)) = some s
      ∧ s.gesture.counterExit = 6 :=
  (gesture_complete_iff 10 5 (tens 0) (feeds_cleanRead _)).2
    ⟨⟨_, List.prefix_refl _, tenRight_arrives true false⟩,
      tenRight_arrives false true⟩

/-- One packet more, and the gesture is lost. -/
theorem gesture_overshot :
    ¬∃ s, exec (turn 10 5) GestureState.init
        (turns (((tens 1).packets.flatMap MousePacket.encode).map
          cleanRead)) = some s
      ∧ s.gesture.counterExit = 6 := by
  have hexec : exec (gestureStep 10 5) Gesture.init (tens 1).packets
      = some ⟨0, 10⟩ := by decide
  obtain ⟨t, ht, hg⟩ := turns_of_exec (feeds_cleanRead (tens 1).packets)
    hexec
  rintro ⟨s, hs, hsix⟩
  rw [ht] at hs
  cases hs
  rw [hg] at hsix
  cases hsix

end Lcom.Lab4
