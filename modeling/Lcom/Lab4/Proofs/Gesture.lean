/-
What `mouse_test_gesture` takes for a gesture.

The loop is a machine of seven states, and `Advances` lists its moves
once, in the terms of the packets it is given. The loop over bytes is
this machine run over the packets the bytes carry (`exec_turns`), so
both halves of its contract are about `gestureStep`.

# Soundness

`Progress` says for each state what the packets so far must have been.
Two moves lose what it needs. A right stroke carried on past `x_len`
falls back to the start and leaves `x_displacement` as it is, so the
next left stroke starts from there; an earlier left half is then the
one that counts. And a packet with the left button ends the gesture,
because `counter_exit = 0` is overwritten by the next line.
-/
import Lcom.Lab4.Gesture
import Lcom.Proj.Proofs.Decode

namespace Lcom.Lab4

open Machine Proj

variable {xLen tolerance : UInt8}

-- =========================================================== the moves

/-- The driver publishes what the mouse reported. -/
theorem published_fields (p : MousePacket) :
    (published p).fields = p.fields :=
  decode_fields p _ rfl rfl rfl

@[simp]
theorem published_lb (p : MousePacket) : (published p).lb = p.lb :=
  congrArg Prod.fst (published_fields p)

@[simp]
theorem published_rb (p : MousePacket) : (published p).rb = p.rb :=
  congrArg (·.2.1) (published_fields p)

@[simp]
theorem published_deltaX (p : MousePacket) :
    (published p).deltaX = p.deltaX :=
  congrArg (·.2.2.2.2.2.1) (published_fields p)

@[simp]
theorem published_deltaY (p : MousePacket) :
    (published p).deltaY = p.deltaY :=
  congrArg (·.2.2.2.2.2.2) (published_fields p)

/-- The tests of the left stroke, as the source writes them. -/
theorem upRight_iff (tolerance : UInt8) (p : MousePacket) :
    (p.lb = true ∧ 0 ≤ p.deltaX + tolerance.toNat
      ∧ 0 ≤ p.deltaY + tolerance.toNat) ↔ UpRight tolerance p := by
  unfold UpRight
  refine and_congr_right fun _ => and_congr ?_ ?_ <;> omega

/-- The tests of the right stroke, as the source writes them. -/
theorem downRight_iff (tolerance : UInt8) (p : MousePacket) :
    (p.rb = true ∧ 0 ≤ p.deltaX + tolerance.toNat
      ∧ p.deltaY - tolerance.toNat ≤ 0) ↔ DownRight tolerance p := by
  unfold DownRight
  refine and_congr_right fun _ => and_congr ?_ ?_ <;> omega

/-- A packet of a stroke takes the total from `x` to `x'`, and the state
from `n` to `next` if that arrives at `x_len`. -/
def strokeStep (xLen : UInt8) (n next : Nat) (x' : Int) : Option Gesture :=
  if IsInt x' then
    some ⟨if (xLen.toNat : Int) ≤ x' then next else n, x'⟩
  else none

theorem strokeStep_cases {n next : Nat} {x' : Int} {g : Gesture}
    (h : strokeStep xLen n next x' = some g) :
    IsInt x' ∧ (((xLen.toNat : Int) ≤ x' ∧ g = ⟨next, x'⟩)
      ∨ (x' < xLen.toNat ∧ g = ⟨n, x'⟩)) := by
  unfold strokeStep at h
  split at h
  · rename_i hint
    cases h
    refine ⟨hint, ?_⟩
    by_cases hx : (xLen.toNat : Int) ≤ x'
    · exact .inl ⟨hx, by rw [if_pos hx]⟩
    · exact .inr ⟨not_le.1 hx, by rw [if_neg hx]⟩
  · cases h

theorem gestureStep_zero (x : Int) (p : MousePacket) :
    gestureStep xLen tolerance ⟨0, x⟩ p
      = some ⟨if p.lb = true then 1 else 0, x⟩ := by
  unfold gestureStep gesturePacket
  cases h : p.lb <;> simp [h]

theorem gestureStep_one (x : Int) (p : MousePacket) :
    gestureStep xLen tolerance ⟨1, x⟩ p
      = if UpRight tolerance p then strokeStep xLen 1 2 (x + p.deltaX)
        else some ⟨0, 0⟩ := by
  unfold gestureStep gesturePacket Gesture.accumulate strokeStep
  simp [upRight_iff]

theorem gestureStep_two (x : Int) (p : MousePacket) :
    gestureStep xLen tolerance ⟨2, x⟩ p
      = some (if p.lb = true then ⟨2, x⟩ else ⟨3, 0⟩) := by
  unfold gestureStep gesturePacket
  cases h : p.lb <;> simp [h]

theorem gestureStep_three (x : Int) (p : MousePacket) :
    gestureStep xLen tolerance ⟨3, x⟩ p
      = some ⟨if p.rb = true then 4 else 3, x⟩ := by
  unfold gestureStep gesturePacket
  cases h : p.rb <;> simp [h]

theorem gestureStep_four (x : Int) (p : MousePacket) :
    gestureStep xLen tolerance ⟨4, x⟩ p
      = if DownRight tolerance p then strokeStep xLen 4 5 (x + p.deltaX)
        else some ⟨0, 0⟩ := by
  have hiff := downRight_iff tolerance p
  unfold gestureStep gesturePacket Gesture.accumulate strokeStep
  simp only [published_rb, published_deltaX, published_deltaY]
  simp [← hiff]

/-- The left button makes no difference here: `counter_exit = 0` does not
stay. -/
theorem gestureStep_five (x : Int) (p : MousePacket) :
    gestureStep xLen tolerance ⟨5, x⟩ p
      = some ⟨if p.rb = true then 0 else 6, x⟩ := by
  unfold gestureStep gesturePacket
  cases h : p.rb <;> cases hl : p.lb <;> simp [h, hl]

theorem gestureStep_six (x : Int) (p : MousePacket) :
    gestureStep xLen tolerance ⟨6, x⟩ p = none := by
  unfold gestureStep
  simp

/-- No other state is ever entered; one would be kept. -/
theorem gestureStep_beyond (n : Nat) (x : Int) (p : MousePacket) :
    gestureStep xLen tolerance ⟨n + 7, x⟩ p = some ⟨n + 7, x⟩ := by
  unfold gestureStep gesturePacket
  simp

-- ============================================================ the loop

/-- A clean byte reaches `print_mouse_packet`. -/
theorem turn_quiet (xLen tolerance : UInt8) {d : MouseDriver}
    {g : Gesture} {b : ByteRead} (hg : g.counterExit ≠ 6)
    (hc : b.clean = true) (hr : d.readingError = false)
    {d' : MouseDriver}
    (hd : printMousePacket { d with readPacket := b.byte } = d') :
    turn xLen tolerance ⟨d, g⟩ (some b.reads)
      = if d'.counter = 0 then
          (gesturePacket xLen tolerance g d'.packet1).map (⟨d', ·⟩)
        else some ⟨d', g⟩ := by
  have hrec : d.received b = { d with readPacket := b.byte } := by
    unfold MouseDriver.received
    simp [hc, hr]
  have hdis : { d with readPacket := b.byte }.dispatch = .byte := by
    unfold MouseDriver.dispatch
    simp [hr]
  have hprint : { d with readPacket := b.byte }.dispatched = d' := by
    unfold MouseDriver.dispatched
    rw [hdis]
    exact hd
  simp only [turn, if_pos hg, mouseIh_reads, hrec, Option.bind_some,
    gestureBranch, hdis, hprint, true_and]

/-- The loop over bytes is the machine over the packets they carry. -/
theorem exec_turns {ps : List MousePacket} :
    ∀ {bs : List ByteRead} {d : MouseDriver} (g : Gesture),
      Feeds bs ps → Aligned d →
      (exec (turn xLen tolerance) ⟨d, g⟩ (turns bs)).map
          GestureState.gesture
        = exec (gestureStep xLen tolerance) g ps := by
  induction ps with
  | nil =>
      intro bs d g hf hd
      have hnil : bs = [] := List.map_eq_nil_iff.1 hf.bytes
      subst hnil
      rfl
  | cons p ps ih =>
      intro bs d g hf hd
      obtain ⟨b₀, b₁, b₂, rest, rfl, h₀, h₁, h₂, hc₀, hc₁, hc₂, hrest⟩ :=
        hf.uncons
      by_cases hg : g.counterExit = 6
      · simp [turns, exec, turn, gestureStep, hg]
      · have hmark : marked b₀.byte = true := h₀ ▸ marked_flags p
        have ht₀ : turn xLen tolerance ⟨d, g⟩ (some b₀.reads)
            = some ⟨d.first b₀.byte, g⟩ :=
          turn_quiet xLen tolerance hg hc₀ hd.readingError
            (print_first hd (.inr hmark))
        have ht₁ : turn xLen tolerance ⟨d.first b₀.byte, g⟩
            (some b₁.reads) = some ⟨(d.first b₀.byte).second b₁.byte, g⟩ :=
          turn_quiet xLen tolerance (d := d.first b₀.byte) hg hc₁
            hd.readingError (print_second d b₀.byte b₁.byte)
        have ht₂ := turn_quiet xLen tolerance
          (d := (d.first b₀.byte).second b₁.byte) hg hc₂ hd.readingError
          (print_third d b₀.byte b₁.byte b₂.byte)
        have hpacket : (((d.first b₀.byte).second b₁.byte).third
            b₂.byte).packet1 = published p := by
          unfold published
          rw [← h₀, ← h₁, ← h₂]
          rfl
        have hcounter : (((d.first b₀.byte).second b₁.byte).third
            b₂.byte).counter = 0 := rfl
        rw [hpacket, if_pos hcounter] at ht₂
        simp only [turns, List.map_cons, exec, ht₀, ht₁, ht₂, gestureStep,
          if_pos hg]
        cases gesturePacket xLen tolerance g (published p) with
        | none => rfl
        | some g' => exact ih g' hrest (hd.third b₀.byte b₁.byte b₂.byte)

-- ======================================================== a stroke drawn

/-- The past ends in a press of a button and a run of good packets that
has gone `x` to the right. -/
def Drawing (button : MousePacket → Bool) (good : MousePacket → Prop)
    (P : List MousePacket → Prop) (past : List MousePacket) (x : Int) :
    Prop :=
  ∃ before press stroke, past = before ++ press :: stroke
    ∧ P before ∧ button press = true ∧ (∀ p ∈ stroke, good p)
    ∧ x = total stroke

section

variable {button : MousePacket → Bool} {good : MousePacket → Prop}
  {P : List MousePacket → Prop} {past : List MousePacket}
  {p : MousePacket} {x : Int}

theorem total_snoc (stroke : List MousePacket) (p : MousePacket) :
    total (stroke ++ [p]) = total stroke + p.deltaX := by
  unfold total
  simp

theorem drawing_press (hP : P past) (hp : button p = true) :
    Drawing button good P (past ++ [p]) 0 :=
  ⟨past, p, [], rfl, hP, hp, by simp, rfl⟩

theorem Drawing.snoc (h : Drawing button good P past x) (hp : good p) :
    Drawing button good P (past ++ [p]) (x + p.deltaX) := by
  obtain ⟨before, press, stroke, rfl, hP, hpress, hgood, rfl⟩ := h
  refine ⟨before, press, stroke ++ [p], by simp, hP, hpress, ?_, ?_⟩
  · exact List.forall_mem_append.2 ⟨hgood, by simpa using hp⟩
  · rw [total_snoc]

/-- A stroke that has arrived is drawn. -/
theorem Drawing.drawn (h : Drawing button good P past x) (hp : good p)
    (hx : (xLen.toNat : Int) ≤ x + p.deltaX) :
    Drawn button good xLen P (past ++ [p]) := by
  obtain ⟨before, press, stroke, rfl, hP, hpress, hgood, rfl⟩ := h
  refine ⟨before, press, stroke ++ [p], by simp, hP, hpress, ?_⟩
  constructor
  · simp
  · exact List.forall_mem_append.2 ⟨hgood, by simpa using hp⟩
  · rw [total_snoc]
    exact hx

end

-- =========================================================== soundness

/-- What the packets so far must have been, in each state. `lends` is an
earlier left half that may stand in for the one in progress. -/
def Progress (held idle : MousePacket → Prop)
    (lends : List MousePacket → Prop) (xLen tolerance : UInt8)
    (past : List MousePacket) (g : Gesture) : Prop :=
  match g.counterExit with
  | 0 => True
  | 1 => lends past ∨ Drawing MousePacket.lb (UpRight tolerance)
      (fun _ => True) past g.xDisplacement
  | 2 => lends past ∨ Since held (LeftDrawn xLen tolerance) past
  | 3 => g.xDisplacement = 0
      ∧ Since idle (Released held xLen tolerance) past
  | 4 => Drawing MousePacket.rb (DownRight tolerance)
      (Since idle (Released held xLen tolerance)) past g.xDisplacement
  | 5 => RightDrawn held idle xLen tolerance past
  | 6 => ∃ before last, past = before ++ [last]
      ∧ RightDrawn held idle xLen tolerance before ∧ last.rb = false
  | _ => False

section

variable {held idle : MousePacket → Prop}
  {lends : List MousePacket → Prop} {past : List MousePacket}

/-- One packet makes the progress its state says. -/
theorem progress_step (hheld : ∀ p, p.lb = true → held p)
    (hidle : ∀ p, p.rb = false → idle p)
    (hlends : ∀ past p, lends past → lends (past ++ [p]))
    (hreleased : ∀ past, lends past →
      Since idle (Released held xLen tolerance) past)
    {g g' : Gesture} {p : MousePacket}
    (h : Progress held idle lends xLen tolerance past g)
    (hstart : g.counterExit = 0 → p.lb = true →
      g.xDisplacement = 0 ∨ lends past)
    (hs : gestureStep xLen tolerance g p = some g') :
    Progress held idle lends xLen tolerance (past ++ [p]) g' := by
  obtain ⟨n, x⟩ := g
  match n with
  | 0 =>
      rw [gestureStep_zero] at hs
      cases hs
      by_cases hp : p.lb = true
      · rw [if_pos hp]
        rcases hstart rfl hp with hx | hl
        · subst hx
          exact .inr (drawing_press trivial hp)
        · exact .inl (hlends past p hl)
      · rw [if_neg hp]
        trivial
  | 1 =>
      rw [gestureStep_one] at hs
      by_cases hp : UpRight tolerance p
      · rw [if_pos hp] at hs
        obtain ⟨-, ⟨hx, rfl⟩ | ⟨-, rfl⟩⟩ := strokeStep_cases hs
        · exact h.imp (hlends past p) fun h => since_now (h.drawn hp hx)
        · exact h.imp (hlends past p) fun h => h.snoc hp
      · rw [if_neg hp] at hs
        cases hs
        trivial
  | 2 =>
      rw [gestureStep_two] at hs
      cases hs
      by_cases hp : p.lb = true
      · rw [if_pos hp]
        exact h.imp (hlends past p) fun h => h.snoc (hheld p hp)
      · rw [if_neg hp]
        refine ⟨rfl, ?_⟩
        rcases h with hl | h
        · exact hreleased _ (hlends past p hl)
        · exact since_now ⟨past, p, rfl, h, by simpa using hp⟩
  | 3 =>
      obtain ⟨hx, h⟩ := h
      rw [gestureStep_three] at hs
      cases hs
      by_cases hp : p.rb = true
      · rw [if_pos hp]
        have hx : x = 0 := hx
        subst hx
        exact drawing_press h hp
      · rw [if_neg hp]
        exact ⟨hx, h.snoc (hidle p (by simpa using hp))⟩
  | 4 =>
      rw [gestureStep_four] at hs
      by_cases hp : DownRight tolerance p
      · rw [if_pos hp] at hs
        obtain ⟨-, ⟨hx, rfl⟩ | ⟨-, rfl⟩⟩ := strokeStep_cases hs
        · exact Drawing.drawn h hp hx
        · exact Drawing.snoc h hp
      · rw [if_neg hp] at hs
        cases hs
        trivial
  | 5 =>
      rw [gestureStep_five] at hs
      cases hs
      by_cases hp : p.rb = true
      · rw [if_pos hp]
        trivial
      · rw [if_neg hp]
        exact ⟨past, p, rfl, h, by simpa using hp⟩
  | 6 => rw [gestureStep_six] at hs; cases hs
  | n + 7 => exact absurd h id

/-- Back at the start, the displacement is zero, or it was not cleared on
the way from there or from the end of a right stroke. -/
theorem gestureStep_restart {g g' : Gesture} {p : MousePacket}
    (hs : gestureStep xLen tolerance g p = some g')
    (h : g'.counterExit = 0) :
    g'.xDisplacement = 0 ∨ (g.counterExit = 0 ∧ g' = g)
      ∨ g.counterExit = 5 := by
  obtain ⟨n, x⟩ := g
  match n with
  | 0 =>
      rw [gestureStep_zero] at hs
      cases hs
      by_cases hp : p.lb = true
      · simp [hp] at h
      · simp [hp]
  | 1 =>
      rw [gestureStep_one] at hs
      by_cases hp : UpRight tolerance p
      · rw [if_pos hp] at hs
        obtain ⟨-, ⟨-, rfl⟩ | ⟨-, rfl⟩⟩ := strokeStep_cases hs <;> cases h
      · rw [if_neg hp] at hs
        cases hs
        exact .inl rfl
  | 2 =>
      rw [gestureStep_two] at hs
      cases hs
      by_cases hp : p.lb = true <;> simp [hp] at h
  | 3 =>
      rw [gestureStep_three] at hs
      cases hs
      by_cases hp : p.rb = true <;> simp [hp] at h
  | 4 =>
      rw [gestureStep_four] at hs
      by_cases hp : DownRight tolerance p
      · rw [if_pos hp] at hs
        obtain ⟨-, ⟨-, rfl⟩ | ⟨-, rfl⟩⟩ := strokeStep_cases hs <;> cases h
      · rw [if_neg hp] at hs
        cases hs
        exact .inl rfl
  | 5 => exact .inr (.inr rfl)
  | 6 => rw [gestureStep_six] at hs; cases hs
  | n + 7 => rw [gestureStep_beyond] at hs; cases hs; cases h

/-- Some left half lies in the past. -/
def HalfDone (xLen tolerance : UInt8) : List MousePacket → Prop :=
  Once (Released (fun _ => True) xLen tolerance)

theorem HalfDone.append (h : HalfDone xLen tolerance past)
    (later : List MousePacket) : HalfDone xLen tolerance (past ++ later) :=
  Once.append h later

/-- The progress of any run. Where a gesture starts from a displacement
that is not zero, an earlier left half lies behind it. -/
structure Loosely (xLen tolerance : UInt8) (past : List MousePacket)
    (g : Gesture) : Prop where
  progress : Progress (fun _ => True) (fun _ => True)
    (HalfDone xLen tolerance) xLen tolerance past g
  start : g.counterExit = 0 → g.xDisplacement = 0
    ∨ HalfDone xLen tolerance past

theorem Loosely.step {g g' : Gesture} {p : MousePacket}
    (h : Loosely xLen tolerance past g)
    (hs : gestureStep xLen tolerance g p = some g') :
    Loosely xLen tolerance (past ++ [p]) g' := by
  obtain ⟨hprog, hstart⟩ := h
  constructor
  · refine progress_step (fun _ _ => trivial) (fun _ _ => trivial) ?_ ?_
      hprog (fun h0 _ => hstart h0) hs
    · exact fun _ p hl => hl.append [p]
    · exact fun _ hl => hl
  · intro h0
    rcases gestureStep_restart hs h0 with hx | ⟨hg, rfl⟩ | hg
    · exact .inl hx
    · exact (hstart hg).imp id fun hl => hl.append [p]
    · -- a right stroke that went on: its own left half lies behind it
      obtain ⟨n, x⟩ := g
      have hn : n = 5 := hg
      subst hn
      obtain ⟨before, press, stroke, rfl, hl, -⟩ := hprog
      have hdone : HalfDone xLen tolerance before := hl.once
      have hlater := hdone.append (press :: stroke ++ [p])
      exact .inr (by simpa using hlater)

theorem exec_loosely {ps : List MousePacket} {g : Gesture}
    (h : exec (gestureStep xLen tolerance) Gesture.init ps = some g) :
    Loosely xLen tolerance ps g := by
  have hall : Along (gestureStep xLen tolerance) (fun _ _ => True)
      Gesture.init ps := fun _ _ _ _ _ _ => trivial
  have hinit : Loosely xLen tolerance [] Gesture.init :=
    ⟨trivial, fun _ => .inl rfl⟩
  exact exec_induction hinit (fun _ _ _ _ hl _ hs => hl.step hs) hall h

/-- The progress of a run without a stale start: every left half is the
one in progress. -/
def Strictly (xLen tolerance : UInt8) :
    List MousePacket → Gesture → Prop :=
  Progress (fun p => p.lb = true) (fun p => p.rb = false)
    (fun _ => False) xLen tolerance

theorem exec_strictly {ps : List MousePacket} {g : Gesture}
    (hzero : Along (gestureStep xLen tolerance) StartsAtZero Gesture.init
      ps)
    (h : exec (gestureStep xLen tolerance) Gesture.init ps = some g) :
    Strictly xLen tolerance ps g := by
  have hinit : Strictly xLen tolerance [] Gesture.init := trivial
  refine exec_induction hinit ?_ hzero h
  intro past t p t' hprog hok hs
  exact progress_step (fun _ hp => hp) (fun _ hp => hp) (fun _ _ hl => hl)
    (fun _ hl => hl.elim) hprog (fun h0 hp => .inl (hok h0 hp)) hs

/-- In state 6 all parts are there, but for the left button of the last
packet. -/
theorem Progress.gestured {rest : MousePacket → Prop} {g : Gesture}
    {last : MousePacket}
    (h : Progress held idle lends xLen tolerance (past ++ [last]) g)
    (hsix : g.counterExit = 6) (hlast : last.lb = false) :
    Gestured held idle rest xLen tolerance (past ++ [last]) := by
  unfold Progress at h
  rw [hsix] at h
  obtain ⟨before, last', hsplit, hright, hrb⟩ := h
  obtain ⟨rfl, hl⟩ := List.append_inj' hsplit rfl
  cases hl
  exact ⟨past, last, rfl, since_now hright, hrb, hlast⟩

end

/-- Whatever the loop takes for a gesture contains one if and only if the
packet it ends on does not press the left button; and it is one, with
nothing else in between, if every left stroke started from zero. -/
theorem gesture_sound (xLen tolerance : UInt8) {bs : List ByteRead}
    {ps : List MousePacket} {last : MousePacket}
    (hfeeds : Feeds bs (ps ++ [last])) {s : GestureState}
    (hrun : exec (turn xLen tolerance) GestureState.init (turns bs)
      = some s)
    (hsix : s.gesture.counterExit = 6) :
    (Contains xLen tolerance (ps ++ [last]) ↔ last.lb = false)
      ∧ (Along (gestureStep xLen tolerance) StartsAtZero Gesture.init
          (ps ++ [last]) →
        last.lb = false → Contiguous xLen tolerance (ps ++ [last])) := by
  have hexec : exec (gestureStep xLen tolerance) Gesture.init
      (ps ++ [last]) = some s.gesture := by
    rw [← exec_turns Gesture.init hfeeds aligned_init]
    exact congrArg (Option.map GestureState.gesture) hrun
  refine ⟨⟨?_, ?_⟩, ?_⟩
  · rintro ⟨before, last', hsplit, -, -, hlb⟩
    obtain ⟨-, hl⟩ := List.append_inj' hsplit rfl
    cases hl
    exact hlb
  · exact (exec_loosely hexec).progress.gestured hsix
  · intro hzero
    exact Progress.gestured (exec_strictly hzero hexec) hsix

/-- A gesture of the machine over packets is one of the loop. -/
theorem turns_of_exec {bs : List ByteRead} {ps : List MousePacket}
    {g : Gesture} (hfeeds : Feeds bs ps)
    (h : exec (gestureStep xLen tolerance) Gesture.init ps = some g) :
    ∃ s, exec (turn xLen tolerance) GestureState.init (turns bs) = some s
      ∧ s.gesture = g := by
  rw [← exec_turns Gesture.init hfeeds aligned_init] at h
  exact Option.map_eq_some_iff.1 h

theorem zero_range : -256 ≤ (0 : Int) ∧ (0 : Int) ≤ 255 := by decide

theorem ten_range : -256 ≤ (10 : Int) ∧ (10 : Int) ≤ 255 := by decide

/-- The mouse at rest, with the buttons as given. -/
def resting (lb rb : Bool) : MousePacket :=
  ⟨0, 0, lb, false, rb, false, false, zero_range, zero_range⟩

/-- Ten to the right, with the buttons as given. -/
def tenRight (lb rb : Bool) : MousePacket :=
  ⟨10, 0, lb, false, rb, false, false, ten_range, zero_range⟩

/-- Two strokes of one packet each, up to the last packet. -/
def twoStrokes : List MousePacket :=
  [resting true false, tenRight true false, resting false false,
    resting false true, tenRight false true]

/-- The plain gesture is found. -/
theorem gesture_sound_plain :
    ∃ s, exec (turn 10 5) GestureState.init
        (turns (((twoStrokes ++ [resting false false]).flatMap
          MousePacket.encode).map cleanRead)) = some s
      ∧ s.gesture.counterExit = 6
      ∧ Contains 10 5 (twoStrokes ++ [resting false false]) := by
  have hfeeds := feeds_cleanRead (twoStrokes ++ [resting false false])
  have hexec : exec (gestureStep 10 5) Gesture.init
      (twoStrokes ++ [resting false false]) = some ⟨6, 10⟩ := by decide
  obtain ⟨s, hs, hg⟩ := turns_of_exec hfeeds hexec
  have hsix : s.gesture.counterExit = 6 := by rw [hg]
  exact ⟨s, hs, hsix, (gesture_sound 10 5 hfeeds hs hsix).1.2 rfl⟩

/-- The right button released with the left one pressed is taken for the
end of a gesture. -/
theorem gesture_ends_pressed :
    ∃ s, exec (turn 10 5) GestureState.init
        (turns (((twoStrokes ++ [resting true false]).flatMap
          MousePacket.encode).map cleanRead)) = some s
      ∧ s.gesture.counterExit = 6
      ∧ ¬Contains 10 5 (twoStrokes ++ [resting true false]) := by
  have hexec : exec (gestureStep 10 5) Gesture.init
      (twoStrokes ++ [resting true false]) = some ⟨6, 10⟩ := by decide
  obtain ⟨s, hs, hg⟩ := turns_of_exec
    (feeds_cleanRead (twoStrokes ++ [resting true false])) hexec
  refine ⟨s, hs, by rw [hg], ?_⟩
  rintro ⟨before, last, hsplit, -, -, hlb⟩
  obtain ⟨-, hl⟩ := List.append_inj' hsplit rfl
  cases hl
  cases hlb

end Lcom.Lab4
