/-
Whether the sprite of `video_test_move` keeps to its speed.

Along its axis the sprite is a walk in one dimension (`Walk`): the other
coordinate has reached its end from the start, and the loop never touches
it (`step_walk`). A step of the walk is right exactly if the increment
does not leave 16 bits and does not take it past an end that lies behind
it by more (`advance_eq_towards_iff`), since the code compares with `>`
whichever way the sprite has to go.
-/
import Lcom.Lab5.Move

namespace Lcom.Lab5

open Machine Proj

-- ========================================================== the increment

/-- The increment fits half of 16 bits. -/
theorem stride_bounds (speed : Int16) :
    1 ≤ stride speed ∧ stride speed < 2 ^ 15 := by
  have hlt := speed.toInt_lt
  unfold stride
  split <;> omega

/-- The pace is the increment on the ticks that move, and zero on the
others. -/
theorem pace_eq {speed : Int16} (hspeed : speed ≠ 0) (counter : Nat) :
    pace speed counter = if moves speed counter then stride speed else 0 := by
  have hne : speed.toInt ≠ 0 := fun h =>
    hspeed (Int16.toInt_inj.1 (h.trans Int16.toInt_zero.symm))
  unfold pace moves stride
  by_cases hpos : 0 < speed.toInt
  · simp [hpos]
  · have hneg : speed.toInt < 0 := by omega
    by_cases hc : counter % speed.toInt.natAbs = 0 <;> simp [hpos, hneg, hc]

theorem towards_self (f d : Nat) : towards f f d = f := by
  unfold towards
  split <;> omega

theorem towards_zero (c f : Nat) : towards c f 0 = c := by
  unfold towards
  split <;> omega

/-- The step of the code is the right one exactly if it stays in 16 bits
and the end is ahead, or behind by no more than the increment. -/
theorem advance_eq_towards_iff {c f : UInt16} {inc : Nat} (hpos : 1 ≤ inc)
    (hinc : inc < 2 ^ 15) :
    (advance c (UInt16.ofNat inc) f).toNat = towards c.toNat f.toNat inc
      ↔ c.toNat + inc < 2 ^ 16 ∧ c.toNat ≤ f.toNat + inc := by
  have hi : (UInt16.ofNat inc).toNat = inc :=
    UInt16.toNat_ofNat_of_lt' (hinc.trans (by decide))
  have hc := c.toNat_lt
  have hf := f.toNat_lt
  have hadd : (c + UInt16.ofNat inc).toNat = (c.toNat + inc) % 2 ^ 16 := by
    rw [UInt16.toNat_add, hi]
  have hadv : (advance c (UInt16.ofNat inc) f).toNat
      = if f.toNat < (c.toNat + inc) % 2 ^ 16 then f.toNat
        else (c.toNat + inc) % 2 ^ 16 := by
    unfold advance
    rw [← hadd]
    by_cases hgt : f < c + UInt16.ofNat inc
    · rw [if_pos hgt, if_pos (UInt16.lt_iff_toNat_lt.1 hgt)]
    · rw [if_neg hgt, if_neg fun h => hgt (UInt16.lt_iff_toNat_lt.2 h)]
  rw [hadv]
  unfold towards
  by_cases hwrap : c.toNat + inc < 2 ^ 16
  · rw [Nat.mod_eq_of_lt hwrap]
    split <;> split <;> omega
  · have hmod : (c.toNat + inc) % 2 ^ 16 = c.toNat + inc - 2 ^ 16 := by omega
    rw [hmod]
    split <;> split <;> omega

-- =============================================================== the walk

/-- The sprite along its axis. -/
structure Walk where
  place : UInt16
  arrived : Bool
  counter : Nat

/-- A tick of the walk to `f`. -/
def Walk.tick (speed : Int16) (f : UInt16) (w : Walk) : Walk :=
  let w := { w with counter := w.counter + 1 }
  if w.arrived then w
  else if moves speed w.counter then
    let place := advance w.place (UInt16.ofNat (stride speed)) f
    { w with place, arrived := place == f }
  else w

/-- A tick that moves a walk under way. -/
theorem Walk.tick_moves {speed : Int16} {f : UInt16} {w : Walk}
    (harr : w.arrived = false) (hmove : moves speed (w.counter + 1) = true) :
    w.tick speed f
      = ⟨advance w.place (UInt16.ofNat (stride speed)) f,
        advance w.place (UInt16.ofNat (stride speed)) f == f,
        w.counter + 1⟩ := by
  simp [Walk.tick, harr, hmove]

/-- The walk of a state, down or across the screen. -/
def MoveState.walk (down : Bool) (s : MoveState) : Walk :=
  ⟨if down then s.yi else s.xi, s.doneMoving, s.counter⟩

/-- The sprite is on its axis: the other coordinate is at its end, and a
sprite that moves across and has not arrived is not at its end. -/
def OnAxis (xf yf : UInt16) (down : Bool) (s : MoveState) : Prop :=
  if down then s.xi = xf
  else s.yi = yf ∧ (s.doneMoving = false → s.xi ≠ xf)

section

variable {m : ModeInfo} {img : Image} {xf yf : UInt16} {speed : Int16}
  {s s' : MoveState} {n : Message}

/-- What a turn of the loop does. -/
theorem step_cases (h : s.step m img xf yf speed n = some s') :
    s.scancode ≠ escape ∧ ∃ scancode,
      (n.timer = true
          ∧ s' = ({ s with scancode }.tick m img xf yf speed).1)
        ∨ (n.timer = false ∧ s' = { s with scancode }) := by
  unfold MoveState.step MoveState.turn at h
  by_cases hesc : s.scancode = escape
  · rw [if_pos hesc] at h
    cases h
  refine ⟨hesc, ?_⟩
  rw [if_neg hesc, Option.map_map, Option.map_eq_some_iff] at h
  obtain ⟨t, ht, rfl⟩ := h
  obtain ⟨scancode, rfl⟩ : ∃ scancode, t = { s with scancode } := by
    cases hk : n.keyboard with
    | none =>
        rw [hk] at ht
        cases ht
        exact ⟨s.scancode, rfl⟩
    | some reads =>
        rw [hk] at ht
        obtain ⟨scancode, -, rfl⟩ := Option.map_eq_some_iff.1 ht
        exact ⟨scancode, rfl⟩
  refine ⟨scancode, ?_⟩
  cases hn : n.timer with
  | true => exact .inl ⟨rfl, by simp⟩
  | false => exact .inr ⟨rfl, by simp⟩

/-- A tick that moves the sprite moves it by the increment. -/
theorem moved_eq (speed : Int16) (s : MoveState) :
    s.moved m img xf yf speed
      = if moves speed s.counter then
          s.move m img xf yf (UInt16.ofNat (stride speed))
        else s := by
  unfold MoveState.moved moves stride
  by_cases hpos : 0 < speed.toInt
  · have hneg : ¬speed.toInt < 0 := by omega
    simp [hpos, hneg]
  · by_cases hneg : speed.toInt < 0
    · by_cases hc : s.counter % speed.toInt.natAbs = 0
      · simp [hpos, hneg, hc]
      · simp [hpos, hneg, hc]
    · simp [hpos, hneg]

/-- A sprite on its axis moves along it. -/
theorem move_walk {down : Bool} (h : OnAxis xf yf down s)
    (hdone : s.doneMoving = false) (inc : UInt16) :
    OnAxis xf yf down (s.move m img xf yf inc)
      ∧ (s.move m img xf yf inc).walk down
        = let place := advance (s.walk down).place inc
            (if down then yf else xf)
          ⟨place, place == if down then yf else xf, s.counter⟩ := by
  cases down with
  | true =>
      have hx : s.xi = xf := h
      unfold MoveState.move
      rw [if_pos hx]
      exact ⟨hx, by simp [MoveState.walk, MoveState.redraw, hdone]⟩
  | false =>
      obtain ⟨hy, hne⟩ : s.yi = yf ∧ (s.doneMoving = false → s.xi ≠ xf) := h
      unfold MoveState.move
      rw [if_neg (hne hdone), if_pos hy]
      refine ⟨⟨hy, fun hnot => ?_⟩, ?_⟩
      · exact show advance s.xi inc xf ≠ xf by simpa [hdone] using hnot
      · simp [MoveState.walk, MoveState.redraw, hdone]

/-- So does a tick. -/
theorem tick_walk {down : Bool} (h : OnAxis xf yf down s) :
    OnAxis xf yf down (s.tick m img xf yf speed).1
      ∧ ((s.tick m img xf yf speed).1).walk down
        = (s.walk down).tick speed (if down then yf else xf) := by
  unfold MoveState.tick Walk.tick
  by_cases hdone : s.doneMoving = true
  · have hd : s.timerIntHandler.doneMoving = true := hdone
    simp only [hd, MoveState.walk, hdone, if_true]
    exact ⟨h, rfl⟩
  · rw [Bool.not_eq_true] at hdone
    have hd : s.timerIntHandler.doneMoving = false := hdone
    have haxis : OnAxis xf yf down s.timerIntHandler := h
    simp only [hd, Bool.false_eq_true, if_false, moved_eq]
    by_cases hmove : moves speed (s.counter + 1) = true
    · have hm : moves speed s.timerIntHandler.counter = true := hmove
      rw [if_pos hm]
      obtain ⟨hnext, hwalk⟩ := move_walk haxis hd
        (UInt16.ofNat (stride speed))
      refine ⟨hnext, hwalk.trans ?_⟩
      simp [MoveState.walk, MoveState.timerIntHandler, hdone, hmove]
    · have hm : ¬moves speed s.timerIntHandler.counter = true := hmove
      rw [if_neg hm]
      refine ⟨haxis, ?_⟩
      simp [MoveState.walk, MoveState.timerIntHandler, hdone, hmove]

/-- A step of the machine is a tick of the walk, or leaves it alone; the
other coordinate stays where it is. -/
theorem step_walk {down : Bool} (h : OnAxis xf yf down s)
    (hstep : s.step m img xf yf speed n = some s') :
    OnAxis xf yf down s'
      ∧ s'.walk down = if n.timer then
          (s.walk down).tick speed (if down then yf else xf)
        else s.walk down := by
  obtain ⟨-, scancode, ⟨hn, rfl⟩ | ⟨hn, rfl⟩⟩ := step_cases hstep
  · obtain ⟨hnext, hwalk⟩ :=
      @tick_walk m img xf yf speed { s with scancode } down h
    rw [hn]
    exact ⟨hnext, hwalk⟩
  · rw [hn]
    exact ⟨h, rfl⟩

/-- A run starts on its axis and stays there. -/
theorem reached_onAxis {down : Bool} {t : MoveState}
    (hstart : OnAxis xf yf down t)
    (h : MoveState.Reached m img xf yf speed t s) : OnAxis xf yf down s := by
  refine Reachable.invariant (I := OnAxis xf yf down) ?_ ?_ h
  · rintro _ rfl
    exact hstart
  · intro s n s' _ hs _ hstep
    exact (step_walk hs hstep).1

end

-- ========================================================== staying in step

/-- A place the walk steps from: the start, or one before the end. -/
theorem StaysInRange.steps {c f inc k : Nat} (hpos : 1 ≤ inc)
    (h : StaysInRange c f inc) (hk : k = 0 ∨ c + k * inc < f) :
    c + k * inc + inc < 2 ^ 16 ∧ c + k * inc ≤ f + inc := by
  obtain ⟨hback, hlast⟩ := h
  have hle : k * inc ≤ (f - c - 1) / inc * inc := by
    refine Nat.mul_le_mul_right inc ?_
    rw [Nat.le_div_iff_mul_le hpos]
    rcases hk with rfl | hk
    · omega
    · omega
  rcases hk with rfl | hk
  · omega
  · omega

/-- The walk is at one of the places it is to step from, or has
arrived. -/
def Walk.InStep (c : Nat) (f : UInt16) (inc : Nat) (w : Walk) : Prop :=
  (w.arrived = true → w.place = f)
    ∧ (w.arrived = false → ∃ k, w.place.toNat = c + k * inc
      ∧ (k = 0 ∨ c + k * inc < f.toNat))

section

variable {speed : Int16} {c : Nat} {f : UInt16} {w : Walk}

/-- A tick of a walk in step keeps it in step, and takes it where it is to
go. -/
theorem Walk.InStep.tick (hrange : StaysInRange c f.toNat (stride speed))
    (h : w.InStep c f (stride speed)) :
    (w.tick speed f).InStep c f (stride speed)
      ∧ (w.tick speed f).place.toNat = towards w.place.toNat f.toNat
        (if moves speed (w.counter + 1) then stride speed else 0) := by
  obtain ⟨hpos, hinc⟩ := stride_bounds speed
  unfold Walk.tick
  by_cases harr : w.arrived = true
  · have hplace := h.1 harr
    rw [if_pos harr]
    refine ⟨h, ?_⟩
    rw [hplace, towards_self]
  rw [if_neg harr]
  by_cases hmove : moves speed (w.counter + 1) = true
  · obtain ⟨k, hk, hstep⟩ := h.2 (Bool.not_eq_true _ ▸ harr)
    obtain ⟨hfit, hback⟩ := hrange.steps hpos hstep
    rw [← hk] at hfit hback
    have hadv := (advance_eq_towards_iff hpos hinc).2 ⟨hfit, hback⟩
    rw [if_pos hmove, if_pos hmove]
    refine ⟨⟨fun harr' => ?_, fun harr' => ⟨k + 1, ?_⟩⟩, hadv⟩
    · exact beq_iff_eq.1 harr'
    · -- not there yet, so the end is more than one increment ahead
      have hne : (advance w.place (UInt16.ofNat (stride speed)) f).toNat
          ≠ f.toNat := fun he =>
        absurd (UInt16.toNat_inj.1 he) (beq_eq_false_iff_ne.1 harr')
      rw [hadv] at hne
      have hmul : (k + 1) * stride speed = k * stride speed + stride speed :=
        Nat.succ_mul k _
      have hahead : w.place.toNat + stride speed < f.toNat
          ∧ towards w.place.toNat f.toNat (stride speed)
            = w.place.toNat + stride speed := by
        unfold towards at hne ⊢
        split at hne <;> split <;> omega
      refine ⟨hadv.trans ?_, .inr ?_⟩
      · omega
      · omega
  · rw [if_neg hmove, if_neg hmove, towards_zero]
    exact ⟨h, rfl⟩

end

-- ============================================================= the runs

section

variable {m : ModeInfo} {img : Image} {xf yf : UInt16} {speed : Int16}
  {s s' t : MoveState} {n : Message} {down : Bool}

/-- The end of the axis. -/
def axisEnd (xf yf : UInt16) (down : Bool) : UInt16 := if down then yf else xf

/-- Every state of a run that starts in range is in step. -/
theorem reached_inStep
    (hstart : OnAxis xf yf down t) (hnew : t.doneMoving = false)
    (hrange : StaysInRange (t.walk down).place.toNat
      (axisEnd xf yf down).toNat (stride speed))
    (h : MoveState.Reached m img xf yf speed t s) :
    (s.walk down).InStep (t.walk down).place.toNat (axisEnd xf yf down)
      (stride speed) := by
  refine Reachable.invariant (I := fun s => (s.walk down).InStep
    (t.walk down).place.toNat (axisEnd xf yf down) (stride speed)) ?_ ?_ h
  · rintro _ rfl
    refine ⟨fun harr => ?_, fun _ => ⟨0, by simp, .inl rfl⟩⟩
    exact absurd harr (by simp [MoveState.walk, hnew])
  · intro s n s' hs hin _ hstep
    obtain ⟨-, hwalk⟩ := step_walk (reached_onAxis hstart hs) hstep
    rw [hwalk]
    split
    · exact (hin.tick hrange).1
    · exact hin

/-- A tick counts, and does not touch the scancode. -/
theorem tick_frame (s : MoveState) :
    (s.tick m img xf yf speed).1.counter = s.counter + 1
      ∧ (s.tick m img xf yf speed).1.scancode = s.scancode := by
  have hmove : ∀ (s : MoveState) inc,
      (s.move m img xf yf inc).counter = s.counter
        ∧ (s.move m img xf yf inc).scancode = s.scancode := by
    intro s inc
    unfold MoveState.move
    split
    · exact ⟨rfl, rfl⟩
    · split <;> exact ⟨rfl, rfl⟩
  unfold MoveState.tick
  dsimp only
  split
  · exact ⟨rfl, rfl⟩
  · rw [moved_eq]
    split
    · exact hmove _ _
    · exact ⟨rfl, rfl⟩

theorem step_counter (h : s.step m img xf yf speed n = some s')
    (hn : n.timer = true) : s'.counter = s.counter + 1 := by
  obtain ⟨-, scancode, ⟨-, rfl⟩ | ⟨hn', -⟩⟩ := step_cases h
  · exact (tick_frame _).1
  · rw [hn] at hn'
    cases hn'

/-- From a state in range the walk goes where it is to go. -/
theorem step_towards (hspeed : speed ≠ 0) (hstart : OnAxis xf yf down t)
    (hnew : t.doneMoving = false)
    (hrange : StaysInRange (t.walk down).place.toNat
      (axisEnd xf yf down).toNat (stride speed))
    (h : MoveState.Reached m img xf yf speed t s)
    (hstep : s.step m img xf yf speed n = some s') (hn : n.timer = true) :
    (s'.walk down).place.toNat = towards (s.walk down).place.toNat
      (axisEnd xf yf down).toNat (pace speed s'.counter) := by
  have hin := reached_inStep hstart hnew hrange h
  obtain ⟨-, hwalk⟩ := step_walk (reached_onAxis hstart h) hstep
  rw [hwalk, hn, if_pos rfl, step_counter hstep hn, pace_eq hspeed]
  exact (hin.tick hrange).2

-- =========================================================== the way there

/-- A message with the timer bit only. -/
def timerOnly : Message := ⟨none, true⟩

theorem step_timerOnly (h : s.scancode ≠ escape) :
    s.step m img xf yf speed timerOnly
      = some (s.tick m img xf yf speed).1 := by
  simp [MoveState.step, MoveState.turn, h, MoveState.key, timerOnly]

/-- A reached state ticks to a reached state. -/
theorem MoveState.Reached.tick (h : MoveState.Reached m img xf yf speed t s)
    (hesc : s.scancode ≠ escape) :
    MoveState.Reached m img xf yf speed t (s.tick m img xf yf speed).1
      ∧ (s.tick m img xf yf speed).1.scancode ≠ escape := by
  refine ⟨.step h trivial (step_timerOnly hesc), ?_⟩
  rw [(tick_frame s).2]
  exact hesc

variable (m img xf yf speed t down) in
/-- A run can get to this place, with the sprite under way and the next
tick moving it. -/
def Poised (place : UInt16) : Prop :=
  ∃ s, MoveState.Reached m img xf yf speed t s ∧ s.scancode ≠ escape
    ∧ s.doneMoving = false ∧ (s.walk down).place = place
    ∧ moves speed (s.counter + 1) = true

/-- Unless the counter has come round, its remainder goes up. -/
theorem succ_mod_of_ne_zero {a c : Nat} (hpos : 0 < a)
    (h : (c + 1) % a ≠ 0) : (c + 1) % a = c % a + 1 ∧ c % a + 1 < a := by
  have hc : c + 1 = c % a + 1 + a * (c / a) := by
    have hdiv := Nat.mod_add_div c a
    omega
  rw [hc, Nat.add_mul_mod_self_left] at h ⊢
  have hne : c % a + 1 ≠ a := fun he => h (by rw [he, Nat.mod_self])
  have hlt : c % a + 1 < a := by
    have hmod := Nat.mod_lt c hpos
    omega
  exact ⟨Nat.mod_eq_of_lt hlt, hlt⟩

/-- Ticks that do not move the sprite pass until one does. -/
theorem poised_of_reached (hspeed : speed ≠ 0)
    (hstart : OnAxis xf yf down t)
    (hesc : s.scancode ≠ escape) (hdone : s.doneMoving = false)
    (h : MoveState.Reached m img xf yf speed t s) :
    Poised m img xf yf speed t down (s.walk down).place := by
  -- by induction on the ticks left until the counter is a multiple
  induction hleft : speed.toInt.natAbs - 1 - s.counter % speed.toInt.natAbs
    using Nat.strong_induction_on generalizing s with
  | _ left ih =>
      by_cases hmove : moves speed (s.counter + 1) = true
      · exact ⟨s, h, hesc, hdone, rfl, hmove⟩
      obtain ⟨hreached, hesc'⟩ := h.tick hesc
      obtain ⟨-, hwalk⟩ := @tick_walk m img xf yf speed s down
        (reached_onAxis hstart h)
      have hidle : (s.walk down).tick speed (axisEnd xf yf down)
          = ⟨(s.walk down).place, false, s.counter + 1⟩ := by
        simp [Walk.tick, MoveState.walk, hdone, hmove]
      rw [show (if down then yf else xf) = axisEnd xf yf down from rfl,
        hidle] at hwalk
      have hplace := congrArg Walk.place hwalk
      dsimp only at hplace
      rw [← hplace]
      refine ih _ ?_ hesc' (congrArg Walk.arrived hwalk) hreached rfl
      rw [(tick_frame s).1, ← hleft]
      obtain ⟨ha, hround⟩ : 0 < speed.toInt.natAbs
          ∧ (s.counter + 1) % speed.toInt.natAbs ≠ 0 := by
        have hne : speed.toInt ≠ 0 := fun h0 =>
          hspeed (Int16.toInt_inj.1 (h0.trans Int16.toInt_zero.symm))
        simp only [moves, Bool.or_eq_true, decide_eq_true_eq,
          Bool.and_eq_true, beq_iff_eq, not_or, not_and] at hmove
        exact ⟨Int.natAbs_pos.2 hne, hmove.2 (by omega)⟩
      obtain ⟨hmod, hlt⟩ := succ_mod_of_ne_zero ha hround
      omega

/-- Under the contract the walk goes where it is to go. -/
theorem SpeedContract.towards {xi yi : UInt16} {buf : Buffer}
    {scancode : UInt8} {counter : Nat}
    (h : SpeedContract m img xi yi xf yf speed)
    (hs : MoveState.Reached m img xf yf speed
      (MoveState.start m img xi yi buf scancode counter) s)
    (hesc : s.scancode ≠ escape) (down : Bool) :
    ((s.tick m img xf yf speed).1.walk down).place.toNat
      = towards (s.walk down).place.toNat (axisEnd xf yf down).toNat
        (pace speed (s.counter + 1)) := by
  obtain ⟨hx, hy⟩ := (h buf scancode counter s timerOnly _ hs
    (step_timerOnly hesc)).1 rfl
  rw [(tick_frame s).1] at hx hy
  cases down with
  | true => exact hy
  | false => exact hx

end

section

variable {m : ModeInfo} {img : Image} {xi yi xf yf : UInt16}
  {speed : Int16} {down : Bool}

/-- A state to start from, with nothing in the globals. -/
def fresh (m : ModeInfo) (img : Image) (xi yi : UInt16) : MoveState :=
  MoveState.start m img xi yi (fun _ => 0) 0 0

/-- A step from a place a run can get to is in range. -/
theorem poised_in_range (hspeed : speed ≠ 0)
    (h : SpeedContract m img xi yi xf yf speed)
    (haxis : OnAxis xf yf down (fresh m img xi yi)) {place : UInt16}
    (hp : Poised m img xf yf speed (fresh m img xi yi) down place) :
    place.toNat + stride speed < 2 ^ 16
      ∧ place.toNat ≤ (axisEnd xf yf down).toNat + stride speed := by
  obtain ⟨hpos, hinc⟩ := stride_bounds speed
  obtain ⟨s, hs, hesc, hdone, rfl, hmove⟩ := hp
  obtain ⟨-, hwalk⟩ := @tick_walk m img xf yf speed s down
    (reached_onAxis haxis hs)
  have hright := h.towards hs hesc down
  rw [hwalk, Walk.tick_moves hdone hmove, pace_eq hspeed, if_pos hmove]
    at hright
  exact (advance_eq_towards_iff hpos hinc).1 hright

/-- A run gets to every place before the end. -/
theorem poised_place (hspeed : speed ≠ 0)
    (h : SpeedContract m img xi yi xf yf speed)
    (haxis : OnAxis xf yf down (fresh m img xi yi)) (k : Nat)
    (hk : k = 0 ∨ ((fresh m img xi yi).walk down).place.toNat
      + k * stride speed < (axisEnd xf yf down).toNat) :
    ∃ place : UInt16, place.toNat
        = ((fresh m img xi yi).walk down).place.toNat + k * stride speed
      ∧ Poised m img xf yf speed (fresh m img xi yi) down place := by
  obtain ⟨hpos, hinc⟩ := stride_bounds speed
  induction k with
  | zero =>
      have hesc : (fresh m img xi yi).scancode ≠ escape :=
        show (0 : UInt8) ≠ escape by decide
      exact ⟨_, by simp, poised_of_reached hspeed haxis hesc rfl (.start rfl)⟩
  | succ k ih =>
      have hmul : (k + 1) * stride speed = k * stride speed + stride speed :=
        Nat.succ_mul k _
      obtain ⟨place, hplace, s, hs, hesc, hdone, rfl, hmove⟩ :=
        ih (.inr (by omega))
      obtain ⟨-, hwalk⟩ := @tick_walk m img xf yf speed s down
        (reached_onAxis haxis hs)
      have hright := h.towards hs hesc down
      rw [pace_eq hspeed, if_pos hmove] at hright
      have hahead : towards (s.walk down).place.toNat
          (axisEnd xf yf down).toNat (stride speed)
            = (s.walk down).place.toNat + stride speed := by
        unfold towards
        split <;> omega
      rw [hahead] at hright
      obtain ⟨hreached, hesc'⟩ := hs.tick hesc
      refine ⟨_, by omega, poised_of_reached hspeed haxis hesc' ?_ hreached⟩
      -- the new place is before the end, so the sprite is under way
      rw [Walk.tick_moves hdone hmove] at hwalk
      have harrived := congrArg Walk.arrived hwalk
      rw [hwalk] at hright
      refine harrived.trans (beq_eq_false_iff_ne.2 fun hend => ?_)
      have hat := congrArg UInt16.toNat hend
      have hf : (axisEnd xf yf down).toNat
          = (s.walk down).place.toNat + stride speed := hat.symm.trans hright
      omega

end

-- ============================================================ the result

/-- The axis of a start: down if the sprite has no way to go across. -/
theorem start_onAxis {m : ModeInfo} {img : Image} {xi yi xf yf : UInt16}
    (haxis : xi = xf ∨ yi = yf) (buf : Buffer) (scancode : UInt8)
    (counter : Nat) :
    OnAxis xf yf (xi == xf)
      (MoveState.start m img xi yi buf scancode counter) := by
  unfold OnAxis
  by_cases hx : xi = xf
  · rw [if_pos (beq_iff_eq.2 hx)]
    exact hx
  · rw [if_neg (by simpa using hx)]
    exact ⟨haxis.resolve_left hx, fun _ => hx⟩

/-- The condition, along the axis of the start. -/
theorem condition_iff {m : ModeInfo} {img : Image} {xi yi xf yf : UInt16}
    {buf : Buffer} {scancode : UInt8} {counter inc : Nat} :
    (if xi = xf then StaysInRange yi.toNat yf.toNat inc
        else StaysInRange xi.toNat xf.toNat inc)
      ↔ StaysInRange (((MoveState.start m img xi yi buf scancode
          counter).walk (xi == xf)).place.toNat)
        (axisEnd xf yf (xi == xf)).toNat inc := by
  by_cases hx : xi = xf <;> simp [hx, MoveState.walk, MoveState.start, axisEnd]

/-- A contract that is kept keeps the start in range. -/
theorem staysInRange_of_contract {m : ModeInfo} {img : Image}
    {xi yi xf yf : UInt16} {speed : Int16} {down : Bool}
    (hspeed : speed ≠ 0) (h : SpeedContract m img xi yi xf yf speed)
    (haxis : OnAxis xf yf down (fresh m img xi yi)) :
    StaysInRange ((fresh m img xi yi).walk down).place.toNat
      (axisEnd xf yf down).toNat (stride speed) := by
  have hstep : ∀ k, (k = 0 ∨ ((fresh m img xi yi).walk down).place.toNat
      + k * stride speed < (axisEnd xf yf down).toNat) →
      ((fresh m img xi yi).walk down).place.toNat + k * stride speed
          + stride speed < 2 ^ 16
        ∧ ((fresh m img xi yi).walk down).place.toNat + k * stride speed
          ≤ (axisEnd xf yf down).toNat + stride speed := by
    intro k hk
    obtain ⟨place, hplace, hpoised⟩ := poised_place hspeed h haxis k hk
    rw [← hplace]
    exact poised_in_range hspeed h haxis hpoised
  refine ⟨?_, (hstep _ ?_).1⟩
  · have hfirst := (hstep 0 (.inl rfl)).2
    omega
  · -- the last place before the end, if there is one after the start
    generalize ((fresh m img xi yi).walk down).place.toNat = c
    generalize (axisEnd xf yf down).toNat = f
    have hle := Nat.div_mul_le_self (f - c - 1) (stride speed)
    rcases Nat.eq_zero_or_pos ((f - c - 1) / stride speed) with h0 | h0
    · exact .inl h0
    · have hmul := Nat.mul_pos h0 (stride_bounds speed).1
      exact .inr (by omega)

/-- The sprite keeps to its speed exactly if the coordinate it moves along
stays in range. -/
theorem speed_contract_iff (m : ModeInfo) (img : Image)
    (xi yi xf yf : UInt16) (speed : Int16) (haxis : xi = xf ∨ yi = yf)
    (hspeed : speed ≠ 0) :
    SpeedContract m img xi yi xf yf speed
      ↔ if xi = xf then StaysInRange yi.toNat yf.toNat (stride speed)
        else StaysInRange xi.toNat xf.toNat (stride speed) := by
  constructor
  · intro h
    rw [@condition_iff m img xi yi xf yf (fun _ => 0) 0 0]
    exact staysInRange_of_contract hspeed h
      (start_onAxis haxis (fun _ => 0) 0 0)
  · intro h buf scancode counter s n s' hs hstep
    rw [@condition_iff m img xi yi xf yf buf scancode counter] at h
    have hstart := @start_onAxis m img xi yi xf yf haxis buf scancode counter
    constructor
    · intro hn
      have hmoved := step_towards hspeed hstart rfl h hs hstep hn
      have hbefore := reached_onAxis hstart hs
      have hafter := (step_walk hbefore hstep).1
      by_cases hx : xi = xf
      · rw [beq_iff_eq.2 hx] at hmoved hbefore hafter
        rw [show s'.xi = xf from hafter, show s.xi = xf from hbefore]
        exact ⟨(towards_self _ _).symm, hmoved⟩
      · rw [beq_eq_false_iff_ne.2 hx] at hmoved hbefore hafter
        rw [show s'.yi = yf from hafter.1, show s.yi = yf from hbefore.1]
        exact ⟨hmoved, (towards_self _ _).symm⟩
    · intro hn
      obtain ⟨-, scancode', ⟨hn', -⟩ | ⟨-, rfl⟩⟩ := step_cases hstep
      · rw [hn] at hn'
        cases hn'
      · exact ⟨rfl, rfl⟩

/-- A black picture of one pixel. -/
def onePixel : Image := ⟨1, 1, fun _ => 0⟩

/-- In the mode of the move, 90 pixels to the right by 7 a tick. -/
theorem speed_contract_right :
    SpeedContract mode0x105 onePixel 10 5 100 5 7 := by
  refine (speed_contract_iff mode0x105 onePixel 10 5 100 5 7 (.inr rfl)
    (by decide)).2 ?_
  rw [if_neg (by decide)]
  unfold StaysInRange
  decide

/-- A sprite that has to go 100 pixels to the left by one a tick is there
after the first. -/
theorem jumps_to_the_left :
    ¬SpeedContract mode0x105 onePixel 100 5 0 5 1 := by
  intro h
  have hcase := (h (fun _ => 0) 0 0 _ timerOnly _ (.start rfl)
    (step_timerOnly (by decide))).1 rfl
  exact absurd hcase.1 (by decide)

end Lcom.Lab5
