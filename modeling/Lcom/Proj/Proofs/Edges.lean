/-
The cursor at the edges of the screen.

`update_mouse_position` tests the whole displacement and applies half of
it, and its second vertical test adds where it should subtract. So a
movement towards the bottom is never stopped, and a movement towards the
top can be taken for one past the bottom. The horizontal tests keep the
cursor on the screen, but the place they put it at lies fifteen pixels
inside, which may be a step back.
-/
import Lcom.Machine.Past
import Lcom.Proj.Game

namespace Lcom.Proj

open Machine

-- ====================================================== on the screen

/-- The displacements a packet can carry. -/
structure Displacement where
  x : Int
  y : Int
  xRange : -256 ≤ x ∧ x ≤ 255
  yRange : -256 ≤ y ∧ y ≤ 255

/-- `update_mouse_position` with a displacement. -/
def displaced (m : ModeInfo) (c : Mouse) (d : Displacement) : Mouse :=
  updateMousePosition m c d.x d.y

/-- The cursor is a pixel of the screen. -/
structure OnScreen (m : ModeInfo) (c : Mouse) : Prop where
  left : 0 ≤ c.x
  right : c.x < m.xResolution
  top : 0 ≤ c.y
  bottom : c.y < m.yResolution

/-- The cursor is on the screen after every call. -/
def StaysOnScreen (m : ModeInfo) (ds : List Displacement) : Prop :=
  ∀ ds', ds' <+: ds → OnScreen m (ds'.foldl (displaced m) createMouse)

/-- A displacement towards the bottom is less than twice the way to the
edge. -/
def EndsAbove (m : ModeInfo) (c : Mouse) (d : Displacement) : Prop :=
  d.y < 0 → -d.y < 2 * (m.yResolution - c.y)

/-- C division by two. -/
theorem half_cases (z : Int) :
    (0 ≤ z ∧ z.tdiv 2 = z / 2) ∨ (z < 0 ∧ z.tdiv 2 = -(-z / 2)) := by
  rcases Int.lt_or_le z 0 with h | h
  · refine .inr ⟨h, ?_⟩
    rw [← Int.tdiv_eq_ediv_of_nonneg (by omega), Int.neg_tdiv, Int.neg_neg]
  · exact .inl ⟨h, Int.tdiv_eq_ediv_of_nonneg h⟩

variable {m : ModeInfo} {c : Mouse}

/-- The horizontal coordinate stays on the screen. -/
theorem displaced_x (hx : 512 ≤ m.xResolution) (h : OnScreen m c)
    (d : Displacement) :
    0 ≤ (displaced m c d).x ∧ (displaced m c d).x < m.xResolution := by
  have hleft := h.left
  have hright := h.right
  have hhalf := half_cases d.x
  unfold displaced updateMousePosition
  dsimp only
  split
  · omega
  · split <;> omega

/-- The vertical one does unless a movement to the bottom is too long. -/
theorem displaced_y (hy : 512 ≤ m.yResolution) (h : OnScreen m c)
    (d : Displacement) :
    (0 ≤ (displaced m c d).y ∧ (displaced m c d).y < m.yResolution)
      ↔ EndsAbove m c d := by
  have htop := h.top
  have hbottom := h.bottom
  have hhalf := half_cases d.y
  unfold displaced updateMousePosition EndsAbove
  dsimp only
  split
  · omega
  · split <;> omega

/-- One call. -/
theorem onScreen_displaced_iff (hx : 512 ≤ m.xResolution)
    (hy : 512 ≤ m.yResolution) (h : OnScreen m c) (d : Displacement) :
    OnScreen m (displaced m c d) ↔ EndsAbove m c d := by
  obtain ⟨hleft, hright⟩ := displaced_x hx h d
  rw [← displaced_y hy h d]
  constructor
  · intro h'
    exact ⟨h'.top, h'.bottom⟩
  · intro h'
    exact ⟨hleft, hright, h'.1, h'.2⟩

/-- The cursor stays on the screen if and only if every movement towards
the bottom is less than twice the way to the edge. -/
theorem stays_on_screen_iff (m : ModeInfo) (hx : 512 ≤ m.xResolution)
    (hy : 512 ≤ m.yResolution) (ds : List Displacement) :
    StaysOnScreen m ds
      ↔ Through (displaced m) (EndsAbove m) createMouse ds := by
  have hstart : OnScreen m createMouse := by
    constructor <;> simp only [createMouse] <;> omega
  refine prefixes_iff_through ?_ hstart
  intro c d hc
  exact onScreen_displaced_iff hx hy hc d

theorem zero_displacement : -256 ≤ (0 : Int) ∧ (0 : Int) ≤ 255 := by omega

theorem down_displacement : -256 ≤ (-255 : Int) ∧ (-255 : Int) ≤ 255 := by
  omega

/-- A fast movement towards the bottom. -/
def downwards : Displacement :=
  { x := 0, y := -255
    xRange := zero_displacement, yRange := down_displacement }

/-- Two of them stay on the screen. -/
theorem stays_on_screen_two : StaysOnScreen mode0x115 [downwards, downwards] :=
  (stays_on_screen_iff mode0x115 (by decide) (by decide) _).2
    ⟨fun _ => by decide, fun _ => by decide, trivial⟩

/-- The fifth takes the cursor to line 635 of 600. -/
theorem leaves_bottom :
    ¬StaysOnScreen mode0x115 (List.replicate 5 downwards)
      ∧ (List.replicate 5 downwards).foldl (displaced mode0x115) createMouse
        = { x := 0, y := 635 } := by
  have hend : (List.replicate 5 downwards).foldl (displaced mode0x115)
      createMouse = { x := 0, y := 635 } := by decide
  refine ⟨fun hstays => ?_, hend⟩
  have hbottom := (hstays _ (List.prefix_refl _)).bottom
  rw [hend] at hbottom
  revert hbottom
  decide

-- ================================================== against the hand

/-- The cursor does not move against the hand; `y` counts upwards. -/
structure WithHand (m : ModeInfo) (c : Mouse) (d : Displacement) : Prop where
  rightwards : 0 ≤ d.x → c.x ≤ (displaced m c d).x
  leftwards : d.x ≤ 0 → (displaced m c d).x ≤ c.x
  upwards : 0 ≤ d.y → (displaced m c d).y ≤ c.y
  downwards : d.y ≤ 0 → c.y ≤ (displaced m c d).y

/-- The cursor is put at the inset column from beyond it. -/
def PulledLeft (m : ModeInfo) (c : Mouse) (d : Displacement) : Prop :=
  (m.xResolution : Int) - 15 < c.x ∧ m.xResolution ≤ c.x + d.x

/-- A movement upwards is taken for one past the bottom, above the inset
line. -/
def PushedDown (m : ModeInfo) (c : Mouse) (d : Displacement) : Prop :=
  d.y ≤ c.y ∧ m.yResolution ≤ c.y + d.y ∧ c.y < (m.yResolution : Int) - 15

/-- On the horizontal axis. -/
theorem withHand_x_iff (h : OnScreen m c) (d : Displacement) :
    ((0 ≤ d.x → c.x ≤ (displaced m c d).x)
        ∧ (d.x ≤ 0 → (displaced m c d).x ≤ c.x))
      ↔ ¬PulledLeft m c d := by
  have hleft := h.left
  have hright := h.right
  have hhalf := half_cases d.x
  unfold displaced updateMousePosition PulledLeft
  dsimp only
  split
  · omega
  · split <;> omega

/-- On the vertical axis. -/
theorem withHand_y_iff (h : OnScreen m c) (d : Displacement) :
    ((0 ≤ d.y → (displaced m c d).y ≤ c.y)
        ∧ (d.y ≤ 0 → c.y ≤ (displaced m c d).y))
      ↔ ¬PushedDown m c d := by
  have htop := h.top
  have hbottom := h.bottom
  have hhalf := half_cases d.y
  unfold displaced updateMousePosition PushedDown
  dsimp only
  split
  · omega
  · split <;> omega

/-- The cursor moves with the hand except where it is pulled back from
the right edge or pushed down by a movement upwards. -/
theorem with_hand_iff (m : ModeInfo) (c : Mouse) (h : OnScreen m c)
    (d : Displacement) :
    WithHand m c d ↔ ¬PulledLeft m c d ∧ ¬PushedDown m c d := by
  rw [← withHand_x_iff h d, ← withHand_y_iff h d]
  constructor
  · intro hw
    exact ⟨⟨hw.rightwards, hw.leftwards⟩, hw.upwards, hw.downwards⟩
  · intro hw
    exact ⟨hw.1.1, hw.1.2, hw.2.1, hw.2.2⟩

theorem up_displacement : -256 ≤ (200 : Int) ∧ (200 : Int) ≤ 255 := by omega

/-- A fast movement towards the top. -/
def upwards : Displacement :=
  { x := 0, y := 200
    xRange := zero_displacement, yRange := up_displacement }

theorem onScreen_middle : OnScreen mode0x115 { x := 0, y := 300 } := by
  constructor <;> decide

theorem onScreen_low : OnScreen mode0x115 { x := 0, y := 400 } := by
  constructor <;> decide

/-- From the middle of the screen it goes up. -/
theorem with_hand_middle : WithHand mode0x115 { x := 0, y := 300 } upwards :=
  (with_hand_iff mode0x115 _ onScreen_middle upwards).2 <| by
    unfold PulledLeft PushedDown
    decide

/-- From a hundred lines below it goes to the bottom. -/
theorem pushed_down :
    OnScreen mode0x115 { x := 0, y := 400 }
      ∧ ¬WithHand mode0x115 { x := 0, y := 400 } upwards
      ∧ displaced mode0x115 { x := 0, y := 400 } upwards
        = { x := 0, y := 585 } := by
  refine ⟨onScreen_low, fun hw => ?_, by decide⟩
  have hup := hw.upwards (by decide)
  revert hup
  decide

end Lcom.Proj
