/-
The preview: 240 ticks from the menu to a hidden board.

The tick that leaves the menu sets the counter to zero, so the preview
branch finds a multiple of 240 on the 240th tick after it and not
before. Until then it draws a board that lies still, and no key or mouse
byte reaches the game (`Previewing`). On that tick the sixteen cards
start to turn, and one drawing turns them all over (`preview_landed`).

Without read errors no notification leaves through `continue`, so every
notification with the timer bit is a tick.
-/
import Lcom.Machine.Past
import Lcom.Proj.Proofs.Cursor
import Lcom.Proj.Proofs.Phase
import Lcom.Proj.Proofs.Ticks

namespace Lcom.Proj

open Machine

-- ======================================================= without errors

/-- The mouse byte, if there is one, is read without an error. -/
def Notification.ErrorFree (n : Notification) : Prop :=
  ∀ reads r, n.mouse = some reads → mouseRead reads = some r →
    r.isError = false

/-- The runs without mouse read errors. -/
def errorFree : State → Notification → Prop := fun _ n => n.ErrorFree

/-- A board not yet turned over is as dealt, and no read error is
pending. -/
structure PreviewInv (s : State) : Prop where
  fresh : s.initGame = true → Fresh s.board.cardArray
  calm : s.driver.readingError = false

section

variable {m : ModeInfo} {s s₁ : State} {n : Notification} {skip : Bool}

/-- No error is read, none was pending, and none is now. -/
theorem input_calm (h : input m s n = some (s₁, skip)) (hn : n.ErrorFree)
    (hcalm : s.driver.readingError = false) :
    s₁.driver.readingError = false ∧ skip = false := by
  have hskip : ¬skip = true := by
    rw [input_skip_iff h]
    rintro ⟨reads, r, hm, hr, herr, -⟩
    rw [hn reads r hm hr, hcalm] at herr
    cases herr
  refine ⟨?_, by simpa using hskip⟩
  rcases input_cases h with ⟨-, -, rfl⟩ | ⟨reads, r, hm, hr, -, rfl⟩
  · exact hcalm
  · have herr : (r.isError || s.driver.readingError) = false := by
      rw [hn reads r hm hr, hcalm]
      rfl
    have hbyte := (dispatch_byte_iff s.driver r).2 herr
    have hafter : (s.driver.after r).readingError = false := by
      rcases after_error s.driver r with ⟨he, -⟩ | ⟨-, hr', -⟩
      · rw [herr] at he
        cases he
      · exact hr'
    show (s.driver.after r).dispatched.readingError = false
    unfold MouseDriver.dispatched
    rw [hbyte]
    exact printMousePacket_rule
      (P := fun d => d.readingError = false) hafter fun sync => by
        rw [storeByte_readingError]
        exact hafter

end

/-- A drawing of the preview, before its last tick. -/
theorem draw_preview_early {t : State} (ht : t.tmrTckCounter % 240 ≠ 0)
    (hb : ∀ i, (t.board.card i).isFlipping = false) :
    draw mode0x115 (previewStart t) = some t := by
  unfold previewStart
  rw [if_neg ht]
  exact draw_still hb

theorem previewInv_step {s s' : State} {n : Notification}
    (h : PreviewInv s) (hn : n.ErrorFree)
    (hs : step mode0x115 s n = some s') : PreviewInv s' := by
  constructor
  · intro hinit
    cases step_kind hs with
    | quiet hsame =>
        rw [hsame.board]
        exact h.fresh (hsame.initGame.symm.trans hinit)
    | @preview t _ hts _ hi hdraw =>
        obtain ⟨hsame, -, -⟩ := hts.frame
        have hfresh := h.fresh (hsame.initGame.symm.trans hi)
        rw [← hsame.board] at hfresh
        by_cases hc : t.tmrTckCounter % 240 = 0
        · -- the last tick of the preview clears the flag
          unfold previewStart at hdraw
          rw [if_pos hc, draw_eq] at hdraw
          obtain ⟨b, -, rfl⟩ := Option.map_eq_some_iff.1 hdraw
          cases hinit
        · rw [draw_preview_early hc fun i => (hfresh i).2.1] at hdraw
          cases hdraw
          exact hfresh
    | @play t u hts _ hi hu =>
        have hui := (playUntilMatch_frame hu).2.1
        have hvict : (victoryPhase (matchPhase u)).initGame = false := by
          rcases victoryPhase_cases (matchPhase u) with hv | ⟨-, hv⟩
          · rw [hv, (matchPhase_frame u).initGame, hui, hi]
          · rw [hv]
            exact (matchPhase_frame u).initGame.trans (hui.trans hi)
        rw [hvict] at hinit
        cases hinit
    | restart _ _ _ hdeal => exact (initializeGameCards_spec hdeal).2
  · rcases step_cases hs with ⟨t, ⟨s₁, hin, -, rfl⟩, -, htick⟩
      | ⟨-, skip, hin, -⟩
    · have hcalm := (input_calm hin hn h.calm).1
      have hdrop := (stateTick_moves htick).pointer.1
      exact (congrArg MouseDriver.readingError hdrop).trans hcalm
    · exact (input_calm hin hn h.calm).1

theorem previewInv_reach {s : State} (h : Reach errorFree s) :
    PreviewInv s := by
  refine h.invariant ?_ ?_
  · rintro s ⟨rands, cards, hdeal, rfl⟩
    exact ⟨fun _ => (initializeGameCards_spec hdeal).2, rfl⟩
  · intro s n s' _ hinv hn hs
    exact previewInv_step hinv hn hs

-- ========================================================== the preview

/-- `j` ticks into the preview of the board `b`. -/
structure Previewing (b : Board) (p : Player) (j : Nat) (s : State) :
    Prop where
  gs : s.gs = .game
  initGame : s.initGame = true
  condition : s.condition = true
  counter : s.tmrTckCounter = j
  board : s.board = b
  p1 : s.p1 = p
  calm : s.driver.readingError = false

/-- The board is hidden and the animation is as at the start. -/
structure Hidden (s : State) : Prop where
  initGame : s.initGame = false
  faceDown : ∀ i, (s.board.card i).isFlipped = true
  still : Still s.board

section

variable {b : Board} {p : Player} {j : Nat} {s : State} {n : Notification}

/-- What the timer branch finds, in the preview. -/
theorem Previewing.input {q : State × Bool} (h : Previewing b p j s)
    (hn : n.ErrorFree) (hin : Proj.input mode0x115 s n = some q) :
    q.2 = false ∧ Previewing b p j q.1 := by
  obtain ⟨s₁, skip⟩ := q
  obtain ⟨hcalm, hskip⟩ := input_calm hin hn h.calm
  obtain ⟨hsame, hgs, htmr⟩ := input_frame hin
  exact ⟨hskip, hgs.trans h.gs, hsame.initGame.trans h.initGame,
    (input_condition hin).trans h.condition, htmr.trans h.counter,
    hsame.board.trans h.board, hsame.p1.trans h.p1, hcalm⟩

theorem Previewing.step_eq {s₁ : State} (h : Previewing b p j s)
    (hin : Proj.input mode0x115 s n = some (s₁, false)) :
    step mode0x115 s n = if n.timer = true then
        stateTick mode0x115 (timerIntHandler s₁) n.rands
      else some s₁ := by
  unfold step
  rw [h.condition, if_pos rfl, hin]
  simp

/-- The tick that runs the preview branch. -/
theorem Previewing.tick (h : Previewing b p j s) (rands : List Rand) :
    stateTick mode0x115 (timerIntHandler s) rands
      = draw mode0x115 (previewStart (timerIntHandler s)) := by
  unfold stateTick timerIntHandler gameTick
  dsimp only
  rw [h.gs]
  dsimp only
  rw [h.initGame, if_pos rfl]

/-- A notification before the last tick. -/
theorem Previewing.early (h : Previewing b p j s) (hb : Dealt b)
    (hn : n.ErrorFree) (hin : (Proj.input mode0x115 s n).isSome)
    (hj : j + n.timer.toNat ≤ 239) :
    ∃ s', step mode0x115 s n = some s'
      ∧ Previewing b p (j + n.timer.toNat) s' := by
  obtain ⟨⟨s₁, skip⟩, hin⟩ := Option.isSome_iff_exists.1 hin
  obtain ⟨hskip, h₁⟩ := h.input hn hin
  cases hskip
  rw [h.step_eq hin]
  cases htim : n.timer with
  | false =>
      rw [if_neg (by decide)]
      exact ⟨s₁, rfl, h₁⟩
  | true =>
      rw [htim] at hj
      have hj' : j + 1 ≤ 239 := hj
      have hcount : (timerIntHandler s₁).tmrTckCounter = j + 1 :=
        congrArg (· + 1) h₁.counter
      have hstill : ∀ i, ((timerIntHandler s₁).board.card i).isFlipping
          = false := by
        intro i
        show (s₁.board.card i).isFlipping = false
        rw [h₁.board]
        exact hb.still.isFlipping i
      rw [if_pos rfl, h₁.tick, draw_preview_early (by omega) hstill]
      exact ⟨_, rfl, h₁.gs, h₁.initGame, h₁.condition, hcount, h₁.board,
        h₁.p1, h₁.calm⟩

/-- The last tick. -/
theorem Previewing.last (h : Previewing b p 239 s) (hb : Dealt b)
    (hn : n.ErrorFree) (hin : (Proj.input mode0x115 s n).isSome)
    (htim : n.timer = true) :
    ∃ s', step mode0x115 s n = some s' ∧ Hidden s' := by
  obtain ⟨⟨s₁, skip⟩, hin⟩ := Option.isSome_iff_exists.1 hin
  obtain ⟨hskip, h₁⟩ := h.input hn hin
  cases hskip
  have hcount : (timerIntHandler s₁).tmrTckCounter % 240 = 0 := by
    rw [show (timerIntHandler s₁).tmrTckCounter = 239 + 1 from
      congrArg (· + 1) h₁.counter]
  rw [h.step_eq hin, if_pos htim, h₁.tick]
  unfold previewStart
  rw [if_pos hcount, draw_eq]
  dsimp only
  rw [show (timerIntHandler s₁).board = b from h₁.board]
  obtain ⟨b', hb', hland⟩ := preview_landed hb
  rw [hb']
  refine ⟨_, rfl, rfl, fun i => ?_, hland.still⟩
  show (b'.card i).isFlipped = true
  rw [hland.card i, if_pos (Finset.mem_univ i)]
  rfl

end

-- =========================================================== the result

/-- Notifications with the timer bit. -/
def tickCount (ns : List Notification) : Nat := ns.countP Notification.timer

/-- The game as it came from the menu: all cards face up, none flipping,
no life lost. -/
structure InPreview (s₁ s : State) : Prop where
  gs : s.gs = .game
  faceUp : ∀ i, (s.board.card i).isFlipped = false
  isFlipping : ∀ i, (s.board.card i).isFlipping = false
  p1 : s.p1 = s₁.p1

/-- The tick from the menu to the game starts the count. -/
theorem previewing_of_menu {s s₁ : State} {n : Notification}
    (h : PreviewInv s₁) (hs : step mode0x115 s n = some s₁)
    (hmenu : s.gs = .menu) (hgame : s₁.gs = .game)
    (hinit : s₁.initGame = true) :
    Previewing s₁.board s₁.p1 0 s₁ := by
  have hcond := step_condition hs
  rcases step_cases hs with ⟨t, hts, -, htick⟩ | ⟨-, skip, hin, -⟩
  · obtain ⟨s₀, hin, -, rfl⟩ := hts
    have hgs : (timerIntHandler s₀).gs = .menu :=
      (input_frame hin).2.1.trans hmenu
    have hmoves := stateTick_moves htick
    generalize tickMoves mode0x115 (timerIntHandler s₀) = ms at hmoves
    cases hmoves with
    | menu _ hm =>
        cases hm with
        | play =>
            exact ⟨rfl, hinit, (input_condition hin).trans hcond, rfl, rfl,
              rfl, h.calm⟩
        | instructions => cases hgame
        | instructionsExit => cases hgame
        | exit => cases hgame
        | stay => rw [hgs] at hgame; cases hgame
    | game hg => rw [hgs] at hg; cases hg
    | pause hg => rw [hgs] at hg; cases hg
    | instructions hg => rw [hgs] at hg; cases hg
    | restart hg => rw [hgs] at hg; cases hg
    | outcome hg => rw [hgs] at hg; cases hg
    | unused hg => rw [hgs] at hg; rcases hg with hg | hg <;> cases hg
  · rw [(input_frame hin).2.1, hmenu] at hgame
    cases hgame

/-- The preview of a run. -/
theorem exec_previewing {b : Board} {p : Player} {s s' : State}
    (hb : Dealt b) (h : Previewing b p 0 s) {ns : List Notification}
    (hns : ∀ n ∈ ns, n.ErrorFree)
    (hrun : exec (step mode0x115) s ns = some s') :
    tickCount ns ≤ 239 → Previewing b p (tickCount ns) s' := by
  have hok : Along (step mode0x115) errorFree s ns := by
    intro before n after hsplit t _
    apply hns
    rw [hsplit]
    simp
  refine exec_induction (I := fun past t => tickCount past ≤ 239 →
    Previewing b p (tickCount past) t) (fun _ => h) ?_ hok hrun
  intro past t n t' ih hn ht hle
  have hticks : tickCount (past ++ [n]) = tickCount past + n.timer.toNat := by
    unfold tickCount
    rw [List.countP_append]
    cases htim : n.timer <;> simp [htim]
  rw [hticks] at hle ⊢
  have hin : (input mode0x115 t n).isSome := by
    unfold step at ht
    split at ht
    · cases hq : input mode0x115 t n with
      | none => rw [hq] at ht; cases ht
      | some q => rfl
    · cases ht
  obtain ⟨t'', ht'', hprev⟩ := (ih (by omega)).early hb hn hin hle
  rw [ht] at ht''
  cases ht''
  exact hprev

/-- The preview lasts 240 ticks: for 239 of them the game stays as it
came from the menu, and the 240th hides every card. Neither has a tick
the loop does not come back from. -/
theorem preview_lasts {s s₁ : State} {n : Notification}
    (hreach : Reach errorFree s) (hn : n.ErrorFree)
    (hs : step mode0x115 s n = some s₁) (hmenu : s.gs = .menu)
    (hgame : s₁.gs = .game) (hinit : s₁.initGame = true)
    (hwidth : s₁.board.increaseWidth = 1)
    (hsides : ∀ i, s₁.board.otherSide.get i = 0)
    {ns : List Notification} (hns : ∀ n ∈ ns, n.ErrorFree) {s₂ : State}
    (hrun : exec (step mode0x115) s₁ ns = some s₂)
    (hticks : tickCount ns ≤ 239) :
    InPreview s₁ s₂ ∧ ∀ n', n'.ErrorFree →
      (input mode0x115 s₂ n').isSome →
      ∃ s₃, step mode0x115 s₂ n' = some s₃
        ∧ (tickCount ns = 239 → n'.timer = true → Hidden s₃) := by
  have hinv := previewInv_reach (hreach.step hn hs)
  have hfresh := hinv.fresh hinit
  have hdealt : Dealt s₁.board :=
    ⟨hfresh, fun i => (hfresh i).2.1, hwidth, hsides⟩
  have hprev := exec_previewing hdealt
    (previewing_of_menu hinv hs hmenu hgame hinit) hns hrun hticks
  refine ⟨⟨hprev.gs, fun i => ?_, fun i => ?_, hprev.p1⟩, ?_⟩
  · rw [hprev.board]
    exact (hfresh i).1
  · rw [hprev.board]
    exact (hfresh i).2.1
  · intro n' hn' hin
    by_cases hlast : tickCount ns = 239 ∧ n'.timer = true
    · rw [hlast.1] at hprev
      obtain ⟨s₃, hs₃, hhidden⟩ := hprev.last hdealt hn' hin hlast.2
      exact ⟨s₃, hs₃, fun _ _ => hhidden⟩
    · have hle : tickCount ns + n'.timer.toNat ≤ 239 := by
        cases htim : n'.timer with
        | false => simpa using hticks
        | true =>
            have : tickCount ns ≠ 239 := fun h => hlast ⟨h, htim⟩
            simp only [Bool.toNat_true]
            omega
      obtain ⟨s₃, hs₃, -⟩ := hprev.early hdealt hn' hin hle
      exact ⟨s₃, hs₃, fun h h' => absurd ⟨h, h'⟩ hlast⟩

-- A game started by the key, and left alone.

theorem exec_ticks {b : Board} {p : Player} (hb : Dealt b) (k : Nat) :
    ∀ {j : Nat} {s : State}, Previewing b p j s → j + k ≤ 239 →
      ∃ s', exec (step mode0x115) s (List.replicate k tick) = some s' := by
  induction k with
  | zero => intro j s _ _; exact ⟨s, rfl⟩
  | succ k ih =>
      intro j s h hj
      have hfree : tick.ErrorFree := fun reads r hm => by cases hm
      obtain ⟨s', hs, h'⟩ := h.early hb hfree rfl
        (show j + 1 ≤ 239 by omega)
      obtain ⟨s'', hs''⟩ := ih h' (show j + 1 + k ≤ 239 by omega)
      refine ⟨s'', ?_⟩
      rw [List.replicate_succ, exec_cons_of_step hs]
      exact hs''

/-- The game after Play. -/
def played : State := menuTick (timerIntHandler
  { start orderedCards with scancode := pKeyBreakcode })

theorem played_step :
    step mode0x115 (start orderedCards) (keyTick pKeyBreakcode)
      = some played := rfl

theorem played_dealt : Dealt played.board := by
  have hstill : Still (Board.ofCards orderedCards) :=
    ⟨by decide, rfl, by decide⟩
  exact ⟨(initializeGameCards_spec orderedRands_deal).2, hstill⟩

/-- 239 ticks after Play the board is still open, the next tick hides
it. -/
theorem preview_lasts_played :
    ∃ s₂ s₃, exec (step mode0x115) played (List.replicate 239 tick) = some s₂
      ∧ InPreview played s₂ ∧ step mode0x115 s₂ tick = some s₃
      ∧ Hidden s₃ := by
  have hkey : (keyTick pKeyBreakcode).ErrorFree :=
    fun reads r hm => by cases hm
  have hfree : tick.ErrorFree := fun reads r hm => by cases hm
  have hstart : Reach errorFree (start orderedCards) :=
    .start ⟨orderedRands, orderedCards, orderedRands_deal, rfl⟩
  have hprev : Previewing played.board played.p1 0 played :=
    ⟨rfl, rfl, rfl, rfl, rfl, rfl, rfl⟩
  obtain ⟨s₂, hrun⟩ := exec_ticks played_dealt 239 hprev (by decide)
  have hcount : tickCount (List.replicate 239 tick) = 239 := by
    unfold tickCount
    rw [List.countP_replicate]
    rfl
  obtain ⟨hin, hnext⟩ := preview_lasts hstart hkey played_step rfl rfl rfl
    played_dealt.still.width played_dealt.still.otherSide
    (fun n hn => by rw [List.eq_of_mem_replicate hn]; exact hfree) hrun
    hcount.le
  obtain ⟨s₃, hs₃, hhidden⟩ := hnext tick hfree rfl
  exact ⟨s₂, s₃, hrun, hin, hs₃, hhidden hcount rfl⟩

end Lcom.Proj
