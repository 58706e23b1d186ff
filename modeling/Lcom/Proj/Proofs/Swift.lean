/-
A cheaper step of the main loop.

A run in which something goes wrong is a few hundred notifications long.
`swiftStep` is `step` rearranged so that replaying one is cheap, and it
is proved to be `step` (`swiftStep_eq`):

  the drawing leaves the screen out, and with a single card turning it
  is a single flip call (`swiftTurn_eq`);
  the click looks its card up instead of marking and unmarking it
  (`swiftClick_eq`);
  the match loop is run only with two cards open (`swiftMatch_eq`).

Reading card `i` of the array means walking to it, so each of these
first looks at the whole row of cards. A board that has changed is
passed on evaluated (`Board.force`), and so is every state
(`State.force`).
-/
import Lcom.Machine.Force
import Lcom.Proj.Proofs.Match
import Lcom.Proj.Proofs.Turning

namespace Lcom.Proj

open Machine

-- ==================================================== evaluated states

section

variable {α : Type}

/-- Pass a card on with its flags evaluated. -/
def Card.force (c : Card) (k : Card → α) : α :=
  forceBool c.isFlipped fun isFlipped =>
    forceBool c.isFlipping fun isFlipping =>
      forceBool c.flipSuccess fun flipSuccess =>
        match c with
        | { x, y, isFlipped := _, isFlipping := _, flipSuccess := _, num,
            suit } =>
            k { x, y, isFlipped, isFlipping, flipSuccess, num, suit }

theorem Card.force_eq (c : Card) (k : Card → α) : c.force k = k c := by
  unfold Card.force
  simp only [forceBool_eq]

/-- Pass a board on with its cards and its animation evaluated. -/
def Board.force (b : Board) (k : Board → α) : α :=
  forceVector Card.force b.cardArray fun cardArray =>
    forceVector forceInt b.otherSide fun otherSide =>
      forceInt b.increaseWidth fun increaseWidth =>
        k { cardArray, increaseWidth, otherSide }

theorem Board.force_eq (b : Board) (k : Board → α) : b.force k = k b := by
  unfold Board.force
  rw [forceVector_eq Card.force_eq, forceVector_eq forceInt_eq, forceInt_eq]

/-- Pass a screen on, evaluated. -/
def GameState.force : GameState → (GameState → α) → α
  | .menu, k => k .menu
  | .game, k => k .game
  | .pause, k => k .pause
  | .highScores, k => k .highScores
  | .instructions, k => k .instructions
  | .exit, k => k .exit
  | .wait, k => k .wait

theorem GameState.force_eq (gs : GameState) (k : GameState → α) :
    gs.force k = k gs := by
  cases gs <;> rfl

/-- Pass a driver on with its fields read out of it and the left button
evaluated. -/
def MouseDriver.force (d : MouseDriver) (k : MouseDriver → α) : α :=
  forceBool d.packet1.lb fun lb =>
    match d with
    | { packet1, readPacket, isSync, counter, totalPackets,
        readingError } =>
        k { packet1 := { packet1 with lb }, readPacket, isSync, counter
            totalPackets, readingError }

theorem MouseDriver.force_eq (d : MouseDriver) (k : MouseDriver → α) :
    d.force k = k d := by
  unfold MouseDriver.force
  rw [forceBool_eq]

/-- Pass the screens and the switches of the loop on, evaluated. -/
def State.forceSwitches (s : State) (k : GameState → GameState → Bool →
    Bool → Bool → Bool → Bool → α) : α :=
  s.gs.force fun gs =>
    s.prevState.force fun prevState =>
      forceBool s.isAnyCardFlipping fun isAnyCardFlipping =>
        forceBool s.initGame fun initGame =>
          forceBool s.gameOver fun gameOver =>
            forceBool s.victory fun victory =>
              forceBool s.condition fun condition =>
                k gs prevState isAnyCardFlipping initGame gameOver
                  victory condition

/-- Pass a state on with its fields evaluated, the board as it is. -/
def State.force (s : State) (k : State → α) : α :=
  s.driver.force fun driver =>
    forceInt s.mouse.x fun x =>
      forceInt s.mouse.y fun y =>
        forceNat s.tmrTckCounter fun tmrTckCounter =>
          forceNat s.p1.lives fun lives =>
            forceBool s.p1.isAlive fun isAlive =>
              s.forceSwitches fun gs prevState isAnyCardFlipping initGame
                  gameOver victory condition =>
                match s.board, s.scancode with
                | { cardArray, increaseWidth, otherSide }, ⟨scancode⟩ =>
                    k { gs, prevState, scancode := ⟨scancode⟩, driver
                        mouse := { x, y }, tmrTckCounter
                        board := { cardArray, increaseWidth, otherSide }
                        p1 := { lives, isAlive }, isAnyCardFlipping
                        initGame, gameOver, victory, condition }

theorem State.force_eq (s : State) (k : State → α) : s.force k = k s := by
  unfold State.force State.forceSwitches
  simp only [MouseDriver.force_eq, GameState.force_eq, forceInt_eq,
    forceNat_eq, forceBool_eq]

end

-- ===================================================== the row of cards

/-- The cards of the row that pass a test, by their positions. -/
theorem filter_cards (b : Board) (p : Card → Bool) :
    b.cardArray.toList.filter p
      = ((List.finRange 16).filter fun i => p (b.card i)).map b.card := by
  have hrow : b.cardArray.toList = (List.finRange 16).map b.card := by
    refine List.ext_getElem (by simp) fun k h₁ h₂ => ?_
    simp [Board.card, List.Vector.get_eq_get_toList]
  rw [hrow, List.filter_map]
  rfl

/-- A row with fewer than two such cards. -/
theorem eq_of_filter_cards {b : Board} {p : Card → Bool}
    (h : (b.cardArray.toList.filter p).length ≤ 1) {i j : Fin 16}
    (hi : p (b.card i) = true) (hj : p (b.card j) = true) : i = j := by
  rw [filter_cards, List.length_map] at h
  have hmem : ∀ k, p (b.card k) = true →
      k ∈ (List.finRange 16).filter fun i => p (b.card i) :=
    fun k hk => List.mem_filter.2 ⟨List.mem_finRange k, hk⟩
  generalize (List.finRange 16).filter (fun i => p (b.card i)) = l at h hmem
  have hil := hmem i hi
  have hjl := hmem j hj
  match l, h with
  | [], _ => cases hil
  | [k], _ =>
      rw [List.mem_singleton] at hil hjl
      rw [hil, hjl]

-- ========================================================= the drawing

/-- A flip call starts no card. -/
theorem flipCards_isFlipping {facing : Bool} {stop : Int} {b : Board}
    {j : Fin 16} (h : (b.card j).isFlipping = false) :
    ((flipCards facing stop b).1.card j).isFlipping = false := by
  by_cases hstop : b.turned facing = stop
  · rw [flipCards_done_card hstop, h, if_neg (by decide)]
    exact h
  · rw [flipCards_going hstop]
    exact h

/-- The flip call of one card starts no other. -/
theorem turnCard_isFlipping {b b' : Board} {i j : Fin 16}
    (ht : turnCard b i = some b') (h : (b.card j).isFlipping = false) :
    (b'.card j).isFlipping = false := by
  unfold turnCard at ht
  split at ht
  · split at ht
    · cases ht
    · cases ht
      split <;> exact flipCards_isFlipping h
  · cases ht
    exact h

/-- With one card turning the drawing loop is its flip call. -/
theorem turnCards_single {b : Board} {i : Fin 16}
    (hstill : ∀ j, j ≠ i → (b.card j).isFlipping = false)
    {is : List (Fin 16)} (hi : i ∈ is) (hnd : is.Nodup) :
    turnCards is b = turnCard b i := by
  induction is with
  | nil => cases hi
  | cons j is ih =>
      obtain ⟨hj, hnd'⟩ := List.nodup_cons.1 hnd
      unfold turnCards
      by_cases hji : j = i
      · -- its own call; the cards after it lie still
        subst hji
        cases ht : turnCard b j with
        | none => rfl
        | some b' =>
            refine turnCards_idle fun k hk => ?_
            have hkj : k ≠ j := fun he => hj (he ▸ hk)
            exact turnCard_isFlipping ht (hstill k hkj)
      · have hidle : turnCard b j = some b := by
          unfold turnCard
          rw [hstill j hji, if_neg (by decide)]
        rw [hidle]
        exact ih ((List.mem_cons.1 hi).resolve_left (Ne.symm hji)) hnd'

/-- The drawing call, seen from the board. -/
def swiftTurn (b : Board) : Option Board :=
  match b.cardArray.toList.filter Card.isFlipping with
  | [] => some b
  | [c] =>
      if b.increaseWidth = 0 then none
      else (if c.isFlipped then (flipACardUp b).1
        else (flipACardDown b).1).force some
  | _ => (turnCards (List.finRange 16) b).bind fun b => b.force some

theorem swiftTurn_eq (b : Board) :
    swiftTurn b = turnCards (List.finRange 16) b := by
  unfold swiftTurn
  split
  · next hnone =>
      refine (turnCards_still (fun i => ?_) _).symm
      rw [List.filter_eq_nil_iff] at hnone
      exact Bool.eq_false_iff.2 (hnone _ (List.Vector.get_mem i _))
  · next c hone =>
      rw [filter_cards] at hone
      obtain ⟨i, hi, rfl⟩ := List.map_eq_singleton_iff.1 hone
      have hiff : ∀ j, (b.card j).isFlipping = true ↔ j = i := by
        intro j
        have hmem : j ∈ ([i] : List (Fin 16)) ↔ j = i := List.mem_singleton
        rw [← hmem, ← hi, List.mem_filter]
        simp
      have hstill : ∀ j, j ≠ i → (b.card j).isFlipping = false :=
        fun j hj => Bool.eq_false_iff.2 fun hf => hj ((hiff j).1 hf)
      rw [turnCards_single hstill (List.mem_finRange i)
        (List.nodup_finRange 16)]
      unfold turnCard
      rw [(hiff i).2 rfl, if_pos rfl, Board.force_eq]
  · cases turnCards (List.finRange 16) b with
    | none => rfl
    | some b' => exact Board.force_eq b' some

-- =========================================================== the click

/-- The click, with its card looked up. -/
def swiftClick (s : State) : State :=
  if s.lb then
    if s.board.anyFlipping then { s with isAnyCardFlipping := true }
    else
      match (List.finRange 16).find? (onCard mode0x115 s.mouse) with
      | some k =>
          if (s.board.card k).isFlipped then
            Board.force { s.board with
                cardArray := setFlipping s.board.cardArray k true }
              fun b => { s with isAnyCardFlipping := false, board := b }
          else { s with isAnyCardFlipping := false }
      | none => { s with isAnyCardFlipping := false }
  else { s with isAnyCardFlipping := false }

theorem swiftClick_eq (s : State) :
    swiftClick s = clickPhase mode0x115 s := by
  unfold swiftClick clickPhase
  cases s.lb with
  | false => rfl
  | true =>
      rw [if_pos rfl, if_pos rfl]
      cases hany : s.board.anyFlipping with
      | true => rfl
      | false =>
          rw [if_neg (by decide), if_neg (by decide)]
          have hstill : ∀ i, (s.board.cardArray.get i).isFlipping = false :=
            fun i => Bool.eq_false_iff.2 fun hi => by
              rw [anyFlipping_iff.2 ⟨i, hi⟩] at hany
              cases hany
          have hcases := flipCardOnClick_cases mode0x115 s.mouse hstill
          split
          · next k hk =>
              have hon := List.find?_some hk
              rcases hcases with ⟨k', hon', hdown, he⟩ | ⟨hup, he⟩
              · cases onCard_unique hon' hon
                rw [he, Board.force_eq]
                exact if_pos hdown
              · rw [he]
                exact if_neg (Bool.eq_false_iff.1 (hup k hon))
          · next hnone =>
              rw [List.find?_eq_none] at hnone
              rcases hcases with ⟨k', hon', -, -⟩ | ⟨-, he⟩
              · exact absurd hon' (hnone k' (List.mem_finRange k'))
              · rw [he]

-- ==================================================== the match check

/-- The match check, run with two cards open. -/
def swiftMatch (s : State) : State :=
  if s.isAnyCardFlipping then s
  else if (s.board.cardArray.toList.filter Card.isOpen).length ≤ 1 then s
  else (matchRounds 16 s).board.force fun b =>
    { matchRounds 16 s with board := b }

theorem swiftMatch_eq (s : State) : swiftMatch s = matchPhase s := by
  unfold swiftMatch matchPhase
  split
  · rfl
  · split
    · next h =>
        exact (matchRounds_single fun i j => eq_of_filter_cards h).symm
    · rw [Board.force_eq]

-- ============================================================ the loop

/-- `draw_game_cards` without the screen. -/
def swiftDraw (s : State) : Option State :=
  (swiftTurn s.board).map fun b => { s with board := b }

/-- `case Game` without the screen. -/
def swiftTick (s : State) : Option State :=
  if s.initGame then swiftDraw (previewStart s)
  else ((if s.tmrTckCounter % 2 = 0 then swiftDraw s else some s).map
    fun s => swiftClick (pauseKey s)).map
    fun s => victoryPhase (swiftMatch s)

theorem swiftTick_eq (s : State) : swiftTick s = gameTick mode0x115 s := by
  have hdraw : swiftDraw = draw mode0x115 := by
    funext s
    unfold swiftDraw
    rw [draw_eq, swiftTurn_eq]
  unfold swiftTick gameTick playUntilMatch
  simp only [hdraw, swiftClick_eq, swiftMatch_eq]

/-- One turn of the loop without the screen. -/
def swiftStep (s : State) (n : Notification) : Option State :=
  if s.condition then
    match input mode0x115 s n with
    | none => none
    | some (s, skip) =>
        if n.timer && !skip then
          if s.gs = .game then swiftTick (timerIntHandler s)
          else stateTick mode0x115 (timerIntHandler s) n.rands
        else some s
  else none

theorem swiftStep_eq (s : State) (n : Notification) :
    swiftStep s n = step mode0x115 s n := by
  unfold swiftStep step
  cases s.condition with
  | false => rfl
  | true =>
      rw [if_pos rfl, if_pos rfl]
      cases input mode0x115 s n with
      | none => rfl
      | some p =>
          obtain ⟨s₁, skip⟩ := p
          dsimp only
          cases (n.timer && !skip) with
          | false => rfl
          | true =>
              rw [if_pos rfl, if_pos rfl]
              by_cases hg : s₁.gs = .game
              · have hg' : (timerIntHandler s₁).gs = .game := hg
                rw [if_pos hg]
                unfold stateTick
                rw [hg']
                exact swiftTick_eq _
              · rw [if_neg hg]

end Lcom.Proj
