/-
A player who uses the mouse.

The pieces a run is built from, each with exactly what it leaves. `Goes`
is how a run goes on: without a slip, and in the checked loop, so that no
piece clicks outside the cards.

The bytes of a packet delivered between two ticks touch the driver and
the cursor only (`Goes.packets`). A packet that moves the cursor is
followed by one that does not, and the three moves the two make together
are counted in; so from the corner the cursor can be put on any card
(`reaches_spot`), and from there taken back to the corner
(`returns_home`).

A tick with the button up plays, and can neither let a third card in
(`noSlip_tick`) nor click anything (`noGap_tick`).
-/
import Lcom.Machine.Past
import Lcom.Proj.Proofs.Checked
import Lcom.Proj.Proofs.Cursor
import Lcom.Proj.Proofs.Refine

namespace Lcom.Proj

open Machine

-- ======================================================= how a run goes on

/-- How a run goes on from a state and its log: without a slip, and with
no click outside the cards. -/
abbrev Goes (p : State × List (Fin 16)) : State × List (Fin 16) → Prop :=
  Reachable (withHistory (stepChecked mode0x115) logTurns) (· = p)
    fun p n => noSlip p.1 n

section

variable {p₀ : State × List (Fin 16)} {s s' : State} {log : List (Fin 16)}
  {n : Notification}

/-- A run that goes on is a run. -/
theorem Goes.reach {p : State × List (Fin 16)}
    (h₀ : LoggedReach noSlip p₀) (h : Goes p₀ p) : LoggedReach noSlip p := by
  refine h₀.trans (h.widen (fun _ _ hok => hok) fun p n p' hs => ?_)
  obtain ⟨hs, hlog⟩ := withHistory_eq_some hs
  unfold loggedStep withHistory
  rw [step_of_checked hs, Option.map_some, ← hlog]

/-- It is a list of notifications to the checked loop. -/
theorem Goes.run {p : State × List (Fin 16)} (h : Goes p₀ p) :
    ∃ ns, exec (stepChecked mode0x115) p₀.1 ns = some p.1 := by
  have hrun : Reachable (stepChecked mode0x115) (· = p₀.1) noSlip p.1 := by
    refine Reachable.forget (fun p hp => ?_) h
    rw [hp]
  exact hrun.run

/-- A step that the log is extended by. -/
theorem Goes.next (h : Goes p₀ (s, log)) (hok : noSlip s n)
    (hgap : ∀ t, TickState mode0x115 s n t → ¬ClicksGap mode0x115 t)
    (hs : step mode0x115 s n = some s') :
    Goes p₀ (s', logTurns log s s') := by
  refine .step h hok ?_
  unfold withHistory
  rw [stepChecked_eq hgap, hs]
  rfl

/-- A notification without a timer bit lets no card slip in, -/
theorem noSlip_of_no_timer (h : n.timer = false) : noSlip s n := by
  intro t hts
  obtain ⟨-, -, htim, -⟩ := hts
  rw [h] at htim
  cases htim

/-- and clicks nothing. -/
theorem noGap_of_no_timer (h : n.timer = false) :
    ∀ t, TickState mode0x115 s n t → ¬ClicksGap mode0x115 t := by
  intro t hts
  obtain ⟨-, -, htim, -⟩ := hts
  rw [h] at htim
  cases htim

/-- A tick with the button up clicks nothing, and one with the cursor on
a card clicks that. -/
theorem noGap_tick
    (h : s.lb = true → ∃ k, onCard mode0x115 s.mouse k = true) :
    ∀ t, TickState mode0x115 s tick t → ¬ClicksGap mode0x115 t := by
  intro t hts
  have ht : t = timerIntHandler s := hts.unique (tickState_tick s)
  subst ht
  exact not_clicksGap h

end

-- ======================================================== the packets

/-- The state with another driver and cursor. -/
def State.pointing (s : State) (a : MouseDriver × Mouse) : State :=
  { s with driver := a.1, mouse := a.2 }

/-- A byte alone moves driver and cursor. -/
theorem step_mouseByte {s : State} (hc : s.condition = true)
    (he : s.driver.readingError = false) (byte : UInt8) :
    step mode0x115 s (mouseByte byte)
      = some (s.pointing (pointerByte (s.driver, s.mouse) byte)) := by
  have hclean : (cleanRead byte).clean = true := clean_cleanRead byte
  have hin : input mode0x115 s (mouseByte byte)
      = some (s.pointing (pointerByte (s.driver, s.mouse) byte), false) :=
    mouseBranch_clean hclean he
  unfold step
  rw [hc, hin]
  rfl

/-- A notification that leaves the board alone leaves the log alone. -/
theorem logTurns_still {log : List (Fin 16)} {s s' : State}
    (hgs : s'.gs = s.gs) (hb : s'.board = s.board) :
    logTurns log s s' = log := by
  rw [logTurns_keeps (not_deals_quiet (.inl hgs)), hb,
    turnedUp_cardArray rfl, List.append_nil]

variable {p₀ : State × List (Fin 16)}

/-- Bytes between two ticks. -/
theorem Goes.bytes {log : List (Fin 16)} (bytes : List UInt8) :
    ∀ {s : State}, Goes p₀ (s, log) → s.condition = true →
      s.driver.readingError = false →
      Goes p₀
        (s.pointing (bytes.foldl pointerByte (s.driver, s.mouse)), log) := by
  induction bytes with
  | nil => intro s h _ _; exact h
  | cons byte bytes ih =>
      intro s h hc he
      have hs := step_mouseByte hc he byte
      have hnext := h.next (noSlip_of_no_timer rfl) (noGap_of_no_timer rfl) hs
      have hlog : logTurns log s
          (s.pointing (pointerByte (s.driver, s.mouse) byte)) = log :=
        logTurns_still rfl rfl
      rw [hlog] at hnext
      refine ih hnext hc ?_
      exact (pointerByte_readingError _ byte).trans he

/-- The button a packet reports is the one decoded. -/
theorem packet_button {d : MouseDriver} (hd : Aligned d) (c : Mouse)
    (p : MousePacket) :
    (p.encode.foldl pointerByte (d, c)).1.packet1.lb = p.lb := by
  have hfields := decode_fields p
    { ((d.first p.flags).second (lowByte p.deltaX)).packet1 with
      byte2 := lowByte p.deltaY } rfl rfl rfl
  unfold Packet.fields MousePacket.fields at hfields
  simp only [Prod.mk.injEq] at hfields
  simp only [MousePacket.encode, List.foldl_cons, List.foldl_nil,
    pointerByte, print_first hd (.inr (marked_flags p)), print_second,
    print_third]
  exact hfields.1

/-- Where a driver at a packet boundary stands: the button, and the
pointer with the deltas last decoded. -/
structure Poised (d : MouseDriver) (c : Mouse) (lb : Bool)
    (a : Pointer) : Prop where
  aligned : Aligned d
  lb : d.packet1.lb = lb
  cursor : c = a.cursor
  deltaX : d.packet1.deltaX = a.deltaX
  deltaY : d.packet1.deltaY = a.deltaY

/-- Packets between two ticks. -/
theorem Goes.packets {log : List (Fin 16)} :
    ∀ (ps : List MousePacket) {s : State} {lb : Bool} {a : Pointer},
      Goes p₀ (s, log) → s.condition = true →
      Poised s.driver s.mouse lb a →
      ∃ q, Goes p₀ (s.pointing q, log)
        ∧ Poised q.1 q.2 ((ps.map MousePacket.lb).getLastD lb)
          (ps.foldl Pointer.staleMove a) := by
  intro ps
  induction ps with
  | nil => intro s lb a h _ hst; exact ⟨(s.driver, s.mouse), h, hst⟩
  | cons p ps ih =>
      intro s lb a h hc hst
      obtain ⟨d', hfold, hd', hx, hy⟩ :=
        pointer_packet hst.aligned hst.deltaX hst.deltaY p
      have hlb := packet_button hst.aligned a.cursor p
      have hrun := h.bytes p.encode hc hst.aligned.readingError
      rw [hst.cursor, hfold] at hrun
      rw [hfold] at hlb
      obtain ⟨q, hq, hqs⟩ :=
        @ih _ p.lb (a.staleMove p) hrun hc ⟨hd', hlb, rfl, hx, hy⟩
      refine ⟨q, hq, ?_⟩
      rw [List.map_cons, List.getLastD_cons]
      exact hqs

-- ======================================================= the spots

/-- A point of card `k`. -/
def spot (k : Fin 16) : Mouse :=
  { x := 204 + 99 * (k.val % 4 : Nat), y := 150 + 114 * (k.val / 4 : Nat) }

theorem onCard_spot : ∀ k : Fin 16, onCard mode0x115 (spot k) k = true := by
  decide

theorem up_range : -256 ≤ (76 : Int) ∧ (76 : Int) ≤ 255 := by decide

/-- A packet without movement. -/
def restPacket (lb : Bool) : MousePacket :=
  { plainPacket 0 0 rest_range rest_range with lb := lb }

/-- From the corner to card `k` in two drags, and the button down. -/
def toSpot (k : Fin 16) : List MousePacket :=
  [plainPacket (68 + 32 * (k.val % 4 : Nat)) (-50 - 38 * (k.val / 4 : Nat))
      (by omega) (by omega),
    plainPacket (68 + 34 * (k.val % 4 : Nat)) (-50 - 38 * (k.val / 4 : Nat))
      (by omega) (by omega),
    restPacket true]

/-- Back to the corner, in steps short enough for both guards. -/
def toCorner : List MousePacket :=
  restPacket false
    :: (List.replicate 5 (plainPacket (-256) 76 left_range up_range)
      ++ [restPacket false])

theorem Pointer.eq_of_cursor {a : Pointer} {c : Mouse}
    (hc : a.cursor = c) (hx : a.deltaX = 0) (hy : a.deltaY = 0) :
    a = { cursor := c, deltaX := 0, deltaY := 0 } := by
  cases a
  cases hc
  cases hx
  cases hy
  rfl

theorem reaches_spot (k : Fin 16) :
    (toSpot k).foldl Pointer.staleMove Pointer.init
      = { cursor := spot k, deltaX := 0, deltaY := 0 } := by
  have h : ∀ k : Fin 16,
      ((toSpot k).foldl Pointer.staleMove Pointer.init).cursor = spot k := by
    decide
  exact Pointer.eq_of_cursor (h k) rfl rfl

theorem returns_home (k : Fin 16) :
    toCorner.foldl Pointer.staleMove
        { cursor := spot k, deltaX := 0, deltaY := 0 } = Pointer.init := by
  have h : ∀ k : Fin 16, (toCorner.foldl Pointer.staleMove
      { cursor := spot k, deltaX := 0, deltaY := 0 }).cursor
      = createMouse := by
    decide +kernel
  exact Pointer.eq_of_cursor (h k) rfl rfl

-- ==================================================== ticks of a game

/-- The game is on the screen, past the preview, and no key will pause
it. -/
structure Playing (s : State) : Prop where
  gs : s.gs = .game
  initGame : s.initGame = false
  condition : s.condition = true
  scancode : s.scancode ≠ escape

/-- A tick of a game, from what it draws. -/
def State.played (s : State) (b : Board) : State :=
  { timerIntHandler s with board := b, isAnyCardFlipping := false }

/-- Without the button no third card slips in. -/
theorem noSlip_tick {s : State}
    (h : s.lb = false ∨ ∀ i, (s.board.card i).isFlipping = false) :
    noSlip s tick := by
  intro t hts _ _ hslip
  obtain ⟨-, hlb, -, j, hj, -⟩ := hslip
  have ht : t = timerIntHandler s := hts.unique (tickState_tick s)
  subst ht
  rcases h with h | h
  · have hup : s.lb = true := hlb
    rw [h] at hup
    cases hup
  · have hturn : (s.board.card j).isFlipping = true := hj.1
    rw [h j] at hturn
    cases hturn

/-- A tick of the game, up to the match check. -/
theorem Playing.step {s u : State} (h : Playing s)
    (hu : playUntilMatch mode0x115 (timerIntHandler s) = some u) :
    Proj.step mode0x115 s tick
      = some (victoryPhase (matchPhase u)) := by
  rw [step_tick h.condition]
  unfold stateTick
  rw [show (timerIntHandler s).gs = .game from h.gs]
  show gameTick mode0x115 (timerIntHandler s) = _
  unfold gameTick
  rw [if_neg (by rw [show (timerIntHandler s).initGame = false
    from h.initGame]; decide), hu]
  rfl

/-- Up to the match check the game draws on even ticks, and with the
button up that is all. -/
theorem Playing.untilMatch {s : State} {p : Phase} (h : Playing s)
    (hlb : s.lb = false) (hp : Shows s.board p) :
    ∃ b, playUntilMatch mode0x115 (timerIntHandler s) = some (s.played b)
      ∧ SameMarks s.board b
      ∧ (((s.tmrTckCounter + 1) % 2 = 0 ∧ DrawMove s.board b p)
        ∨ ((s.tmrTckCounter + 1) % 2 ≠ 0 ∧ b = s.board)) := by
  have hrest : ∀ b, clickPhase mode0x115
      (pauseKey { timerIntHandler s with board := b }) = s.played b := by
    intro b
    have hkey : pauseKey { timerIntHandler s with board := b }
        = { timerIntHandler s with board := b } :=
      if_neg fun hk => h.scancode (eq_of_beq hk)
    rw [hkey]
    exact if_neg (by rw [show State.lb { timerIntHandler s with board := b }
      = false from hlb]; decide)
  unfold playUntilMatch
  rw [draw_eq]
  by_cases hev : (s.tmrTckCounter + 1) % 2 = 0
  · obtain ⟨b, hb, -⟩ := draw_shows hp
    have hev' : (timerIntHandler s).tmrTckCounter % 2 = 0 := hev
    rw [if_pos hev', show (timerIntHandler s).board = s.board from rfl, hb]
    refine ⟨b, ?_, turnCards_sameMarks hb, .inl ⟨hev, drawMove hp hb⟩⟩
    rw [Option.map_some, Option.map_some, hrest b]
  · have hev' : ¬(timerIntHandler s).tmrTckCounter % 2 = 0 := hev
    rw [if_neg hev']
    refine ⟨s.board, ?_, SameMarks.refl _, .inr ⟨hev, rfl⟩⟩
    exact congrArg some (hrest s.board)

/-- The button goes down on a face-down card: it starts. -/
theorem Playing.click {s : State} {o : Option (Fin 16)} {k : Fin 16}
    (h : Playing s) (hp : Shows s.board (.rest o)) (hlb : s.lb = true)
    (hon : onCard mode0x115 s.mouse k = true)
    (hdown : (s.board.card k).isFlipped = true) :
    playUntilMatch mode0x115 (timerIntHandler s)
        = some (s.played { s.board with
            cardArray := setFlipping s.board.cardArray k true })
      ∧ Shows { s.board with
          cardArray := setFlipping s.board.cardArray k true }
        (.up o k 0) := by
  have hstill := hp.rest_still.still.isFlipping
  constructor
  · have hdraw : (if (timerIntHandler s).tmrTckCounter % 2 = 0
        then draw mode0x115 (timerIntHandler s)
        else some (timerIntHandler s)) = some (timerIntHandler s) := by
      split
      · exact draw_still hstill
      · rfl
    unfold playUntilMatch
    rw [hdraw, Option.map_some]
    have hkey : pauseKey (timerIntHandler s) = timerIntHandler s :=
      if_neg fun hk => h.scancode (eq_of_beq hk)
    have hany : (timerIntHandler s).board.anyFlipping = false :=
      anyFlipping_still hstill
    have hclick : flipCardOnClick mode0x115 s.mouse s.board.cardArray
        = setFlipping s.board.cardArray k true := by
      rw [flipCardOnClick_on hon]
      exact if_neg (by
        rw [show (s.board.cardArray.get k).isFlipped = true from hdown]
        decide)
    rw [hkey]
    unfold clickPhase
    rw [show (timerIntHandler s).lb = true from hlb, if_pos rfl, hany,
      if_neg (by decide)]
    show some { timerIntHandler s with
      isAnyCardFlipping := false
      board := { s.board with
        cardArray := flipCardOnClick mode0x115 s.mouse s.board.cardArray } }
      = _
    rw [hclick]
    rfl
  · refine ⟨hp.rest_still.click hdown, fun ho => ?_, by decide⟩
    have hup := (hp.table.faceUp k).2 (.inr (by
      show k ∈ o.toFinset
      rw [ho]
      exact Finset.mem_singleton_self k))
    rw [hup] at hdown
    cases hdown

/-- With an unmatched card on the board the victory test fails. -/
theorem victoryPhase_unmatched {s : State} {i : Fin 16}
    (h : (s.board.card i).flipSuccess = false) : victoryPhase s = s := by
  rcases victoryPhase_cases s with he | ⟨hall, -⟩
  · exact he
  · rw [allMatched_iff.1 hall i] at h
    cases h

/-- The judged pair, with the button up: at rest, or just sent back. -/
theorem PairOpens.settled {t s : State} {f g : Fin 16}
    (h : PairOpens t.board s.board f g)
    (hany : s.isAnyCardFlipping = false) :
    ∃ q, Shows (matchPhase s).board q
      ∧ (q = .rest none ∨ ∃ i j, q = .down i j 0) := by
  obtain ⟨i, j, hij, hfg, hm⟩ := matchPhase_pair h.ne h.table hany
  have htable : Table s.board {i, j} ∅ true (1, 0) := by
    have ht := h.table
    rcases hfg with ⟨rfl, rfl⟩ | ⟨rfl, rfl⟩
    · exact ht
    · rw [Finset.pair_comm]
      exact ht
  rw [hm]
  unfold Proj.judged
  split
  · exact ⟨_, shows_rest (o := none) (htable.matched (by simp)), .inl rfl⟩
  · next hv =>
      exact ⟨_, shows_mismatch hij htable (Ne.symm hv), .inr ⟨i, j, rfl⟩⟩

end Lcom.Proj
