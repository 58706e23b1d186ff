/-
When each packet moves the cursor once.

The cursor and the driver evolve by the mouse branch alone; a tick only
takes the button out of the decoded packet (`TickMoves.pointer`). So a
run that delivers packets cleanly leaves the cursor at the fold of
`staleMove`, whatever else it does (`exec_pointer`), and that fold is
the intended one up to each packet exactly while the stale moves are
harmless.
-/
import Lcom.Proj.Cursor
import Lcom.Proj.Proofs.Decode
import Lcom.Proj.Proofs.Latches
import Lcom.Proj.Proofs.Replay

namespace Lcom.Proj

open Machine

-- ================================================= driver and cursor

/-- The driver without the button, which ticks clear. -/
def MouseDriver.dropLb (d : MouseDriver) : MouseDriver :=
  { d with packet1 := { d.packet1 with lb := false } }

/-- The state has this cursor, and this driver up to the button. -/
structure PointsAt (s : State) (a : MouseDriver × Mouse) : Prop where
  driver : s.driver.dropLb = a.1.dropLb
  mouse : s.mouse = a.2

/-- A tick moves nothing. -/
theorem TickMoves.pointer {t s' : State} {ms : List Trigger}
    (hs : TickMoves mode0x115 t ms s') :
    s'.driver.dropLb = t.driver.dropLb ∧ s'.mouse = t.mouse := by
  cases hs with
  | menu _ hm => cases hm <;> exact ⟨rfl, rfl⟩
  | game _ hs =>
      have hsame := (gameTick_latches hs).1
      exact ⟨by rw [hsame.driver], hsame.mouse⟩
  | pause _ hm => cases hm <;> exact ⟨rfl, rfl⟩
  | instructions _ hm => cases hm <;> exact ⟨rfl, rfl⟩
  | restart => exact ⟨rfl, rfl⟩
  | outcome => exact ⟨rfl, rfl⟩
  | unused => exact ⟨rfl, rfl⟩

/-- One byte handed on: the driver stores it, and the cursor moves by
the deltas then decoded. -/
def pointerByte (a : MouseDriver × Mouse) (byte : UInt8) :
    MouseDriver × Mouse :=
  let d := printMousePacket { a.1 with readPacket := byte }
  (d, updateMousePosition mode0x115 a.2 d.packet1.deltaX d.packet1.deltaY)

/-- The button plays no part in storing a byte. -/
theorem storeByte_dropLb (d : MouseDriver) :
    (storeByte d).dropLb = (storeByte d.dropLb).dropLb := by
  unfold storeByte MouseDriver.dropLb
  dsimp only
  split
  · rfl
  · split
    · rfl
    · split <;> rfl

theorem printMousePacket_dropLb {d d' : MouseDriver}
    (h : d.dropLb = d'.dropLb) (byte : UInt8) :
    (printMousePacket { d with readPacket := byte }).dropLb
      = (printMousePacket { d' with readPacket := byte }).dropLb := by
  have hdrop : ∀ d : MouseDriver, (printMousePacket d).dropLb
      = (printMousePacket d.dropLb).dropLb := by
    intro d
    unfold printMousePacket
    show _ = MouseDriver.dropLb (if d.isSync = false then
      if d.readPacket &&& 0x08 = 0 then d.dropLb
      else storeByte { d with isSync := true }.dropLb
      else storeByte d.dropLb)
    split
    · split
      · rfl
      · exact storeByte_dropLb { d with isSync := true }
    · exact storeByte_dropLb d
  rw [hdrop, hdrop { d' with readPacket := byte }]
  show (printMousePacket { d.dropLb with readPacket := byte }).dropLb = _
  rw [h]
  rfl

/-- Storing a byte raises no error. -/
theorem storeByte_readingError (d : MouseDriver) :
    (storeByte d).readingError = d.readingError := by
  unfold storeByte
  split
  · rfl
  · split
    · rfl
    · split <;> rfl

theorem pointerByte_readingError (a : MouseDriver × Mouse) (byte : UInt8) :
    (pointerByte a byte).1.readingError = a.1.readingError :=
  printMousePacket_rule
    (P := fun d => d.readingError = a.1.readingError) rfl fun sync =>
    storeByte_readingError { a.1 with readPacket := byte, isSync := sync }

/-- A clean byte with no error pending, in the mouse branch. -/
theorem mouseBranch_clean {m : ModeInfo} {s : State} {b : ByteRead}
    (hc : b.clean = true) (he : s.driver.readingError = false) :
    mouseBranch m s b.reads = some ({ s with
      driver := printMousePacket { s.driver with readPacket := b.byte }
      mouse := updateMousePosition m s.mouse
        (printMousePacket
          { s.driver with readPacket := b.byte }).packet1.deltaX
        (printMousePacket
          { s.driver with readPacket := b.byte }).packet1.deltaY }, false)
    := by
  have hrec : s.driver.received b = { s.driver with readPacket := b.byte }
      := by
    unfold MouseDriver.received
    rw [if_pos (by rw [hc, he]; rfl)]
  have hdisp : MouseDriver.dispatch { s.driver with readPacket := b.byte }
      = .byte := by
    unfold MouseDriver.dispatch
    simp [he]
  unfold mouseBranch MouseDriver.dispatched
  rw [mouseIh_reads, hrec]
  simp only [Option.map_some, hdisp]

section

variable {s s' : State} {n : Notification} {a : MouseDriver × Mouse}

/-- The tick, if there is one, moves nothing: what the input branches
leave is what the notification leaves. -/
theorem PointsAt.of_input (hs : step mode0x115 s n = some s')
    (h : ∀ s₁ skip, input mode0x115 s n = some (s₁, skip) →
      PointsAt s₁ a) : PointsAt s' a := by
  rcases step_cases hs with ⟨t, ⟨s₁, hin, -, rfl⟩, -, htick⟩
    | ⟨-, skip, hin, -⟩
  · obtain ⟨hd, hm⟩ := (stateTick_moves htick).pointer
    have hp := h s₁ false hin
    exact ⟨hd.trans hp.driver, hm.trans hp.mouse⟩
  · exact h s' skip hin

theorem PointsAt.other (h : PointsAt s a)
    (hs : step mode0x115 s n = some s') (hm : n.mouse = none) :
    PointsAt s' a := by
  refine .of_input hs fun s₁ skip hin => ?_
  rcases input_cases hin with ⟨-, -, rfl⟩ | ⟨reads, r, hreads, -⟩
  · exact ⟨h.driver, h.mouse⟩
  · rw [hm] at hreads
    cases hreads

theorem PointsAt.byte {b : ByteRead} (h : PointsAt s a)
    (hs : step mode0x115 s n = some s') (hm : n.mouse = some b.reads)
    (hc : b.clean = true) (he : a.1.readingError = false) :
    PointsAt s' (pointerByte a b.byte) := by
  refine .of_input hs fun s₁ skip hin => ?_
  have herr : s.driver.readingError = false := by
    have hsame : s.driver.dropLb.readingError = a.1.dropLb.readingError := by
      rw [h.driver]
    exact hsame.trans he
  have hprint := printMousePacket_dropLb h.driver b.byte
  have hdx := congrArg (fun d => d.packet1.deltaX) hprint
  have hdy := congrArg (fun d => d.packet1.deltaY) hprint
  unfold input at hin
  rw [hm] at hin
  dsimp only [MouseDriver.dropLb] at hdx hdy
  have hkey : (keyboardBranch s n.keyboard).driver = s.driver
      ∧ (keyboardBranch s n.keyboard).mouse = s.mouse := by
    cases n.keyboard <;> exact ⟨rfl, rfl⟩
  dsimp only at hin
  rw [mouseBranch_clean hc (by rw [hkey.1]; exact herr)] at hin
  cases hin
  refine ⟨?_, ?_⟩
  · show (printMousePacket { (keyboardBranch s n.keyboard).driver with
      readPacket := b.byte }).dropLb = _
    rw [hkey.1]
    exact hprint
  · unfold pointerByte
    dsimp only
    rw [hkey.1, hkey.2, h.mouse, hdx, hdy]

end

/-- A run moves the cursor by the bytes it delivers, whatever else
happens in it. -/
theorem exec_pointer {ns : List Notification} :
    ∀ {s s' : State} {a : MouseDriver × Mouse} {bs : List ByteRead},
      PointsAt s a → a.1.readingError = false →
      (∀ b ∈ bs, b.clean = true) →
      ns.filterMap Notification.mouse = bs.map ByteRead.reads →
      exec (step mode0x115) s ns = some s' →
      PointsAt s' ((bs.map ByteRead.byte).foldl pointerByte a) := by
  induction ns with
  | nil =>
      intro s s' a bs h _ _ hbs hexec
      cases hexec
      have hnil : bs = [] := List.map_eq_nil_iff.1 hbs.symm
      subst hnil
      exact h
  | cons n ns ih =>
      intro s s' a bs h he hc hbs hexec
      unfold exec at hexec
      cases hs : step mode0x115 s n with
      | none => rw [hs] at hexec; cases hexec
      | some s₁ =>
          rw [hs] at hexec
          cases hm : n.mouse with
          | none =>
              rw [List.filterMap_cons_none hm] at hbs
              exact ih (h.other hs hm) he hc hbs hexec
          | some reads =>
              rw [List.filterMap_cons_some hm] at hbs
              cases bs with
              | nil => cases hbs
              | cons b bs =>
                  rw [List.map_cons, List.cons.injEq] at hbs
                  obtain ⟨rfl, hrest⟩ := hbs
                  rw [List.map_cons, List.foldl_cons]
                  refine ih (h.byte hs hm (hc b (by simp)) he) ?_
                    (fun b' hb' => hc b' (by simp [hb'])) hrest hexec
                  rw [pointerByte_readingError]
                  exact he

-- ======================================================= packet by packet

/-- The three bytes of a packet, from a boundary. -/
theorem pointer_packet {d : MouseDriver} (hd : Aligned d) {a : Pointer}
    (hx : d.packet1.deltaX = a.deltaX) (hy : d.packet1.deltaY = a.deltaY)
    (p : MousePacket) :
    ∃ d', p.encode.foldl pointerByte (d, a.cursor)
        = (d', (a.staleMove p).cursor)
      ∧ Aligned d' ∧ d'.packet1.deltaX = p.deltaX
      ∧ d'.packet1.deltaY = p.deltaY := by
  have hfields := decode_fields p
    { ((d.first p.flags).second (lowByte p.deltaX)).packet1 with
      byte2 := lowByte p.deltaY } rfl rfl rfl
  unfold Packet.fields MousePacket.fields at hfields
  simp only [Prod.mk.injEq] at hfields
  obtain ⟨-, -, -, -, -, hdx, hdy⟩ := hfields
  refine ⟨_, ?_, hd.third p.flags (lowByte p.deltaX) (lowByte p.deltaY),
    hdx, hdy⟩
  simp only [MousePacket.encode, List.foldl_cons, List.foldl_nil,
    pointerByte, print_first hd (.inr (marked_flags p)), print_second,
    print_third]
  refine Prod.ext rfl ?_
  dsimp only
  rw [show (((d.first p.flags).second (lowByte p.deltaX)).third
      (lowByte p.deltaY)).packet1.deltaX = p.deltaX from hdx,
    show (((d.first p.flags).second (lowByte p.deltaX)).third
      (lowByte p.deltaY)).packet1.deltaY = p.deltaY from hdy]
  show movedBy (updateMousePosition mode0x115 (updateMousePosition mode0x115
    a.cursor d.packet1.deltaX d.packet1.deltaY) d.packet1.deltaX
    d.packet1.deltaY) p = _
  rw [hx, hy]
  rfl

theorem pointer_packets {ps : List MousePacket} :
    ∀ {d : MouseDriver} {a : Pointer}, Aligned d →
      d.packet1.deltaX = a.deltaX → d.packet1.deltaY = a.deltaY →
      ((ps.flatMap MousePacket.encode).foldl pointerByte (d, a.cursor)).2
        = (ps.foldl Pointer.staleMove a).cursor := by
  induction ps with
  | nil => intro d a _ _ _; rfl
  | cons p ps ih =>
      intro d a hd hx hy
      obtain ⟨d', hfold, hd', hx', hy'⟩ := pointer_packet hd hx hy p
      rw [List.flatMap_cons, List.foldl_append, hfold, List.foldl_cons]
      exact ih hd' hx' hy'

/-- Every run that delivers the packets leaves the cursor where their
bytes move it. -/
theorem exec_delivers {cards : Cards} {ns : List Notification}
    {ps : List MousePacket} {s : State} (h : Delivers ns ps)
    (hexec : exec (step mode0x115) (start cards) ns = some s) :
    s.mouse = (ps.foldl Pointer.staleMove Pointer.init).cursor := by
  obtain ⟨bs, hfeeds, hbs⟩ := h
  have hstart : PointsAt (start cards) (MouseDriver.init, createMouse) :=
    ⟨rfl, rfl⟩
  have hend := exec_pointer hstart rfl hfeeds.clean hbs hexec
  rw [hend.mouse, hfeeds.bytes]
  exact pointer_packets (a := Pointer.init) aligned_init rfl rfl

/-- A byte alone is always handled. -/
theorem exec_mouseBytes (bytes : List UInt8) :
    ∀ {s : State}, s.condition = true →
      ∃ s', exec (step mode0x115) s (bytes.map mouseByte) = some s' := by
  induction bytes with
  | nil => intro s _; exact ⟨s, rfl⟩
  | cons byte bytes ih =>
      intro s hcond
      obtain ⟨⟨s₁, skip⟩, hin⟩ := input_returns (m := mode0x115) (s := s)
        (n := mouseByte byte) (r := .good byte) rfl rfl
      have hs : step mode0x115 s (mouseByte byte) = some s₁ := by
        unfold step
        rw [hcond, hin]
        rfl
      obtain ⟨s', hs'⟩ := ih ((input_condition hin).trans hcond)
      refine ⟨s', ?_⟩
      rw [List.map_cons]
      unfold exec
      rw [hs]
      exact hs'

theorem delivers_mouseBytes (ps : List MousePacket) :
    Delivers ((ps.flatMap MousePacket.encode).map mouseByte) ps := by
  refine ⟨_, feeds_cleanRead ps, ?_⟩
  rw [List.filterMap_map, List.map_map]
  exact List.filterMap_eq_map_iff_forall_eq_some.2 fun byte _ => rfl

-- ========================================================== one axis

theorem movedBy_eq (c : Mouse) (p : MousePacket) :
    movedBy c p
      = { x := p.pushX.move mode0x115.xResolution c.x
          y := p.pushY.move mode0x115.yResolution c.y } := rfl

/-- A list of moves is one list on each axis. -/
theorem foldl_movedBy (ps : List MousePacket) : ∀ c : Mouse,
    ps.foldl movedBy c
      = { x := (ps.map MousePacket.pushX).foldl
            (fun c p => p.move mode0x115.xResolution c) c.x
          y := (ps.map MousePacket.pushY).foldl
            (fun c p => p.move mode0x115.yResolution c) c.y } := by
  induction ps with
  | nil => intro c; rfl
  | cons p ps ih =>
      intro c
      rw [List.foldl_cons, ih, movedBy_eq]
      rfl

theorem map_repeated {α β : Type*} (f : α → β) (ps : List α) :
    (repeated ps).map f = repeated (ps.map f) := by
  unfold repeated
  rw [List.map_append, List.map_flatMap, List.map_dropLast.symm,
    List.flatMap_map, List.getLast?_map, Option.toList_map]
  simp only [List.map_replicate]

section

variable {r : Nat} {p q : Push} {ps : List Push} {c : Int}

theorem settles_iff : p.Settles r c ↔ p.move r c = c := by
  unfold Push.Settles Push.move
  split
  · exact eq_comm
  · split
    · exact eq_comm
    · constructor <;> intro h <;> omega

theorem repeated_cons : repeated (p :: q :: ps)
    = List.replicate 3 p ++ repeated (q :: ps) := by
  unfold repeated
  rw [List.dropLast_cons_cons, List.flatMap_cons, List.getLast?_cons_cons,
    List.append_assoc]

/-- Packets that settle may move three times. -/
theorem StaysPut.foldl_repeated : ∀ {ps : List Push} {c : Int},
    StaysPut r c ps →
    (repeated ps).foldl (fun c p => p.move r c) c
      = ps.foldl (fun c p => p.move r c) c := by
  intro ps
  induction ps with
  | nil => intro c _; rfl
  | cons p ps ih =>
      intro c h
      cases ps with
      | nil => rfl
      | cons q ps =>
          obtain ⟨hsettles, hrest⟩ := h
          have hstay := settles_iff.1 hsettles
          rw [repeated_cons, List.foldl_append, List.foldl_cons, ← ih hrest]
          show (repeated (q :: ps)).foldl _
            (p.move r (p.move r (p.move r c))) = _
          rw [hstay, hstay]

/-- Inside the borders the ways add up. -/
theorem InsideBorders.foldl : ∀ {ps : List Push} {c : Int},
    InsideBorders r c ps →
    ps.foldl (fun c p => p.move r c) c = c + drift ps := by
  intro ps
  induction ps with
  | nil => intro c _; exact (Int.add_zero c).symm
  | cons p ps ih =>
      intro c h
      obtain ⟨hlow, hhigh, hrest⟩ := h
      have hmove : p.move r c = c + p.half := by
        unfold Push.move
        rw [if_neg (by omega), if_neg (by omega)]
      rw [List.foldl_cons, hmove, ih hrest]
      unfold drift
      rw [List.map_cons, List.sum_cons]
      omega

theorem drift_replicate (ps : List Push) :
    drift (ps.flatMap (List.replicate 3)) = 3 * drift ps := by
  unfold drift
  induction ps with
  | nil => rfl
  | cons p ps ih =>
      rw [List.flatMap_cons, List.map_append, List.sum_append, ih,
        List.map_cons, List.sum_cons, List.map_replicate,
        List.sum_replicate]
      simp only [nsmul_eq_mul]
      push_cast
      omega

/-- Where no border is met before the last packet, three moves for each
packet end where one does exactly if the last packet reunites the two. -/
theorem DriftsFreely.foldl_repeated_iff (h : DriftsFreely r ps) :
    (repeated ps).foldl (fun c p => p.move r c) 0
        = ps.foldl (fun c p => p.move r c) 0 ↔ Reunites r ps := by
  obtain ⟨honce, hthrice⟩ := h
  unfold repeated Reunites
  rw [List.foldl_append, hthrice.foldl, drift_replicate, zero_add]
  rcases List.eq_nil_or_concat' ps with rfl | ⟨before, q, rfl⟩
  · exact iff_of_true rfl fun q hq => by cases hq
  · rw [List.dropLast_concat] at honce ⊢
    rw [List.getLast?_concat, List.foldl_append, honce.foldl, zero_add]
    simp only [Option.toList_some, List.foldl_cons, List.foldl_nil,
      Option.mem_def, Option.some.injEq, forall_eq']
    exact eq_comm

theorem NoTrace.foldl_repeated (h : NoTrace r ps) :
    (repeated ps).foldl (fun c p => p.move r c) 0
      = ps.foldl (fun c p => p.move r c) 0 := by
  rcases h with h | ⟨hfree, h⟩
  · exact h.foldl_repeated
  · exact hfree.foldl_repeated_iff.2 h

end

-- ========================================================== both axes

/-- What the bytes of the packets do, as a list of moves. -/
theorem stale_moves (ps : List MousePacket) :
    (ps.foldl Pointer.staleMove Pointer.init).cursor
      = (repeated ps).foldl movedBy createMouse := by
  -- a packet still pending has two of its three moves to make
  have hpending : ∀ ps : List MousePacket,
      Pointer.stale { ps.foldl Pointer.staleMove Pointer.init with
          cursor := (ps.foldl Pointer.staleMove Pointer.init).stale }
        = (ps.flatMap (List.replicate 3)).foldl movedBy createMouse := by
    intro ps
    induction ps using List.reverseRecOn with
    | nil => decide
    | append_singleton ps p ih =>
        rw [List.foldl_append, List.flatMap_append, List.foldl_append, ← ih]
        rfl
  rcases List.eq_nil_or_concat' ps with rfl | ⟨before, p, rfl⟩
  · rfl
  · unfold repeated
    rw [List.foldl_concat, List.dropLast_concat, List.getLast?_concat,
      List.foldl_append, ← hpending before]
    rfl

/-- Each packet moves the cursor once exactly if the moves of all its
bytes end where one move for each packet does, on both axes. -/
theorem movesOnce_iff (ps : List MousePacket) :
    MovesOnce ps
      ↔ (repeated (ps.map MousePacket.pushX)).foldl
            (fun c p => p.move mode0x115.xResolution c) 0
          = (ps.map MousePacket.pushX).foldl
            (fun c p => p.move mode0x115.xResolution c) 0
        ∧ (repeated (ps.map MousePacket.pushY)).foldl
            (fun c p => p.move mode0x115.yResolution c) 0
          = (ps.map MousePacket.pushY).foldl
            (fun c p => p.move mode0x115.yResolution c) 0 := by
  have hends : (repeated ps).foldl movedBy createMouse = movedOnce ps
      ↔ MovesOnce ps := by
    rw [← stale_moves]
    constructor
    · intro h cards ns s hdel hs
      rw [exec_delivers hdel hs, h]
    · intro h
      obtain ⟨s, hs⟩ := exec_mouseBytes (ps.flatMap MousePacket.encode)
        (s := start orderedCards) rfl
      have hdel := delivers_mouseBytes ps
      rw [← exec_delivers hdel hs]
      exact h orderedCards _ s hdel hs
  rw [← hends]
  unfold movedOnce
  rw [foldl_movedBy, foldl_movedBy, map_repeated, map_repeated,
    Mouse.mk.injEq]
  exact Iff.rfl

/-- Each packet moves the cursor once if on either axis every packet but
the last would leave its coordinate alone when moved again, or no border
is met before the last packet and that one reunites the two paths. Where
no border is met before the last packet this is also necessary. -/
theorem moves_once (ps : List MousePacket) :
    (NoTrace mode0x115.xResolution (ps.map MousePacket.pushX) →
        NoTrace mode0x115.yResolution (ps.map MousePacket.pushY) →
        MovesOnce ps)
      ∧ (DriftsFreely mode0x115.xResolution (ps.map MousePacket.pushX) →
        DriftsFreely mode0x115.yResolution (ps.map MousePacket.pushY) →
        (MovesOnce ps
          ↔ Reunites mode0x115.xResolution (ps.map MousePacket.pushX)
            ∧ Reunites mode0x115.yResolution (ps.map MousePacket.pushY)))
    := by
  rw [movesOnce_iff]
  constructor
  · intro hx hy
    exact ⟨hx.foldl_repeated, hy.foldl_repeated⟩
  · intro hx hy
    rw [hx.foldl_repeated_iff, hy.foldl_repeated_iff]

/-- A movement of the mouse without buttons. -/
def plainPacket (dx dy : Int) (hx : -256 ≤ dx ∧ dx ≤ 255)
    (hy : -256 ≤ dy ∧ dy ≤ 255) : MousePacket :=
  { deltaX := dx, deltaY := dy, lb := false, mb := false, rb := false
    xOv := false, yOv := false, xRange := hx, yRange := hy }

/-- A movement to the right, then a rest. -/
def rightThenRest : List MousePacket :=
  [plainPacket 10 0 (by decide) (by decide),
    plainPacket 0 0 (by decide) (by decide)]

/-- The rest moves the cursor twice more. -/
theorem moves_thrice :
    ¬MovesOnce rightThenRest ∧ movedOnce rightThenRest = { x := 5, y := 0 }
      ∧ (repeated rightThenRest).foldl movedBy createMouse
        = { x := 15, y := 0 } := by
  refine ⟨?_, by decide, by decide⟩
  rw [movesOnce_iff]
  decide

theorem left_range : -256 ≤ (-256 : Int) ∧ (-256 : Int) ≤ 255 := by decide

theorem rest_range : -256 ≤ (0 : Int) ∧ (0 : Int) ≤ 255 := by decide

/-- A movement to the right, a rest, and a movement to the left border. -/
def rightRestLeft : List MousePacket :=
  rightThenRest ++ [plainPacket (-256) 0 left_range rest_range]

/-- At the border the two paths meet again. -/
theorem moves_once_reunited : MovesOnce rightRestLeft :=
  (moves_once rightRestLeft).1 (by decide) (by decide)

end Lcom.Proj
