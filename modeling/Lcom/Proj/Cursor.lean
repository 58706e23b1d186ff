/-
The cursor, as the packets should move it and as the loop does.

The loop calls `update_mouse_position` for every byte it hands to
`print_mouse_packet`, with the deltas of the last decoded packet. So the
first two bytes of a packet move the cursor by the packet before it,
once each, and only the third moves it by its own (`staleMove`). In all,
every packet but the last moves the cursor three times (`repeated`).

The two coordinates know nothing of each other. `Push` is the move of
one, and the conditions on the packets are stated on an axis: a packet
that would not move its coordinate again does no harm (`StaysPut`), and
where no border is met, the harm is the way of the packets before the
last, twice over (`drift`).

`Delivers` allows any run of the loop: keys and timer ticks may arrive
in between or in the same notification.
-/
import Lcom.Proj.Decode

namespace Lcom.Proj

open Machine

/-- `update_mouse_position` with the deltas of a packet. -/
def movedBy (c : Mouse) (p : MousePacket) : Mouse :=
  updateMousePosition mode0x115 c p.deltaX p.deltaY

/-- The cursor moved once per packet, from (0, 0). -/
def movedOnce (ps : List MousePacket) : Mouse := ps.foldl movedBy createMouse

/-- The notifications deliver the bytes of the packets, one each and
without errors. -/
def Delivers (ns : List Notification) (ps : List MousePacket) : Prop :=
  ∃ bs, Feeds bs ps
    ∧ ns.filterMap Notification.mouse = bs.map ByteRead.reads

/-- Each packet moves the cursor once: every run that delivers the
packets leaves the cursor where they move it. -/
def MovesOnce (ps : List MousePacket) : Prop :=
  ∀ cards ns s, Delivers ns ps →
    exec (step mode0x115) (start cards) ns = some s →
    s.mouse = movedOnce ps

-- =================================================== as the loop moves it

/-- The cursor and the deltas last decoded. -/
structure Pointer where
  cursor : Mouse
  deltaX : Int
  deltaY : Int

/-- The pointer as the loop starts. -/
def Pointer.init : Pointer := { cursor := createMouse, deltaX := 0, deltaY := 0 }

/-- `update_mouse_position` with the deltas last decoded. -/
def Pointer.stale (a : Pointer) : Mouse :=
  updateMousePosition mode0x115 a.cursor a.deltaX a.deltaY

/-- A packet moves the cursor by its deltas, once. -/
def Pointer.move (a : Pointer) (p : MousePacket) : Pointer :=
  { cursor := movedBy a.cursor p, deltaX := p.deltaX, deltaY := p.deltaY }

/-- A packet as its three bytes move the cursor: twice by the packet
before it, then by its own deltas. -/
def Pointer.staleMove (a : Pointer) (p : MousePacket) : Pointer :=
  Pointer.move
    { a with cursor := Pointer.stale { a with cursor := a.stale } } p

/-- The moves of all the bytes of the packets: three by each packet but
the last, whose own byte is its only one. -/
def repeated {α : Type*} (ps : List α) : List α :=
  ps.dropLast.flatMap (List.replicate 3) ++ ps.getLast?.toList

-- ============================================================ one axis

/-- One coordinate of `update_mouse_position`: what the two guards add to
it before they test it, and what is added to it where both let it
through. -/
structure Push where
  low : Int
  high : Int
  half : Int
  deriving DecidableEq, Repr

/-- The coordinate after the move, on an axis of `r` pixels. -/
def Push.move (r : Nat) (p : Push) (c : Int) : Int :=
  if c + p.low < 0 then 0
  else if c + p.high ≥ r then r - 15
  else c + p.half

/-- What a packet does to `mouse.x`. -/
def MousePacket.pushX (p : MousePacket) : Push :=
  { low := p.deltaX, high := p.deltaX, half := p.deltaX.tdiv 2 }

/-- What it does to `mouse.y`, whose guards have opposite signs. -/
def MousePacket.pushY (p : MousePacket) : Push :=
  { low := -p.deltaY, high := p.deltaY, half := -p.deltaY.tdiv 2 }

/-- Moved again, the coordinate stays: it is at the border it is pushed
against, or it is pushed by less than two. -/
def Push.Settles (r : Nat) (p : Push) (c : Int) : Prop :=
  if c + p.low < 0 then c = 0
  else if c + p.high ≥ r then c = r - 15
  else p.half = 0

/-- Every packet but the last would leave the coordinate it has put it at
alone. -/
def StaysPut (r : Nat) : Int → List Push → Prop
  | c, p :: q :: ps =>
      p.Settles r (p.move r c) ∧ StaysPut r (p.move r c) (q :: ps)
  | _, _ => True

/-- No move of the list meets a border. -/
def InsideBorders (r : Nat) : Int → List Push → Prop
  | _, [] => True
  | c, p :: ps =>
      0 ≤ c + p.low ∧ c + p.high < r ∧ InsideBorders r (c + p.half) ps

/-- The way the moves add up to. -/
def drift (ps : List Push) : Int := (ps.map Push.half).sum

/-- Up to the last packet no move meets a border, neither one move for
each packet nor three. -/
def DriftsFreely (r : Nat) (ps : List Push) : Prop :=
  InsideBorders r 0 ps.dropLast
    ∧ InsideBorders r 0 (ps.dropLast.flatMap (List.replicate 3))

/-- The last packet leads to one place from the way of the others and
from three times that way. -/
def Reunites (r : Nat) (ps : List Push) : Prop :=
  ∀ q ∈ ps.getLast?,
    q.move r (drift ps.dropLast) = q.move r (3 * drift ps.dropLast)

/-- On this axis the further moves leave no trace. -/
def NoTrace (r : Nat) (ps : List Push) : Prop :=
  StaysPut r 0 ps ∨ DriftsFreely r ps ∧ Reunites r ps

instance (r : Nat) (p : Push) (c : Int) : Decidable (p.Settles r c) :=
  inferInstanceAs (Decidable (if c + p.low < 0 then c = 0
    else if c + p.high ≥ r then c = r - 15 else p.half = 0))

instance decidableStaysPut (r : Nat) :
    ∀ (c : Int) (ps : List Push), Decidable (StaysPut r c ps)
  | _, [] => .isTrue trivial
  | _, [_] => .isTrue trivial
  | c, p :: q :: ps =>
      have := decidableStaysPut r (p.move r c) (q :: ps)
      inferInstanceAs (Decidable (_ ∧ _))

instance decidableInsideBorders (r : Nat) :
    ∀ (c : Int) (ps : List Push), Decidable (InsideBorders r c ps)
  | _, [] => .isTrue trivial
  | c, p :: ps =>
      have := decidableInsideBorders r (c + p.half) ps
      inferInstanceAs (Decidable (_ ∧ _ ∧ _))

instance (r : Nat) (ps : List Push) : Decidable (DriftsFreely r ps) :=
  inferInstanceAs (Decidable (_ ∧ _))

instance (r : Nat) (ps : List Push) : Decidable (Reunites r ps) :=
  inferInstanceAs (Decidable (∀ q ∈ ps.getLast?,
    q.move r (drift ps.dropLast) = q.move r (3 * drift ps.dropLast)))

instance (r : Nat) (ps : List Push) : Decidable (NoTrace r ps) :=
  inferInstanceAs (Decidable (_ ∨ _ ∧ _))

end Lcom.Proj
