import MediaSender.Packet

/-! # The slots of a packet history

* **Order.** Slot `i` belongs to the sequence number `i` places after that of the first slot.
* **Gaps.** A number whose packet is not stored has an empty slot; `trim` keeps both ends
  occupied.
* **Look-up.** `position` is the slot of a number, before the first slot if negative; `find?` is
  the entry there. -/

namespace MediaSender

/-- A stored packet. -/
structure Entry where
  packet : RtpPacket
  /-- When the packet was first put on the wire. -/
  sentAt : Timestamp
  /-- When the packet was last sent, as a retransmission or as padding. -/
  lastTransmission : Timestamp
  /-- Handed out for retransmission and not yet sent. -/
  pending : Bool
  timesRetransmitted : Nat
deriving DecidableEq

namespace Entry

/-- The entry of a packet that is sent for the first time at `now`. -/
def fresh (p : RtpPacket) (now : Timestamp) : Entry := ⟨p, now, now, false, 0⟩

/-- The number that the entry is stored under. -/
def sequenceNumber (e : Entry) : SequenceNumber := e.packet.sequenceNumber

/-- Note one more transmission at `now`. -/
def resent (e : Entry) (now : Timestamp) : Entry :=
  { e with lastTransmission := now, timesRetransmitted := e.timesRetransmitted + 1 }

/-- Whether a retransmission of the entry may start at `now`: a packet that was sent again
before waits a round trip after its last transmission. -/
def rested (e : Entry) (rtt : Option TimeDelta) (now : Timestamp) : Bool :=
  match rtt with
  | some r => e.timesRetransmitted == 0 || decide (r ≤ now - e.lastTransmission)
  | none => true

end Entry

/-- The slots of a history, oldest sequence number first. -/
abbrev Slots := List (Option Entry)

namespace Slots

/-- The slot of `s`, counted from the first. -/
def position (slots : Slots) (s : SequenceNumber) : Int :=
  match slots with
  | some first :: _ => s.offset first.sequenceNumber
  | _ => 0

/-- The entry in slot `i`. -/
def entryAt (slots : Slots) (i : Int) : Option Entry :=
  if i < 0 then none else (slots[i.toNat]?).join

/-- The entry stored under `s`. -/
def find? (slots : Slots) (s : SequenceNumber) : Option Entry := slots.entryAt (slots.position s)

/-- The entries, oldest sequence number first. -/
def entries (slots : Slots) : List Entry := slots.filterMap id

/-- Drop the empty slots at the end. -/
def dropTrailing : Slots → Slots
  | [] => []
  | slot :: rest =>
    match dropTrailing rest with
    | [] => if slot.isNone then [] else [slot]
    | kept => slot :: kept

/-- Drop the empty slots at both ends. -/
def trim (slots : Slots) : Slots := dropTrailing (slots.dropWhile Option.isNone)

/-- Empty slot `i`. -/
def removeAt (slots : Slots) (i : Int) : Slots := trim (slots.set i.toNat none)

/-- Replace the entry of `s` by its image under `f`. -/
def update (slots : Slots) (s : SequenceNumber) (f : Entry → Entry) : Slots :=
  if slots.position s < 0 then slots
  else slots.modify (slots.position s).toNat (Option.map f)

/-- Replace the entry in the last slot by its image under `f`. -/
def updateLast (slots : Slots) (f : Entry → Entry) : Slots :=
  slots.modify (slots.length - 1) (Option.map f)

/-- Put `e` into slot `i`, with empty slots up to it if it lies outside. -/
def place (slots : Slots) (i : Int) (e : Entry) : Slots :=
  if i < 0 then some e :: (List.replicate (-i - 1).toNat none ++ slots)
  else if slots.length ≤ i.toNat then
    slots ++ (List.replicate (i.toNat - slots.length) none ++ [some e])
  else slots.set i.toNat (some e)

/-- Store `e` under its sequence number, in place of an entry already there. -/
def insert (slots : Slots) (e : Entry) : Slots :=
  let free :=
    if (slots.find? e.sequenceNumber).isSome then slots.removeAt (slots.position e.sequenceNumber)
    else slots
  free.place (free.position e.sequenceNumber) e

end Slots

end MediaSender
