import MediaSender.History.Culling

/-! # The history of sent packets

A bounded store of sent packets, for retransmission on request and for payload padding.

* **Time.** The history reads no clock: each operation whose outcome depends on the time is told
  the time.
* **Retransmission.** `resend` hands out a packet and marks it pending; until `markSent` reports
  it sent it is not handed out again, and after that not within a round trip.
* **Padding.** `pad` picks a packet to fill spare capacity: the last one, or a recent large one
  (`PaddingMode`). -/

namespace MediaSender

/-- How packets are kept. -/
inductive StorageMode where
  | disabled
  | store
  | storeAndCull
deriving DecidableEq, Repr

/-- Which packet serves as padding. -/
inductive PaddingMode where
  /-- The last stored packet, unless its retransmission is pending. -/
  | lastPacket
  /-- A recent packet about as large as the largest; it may serve any number of times. -/
  | recentLargePacket
deriving DecidableEq, Repr

/-- What a history is asked for in vain. -/
inductive HistoryError where
  | negativeRoundTrip
deriving DecidableEq, Repr

/-- The text of an error. -/
def HistoryError.message : HistoryError → String
  | .negativeRoundTrip => "assertion failed: rtt >= TimeDelta::zero()"

/-! ### The large padding packet -/

/-- The packet kept for padding, and the largest payload since the last jump in the sequence
numbers. -/
structure LargePacket where
  packet : Option RtpPacket := none
  largestPayload : Nat := 0
deriving DecidableEq

namespace LargePacket

/-- The share of the largest payload from which on a packet is large. -/
def tolerance : Float := 0.95

/-- Sequence numbers that a packet must be ahead of the kept one to replace it whatever its
size. -/
def sequenceGap : SequenceNumber := 1000

/-- Whether a payload of `size` is large beside one of `largest`. -/
def near (size largest : Nat) : Bool :=
  decide (Float.ofNat largest * tolerance ≤ Float.ofNat size)

/-- Whether `p` starts afresh: nothing is kept, or `p` is far ahead of what is. -/
def afterGap (l : LargePacket) (p : RtpPacket) : Bool :=
  match l.packet with
  | none => true
  | some kept => p.sequenceNumber.isNewer (kept.sequenceNumber + sequenceGap)

/-- Take note of `p`. -/
def observe (l : LargePacket) (p : RtpPacket) : LargePacket :=
  let largest := if l.afterGap p then p.payloadSize else max l.largestPayload p.payloadSize
  { packet := if l.afterGap p || near p.payloadSize largest then some p else l.packet
    largestPayload := largest }

end LargePacket

/-! ### The store -/

/-- A history of sent packets. -/
structure PacketHistory where
  paddingMode : PaddingMode := .lastPacket
  mode : StorageMode := .disabled
  numberToStore : Nat := 0
  rtt : Option TimeDelta := none
  slots : Slots := []
  large : LargePacket := {}
deriving DecidableEq

namespace PacketHistory

/-- A history that stores nothing yet. -/
def empty (paddingMode : PaddingMode) : PacketHistory := { paddingMode }

instance : Inhabited PacketHistory := ⟨empty .lastPacket⟩

/-- Whether packets are stored at all. -/
def isEnabled (h : PacketHistory) : Bool := h.mode != .disabled

/-- Drop all packets; the mode and the round trip stay. -/
def clear (h : PacketHistory) : PacketHistory := { h with slots := [], large := {} }

/-- Choose the mode and the number of packets to keep, dropping all packets. -/
def configure (h : PacketHistory) (mode : StorageMode) (numberToStore : Nat) : PacketHistory :=
  { h.clear with mode, numberToStore := min numberToStore Retention.maxSlots }

/-- Cull what is old at `now`. -/
def cull (h : PacketHistory) (now : Timestamp) : PacketHistory :=
  { h with slots := h.slots.cull h.numberToStore (Retention.duration h.rtt) now }

/-- Take the round trip time, and cull what is old under it. -/
def setRtt (h : PacketHistory) (rtt : TimeDelta) (now : Timestamp) :
    Except HistoryError PacketHistory :=
  if rtt < 0 then .error .negativeRoundTrip
  else
    let h := { h with rtt := some rtt }
    .ok (if h.isEnabled then h.cull now else h)

/-- Store a packet that was sent at `now`, in place of one with the same number.  Nothing is
stored if storage is disabled or the packet may not be sent again. -/
def put (h : PacketHistory) (p : RtpPacket) (now : Timestamp) : PacketHistory :=
  if h.isEnabled && p.allowRetransmission then
    let h := h.cull now
    { h with
      slots := h.slots.insert (Entry.fresh p now)
      large := if h.paddingMode = .recentLargePacket then h.large.observe p else h.large }
  else h

/-- The entry stored under `s`. -/
def find? (h : PacketHistory) (s : SequenceNumber) : Option Entry :=
  if h.isEnabled then h.slots.find? s else none

/-- Whether a packet is stored under `s`. -/
def contains (h : PacketHistory) (s : SequenceNumber) : Bool := (h.find? s).isSome

/-- Hand out the packet stored under `s`, dressed by `f`, and mark it pending.  There is no
answer if nothing is stored, the packet is pending or was sent again less than a round trip ago,
or `f` declines. -/
def resend (h : PacketHistory) (s : SequenceNumber) (now : Timestamp) (f : Encapsulation) :
    PacketHistory × Option RtpPacket :=
  match h.find? s with
  | none => (h, none)
  | some e =>
    if e.pending || !e.rested h.rtt now then (h, none)
    else
      match f e.packet with
      | none => (h, none)
      | some q => ({ h with slots := h.slots.update s ({ · with pending := true }) }, some q)

/-- A retransmission of packet `s` was sent at `now`. -/
def markSent (h : PacketHistory) (s : SequenceNumber) (now : Timestamp) : PacketHistory :=
  if h.isEnabled then
    { h with slots := h.slots.update s fun e => { e.resent now with pending := false } }
  else h

/-- Remove packet `s`, which has arrived, unless it is pending. -/
def acknowledgeOne (h : PacketHistory) (s : SequenceNumber) : PacketHistory :=
  match h.slots.find? s with
  | some e =>
    if e.pending then h else { h with slots := h.slots.removeAt (h.slots.position s) }
  | none => h

/-- Remove the packets that have arrived, except pending ones. -/
def acknowledge (h : PacketHistory) (arrived : List SequenceNumber) : PacketHistory :=
  arrived.foldl acknowledgeOne h

/-- The last packet as padding, dressed by `f`, unless it is pending. -/
def padWithLast (h : PacketHistory) (now : Timestamp) (f : Encapsulation) :
    PacketHistory × Option RtpPacket :=
  match h.slots.getLast?.join with
  | none => (h, none)
  | some e =>
    if e.pending then (h, none)
    else
      match f e.packet with
      | none => (h, none)
      | some q => ({ h with slots := h.slots.updateLast (·.resent now) }, some q)

/-- A packet to send as padding at `now`, dressed by `f`. -/
def pad (h : PacketHistory) (now : Timestamp) (f : Encapsulation) :
    PacketHistory × Option RtpPacket :=
  if h.isEnabled then
    match h.paddingMode, h.large.packet with
    | .recentLargePacket, some p => (h, f p)
    | _, _ => h.padWithLast now f
  else (h, none)

/-- The number of stored packets. -/
def size (h : PacketHistory) : Nat := h.slots.countP Option.isSome

/-- Whether no packet is stored. -/
def isEmpty (h : PacketHistory) : Bool := h.slots.all Option.isNone

end PacketHistory

end MediaSender
