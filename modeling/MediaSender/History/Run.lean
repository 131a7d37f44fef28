import MediaSender.History.Basic

/-! # Runs of a packet history

The operations of a history as a type, so that a run is a list of them.  `step` answers with the
packet that the operation hands out, if any. -/

namespace MediaSender.PacketHistory

/-- An operation that may change a history. -/
inductive Operation where
  | configure (mode : StorageMode) (numberToStore : Nat)
  | setRtt (rtt : TimeDelta) (now : Timestamp)
  | put (packet : RtpPacket) (now : Timestamp)
  | resend (s : SequenceNumber) (now : Timestamp) (f : Encapsulation)
  | markSent (s : SequenceNumber) (now : Timestamp)
  | acknowledge (arrived : List SequenceNumber)
  | pad (now : Timestamp) (f : Encapsulation)
  | clear

/-- The history after an operation, and the packet it hands out. -/
def step (h : PacketHistory) : Operation → Except HistoryError (PacketHistory × Option RtpPacket)
  | .configure mode n => .ok (h.configure mode n, none)
  | .setRtt rtt now => (h.setRtt rtt now).map (·, none)
  | .put p now => .ok (h.put p now, none)
  | .resend s now f => .ok (h.resend s now f)
  | .markSent s now => .ok (h.markSent s now, none)
  | .acknowledge arrived => .ok (h.acknowledge arrived, none)
  | .pad now f => .ok (h.pad now f)
  | .clear => .ok (h.clear, none)

/-- The history after a list of operations, and the packets they hand out. -/
def run (h : PacketHistory) :
    List Operation → Except HistoryError (PacketHistory × List (Option RtpPacket))
  | [] => .ok (h, [])
  | o :: rest => do
    let (h, handed) ← h.step o
    let (h, handedLater) ← h.run rest
    return (h, handed :: handedLater)

end MediaSender.PacketHistory
