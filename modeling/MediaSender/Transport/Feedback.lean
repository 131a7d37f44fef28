import MediaSender.SequenceNumber
import MediaSender.Timestamp

/-! # Transport feedback

A report tells, for each packet it covers, when the packet arrived and with which congestion
mark.  A packet whose arrival time is plus infinity was lost.  The views of a report keep the
order of the packets, except `inArrivalOrder`, which sorts by arrival, then by departure, then by
number. -/

namespace MediaSender

/-- The congestion mark in a packet's network header. -/
inductive Marking where
  | notCapable
  /-- Capable of marking, low latency service. -/
  | capable1
  /-- Capable of marking, classic service. -/
  | capable0
  | congested
deriving DecidableEq, Repr

/-- What the pacer notes on a packet. -/
structure PacingNotes where
  sendRate : DataRate := 0
  probeCluster : Int := -1
  minProbes : Int := -1
  minBytes : Int := -1
  bytesSent : Int := 0
deriving DecidableEq

namespace PacingNotes

/-- The cluster number of a packet that belongs to no probe. -/
def notAProbe : Int := -1

/-- The notes on a packet of a probe. -/
def ofProbe (cluster minProbes minBytes : Int) : PacingNotes :=
  { probeCluster := cluster, minProbes, minBytes }

/-- Whether the packet belongs to a probe. -/
def isProbe (i : PacingNotes) : Bool := i.probeCluster != notAProbe

end PacingNotes

/-- A packet as it was sent. -/
structure SentPacket where
  sendTime : Timestamp := .plusInfinity
  /-- Size up to the network layer. -/
  size : DataSize := 0
  /-- Size of earlier packets that no feedback covers. -/
  priorUnacked : DataSize := 0
  pacing : PacingNotes := {}
  isAudio : Bool := false
  /-- Number over the whole call. -/
  sequenceNumber : Int := 0
  dataInFlight : DataSize := 0
deriving DecidableEq

/-- Which media packet a feedback entry is about. -/
structure PacketIdentity where
  ssrc : UInt32 := 0
  sequenceNumber : SequenceNumber := 0
  isRetransmission : Bool := false
deriving DecidableEq

/-- Feedback on one packet. -/
structure PacketOutcome where
  sent : SentPacket := {}
  receiveTime : Timestamp := .plusInfinity
  marking : Marking := .notCapable
  identity : Option PacketIdentity := none
deriving DecidableEq

namespace PacketOutcome

/-- Whether the packet arrived. -/
def isReceived (p : PacketOutcome) : Bool := !p.receiveTime.isPlusInfinity

/-- Whether the packet carries a congestion mark. -/
def isMarked (p : PacketOutcome) : Bool := decide (p.marking = .congested)

/-- The one-way delay, up to the difference of the two clocks. -/
def oneWayDelay (p : PacketOutcome) : TimeDelta := p.receiveTime - p.sent.sendTime

/-- Comparison by arrival, then departure, then number. -/
def compareArrival (p q : PacketOutcome) : Ordering :=
  (compare p.receiveTime q.receiveTime).then
    ((compare p.sent.sendTime q.sent.sendTime).then
      (compare p.sent.sequenceNumber q.sent.sequenceNumber))

/-- Whether `p` comes no later than `q`. -/
def arrivesBy (p q : PacketOutcome) : Bool := (compareArrival p q).isLE

end PacketOutcome

/-- One report. -/
structure Feedback where
  feedbackTime : Timestamp := .plusInfinity
  smoothedRtt : TimeDelta := 0
  dataInFlight : DataSize := 0
  supportsMarking : Bool := false
  packets : List PacketOutcome := []
  /-- Arrival times of packets whose departure is not known. -/
  otherArrivals : List Timestamp := []
deriving DecidableEq

namespace Feedback

instance : Inhabited Feedback := ⟨{}⟩

/-- The packets that arrived. -/
def received (f : Feedback) : List PacketOutcome := f.packets.filter (·.isReceived)

/-- The packets that were lost. -/
def lost (f : Feedback) : List PacketOutcome := f.packets.filter fun p => !p.isReceived

/-- The packets that arrived, in the order of arrival. -/
def inArrivalOrder (f : Feedback) : List PacketOutcome :=
  f.received.mergeSort PacketOutcome.arrivesBy

/-- Whether a packet was lost. -/
def hasLoss (f : Feedback) : Bool := f.packets.any fun p => !p.isReceived

/-- Whether a packet, lost ones included, carries a congestion mark. -/
def hasMark (f : Feedback) : Bool := f.packets.any (·.isMarked)

/-- The size of all packets, lost ones included, without a congestion mark. -/
def unmarkedSize (f : Feedback) : DataSize :=
  (f.packets.filter fun p => !p.isMarked).foldl (fun total p => total + p.sent.size) 0

end Feedback

end MediaSender
