import MediaSender.Transport.Feedback

/-! # Messages to a network controller

What happens on the network and what the application asks for.  A time that is not set is plus
infinity; unknown rates and times are infinite or zero, whichever is safe for the consumer. -/

namespace MediaSender

/-- Rate limits for the whole transport. -/
structure RateConstraints where
  atTime : Timestamp := .plusInfinity
  minimum : Option DataRate := none
  maximum : Option DataRate := none
  /-- The rate assumed until there is feedback. -/
  starting : Option DataRate := none
deriving DecidableEq

namespace RateConstraints

instance : Inhabited RateConstraints := ⟨{}⟩

/-- The lower limit in force. -/
def lower (c : RateConstraints) : DataRate := c.minimum.getD 0

/-- The upper limit in force. -/
def upper (c : RateConstraints) : DataRate := c.maximum.getD .plusInfinity

end RateConstraints

/-- The configured media streams. -/
structure StreamSettings where
  atTime : Timestamp := .plusInfinity
  requestsIdleProbing : Option Bool := none
  repeatInitialProbing : Option Bool := none
  pacingFactor : Option Float := none
  minAllocated : Option DataRate := none
  maxPadding : Option DataRate := none
  maxAllocated : Option DataRate := none

instance : Inhabited StreamSettings := ⟨{}⟩

/-- The network came up or went down. -/
structure Availability where
  atTime : Timestamp := .plusInfinity
  isAvailable : Bool := false
deriving DecidableEq

/-- The transport moved to another path, with the limits that hold there. -/
structure RouteChange where
  atTime : Timestamp := .plusInfinity
  constraints : RateConstraints := {}
deriving DecidableEq

/-- A period of the controller's clock has passed. -/
structure ProcessInterval where
  atTime : Timestamp := .plusInfinity
  pacerQueue : Option DataSize := none
deriving DecidableEq

/-- The largest rate that the receiver estimates. -/
structure RemoteBitrate where
  receiveTime : Timestamp := .plusInfinity
  bandwidth : DataRate := .plusInfinity
deriving DecidableEq

/-- A measured round trip. -/
structure RoundTripUpdate where
  receiveTime : Timestamp := .plusInfinity
  roundTrip : TimeDelta := .plusInfinity
  isSmoothed : Bool := false
deriving DecidableEq

/-- A packet from the other side. -/
structure ReceivedPacket where
  sendTime : Timestamp := .minusInfinity
  receiveTime : Timestamp := .plusInfinity
  size : DataSize := 0
deriving DecidableEq

/-- Losses over a stretch of time. -/
structure LossReport where
  receiveTime : Timestamp := .plusInfinity
  startTime : Timestamp := .plusInfinity
  endTime : Timestamp := .plusInfinity
  lost : Nat := 0
  received : Nat := 0
deriving DecidableEq

/-- The link as a remote estimator sees it. -/
structure LinkEstimate where
  confidence : Float := Binary64.nan
  updateTime : Timestamp := .minusInfinity
  lastReceiveTime : Timestamp := .minusInfinity
  lastSendTime : Timestamp := .minusInfinity
  capacity : DataRate := .minusInfinity
  capacityLower : DataRate := .minusInfinity
  capacityUpper : DataRate := .minusInfinity
  propagationDelay : TimeDelta := .minusInfinity

/-- A message that a network controller takes. -/
inductive NetworkMessage where
  | availability (m : Availability)
  | routeChange (m : RouteChange)
  | processInterval (m : ProcessInterval)
  | remoteBitrate (m : RemoteBitrate)
  | roundTrip (m : RoundTripUpdate)
  | sentPacket (m : SentPacket)
  | receivedPacket (m : ReceivedPacket)
  | streams (m : StreamSettings)
  | constraints (m : RateConstraints)
  | lossReport (m : LossReport)
  | feedback (m : Feedback)
  | linkEstimate (m : LinkEstimate)

end MediaSender
