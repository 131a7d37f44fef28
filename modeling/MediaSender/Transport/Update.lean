import MediaSender.Quantity.Flow
import MediaSender.Timestamp

/-! # Updates from a network controller

An update carries what a call has changed; what it leaves out stays as it was.  The pacer's budget
is in bytes over a time window, so its rates are quotients (`PacerBudget.dataRate`,
`PacerBudget.padRate`). -/

namespace MediaSender

/-- What a target rate is based on. -/
structure PathEstimate where
  atTime : Timestamp := .plusInfinity
  bandwidth : DataRate := .plusInfinity
  roundTrip : TimeDelta := .plusInfinity
  period : TimeDelta := .plusInfinity
  lossRatio : Float := 0.0

/-- The pacer sends at most `dataWindow` and at least `padWindow` in each `timeWindow`. -/
structure PacerBudget where
  atTime : Timestamp := .plusInfinity
  dataWindow : DataSize := .plusInfinity
  timeWindow : TimeDelta := .plusInfinity
  padWindow : DataSize := 0
deriving DecidableEq

namespace PacerBudget

/-- The time window that is used unless a shorter one limits bursts. -/
def defaultWindow : TimeDelta := TimeDelta.ofSeconds 1

/-- The budget for two rates over a time window. -/
def ofRates (atTime : Timestamp) (dataRate padRate : DataRate) (window : TimeDelta) :
    PacerBudget where
  atTime := atTime
  dataWindow := dataRate.during window
  timeWindow := window
  padWindow := padRate.during window

/-- The rate of media and padding together. -/
def dataRate (c : PacerBudget) : DataRate := DataSize.over c.dataWindow c.timeWindow

/-- The rate that padding fills up to. -/
def padRate (c : PacerBudget) : DataRate := DataSize.over c.padWindow c.timeWindow

end PacerBudget

/-- A probe of the network's capacity. -/
structure ProbeCluster where
  atTime : Timestamp := .plusInfinity
  targetRate : DataRate := 0
  targetDuration : TimeDelta := 0
  minDelta : TimeDelta := TimeDelta.ofMillis 2
  targetCount : Int := 0
  id : Int := 0
deriving DecidableEq

/-- The rate that media should be sent at. -/
structure TargetRate where
  atTime : Timestamp := .plusInfinity
  estimate : PathEstimate := {}
  rate : DataRate := 0
  windowReduceRatio : Float := 0.0

/-- What a call to a controller has changed. -/
structure ControlUpdate where
  congestionWindow : Option DataSize := none
  pacer : Option PacerBudget := none
  probes : List ProbeCluster := []
  target : Option TargetRate := none

namespace ControlUpdate

instance : Inhabited ControlUpdate := ⟨{}⟩

/-- Whether anything has changed. -/
def hasChanges (u : ControlUpdate) : Bool :=
  u.congestionWindow.isSome || u.pacer.isSome || !u.probes.isEmpty || u.target.isSome

end ControlUpdate

end MediaSender
