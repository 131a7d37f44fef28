import MediaSender.RateControl.Round
import MediaSender.Transport.Controller

/-! # The sending controller

A network controller on top of the rate control.

* **Pacing.** The pacer may send one and a half times the target rate.  Its time window is a
  second; while marks are recent and streams are configured it is a round trip, which keeps
  bursts short.
* **Padding.** Streams that need more than the target rate may be padded, for a while at the start
  of every padding interval, so that the rate can grow.
* **Routes.** A new route starts with a fresh rate control. -/

namespace MediaSender

/-- What a controller is made from. -/
structure ControllerConfig where
  trials : Trials := {}
  constraints : RateConstraints := {}
  streams : StreamSettings := {}

/-- The state of a sending controller. -/
structure SendController where
  params : Parameters
  control : RateControl
  constraints : RateConstraints
  streams : StreamSettings
  pacingWindow : TimeDelta := PacerBudget.defaultWindow
  /-- When the current padding interval started. -/
  lastPaddingStart : Timestamp := .minusInfinity
  /-- The target rate announced last. -/
  currentTarget : Option DataRate := none
  /-- Whether the pacer budget computed last asks for padding. -/
  isPadding : Bool := false
  processInterval : TimeDelta := TimeDelta.ofMillis 25

namespace SendController

/-- The rate before any feedback, unless the constraints name one. -/
def defaultStartRate : DataRate := DataRate.ofKbps 300

/-- The factor from the target rate to the rate of the pacer. -/
def pacingFactor : Float := 1.5

/-- The period that an estimate is for. -/
def estimatePeriod : TimeDelta := TimeDelta.ofMillis 25

/-- A new controller. -/
def create (config : ControllerConfig) : Except ControlError SendController :=
  let params := Parameters.ofTrials config.trials
  ((RateControl.initial params).setBounds config.constraints.lower config.constraints.upper).map
    fun control =>
      { params, control, constraints := config.constraints, streams := config.streams }

/-- The rate before any feedback. -/
def startRate (c : SendController) : DataRate := c.constraints.starting.getD defaultStartRate

/-! ### Padding and pacing -/

/-- Whether the streams may be padded at `now`, given the target rate. -/
def mayPad (c : SendController) (now : Timestamp) (target : DataRate) : Bool :=
  match c.streams.maxAllocated with
  | none => false
  | some allocated => now.isFinite && decide (target < allocated.scale pacingFactor)

/-- The start of the padding interval that `now` falls into. -/
def paddingStart (c : SendController) (now : Timestamp) : Timestamp :=
  if c.params.paddingInterval ≤ now - c.lastPaddingStart then now else c.lastPaddingStart

/-- The rate that padding may fill up to at `now`. -/
def padRate (c : SendController) (now : Timestamp) (target : DataRate) :
    SendController × DataRate :=
  if c.mayPad now target then
    let start := c.paddingStart now
    ({ c with lastPaddingStart := start },
      if now - start < c.params.paddingDuration then target else 0)
  else (c, 0)

/-- The pacer budget at `now` for a target rate. -/
def pacerBudget (c : SendController) (now : Timestamp) (target : DataRate) :
    SendController × PacerBudget :=
  let (c, pad) := c.padRate now target
  ({ c with isPadding := !pad.isZero },
    .ofRates now (target.scale pacingFactor) pad c.pacingWindow)

/-- Announce a target rate. -/
def announce (c : SendController) (now : Timestamp) (target : DataRate) (rtt : TimeDelta) :
    SendController × ControlUpdate :=
  let (c, pacer) := { c with currentTarget := some target }.pacerBudget now target
  (c,
    { pacer := some pacer
      target := some
        { atTime := now
          estimate := { atTime := now, roundTrip := rtt, period := estimatePeriod }
          rate := target } })

/-- The pacer's time window after a report. -/
def windowAfter (c : SendController) (f : Feedback) : TimeDelta :=
  if decide (f.feedbackTime - c.control.lastMark < PacerBudget.defaultWindow) &&
      c.streams.maxAllocated.isSome then
    min (max c.params.virtualRtt f.smoothedRtt) PacerBudget.defaultWindow
  else PacerBudget.defaultWindow

/-! ### Answers to messages -/

/-- The network came up, so the start rate is announced, or went down. -/
def onAvailability (c : SendController) (m : Availability) : SendController × ControlUpdate :=
  if m.isAvailable then c.announce m.atTime c.startRate 0 else (c, {})

/-- Start afresh on a new route. -/
def onRouteChange (c : SendController) (m : RouteChange) :
    Except ControlError (SendController × ControlUpdate) :=
  ((RateControl.initial c.params).setBounds m.constraints.lower m.constraints.upper).map
    fun control =>
      let c :=
        { c with
          control, constraints := m.constraints
          lastPaddingStart := .minusInfinity
          pacingWindow := PacerBudget.defaultWindow }
      c.announce m.atTime c.startRate 0

/-- Tell the pacer when padding starts or stops. -/
def onProcessInterval (c : SendController) (m : ProcessInterval) :
    SendController × ControlUpdate :=
  match c.currentTarget with
  | none => (c, {})
  | some target =>
    let (next, pacer) := c.pacerBudget m.atTime target
    (next, if next.isPadding = c.isPadding then {} else { pacer := some pacer })

/-- Take the stream configuration. -/
def onStreams (c : SendController) (m : StreamSettings) : SendController × ControlUpdate :=
  ({ c with streams := m }, {})

/-- Take new rate limits, which hold from the next feedback on. -/
def onConstraints (c : SendController) (m : RateConstraints) :
    Except ControlError (SendController × ControlUpdate) :=
  (c.control.setBounds m.lower m.upper).map fun control =>
    ({ c with control, constraints := m }, {})

/-- A round of feedback. -/
def onFeedback (c : SendController) (f : Feedback) : SendController × ControlUpdate :=
  let c := { c with control := (c.control.onFeedback f).1 }
  let c := { c with pacingWindow := c.windowAfter f }
  c.announce f.feedbackTime c.control.targetRate f.smoothedRtt

instance : Controller SendController where
  onAvailability c m := .ok (c.onAvailability m)
  onRouteChange c m := c.onRouteChange m
  onProcessInterval c m := .ok (c.onProcessInterval m)
  onRemoteBitrate c _ := .ok (c, {})
  onRoundTrip c _ := .ok (c, {})
  onSentPacket c _ := .ok (c, {})
  onReceivedPacket c _ := .ok (c, {})
  onStreams c m := .ok (c.onStreams m)
  onConstraints c m := c.onConstraints m
  onLossReport c _ := .ok (c, {})
  onFeedback c m := .ok (c.onFeedback m)
  onLinkEstimate c _ := .ok (c, {})
  supportsMarking _ := true
  processInterval c := c.processInterval

end SendController

end MediaSender
