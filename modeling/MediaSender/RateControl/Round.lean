import MediaSender.RateControl.Growth

/-! # A round of feedback

A report goes first to the queue delay and to the average of marks.  Then the window reacts to
congestion or grows, the target rate follows from the window, and at the end the round's
book-keeping prepares the next one. -/

namespace MediaSender.RateControl

/-- Note the data in flight. -/
def observeInFlight (c : RateControl) (f : Feedback) : RateControl :=
  { c with peakInFlight := max c.peakInFlight f.dataInFlight }

/-- Take note of a report before acting on it. -/
def observe (c : RateControl) (f : Feedback) : RateControl :=
  ({ c with queue := c.queue.onFeedback f }.observeMarks f).observeInFlight f

/-- The window after the round. -/
def adjustWindow (c : RateControl) (f : Feedback) (x : Congestion) : RateControl :=
  let c := if c.reacts f x then c.react f x else c
  if c.grows f x then c.grow f x else c

/-- The factor on the rate: lower while a queue is detected and much is in flight, and a little
lower while the window is a few packets. -/
def rateScale (c : RateControl) (f : Feedback) : Float :=
  let inFlight := f.dataInFlight.ratio c.refWindow
  let excess :=
    if c.queue.isDetected && decide (c.params.inFlightLimit < inFlight) then
      1.0 / Binary64.minimum c.params.maxInFlightCompensation (inFlight / c.params.inFlightLimit)
    else 1.0
  excess * (1.0 - Binary64.clamp 0.0 0.2 (c.segmentRatio - 0.1))

/-- The target rate for the window. -/
def updateRate (c : RateControl) (f : Feedback) : RateControl :=
  { c with
    targetRate :=
      Quantity.clamp c.minRate c.maxRate
        ((DataSize.over c.refWindow (roundTrip f)).scale (c.rateScale f)) }

/-- The next congestion may set the inflection point if the window has grown from `previous`. -/
def openInflection (c : RateControl) (previous : DataSize) : RateControl :=
  if previous < c.refWindow then { c with inflectionOpen := true } else c

/-- Once a round trip, pass on the peak of data in flight. -/
def rollOver (c : RateControl) (f : Feedback) : RateControl :=
  if c.longRoundTrip f ≤ f.feedbackTime - c.lastRollover then
    { c with lastRollover := f.feedbackTime, previousPeak := c.peakInFlight, peakInFlight := 0 }
  else c

/-- The report on the state after a round. -/
def report (c : RateControl) (f : Feedback) : RateReport where
  atTime := f.feedbackTime
  refWindow := c.refWindow
  dataInFlight := f.dataInFlight
  targetRate := c.targetRate
  smoothedRtt := f.smoothedRtt
  queueDelay := c.queueDelay
  markedPermille :=
    UInt32.ofNat (Binary64.truncated 0 0xffffffff (c.markedShare * 1000.0)).toNat

/-- The state after the window, the rate and the book-keeping of a round. -/
def round (c : RateControl) (f : Feedback) : RateControl :=
  let observed := c.observe f
  let adjusted := observed.adjustWindow f (observed.congestion f)
  ((adjusted.updateRate f).openInflection observed.refWindow).rollOver f

/-- One round of feedback: the state after it, and the report on it. -/
def onFeedback (c : RateControl) (f : Feedback) : RateControl × RateReport :=
  let c := c.round f
  ({ c with lastReport := some (c.report f) }, c.report f)

/-! ### Runs -/

/-- What may happen to the rate control. -/
inductive Input where
  | feedback (f : Feedback)
  | bounds (lower upper : DataRate)

/-- The rate control and the log of its reports after an input. -/
def step (c : RateControl) (log : ReportLog) : Input → Except ControlError (RateControl × ReportLog)
  | .feedback f =>
    let (c, report) := c.onFeedback f
    .ok (c, log.record report)
  | .bounds lower upper => (c.setBounds lower upper).map (·, log)

end MediaSender.RateControl
