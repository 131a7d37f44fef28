import MediaSender.Quantity.Flow
import MediaSender.RateControl.Parameters
import MediaSender.RateControl.SlidingMinimum
import MediaSender.Transport.Feedback

/-! # Queue delay

Where the path does not mark packets, congestion shows as a growing one-way delay.

* **Base delay.** The least one-way delay over the current epoch and the last closed ones stands
  for the delay without a queue; epochs pass so that drifting clocks do no lasting harm.
* **Queue delay.** A packet's one-way delay less the base delay is a sample.  The average falls at
  once to a smaller sample and rises slowly to a larger one.
* **Reaction.** From a share of the target on the window is reduced (`reduceWindow`), and its
  growth is damped on the way there (`growthScale`). -/

namespace MediaSender

/-- The queue delay as estimated from feedback; plus infinity stands for no estimate. -/
structure QueueDelay where
  params : Parameters
  /-- Reductions do not go below the window for this rate. -/
  minRate : DataRate := 0
  lastEpochEnd : Timestamp := .minusInfinity
  /-- The least one-way delay of the current epoch. -/
  epochMinimum : TimeDelta := .plusInfinity
  /-- The least one-way delays of the closed epochs. -/
  closedEpochs : SlidingMinimum TimeDelta
  lastSmoothedRtt : TimeDelta := 0
  lastAverageUpdate : Timestamp := .minusInfinity
  average : TimeDelta := .plusInfinity

namespace QueueDelay

/-- The state before any feedback. -/
def initial (p : Parameters) : QueueDelay where
  params := p
  closedEpochs := (SlidingMinimum.ofLength p.baseDelayEpochs.toNat).insert .plusInfinity

/-- The least one-way delay over the current epoch and the closed ones. -/
def baseDelay (q : QueueDelay) : TimeDelta :=
  match q.closedEpochs.minimum? with
  | some m => min q.epochMinimum m
  | none => q.epochMinimum

/-- The queue delay that a one-way delay shows. -/
def sample (q : QueueDelay) (delay : TimeDelta) : TimeDelta := delay - q.baseDelay

/-- The average after one more sample. -/
def averaged (g : Float) (average sample : TimeDelta) : TimeDelta :=
  if sample < average then sample else sample.scale g + average.scale (1.0 - g)

/-- Take a one-way delay into the average. -/
def updateAverage (q : QueueDelay) (delay : TimeDelta) : QueueDelay :=
  { q with average := averaged q.params.queueDelayGain q.average (q.sample delay) }

/-- Take note of an arrived packet. -/
def observe (q : QueueDelay) (p : PacketOutcome) : QueueDelay :=
  let q := { q with epochMinimum := min q.epochMinimum p.oneWayDelay }
  if q.params.useAllPackets then q.updateAverage p.oneWayDelay else q

/-- The one-way delay of the last packet that arrived, plus infinity if none did. -/
def lastDelay (f : Feedback) : TimeDelta :=
  match f.inArrivalOrder.getLast? with
  | some p => p.oneWayDelay
  | none => .plusInfinity

/-- Once a round trip, take the last one-way delay into the average, unless every packet enters
it. -/
def sampleRound (q : QueueDelay) (f : Feedback) : QueueDelay :=
  if !q.params.useAllPackets &&
      decide (min q.params.virtualRtt f.smoothedRtt ≤ f.feedbackTime - q.lastAverageUpdate) then
    { q with lastAverageUpdate := f.feedbackTime }.updateAverage (lastDelay f)
  else q

/-- Close the epoch if it has lasted long enough. -/
def closeEpoch (q : QueueDelay) (now : Timestamp) : QueueDelay :=
  if q.params.baseDelayEpochLength ≤ now - q.lastEpochEnd then
    { q with
      closedEpochs := q.closedEpochs.insert q.epochMinimum
      lastEpochEnd := now
      epochMinimum := .plusInfinity }
  else q

/-- Take note of a report; one without packets changes nothing. -/
def onFeedback (q : QueueDelay) (f : Feedback) : QueueDelay :=
  if f.packets.isEmpty then q
  else
    let q := { q with lastSmoothedRtt := f.smoothedRtt }
    ((f.inArrivalOrder.foldl observe q).sampleRound f).closeEpoch f.feedbackTime

/-! ### Reaction -/

/-- The queue delay from which on the window is reduced. -/
def reductionLimit (q : QueueDelay) : TimeDelta :=
  q.params.queueDelayTarget.scale q.params.reductionThreshold

/-- The queue delay from which on a queue counts as detected. -/
def detectionLimit (q : QueueDelay) : TimeDelta :=
  q.params.queueDelayTarget.scale q.params.detectionThreshold

/-- Whether a queue is detected, which alone is no reason to reduce the window. -/
def isDetected (q : QueueDelay) : Bool :=
  q.average.isFinite && decide (q.detectionLimit < q.average)

/-- Whether the window is to be reduced. -/
def shouldReduce (q : QueueDelay) : Bool :=
  q.average.isFinite && decide (q.reductionLimit < q.average)

/-- The window that the rate `minRate` needs. -/
def minWindow (q : QueueDelay) : DataSize := DataRate.during q.minRate q.lastSmoothedRtt

/-- The share of the window that is given up. -/
def backoff (q : QueueDelay) (segmentRatio alphaLimit : Float) : Float :=
  let excess := (q.average - q.reductionLimit).ratio q.reductionLimit
  let alpha := Binary64.clamp 0.0 1.0 (2.0 * alphaLimit * excess)
  let roundTrips := Binary64.maximum (q.lastSmoothedRtt.ratio q.params.virtualRtt) 1.0
  alpha * q.params.reductionThreshold / roundTrips * Binary64.maximum (1.0 - segmentRatio) 0.5

/-- The window reduced in proportion to the excess of the queue delay, not below the window for
`minRate`. -/
def reduceWindow (q : QueueDelay) (window : DataSize) (segmentRatio alphaLimit : Float) :
    DataSize :=
  if window < q.minWindow then q.minWindow
  else max q.minWindow (window.scale (1.0 - q.backoff segmentRatio alphaLimit))

/-- The factor on the growth of the window, one without a queue and a tenth near the limit. -/
def growthScale (q : QueueDelay) : Float :=
  if q.average.isFinite then
    Binary64.clamp 0.1 1.0 (1.0 - q.average.ratio q.reductionLimit)
  else 1.0

end QueueDelay

end MediaSender
