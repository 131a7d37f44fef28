import MediaSender.RateControl.State

/-! # Reaction to congestion

A report shows congestion by a loss, by a mark, or by the queue delay where marks are rare.  The
window is reduced for each of these in turn, at most once in a round trip, and its value after the
reductions becomes the inflection point if it had grown since the last one. -/

namespace MediaSender

/-- What a report shows of congestion. -/
structure Congestion where
  loss : Bool
  mark : Bool
  /-- The queue delay is too large, and marks are rare. -/
  delay : Bool
  /-- Marks are rare if their average share is below this. -/
  alphaLimit : Float

/-- Whether there is any congestion. -/
def Congestion.isAny (x : Congestion) : Bool := x.delay || x.mark || x.loss

namespace RateControl

/-- The share of marks below which they count as rare: two packets in a round trip. -/
def alphaLimit (c : RateControl) (f : Feedback) : Float :=
  (DataSize.over (c.params.maxSegmentSize.times 2) (roundTrip f)).ratio c.targetRate

/-- The congestion that a report shows, once it has been taken note of. -/
def congestion (c : RateControl) (f : Feedback) : Congestion where
  loss := f.hasLoss
  mark := f.hasMark
  delay := decide (c.markedShare < c.alphaLimit f) && c.queue.shouldReduce
  alphaLimit := c.alphaLimit f

/-- The time between the last reaction and a report. -/
def sinceReaction (c : RateControl) (f : Feedback) : TimeDelta := f.feedbackTime - c.lastReaction

/-- Whether the congestion is reacted to: the last reaction is a round trip ago. -/
def reacts (c : RateControl) (f : Feedback) (x : Congestion) : Bool :=
  x.isAny && decide (min f.smoothedRtt c.params.virtualRtt ≤ c.sinceReaction f)

/-- Reduce the window for a loss. -/
def reduceForLoss (c : RateControl) (f : Feedback) : RateControl :=
  { c with refWindow := c.refWindow.scale (c.params.lossFactor / c.virtualRoundTrips f) }

/-- The share of the window given up for marks. -/
def markBackoff (c : RateControl) (f : Feedback) : Float :=
  let backoff := c.markedShare / 2.0 / c.virtualRoundTrips f * c.smallWindowScale
  if c.queue.isDetected then backoff
  else backoff * Binary64.maximum c.inflectionFactor 0.25

/-- Whether the last reaction is so long ago that the window may be far above the data in
flight. -/
def isOverdue (c : RateControl) (f : Feedback) : Bool :=
  (c.sinceReaction f).isFinite &&
    decide ((c.longRoundTrip f).times c.params.resetRtts < c.sinceReaction f)

/-- The window brought down to the previous peak of data in flight. -/
def resetWindow (c : RateControl) : DataSize :=
  Quantity.clamp c.params.minRefWindow (max c.refWindow c.params.minRefWindow) c.previousPeak

/-- Reduce the window for marks. -/
def reduceForMarks (c : RateControl) (f : Feedback) : RateControl :=
  let backoff := c.markBackoff f
  if c.isOverdue f then
    { c with
      refWindow := c.resetWindow.scale (1.0 - Binary64.maximum backoff 0.25)
      markedShare := 0.25 }
  else { c with refWindow := c.refWindow.scale (1.0 - backoff) }

/-- Reduce the window for queue delay. -/
def reduceForDelay (c : RateControl) (x : Congestion) : RateControl :=
  { c with refWindow := c.queue.reduceWindow c.refWindow c.segmentRatio x.alphaLimit }

/-- Make the window the inflection point, if it has grown since the last one. -/
def markInflection (c : RateControl) : RateControl :=
  if c.inflectionOpen then { c with inflection := c.refWindow, inflectionOpen := false } else c

/-- The window after the reductions. -/
def reduce (c : RateControl) (f : Feedback) (x : Congestion) : RateControl :=
  let c := if x.loss then c.reduceForLoss f else c
  let c := if x.mark then c.reduceForMarks f else c
  if x.delay then c.reduceForDelay x else c

/-- React to congestion. -/
def react (c : RateControl) (f : Feedback) (x : Congestion) : RateControl :=
  { (c.reduce f x).markInflection with lastReaction := f.feedbackTime }

end RateControl

end MediaSender
