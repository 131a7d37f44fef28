import MediaSender.RateControl.Congestion

/-! # Growth of the window

Without congestion, and in the round that has just reacted to it, the window grows by a share of
the data that the report covers.  The growth is slower near the inflection point, for short round
trips, and while a queue builds up, and the window does not grow beyond what is in flight plus
some room. -/

namespace MediaSender.RateControl

/-- Whether the window may grow in this round. -/
def grows (c : RateControl) (f : Feedback) (x : Congestion) : Bool :=
  !x.isAny || decide (c.lastReaction = f.feedbackTime)

/-- The factor by which the window may grow in a round trip. -/
def growthFactor (c : RateControl) : Float :=
  1.0 + c.params.growthShare * c.refWindow.ratio c.params.maxSegmentSize

/-- How much of the cautious time after the last reaction has passed, from zero to one. -/
def recovery (c : RateControl) (f : Feedback) : Float :=
  Binary64.clamp 0.0 1.0
    ((c.sinceReaction f).ratio ((c.longRoundTrip f).times c.params.postCongestionRtts))

/-- The factor on the growth that makes it multiplicative far from the inflection point. -/
def multiplicativeScale (c : RateControl) (f : Feedback) : Float :=
  1.0 + (c.growthFactor - 1.0) * c.recovery f * c.inflectionFactor

/-- The growth for one report. -/
def increase (c : RateControl) (f : Feedback) (x : Congestion) : DataSize :=
  let amount := f.unmarkedSize.scale c.segmentRatio
  let amount :=
    if f.smoothedRtt < c.params.virtualRtt then
      let r := f.smoothedRtt.ratio c.params.virtualRtt
      amount.scale (r * r)
    else amount
  let amount := if c.markedShare < x.alphaLimit then amount.scale c.queue.growthScale else amount
  let amount := amount.scale (Binary64.maximum c.inflectionFactor 0.25)
  let amount := amount.scale c.smallWindowScale
  amount.scale (c.multiplicativeScale f)

/-- The window beyond which there is no growth. -/
def ceiling (c : RateControl) : DataSize :=
  let peak := max c.peakInFlight c.previousPeak
  max (c.params.maxSegmentSize + peak.scale c.params.inFlightHeadRoom) c.params.minRefWindow

/-- Let the window grow. -/
def grow (c : RateControl) (f : Feedback) (x : Congestion) : RateControl :=
  if c.refWindow < c.ceiling then
    { c with
      refWindow :=
        Quantity.clamp c.params.minRefWindow c.ceiling (c.refWindow + c.increase f x) }
  else c

end MediaSender.RateControl
