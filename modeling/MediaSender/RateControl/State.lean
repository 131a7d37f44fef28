import MediaSender.RateControl.QueueDelay
import MediaSender.RateControl.Report
import MediaSender.Transport.Error

/-! # State of the rate control

The sender limits the data in flight by a reference window, and its target rate is the window per
round trip (SCReAM version 2).

* **Inflection point.** The window at the last congestion; changes near it are slow.
* **Marked share.** The average share of packets that the path marks for congestion.
* **Peaks.** The largest data in flight in this round trip and in the one before limit how far
  the window may grow. -/

namespace MediaSender

/-- The rate control of one network route. -/
structure RateControl where
  params : Parameters
  minRate : DataRate := 0
  maxRate : DataRate := .plusInfinity
  targetRate : DataRate := 0
  /-- Upper limit on the data in flight. -/
  refWindow : DataSize
  /-- The reference window when congestion was last noticed. -/
  inflection : DataSize := .ofInt 1
  /-- Whether the window has grown since the inflection point was set. -/
  inflectionOpen : Bool := true
  markedShare : Float := 0.0
  /-- Feedback time of the last report with a mark. -/
  lastMark : Timestamp := .minusInfinity
  /-- When the peaks were last passed on. -/
  lastRollover : Timestamp := .minusInfinity
  peakInFlight : DataSize := 0
  previousPeak : DataSize := 0
  /-- Feedback time of the last reaction to congestion. -/
  lastReaction : Timestamp := .minusInfinity
  queue : QueueDelay
  lastReport : Option RateReport := none

namespace RateControl

/-- The state before any feedback. -/
def initial (p : Parameters) : RateControl where
  params := p
  refWindow := p.minRefWindow
  queue := .initial p

/-- Keep every later target rate between the bounds. -/
def setBounds (c : RateControl) (lower upper : DataRate) : Except ControlError RateControl :=
  if upper < lower then .error (.invertedBounds lower upper)
  else .ok { c with minRate := lower, maxRate := upper, queue := { c.queue with minRate := lower } }

/-- The average queue delay, plus infinity before there is one. -/
def queueDelay (c : RateControl) : TimeDelta := c.queue.average

/-- The round trip of a report, at least a millisecond. -/
def roundTrip (f : Feedback) : TimeDelta := max f.smoothedRtt (TimeDelta.ofMillis 1)

/-- The round trip of a report, at least the virtual one. -/
def longRoundTrip (c : RateControl) (f : Feedback) : TimeDelta :=
  max c.params.virtualRtt f.smoothedRtt

/-- How many virtual round trips a round trip takes, at least one. -/
def virtualRoundTrips (c : RateControl) (f : Feedback) : Float :=
  Binary64.maximum (f.smoothedRtt.ratio c.params.virtualRtt) 1.0

/-- The share of the window that one packet takes. -/
def segmentRatio (c : RateControl) : Float := c.params.maxSegmentSize.ratio c.refWindow

/-- One less the share of a packet, at least a half: changes are gentle while the window is a few
packets. -/
def smallWindowScale (c : RateControl) : Float := Binary64.maximum (1.0 - c.segmentRatio) 0.5

/-- The distance of the window from the inflection point. -/
def inflectionDistance (c : RateControl) : DataSize :=
  if c.inflection < c.refWindow then c.refWindow - c.inflection else c.inflection - c.refWindow

/-- The factor on changes of the window near the inflection point, from a tenth to one. -/
def inflectionFactor (c : RateControl) : Float :=
  let x := c.params.inflectionScale * c.inflectionDistance.ratio c.inflection
  Binary64.clamp 0.1 1.0 (x * x)

/-- Average the share of marked packets that arrived. -/
def observeMarks (c : RateControl) (f : Feedback) : RateControl :=
  if f.received.isEmpty then c
  else
    let marked := f.received.countP (·.isMarked)
    let share := Float.ofNat marked / Float.ofNat f.received.length
    let g := c.params.markGain
    { c with
      lastMark := if 0 < marked then f.feedbackTime else c.lastMark
      markedShare := g * share + (1.0 - g) * c.markedShare }

end RateControl

end MediaSender
