import MediaSender.Proofs.Guarded.Arithmetic
import MediaSender.Proofs.RateControl.TargetRate
import MediaSender.Proofs.RateControl.WindowFloor

/-! # The rate control on a machine that may stop

Each definition on the way of a round that clamps, multiplies or divides integers, or counts, has a
guarded one of the same shape, built from the guarded operations of `Guarded.Arithmetic`.  What can
stop a round are

* the products with the two round-trip parameters, which fit 128 bits because the parameters are
  words (`Parameters.WordSized`);
* the clamps between constants;
* the clamps of the window between its floor and the present window (`resetWindow`), and between
  its floor and the ceiling (`grow`), whose ends are maxima with the floor;
* the clamp of the target rate, whose ends are in order since they were set (`bounds`);
* the counter of closed epochs (`QueueDelay.Exhausts`).

So a round stops exactly if its report exhausts the counter (`guardedOnFeedback_eq`,
`guardedOnFeedback_of_exhausts`), and otherwise it computes what the unguarded one does. -/

namespace MediaSender

/-- The whole numbers among the parameters are signed 32-bit words. -/
structure Parameters.WordSized (p : Parameters) : Prop where
  postCongestionRtts : -0x80000000 ≤ p.postCongestionRtts ∧ p.postCongestionRtts ≤ 0x7fffffff
  resetRtts : -0x80000000 ≤ p.resetRtts ∧ p.resetRtts ≤ 0x7fffffff
  baseDelayEpochs : -0x80000000 ≤ p.baseDelayEpochs ∧ p.baseDelayEpochs ≤ 0x7fffffff

open Fault (ok_bind)

/-! ### The queue delay -/

namespace QueueDelay

/-- The state before any feedback. -/
def guardedInitial (p : Parameters) : Except Fault QueueDelay := do
  let closedEpochs ←
    (SlidingMinimum.ofLength p.baseDelayEpochs.toNat).guardedInsert (.plusInfinity : TimeDelta)
  return { params := p, closedEpochs }

/-- Close the epoch if it has lasted long enough. -/
def guardedCloseEpoch (q : QueueDelay) (now : Timestamp) : Except Fault QueueDelay :=
  if q.params.baseDelayEpochLength ≤ now - q.lastEpochEnd then do
    let closedEpochs ← q.closedEpochs.guardedInsert q.epochMinimum
    return { q with closedEpochs, lastEpochEnd := now, epochMinimum := .plusInfinity }
  else .ok q

/-- Take note of a report. -/
def guardedOnFeedback (q : QueueDelay) (f : Feedback) : Except Fault QueueDelay :=
  if f.packets.isEmpty then .ok q
  else ((q.afterPackets f).sampleRound f).guardedCloseEpoch f.feedbackTime

/-- The share of the window that is given up. -/
def guardedBackoff (q : QueueDelay) (segmentRatio alphaLimit : Float) : Except Fault Float := do
  let excess := (q.average - q.reductionLimit).ratio q.reductionLimit
  let alpha ← Binary64.guardedClamp 0.0 1.0 (2.0 * alphaLimit * excess)
  let roundTrips := Binary64.maximum (q.lastSmoothedRtt.ratio q.params.virtualRtt) 1.0
  return alpha * q.params.reductionThreshold / roundTrips *
    Binary64.maximum (1.0 - segmentRatio) 0.5

/-- The window reduced in proportion to the excess of the queue delay. -/
def guardedReduceWindow (q : QueueDelay) (window : DataSize) (segmentRatio alphaLimit : Float) :
    Except Fault DataSize := do
  let minWindow ← q.minRate.guardedDuring q.lastSmoothedRtt
  if window < minWindow then return minWindow
  else
    let backoff ← q.guardedBackoff segmentRatio alphaLimit
    return max minWindow (window.scale (1.0 - backoff))

/-- The factor on the growth of the window. -/
def guardedGrowthScale (q : QueueDelay) : Except Fault Float :=
  if q.average.isFinite then
    Binary64.guardedClamp 0.1 1.0 (1.0 - q.average.ratio q.reductionLimit)
  else .ok 1.0

/-- The report closes an epoch that the counter of closed epochs has no room for. -/
def Exhausts (q : QueueDelay) (f : Feedback) : Prop :=
  f.packets ≠ [] ∧ q.params.baseDelayEpochLength ≤ f.feedbackTime - q.lastEpochEnd ∧
    0x10000000000000000 ≤ q.closedEpochs.inserted + 1

variable (q : QueueDelay) {f : Feedback}

theorem guardedInitial_eq (p : Parameters) : guardedInitial p = .ok (initial p) := by
  have hinsert := SlidingMinimum.guardedInsert_eq
    (w := SlidingMinimum.ofLength p.baseDelayEpochs.toNat)
    (by decide : 0 + 1 < 0x10000000000000000) (.plusInfinity : TimeDelta)
  rw [guardedInitial, hinsert]
  rfl

theorem guardedOnFeedback_eq (h : ¬q.Exhausts f) :
    q.guardedOnFeedback f = .ok (q.onFeedback f) := by
  rw [guardedOnFeedback, onFeedback_eq]
  split
  next => rfl
  next hf =>
    unfold guardedCloseEpoch closeEpoch
    split
    next hdue =>
      -- The epoch is closed after the packets and the last delay, which leave its end and the
      -- counter alone.
      have hcount : ¬0x10000000000000000 ≤ q.closedEpochs.inserted + 1 := by
        intro hcount
        rw [sampleRound_params, afterPackets_params, sampleRound_lastEpochEnd,
          afterPackets_lastEpochEnd] at hdue
        exact h ⟨fun hnil => hf (List.isEmpty_iff.mpr hnil), hdue, hcount⟩
      rw [SlidingMinimum.guardedInsert_eq]
      · rfl
      · rw [sampleRound_closedEpochs, afterPackets_closedEpochs]
        omega
    next => rfl

theorem guardedOnFeedback_of_exhausts (h : q.Exhausts f) :
    q.guardedOnFeedback f = .error .overflow := by
  obtain ⟨hf, hdue, hcount⟩ := h
  have hempty : ¬f.packets.isEmpty = true := fun h => hf (List.isEmpty_iff.mp h)
  rw [guardedOnFeedback, if_neg hempty, guardedCloseEpoch, sampleRound_params, afterPackets_params,
    sampleRound_lastEpochEnd, afterPackets_lastEpochEnd, if_pos hdue,
    SlidingMinimum.guardedInsert_eq_error]
  · rfl
  · rw [sampleRound_closedEpochs, afterPackets_closedEpochs]
    omega

theorem guardedBackoff_eq (segmentRatio alphaLimit : Float) :
    q.guardedBackoff segmentRatio alphaLimit = .ok (q.backoff segmentRatio alphaLimit) := by
  rw [guardedBackoff, Binary64.guardedClamp_eq (by decide)]
  rfl

theorem guardedReduceWindow_eq (window : DataSize) (segmentRatio alphaLimit : Float) :
    q.guardedReduceWindow window segmentRatio alphaLimit =
      .ok (q.reduceWindow window segmentRatio alphaLimit) := by
  rw [guardedReduceWindow, DataRate.guardedDuring_eq, ok_bind]
  unfold reduceWindow minWindow
  split
  next => rfl
  next => rw [guardedBackoff_eq]; rfl

theorem guardedGrowthScale_eq : q.guardedGrowthScale = .ok q.growthScale := by
  unfold guardedGrowthScale growthScale
  split
  next => exact Binary64.guardedClamp_eq (by decide) _
  next => rfl

end QueueDelay

namespace RateControl

/-! ### Congestion -/

/-- The share of marks below which they count as rare. -/
def guardedAlphaLimit (c : RateControl) (f : Feedback) : Except Fault Float := do
  let segments ← c.params.maxSegmentSize.guardedTimes 2
  let rate ← DataSize.guardedOver segments (roundTrip f)
  return rate.ratio c.targetRate

/-- The congestion that a report shows. -/
def guardedCongestion (c : RateControl) (f : Feedback) : Except Fault Congestion := do
  let alphaLimit ← c.guardedAlphaLimit f
  return {
    loss := f.hasLoss
    mark := f.hasMark
    delay := decide (c.markedShare < alphaLimit) && c.queue.shouldReduce
    alphaLimit }

/-- The factor on changes of the window near the inflection point. -/
def guardedInflectionFactor (c : RateControl) : Except Fault Float :=
  let x := c.params.inflectionScale * c.inflectionDistance.ratio c.inflection
  Binary64.guardedClamp 0.1 1.0 (x * x)

/-- The share of the window given up for marks. -/
def guardedMarkBackoff (c : RateControl) (f : Feedback) : Except Fault Float :=
  let backoff := c.markedShare / 2.0 / c.virtualRoundTrips f * c.smallWindowScale
  if c.queue.isDetected then .ok backoff
  else do
    let factor ← c.guardedInflectionFactor
    return backoff * Binary64.maximum factor 0.25

/-- Whether the last reaction is so long ago that the window may be far above the data in
flight. -/
def guardedIsOverdue (c : RateControl) (f : Feedback) : Except Fault Bool :=
  if (c.sinceReaction f).isFinite then do
    let limit ← (c.longRoundTrip f).guardedTimes c.params.resetRtts
    return decide (limit < c.sinceReaction f)
  else .ok false

/-- The window brought down to the previous peak of data in flight. -/
def guardedResetWindow (c : RateControl) : Except Fault DataSize :=
  Quantity.guardedClamp c.params.minRefWindow (max c.refWindow c.params.minRefWindow)
    c.previousPeak

/-- Reduce the window for marks. -/
def guardedReduceForMarks (c : RateControl) (f : Feedback) : Except Fault RateControl := do
  let backoff ← c.guardedMarkBackoff f
  let overdue ← c.guardedIsOverdue f
  if overdue then
    let window ← c.guardedResetWindow
    return { c with
      refWindow := window.scale (1.0 - Binary64.maximum backoff 0.25)
      markedShare := 0.25 }
  else return { c with refWindow := c.refWindow.scale (1.0 - backoff) }

/-- Reduce the window for queue delay. -/
def guardedReduceForDelay (c : RateControl) (x : Congestion) : Except Fault RateControl := do
  let window ← c.queue.guardedReduceWindow c.refWindow c.segmentRatio x.alphaLimit
  return { c with refWindow := window }

/-- The window after the reductions. -/
def guardedReduce (c : RateControl) (f : Feedback) (x : Congestion) : Except Fault RateControl :=
  let c := if x.loss then c.reduceForLoss f else c
  (if x.mark then c.guardedReduceForMarks f else .ok c) >>= fun c =>
    if x.delay then c.guardedReduceForDelay x else .ok c

/-- React to congestion. -/
def guardedReact (c : RateControl) (f : Feedback) (x : Congestion) : Except Fault RateControl := do
  let reduced ← c.guardedReduce f x
  return { reduced.markInflection with lastReaction := f.feedbackTime }

section congestion

variable (c : RateControl) (f : Feedback) (x : Congestion)

theorem guardedAlphaLimit_eq : c.guardedAlphaLimit f = .ok (c.alphaLimit f) := by
  rw [guardedAlphaLimit, Quantity.guardedTimes_eq _ (by decide), ok_bind, DataSize.guardedOver_eq]
  rfl

theorem guardedCongestion_eq : c.guardedCongestion f = .ok (c.congestion f) := by
  rw [guardedCongestion, guardedAlphaLimit_eq]
  rfl

theorem guardedInflectionFactor_eq : c.guardedInflectionFactor = .ok c.inflectionFactor :=
  Binary64.guardedClamp_eq (by decide) _

theorem guardedMarkBackoff_eq : c.guardedMarkBackoff f = .ok (c.markBackoff f) := by
  unfold guardedMarkBackoff markBackoff
  dsimp only
  split
  next => rfl
  next => rw [guardedInflectionFactor_eq]; rfl

theorem guardedResetWindow_eq : c.guardedResetWindow = .ok c.resetWindow :=
  Quantity.guardedClamp_eq (le_max_right _ _) _

theorem guardedReduceForDelay_eq : c.guardedReduceForDelay x = .ok (c.reduceForDelay x) := by
  rw [guardedReduceForDelay, QueueDelay.guardedReduceWindow_eq]
  rfl

variable (hp : c.params.WordSized)

include hp

theorem guardedIsOverdue_eq : c.guardedIsOverdue f = .ok (c.isOverdue f) := by
  unfold guardedIsOverdue isOverdue
  have hresets := hp.resetRtts
  split
  next hfinite => rw [Quantity.guardedTimes_eq _ (by omega), hfinite]; rfl
  next hfinite => rw [Bool.not_eq_true] at hfinite; rw [hfinite]; rfl

theorem guardedReduceForMarks_eq : c.guardedReduceForMarks f = .ok (c.reduceForMarks f) := by
  rw [guardedReduceForMarks, guardedMarkBackoff_eq, ok_bind, guardedIsOverdue_eq c f hp, ok_bind]
  unfold reduceForMarks
  dsimp only
  split
  next => rw [guardedResetWindow_eq]; rfl
  next => rfl

theorem guardedReduce_eq : c.guardedReduce f x = .ok (c.reduce f x) := by
  have hloss : (if x.loss then c.reduceForLoss f else c).params.WordSized := by
    split
    next => exact hp
    next => exact hp
  have hmarks : ∀ c : RateControl, c.params.WordSized →
      (if x.mark then c.guardedReduceForMarks f else .ok c) =
        .ok (if x.mark then c.reduceForMarks f else c) := by
    intro c hc
    split
    next => exact guardedReduceForMarks_eq c f hc
    next => rfl
  unfold guardedReduce reduce
  dsimp only
  rw [hmarks _ hloss, ok_bind]
  split
  next => exact guardedReduceForDelay_eq _ x
  next => rfl

theorem guardedReact_eq : c.guardedReact f x = .ok (c.react f x) := by
  rw [guardedReact, guardedReduce_eq c f x hp]
  rfl

end congestion

/-! ### Growth -/

/-- How much of the cautious time after the last reaction has passed. -/
def guardedRecovery (c : RateControl) (f : Feedback) : Except Fault Float := do
  let cautious ← (c.longRoundTrip f).guardedTimes c.params.postCongestionRtts
  Binary64.guardedClamp 0.0 1.0 ((c.sinceReaction f).ratio cautious)

/-- The factor on the growth that makes it multiplicative far from the inflection point. -/
def guardedMultiplicativeScale (c : RateControl) (f : Feedback) : Except Fault Float := do
  let recovery ← c.guardedRecovery f
  let factor ← c.guardedInflectionFactor
  return 1.0 + (c.growthFactor - 1.0) * recovery * factor

/-- The growth for one report; the factor for a queue that builds up is computed in any case. -/
def guardedIncrease (c : RateControl) (f : Feedback) (x : Congestion) : Except Fault DataSize := do
  let amount := f.unmarkedSize.scale c.segmentRatio
  let amount :=
    if f.smoothedRtt < c.params.virtualRtt then
      let r := f.smoothedRtt.ratio c.params.virtualRtt
      amount.scale (r * r)
    else amount
  let growthScale ← c.queue.guardedGrowthScale
  let amount := if c.markedShare < x.alphaLimit then amount.scale growthScale else amount
  let factor ← c.guardedInflectionFactor
  let amount := amount.scale (Binary64.maximum factor 0.25)
  let amount := amount.scale c.smallWindowScale
  let multiplicativeScale ← c.guardedMultiplicativeScale f
  return amount.scale multiplicativeScale

/-- Let the window grow; the growth is computed in any case. -/
def guardedGrow (c : RateControl) (f : Feedback) (x : Congestion) : Except Fault RateControl := do
  let amount ← c.guardedIncrease f x
  if c.refWindow < c.ceiling then
    let window ← Quantity.guardedClamp c.params.minRefWindow c.ceiling (c.refWindow + amount)
    return { c with refWindow := window }
  else return c

section growth

variable (c : RateControl) (f : Feedback) (x : Congestion) (hp : c.params.WordSized)

include hp

theorem guardedRecovery_eq : c.guardedRecovery f = .ok (c.recovery f) := by
  have hcautious := hp.postCongestionRtts
  rw [guardedRecovery, Quantity.guardedTimes_eq _ (by omega), ok_bind]
  exact Binary64.guardedClamp_eq (by decide) _

theorem guardedMultiplicativeScale_eq :
    c.guardedMultiplicativeScale f = .ok (c.multiplicativeScale f) := by
  rw [guardedMultiplicativeScale, guardedRecovery_eq c f hp, ok_bind, guardedInflectionFactor_eq]
  rfl

theorem guardedIncrease_eq : c.guardedIncrease f x = .ok (c.increase f x) := by
  unfold guardedIncrease
  rw [QueueDelay.guardedGrowthScale_eq, ok_bind, guardedInflectionFactor_eq, ok_bind,
    guardedMultiplicativeScale_eq c f hp]
  rfl

theorem guardedGrow_eq : c.guardedGrow f x = .ok (c.grow f x) := by
  rw [guardedGrow, guardedIncrease_eq c f x hp, ok_bind]
  unfold grow
  split
  next => rw [Quantity.guardedClamp_eq c.minRefWindow_le_ceiling]; rfl
  next => rfl

end growth

/-! ### Rounds -/

/-- The window after the round. -/
def guardedAdjustWindow (c : RateControl) (f : Feedback) (x : Congestion) :
    Except Fault RateControl :=
  (if c.reacts f x then c.guardedReact f x else .ok c) >>= fun c =>
    if c.grows f x then c.guardedGrow f x else .ok c

/-- The factor on the rate. -/
def guardedRateScale (c : RateControl) (f : Feedback) : Except Fault Float := do
  let inFlight := f.dataInFlight.ratio c.refWindow
  let excess :=
    if c.queue.isDetected && decide (c.params.inFlightLimit < inFlight) then
      1.0 / Binary64.minimum c.params.maxInFlightCompensation (inFlight / c.params.inFlightLimit)
    else 1.0
  let fewPackets ← Binary64.guardedClamp 0.0 0.2 (c.segmentRatio - 0.1)
  return excess * (1.0 - fewPackets)

/-- The target rate for the window. -/
def guardedUpdateRate (c : RateControl) (f : Feedback) : Except Fault RateControl := do
  let scale ← c.guardedRateScale f
  let rate ← DataSize.guardedOver c.refWindow (roundTrip f)
  let targetRate ← Quantity.guardedClamp c.minRate c.maxRate (rate.scale scale)
  return { c with targetRate }

/-- Take note of a report before acting on it. -/
def guardedObserve (c : RateControl) (f : Feedback) : Except Fault RateControl := do
  let queue ← c.queue.guardedOnFeedback f
  return ({ c with queue }.observeMarks f).observeInFlight f

/-- The state after the window, the rate and the book-keeping of a round. -/
def guardedRound (c : RateControl) (f : Feedback) : Except Fault RateControl := do
  let observed ← c.guardedObserve f
  let congestion ← observed.guardedCongestion f
  let adjusted ← observed.guardedAdjustWindow f congestion
  let rated ← adjusted.guardedUpdateRate f
  return (rated.openInflection observed.refWindow).rollOver f

/-- One round of feedback. -/
def guardedOnFeedback (c : RateControl) (f : Feedback) :
    Except Fault (RateControl × RateReport) := do
  let c ← c.guardedRound f
  return ({ c with lastReport := some (c.report f) }, c.report f)

section rounds

variable (c : RateControl) {f : Feedback} (x : Congestion)

theorem guardedAdjustWindow_eq (hp : c.params.WordSized) :
    c.guardedAdjustWindow f x = .ok (c.adjustWindow f x) := by
  have hreaction : (if c.reacts f x then c.guardedReact f x else .ok c) =
      .ok (c.afterReaction f x) := by
    unfold afterReaction
    split
    next => exact guardedReact_eq c f x hp
    next => rfl
  rw [guardedAdjustWindow, hreaction, ok_bind, adjustWindow_eq]
  split
  next => exact guardedGrow_eq _ f x (by rw [afterReaction_params]; exact hp)
  next => rfl

theorem guardedUpdateRate_eq (hb : c.minRate ≤ c.maxRate) :
    c.guardedUpdateRate f = .ok (c.updateRate f) := by
  have hscale : c.guardedRateScale f = .ok (c.rateScale f) := by
    rw [guardedRateScale, Binary64.guardedClamp_eq (by decide)]
    rfl
  rw [guardedUpdateRate, hscale, ok_bind, DataSize.guardedOver_eq, ok_bind,
    Quantity.guardedClamp_eq hb]
  rfl

/-- A round whose report does not exhaust the counter does not stop. -/
theorem guardedRound_eq (hp : c.params.WordSized) (hb : c.bounds.1 ≤ c.bounds.2)
    (hf : ¬c.queue.Exhausts f) : c.guardedRound f = .ok (c.round f) := by
  have hobserve : c.guardedObserve f = .ok (c.observe f) := by
    rw [guardedObserve, QueueDelay.guardedOnFeedback_eq _ hf]
    rfl
  have hwords : (c.observe f).params.WordSized := by
    rw [observe_params]
    exact hp
  have hb' : ((c.observe f).adjustWindow f ((c.observe f).congestion f)).minRate ≤
      ((c.observe f).adjustWindow f ((c.observe f).congestion f)).maxRate := by
    have h := bounds_adjusted c f
    rw [← h] at hb
    exact hb
  rw [guardedRound, hobserve, ok_bind, guardedCongestion_eq, ok_bind,
    guardedAdjustWindow_eq _ _ hwords, ok_bind, guardedUpdateRate_eq _ hb']
  rfl

theorem guardedOnFeedback_eq (hp : c.params.WordSized) (hb : c.bounds.1 ≤ c.bounds.2)
    (hf : ¬c.queue.Exhausts f) : c.guardedOnFeedback f = .ok (c.onFeedback f) := by
  rw [guardedOnFeedback, guardedRound_eq c hp hb hf]
  rfl

/-- A round whose report exhausts the counter stops. -/
theorem guardedOnFeedback_of_exhausts (hf : c.queue.Exhausts f) :
    c.guardedOnFeedback f = .error .overflow := by
  rw [guardedOnFeedback, guardedRound, guardedObserve,
    QueueDelay.guardedOnFeedback_of_exhausts _ hf]
  rfl

end rounds

end RateControl

end MediaSender
