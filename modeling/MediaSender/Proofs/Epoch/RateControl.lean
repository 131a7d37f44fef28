import MediaSender.Proofs.Epoch.Timestamps
import MediaSender.Proofs.RateControl.PacketOrder
import MediaSender.Proofs.RateControl.Runs

/-! # The rate control on another clock

A report told on another clock leads the rate control, with its own notes of time moved to that
clock, to the state that the report leads to, moved likewise.

* **Reports.** Which packets arrived, their order, and their one-way delays are the same on both
  clocks (`Feedback.received_rebase`, `delays_rebase`), if all timestamps have one on the other
  clock.
* **State.** The notes of time are `Rebasable` at the start, when nothing has happened yet, and
  after each report, since they are then times of reports (`RateControl.Rebasable.round`).
* **Rounds.** Time enters a round as the time since a noted instant, and once as the question
  whether two noted instants are the same one; neither depends on the clock (`round_rebase`). -/

namespace MediaSender

variable {k : Int}

/-! ### Reports -/

/-- The packet as sent by the other clock. -/
def SentPacket.rebase (k : Int) (p : SentPacket) : SentPacket :=
  { p with sendTime := p.sendTime.rebase k }

namespace PacketOutcome

/-- The outcome as told by the other clock. -/
def rebase (k : Int) (p : PacketOutcome) : PacketOutcome :=
  { p with sent := p.sent.rebase k, receiveTime := p.receiveTime.rebase k }

/-- Departure and arrival have timestamps on the other clock. -/
structure Rebasable (k : Int) (p : PacketOutcome) : Prop where
  sendTime : p.sent.sendTime.Rebasable k
  receiveTime : p.receiveTime.Rebasable k

instance (k : Int) (p : PacketOutcome) : Decidable (p.Rebasable k) :=
  decidable_of_iff (p.sent.sendTime.Rebasable k ∧ p.receiveTime.Rebasable k)
    ⟨fun h => ⟨h.1, h.2⟩, fun h => ⟨h.1, h.2⟩⟩

variable {p q : PacketOutcome}

theorem Rebasable.isReceived_rebase (hp : p.Rebasable k) :
    (p.rebase k).isReceived = p.isReceived :=
  -- plus infinity stands for a loss, and an instant does not become plus infinity
  congrArg not hp.receiveTime.isPlusInfinity_rebase

theorem Rebasable.oneWayDelay_rebase (hp : p.Rebasable k) :
    (p.rebase k).oneWayDelay = p.oneWayDelay :=
  hp.sendTime.rebase_sub_rebase hp.receiveTime

theorem Rebasable.arrivesBy_rebase (hp : p.Rebasable k) (hq : q.Rebasable k) :
    (p.rebase k).arrivesBy (q.rebase k) = p.arrivesBy q := by
  have hreceived := hp.receiveTime.compare_rebase hq.receiveTime
  have hsent := hp.sendTime.compare_rebase hq.sendTime
  unfold arrivesBy compareArrival
  show ((compare (p.receiveTime.rebase k) (q.receiveTime.rebase k)).then
    ((compare (p.sent.sendTime.rebase k) (q.sent.sendTime.rebase k)).then _)).isLE = _
  rw [hreceived, hsent]
  rfl

end PacketOutcome

namespace Feedback

/-- The report as told by the other clock. -/
def rebase (k : Int) (f : Feedback) : Feedback :=
  { f with
    feedbackTime := f.feedbackTime.rebase k
    packets := f.packets.map (·.rebase k)
    otherArrivals := f.otherArrivals.map (·.rebase k) }

/-- The times that are read of the report have timestamps on the other clock. -/
structure Rebasable (k : Int) (f : Feedback) : Prop where
  feedbackTime : f.feedbackTime.Rebasable k
  packets : ∀ p ∈ f.packets, p.Rebasable k

instance (k : Int) (f : Feedback) : Decidable (f.Rebasable k) :=
  decidable_of_iff (f.feedbackTime.Rebasable k ∧ ∀ p ∈ f.packets, p.Rebasable k)
    ⟨fun h => ⟨h.1, h.2⟩, fun h => ⟨h.1, h.2⟩⟩

variable {f : Feedback}

@[simp] theorem rebase_smoothedRtt : (f.rebase k).smoothedRtt = f.smoothedRtt := rfl

theorem Rebasable.of_mem_received (hf : f.Rebasable k) :
    ∀ p ∈ f.received, p.Rebasable k :=
  fun p hp => hf.packets p (List.mem_of_mem_filter hp)

theorem Rebasable.received_rebase (hf : f.Rebasable k) :
    (f.rebase k).received = f.received.map (·.rebase k) := by
  show (f.packets.map (·.rebase k)).filter (·.isReceived) = _
  rw [List.filter_map]
  refine congrArg _ (List.filter_congr ?_)
  intro p hp
  exact (hf.packets p hp).isReceived_rebase

theorem Rebasable.inArrivalOrder_rebase (hf : f.Rebasable k) :
    (f.rebase k).inArrivalOrder = f.inArrivalOrder.map (·.rebase k) := by
  unfold inArrivalOrder
  rw [hf.received_rebase]
  refine (List.map_mergeSort ?_).symm
  intro p hp q hq
  exact ((hf.of_mem_received p hp).arrivesBy_rebase (hf.of_mem_received q hq)).symm

/-- The one-way delays in the order of arrival are the same on both clocks. -/
theorem Rebasable.delays_rebase (hf : f.Rebasable k) :
    (f.rebase k).inArrivalOrder.map (·.oneWayDelay) = f.inArrivalOrder.map (·.oneWayDelay) := by
  rw [hf.inArrivalOrder_rebase, List.map_map]
  apply List.map_congr_left
  intro p hp
  have hreceived : p ∈ f.received := List.mem_mergeSort.mp hp
  exact (hf.of_mem_received p hreceived).oneWayDelay_rebase

theorem Rebasable.hasLoss_rebase (hf : f.Rebasable k) : (f.rebase k).hasLoss = f.hasLoss := by
  show (f.packets.map (·.rebase k)).any (fun p => !p.isReceived) = f.packets.any _
  rw [List.any_map, Bool.eq_iff_iff, List.any_eq_true, List.any_eq_true]
  apply exists_congr
  intro p
  apply and_congr_right
  intro hp
  rw [Function.comp_apply, (hf.packets p hp).isReceived_rebase]

@[simp] theorem hasMark_rebase : (f.rebase k).hasMark = f.hasMark := by
  show (f.packets.map (·.rebase k)).any (·.isMarked) = _
  rw [List.any_map]
  rfl

@[simp] theorem unmarkedSize_rebase : (f.rebase k).unmarkedSize = f.unmarkedSize := by
  show ((f.packets.map (·.rebase k)).filter _).foldl _ _ = _
  rw [List.filter_map, List.foldl_map]
  rfl

end Feedback

/-! ### Queue delay -/

namespace QueueDelay

/-- The estimate with its notes of time on the other clock. -/
def rebase (k : Int) (q : QueueDelay) : QueueDelay :=
  { q with
    lastEpochEnd := q.lastEpochEnd.rebase k
    lastAverageUpdate := q.lastAverageUpdate.rebase k }

/-- The notes of time have timestamps on the other clock. -/
structure Rebasable (k : Int) (q : QueueDelay) : Prop where
  lastEpochEnd : q.lastEpochEnd.Rebasable k
  lastAverageUpdate : q.lastAverageUpdate.Rebasable k

variable {q : QueueDelay} {f : Feedback}

@[simp] theorem rebase_params (q : QueueDelay) : (q.rebase k).params = q.params := rfl

theorem observeDelay_rebase (q : QueueDelay) (δ : TimeDelta) :
    (q.rebase k).observeDelay δ = (q.observeDelay δ).rebase k := by
  have hparams := rebase_params (k := k) q
  unfold observeDelay
  simp only [hparams]
  split <;> rfl

theorem Rebasable.observeDelay (hq : q.Rebasable k) (δ : TimeDelta) :
    (q.observeDelay δ).Rebasable k := by
  unfold QueueDelay.observeDelay
  dsimp only
  split <;> exact ⟨hq.lastEpochEnd, hq.lastAverageUpdate⟩

theorem Rebasable.foldl_observe (hq : q.Rebasable k) (l : List PacketOutcome) :
    (l.foldl observe q).Rebasable k := by
  rw [QueueDelay.foldl_observe]
  refine List.foldlRecOn _ _ hq ?_
  intro q hq δ _
  exact hq.observeDelay δ

theorem Rebasable.sampleRound_rebase (hq : q.Rebasable k) (hf : f.Rebasable k) :
    (q.rebase k).sampleRound (f.rebase k) = (q.sampleRound f).rebase k := by
  have hsince : (f.rebase k).feedbackTime - (q.rebase k).lastAverageUpdate =
      f.feedbackTime - q.lastAverageUpdate :=
    hq.lastAverageUpdate.rebase_sub_rebase hf.feedbackTime
  have hlast : lastDelay (f.rebase k) = lastDelay f := by
    rw [lastDelay_eq, lastDelay_eq, hf.delays_rebase]
  unfold sampleRound
  rw [hsince, hlast, rebase_params, Feedback.rebase_smoothedRtt]
  split <;> rfl

theorem Rebasable.sampleRound (hq : q.Rebasable k) (hf : f.Rebasable k) :
    (q.sampleRound f).Rebasable k := by
  unfold QueueDelay.sampleRound
  split
  next => exact ⟨hq.lastEpochEnd, hf.feedbackTime⟩
  next => exact hq

theorem Rebasable.closeEpoch_rebase {now : Timestamp} (hq : q.Rebasable k)
    (hnow : now.Rebasable k) :
    (q.rebase k).closeEpoch (now.rebase k) = (q.closeEpoch now).rebase k := by
  have hsince : now.rebase k - (q.rebase k).lastEpochEnd = now - q.lastEpochEnd :=
    hq.lastEpochEnd.rebase_sub_rebase hnow
  unfold closeEpoch
  rw [hsince, rebase_params]
  split <;> rfl

theorem Rebasable.closeEpoch {now : Timestamp} (hq : q.Rebasable k) (hnow : now.Rebasable k) :
    (q.closeEpoch now).Rebasable k := by
  unfold QueueDelay.closeEpoch
  split
  next => exact ⟨hnow, hq.lastAverageUpdate⟩
  next => exact hq

theorem Rebasable.withRtt (hq : q.Rebasable k) (δ : TimeDelta) :
    { q with lastSmoothedRtt := δ }.Rebasable k :=
  ⟨hq.lastEpochEnd, hq.lastAverageUpdate⟩

theorem Rebasable.onFeedback_rebase (hq : q.Rebasable k) (hf : f.Rebasable k) :
    (q.rebase k).onFeedback (f.rebase k) = (q.onFeedback f).rebase k := by
  have hempty : (f.rebase k).packets.isEmpty = f.packets.isEmpty := List.isEmpty_map
  have hfold : ∀ q : QueueDelay, (f.rebase k).inArrivalOrder.foldl observe (q.rebase k) =
      (f.inArrivalOrder.foldl observe q).rebase k := by
    intro q
    rw [QueueDelay.foldl_observe, QueueDelay.foldl_observe, hf.delays_rebase]
    exact List.foldl_hom (rebase k) (fun q δ => observeDelay_rebase q δ)
  unfold onFeedback
  rw [hempty]
  split
  next => rfl
  next =>
    have hfold' := hfold { q with lastSmoothedRtt := f.smoothedRtt }
    have hobserved := (hq.withRtt f.smoothedRtt).foldl_observe f.inArrivalOrder
    have hround := hobserved.sampleRound_rebase hf
    have hsampled := hobserved.sampleRound hf
    have hclose := hsampled.closeEpoch_rebase hf.feedbackTime
    rw [← hround, ← hfold'] at hclose
    exact hclose

theorem Rebasable.onFeedback (hq : q.Rebasable k) (hf : f.Rebasable k) :
    (q.onFeedback f).Rebasable k := by
  unfold QueueDelay.onFeedback
  split
  next => exact hq
  next =>
    have hobserved := (hq.withRtt f.smoothedRtt).foldl_observe f.inArrivalOrder
    exact (hobserved.sampleRound hf).closeEpoch hf.feedbackTime

end QueueDelay

/-! ### Rate control -/

/-- The report on a round as told by the other clock. -/
def RateReport.rebase (k : Int) (r : RateReport) : RateReport :=
  { r with atTime := r.atTime.rebase k }

namespace RateControl

/-- The state with its notes of time on the other clock. -/
def rebase (k : Int) (c : RateControl) : RateControl :=
  { c with
    lastMark := c.lastMark.rebase k
    lastRollover := c.lastRollover.rebase k
    lastReaction := c.lastReaction.rebase k
    queue := c.queue.rebase k
    lastReport := c.lastReport.map (·.rebase k) }

/-- The notes of time have timestamps on the other clock. -/
structure Rebasable (k : Int) (c : RateControl) : Prop where
  lastMark : c.lastMark.Rebasable k
  lastRollover : c.lastRollover.Rebasable k
  lastReaction : c.lastReaction.Rebasable k
  queue : c.queue.Rebasable k

@[simp] theorem rebase_refWindow (c : RateControl) : (c.rebase k).refWindow = c.refWindow := rfl

theorem initial_rebase (p : Parameters) : (initial p).rebase k = initial p := rfl

theorem rebasable_initial (p : Parameters) : (initial p).Rebasable k where
  lastMark := Timestamp.rebasable_minusInfinity
  lastRollover := Timestamp.rebasable_minusInfinity
  lastReaction := Timestamp.rebasable_minusInfinity
  queue := ⟨Timestamp.rebasable_minusInfinity, Timestamp.rebasable_minusInfinity⟩

theorem setBounds_rebase (c : RateControl) (lower upper : DataRate) :
    (c.rebase k).setBounds lower upper = (c.setBounds lower upper).map (·.rebase k) := by
  unfold setBounds
  split <;> rfl

section round

variable {c c' : RateControl} {f : Feedback} {x : Congestion}

theorem Rebasable.setBounds {lower upper : DataRate} (hc : c.Rebasable k)
    (h : c.setBounds lower upper = .ok c') : c'.Rebasable k := by
  obtain ⟨-, rfl⟩ := setBounds_eq_ok h
  exact ⟨hc.lastMark, hc.lastRollover, hc.lastReaction,
    ⟨hc.queue.lastEpochEnd, hc.queue.lastAverageUpdate⟩⟩

/-! ### What a report shows -/

theorem observeMarks_rebase (c : RateControl) (hf : f.Rebasable k) :
    (c.rebase k).observeMarks (f.rebase k) = (c.observeMarks f).rebase k := by
  unfold observeMarks
  rw [hf.received_rebase, List.isEmpty_map, List.countP_map, List.length_map]
  split
  next => rfl
  next =>
    have hmark : (if 0 < f.received.countP (·.isMarked) then f.feedbackTime.rebase k
          else c.lastMark.rebase k) =
        (if 0 < f.received.countP (·.isMarked) then f.feedbackTime else c.lastMark).rebase k :=
      (apply_ite (Timestamp.rebase k) _ _ _).symm
    simp only [rebase, ← hmark]
    rfl

theorem Rebasable.observeMarks (hc : c.Rebasable k) (hf : f.Rebasable k) :
    (c.observeMarks f).Rebasable k := by
  unfold RateControl.observeMarks
  split
  next => exact hc
  next =>
    refine ⟨?_, hc.lastRollover, hc.lastReaction, hc.queue⟩
    dsimp only
    split
    next => exact hf.feedbackTime
    next => exact hc.lastMark

theorem Rebasable.withQueue {q : QueueDelay} (hc : c.Rebasable k) (hq : q.Rebasable k) :
    { c with queue := q }.Rebasable k :=
  ⟨hc.lastMark, hc.lastRollover, hc.lastReaction, hq⟩

theorem Rebasable.observe_rebase (hc : c.Rebasable k) (hf : f.Rebasable k) :
    (c.rebase k).observe (f.rebase k) = (c.observe f).rebase k := by
  have hqueue := hc.queue.onFeedback_rebase hf
  have hmarks := observeMarks_rebase { c with queue := c.queue.onFeedback f } hf
  have hstate : { c.rebase k with queue := (c.rebase k).queue.onFeedback (f.rebase k) } =
      ({ c with queue := c.queue.onFeedback f } : RateControl).rebase k := by
    show { c.rebase k with queue := (c.queue.rebase k).onFeedback (f.rebase k) } = _
    rw [hqueue]
    rfl
  unfold observe
  rw [hstate, hmarks]
  rfl

theorem Rebasable.observe (hc : c.Rebasable k) (hf : f.Rebasable k) :
    (c.observe f).Rebasable k := by
  have hmarks := (hc.withQueue (hc.queue.onFeedback hf)).observeMarks hf
  exact ⟨hmarks.lastMark, hmarks.lastRollover, hmarks.lastReaction, hmarks.queue⟩

theorem congestion_rebase (c : RateControl) (hf : f.Rebasable k) :
    (c.rebase k).congestion (f.rebase k) = c.congestion f := by
  unfold congestion
  rw [hf.hasLoss_rebase, Feedback.hasMark_rebase]
  rfl

/-! ### Reaction and growth -/

theorem Rebasable.sinceReaction_rebase (hc : c.Rebasable k) (hf : f.Rebasable k) :
    (c.rebase k).sinceReaction (f.rebase k) = c.sinceReaction f :=
  hc.lastReaction.rebase_sub_rebase hf.feedbackTime

theorem Rebasable.reduceForMarks_rebase (hc : c.Rebasable k) (hf : f.Rebasable k) :
    (c.rebase k).reduceForMarks (f.rebase k) = (c.reduceForMarks f).rebase k := by
  have hoverdue : (c.rebase k).isOverdue (f.rebase k) = c.isOverdue f := by
    unfold isOverdue
    rw [hc.sinceReaction_rebase hf]
    rfl
  unfold reduceForMarks
  rw [hoverdue]
  dsimp only
  split <;> rfl

theorem Rebasable.reduceForLoss (hc : c.Rebasable k) (f : Feedback) :
    (c.reduceForLoss f).Rebasable k :=
  ⟨hc.lastMark, hc.lastRollover, hc.lastReaction, hc.queue⟩

theorem Rebasable.reduce_rebase (hc : c.Rebasable k) (hf : f.Rebasable k) :
    (c.rebase k).reduce (f.rebase k) x = (c.reduce f x).rebase k := by
  have hloss : (c.rebase k).reduceForLoss (f.rebase k) = (c.reduceForLoss f).rebase k := rfl
  have hmarks := hc.reduceForMarks_rebase hf
  have hboth := (hc.reduceForLoss f).reduceForMarks_rebase hf
  unfold reduce
  rw [hloss]
  cases x.loss <;> cases x.mark <;> cases x.delay <;>
    simp only [if_true, if_false, Bool.false_eq_true, hmarks, hboth] <;> rfl

theorem Rebasable.reduceForMarks (hc : c.Rebasable k) (f : Feedback) :
    (c.reduceForMarks f).Rebasable k := by
  unfold RateControl.reduceForMarks
  dsimp only
  split <;> exact ⟨hc.lastMark, hc.lastRollover, hc.lastReaction, hc.queue⟩

theorem Rebasable.reduceForDelay (hc : c.Rebasable k) (x : Congestion) :
    (c.reduceForDelay x).Rebasable k :=
  ⟨hc.lastMark, hc.lastRollover, hc.lastReaction, hc.queue⟩

theorem Rebasable.reduce (hc : c.Rebasable k) (f : Feedback) (x : Congestion) :
    (c.reduce f x).Rebasable k := by
  have hloss : (if x.loss then c.reduceForLoss f else c).Rebasable k := by
    split
    next => exact hc.reduceForLoss f
    next => exact hc
  have hmarks : ∀ {b : RateControl}, b.Rebasable k →
      (if x.mark then b.reduceForMarks f else b).Rebasable k := by
    intro b hb
    split
    next => exact hb.reduceForMarks f
    next => exact hb
  have hboth := hmarks hloss
  unfold RateControl.reduce
  dsimp only
  split
  next => exact hboth.reduceForDelay x
  next => exact hboth

theorem markInflection_rebase (c : RateControl) :
    (c.rebase k).markInflection = c.markInflection.rebase k := by
  have hopen : (c.rebase k).inflectionOpen = c.inflectionOpen := rfl
  unfold markInflection
  rw [hopen]
  split <;> rfl

theorem Rebasable.markInflection (hc : c.Rebasable k) : c.markInflection.Rebasable k := by
  unfold RateControl.markInflection
  split
  next => exact ⟨hc.lastMark, hc.lastRollover, hc.lastReaction, hc.queue⟩
  next => exact hc

theorem Rebasable.react_rebase (hc : c.Rebasable k) (hf : f.Rebasable k) :
    (c.rebase k).react (f.rebase k) x = (c.react f x).rebase k := by
  unfold react
  rw [hc.reduce_rebase hf, markInflection_rebase]
  rfl

theorem Rebasable.react (hc : c.Rebasable k) (hf : f.Rebasable k) (x : Congestion) :
    (c.react f x).Rebasable k := by
  have hreduced := (hc.reduce f x).markInflection
  exact ⟨hreduced.lastMark, hreduced.lastRollover, hf.feedbackTime, hreduced.queue⟩

/-- Whether the last reaction was to this very report is the same question on both clocks. -/
theorem Rebasable.grows_rebase (hc : c.Rebasable k) (hf : f.Rebasable k) :
    (c.rebase k).grows (f.rebase k) x = c.grows f x := by
  have hsame := hc.lastReaction.rebase_eq_rebase hf.feedbackTime
  unfold grows
  show (!x.isAny || decide (c.lastReaction.rebase k = f.feedbackTime.rebase k)) = _
  rw [decide_eq_decide.mpr hsame]

theorem Rebasable.grow_rebase (hc : c.Rebasable k) (hf : f.Rebasable k) :
    (c.rebase k).grow (f.rebase k) x = (c.grow f x).rebase k := by
  have hscale : (c.rebase k).multiplicativeScale (f.rebase k) = c.multiplicativeScale f := by
    unfold multiplicativeScale recovery
    rw [hc.sinceReaction_rebase hf]
    rfl
  have hincrease : (c.rebase k).increase (f.rebase k) x = c.increase f x := by
    unfold increase
    rw [hscale, Feedback.unmarkedSize_rebase]
    rfl
  have hceiling : (c.rebase k).ceiling = c.ceiling := rfl
  unfold grow
  rw [hincrease, rebase_refWindow, hceiling]
  split <;> rfl

theorem Rebasable.grow (hc : c.Rebasable k) (f : Feedback) (x : Congestion) :
    (c.grow f x).Rebasable k := by
  unfold RateControl.grow
  split
  next => exact ⟨hc.lastMark, hc.lastRollover, hc.lastReaction, hc.queue⟩
  next => exact hc

/-! ### A round -/

theorem Rebasable.afterReaction_rebase (hc : c.Rebasable k) (hf : f.Rebasable k) :
    (c.rebase k).afterReaction (f.rebase k) x = (c.afterReaction f x).rebase k := by
  have hreacts : (c.rebase k).reacts (f.rebase k) x = c.reacts f x := by
    unfold reacts
    rw [hc.sinceReaction_rebase hf]
    rfl
  unfold afterReaction
  rw [hreacts, hc.react_rebase hf]
  split <;> rfl

theorem Rebasable.afterReaction (hc : c.Rebasable k) (hf : f.Rebasable k) (x : Congestion) :
    (c.afterReaction f x).Rebasable k := by
  unfold RateControl.afterReaction
  split
  next => exact hc.react hf x
  next => exact hc

theorem Rebasable.adjustWindow_rebase (hc : c.Rebasable k) (hf : f.Rebasable k) :
    (c.rebase k).adjustWindow (f.rebase k) x = (c.adjustWindow f x).rebase k := by
  have hafter := hc.afterReaction hf x
  rw [adjustWindow_eq, adjustWindow_eq, hc.afterReaction_rebase hf, hafter.grows_rebase hf,
    hafter.grow_rebase hf]
  split <;> rfl

theorem Rebasable.adjustWindow (hc : c.Rebasable k) (hf : f.Rebasable k) (x : Congestion) :
    (c.adjustWindow f x).Rebasable k := by
  have hafter := hc.afterReaction hf x
  rw [adjustWindow_eq]
  split
  next => exact hafter.grow f x
  next => exact hafter

theorem openInflection_rebase (c : RateControl) (previous : DataSize) :
    (c.rebase k).openInflection previous = (c.openInflection previous).rebase k := by
  unfold openInflection
  rw [rebase_refWindow]
  split <;> rfl

theorem Rebasable.openInflection (hc : c.Rebasable k) (previous : DataSize) :
    (c.openInflection previous).Rebasable k := by
  unfold RateControl.openInflection
  split
  next => exact ⟨hc.lastMark, hc.lastRollover, hc.lastReaction, hc.queue⟩
  next => exact hc

theorem Rebasable.rollOver_rebase (hc : c.Rebasable k) (hf : f.Rebasable k) :
    (c.rebase k).rollOver (f.rebase k) = (c.rollOver f).rebase k := by
  have hsince : (f.rebase k).feedbackTime - (c.rebase k).lastRollover =
      f.feedbackTime - c.lastRollover :=
    hc.lastRollover.rebase_sub_rebase hf.feedbackTime
  have hrtt : (c.rebase k).longRoundTrip (f.rebase k) = c.longRoundTrip f := rfl
  unfold rollOver
  rw [hsince, hrtt]
  split <;> rfl

theorem Rebasable.rollOver (hc : c.Rebasable k) (hf : f.Rebasable k) :
    (c.rollOver f).Rebasable k := by
  unfold RateControl.rollOver
  split
  next => exact ⟨hc.lastMark, hf.feedbackTime, hc.lastReaction, hc.queue⟩
  next => exact hc

theorem Rebasable.updateRate (hc : c.Rebasable k) (f : Feedback) : (c.updateRate f).Rebasable k :=
  ⟨hc.lastMark, hc.lastRollover, hc.lastReaction, hc.queue⟩

theorem Rebasable.round_rebase (hc : c.Rebasable k) (hf : f.Rebasable k) :
    (c.rebase k).round (f.rebase k) = (c.round f).rebase k := by
  have hobserved := hc.observe hf
  have hrate : ∀ b : RateControl,
      (b.rebase k).updateRate (f.rebase k) = (b.updateRate f).rebase k := fun _ => rfl
  have hopened := ((hobserved.adjustWindow hf ((c.observe f).congestion f)).updateRate
    f).openInflection (c.observe f).refWindow
  unfold round
  rw [hc.observe_rebase hf]
  dsimp only
  rw [congestion_rebase _ hf, hobserved.adjustWindow_rebase hf, hrate]
  have hopen := openInflection_rebase (k := k)
    (((c.observe f).adjustWindow f ((c.observe f).congestion f)).updateRate f)
    (c.observe f).refWindow
  show (RateControl.openInflection _ (c.observe f).refWindow).rollOver _ = _
  rw [hopen, hopened.rollOver_rebase hf]

theorem Rebasable.round (hc : c.Rebasable k) (hf : f.Rebasable k) : (c.round f).Rebasable k := by
  have hadjusted := (hc.observe hf).adjustWindow hf ((c.observe f).congestion f)
  exact ((hadjusted.updateRate f).openInflection _).rollOver hf

/-- A report leads to the same state and is reported on in the same way on both clocks. -/
theorem Rebasable.onFeedback_rebase (hc : c.Rebasable k) (hf : f.Rebasable k) :
    (c.rebase k).onFeedback (f.rebase k) =
      ((c.onFeedback f).1.rebase k, (c.onFeedback f).2.rebase k) := by
  unfold onFeedback
  rw [hc.round_rebase hf]
  rfl

theorem Rebasable.onFeedback (hc : c.Rebasable k) (hf : f.Rebasable k) :
    (c.onFeedback f).1.Rebasable k := by
  have hround := hc.round hf
  exact ⟨hround.lastMark, hround.lastRollover, hround.lastReaction, hround.queue⟩

end round

end RateControl

end MediaSender
