import MediaSender.Proofs.RateControl.SlidingMinimum
import MediaSender.RateControl.QueueDelay

/-! # What a report does to the queue delay

A report on packets is taken in three stages: its packets one after the other (`afterPackets`), then
the last one-way delay if it is due (`sampleRound`), then the end of the epoch if it has come
(`closeEpoch`).  The lemmas say what each stage leaves alone, and that a report adds at most one
closed epoch. -/

namespace MediaSender

/-! ### Packets in the order of arrival -/

namespace Feedback

variable {f : Feedback} {p : PacketOutcome}

theorem mem_inArrivalOrder : p ∈ f.inArrivalOrder ↔ p ∈ f.packets ∧ p.isReceived = true := by
  rw [inArrivalOrder, List.mem_mergeSort, received, List.mem_filter]

theorem inArrivalOrder_eq_nil : f.inArrivalOrder = [] ↔ f.received = [] := by
  rw [List.eq_nil_iff_length_eq_zero, inArrivalOrder, List.length_mergeSort,
    ← List.eq_nil_iff_length_eq_zero]

end Feedback

namespace QueueDelay

variable (q : QueueDelay) (f : Feedback)

/-! ### Packets -/

/-- The state after a report's packets. -/
def afterPackets : QueueDelay :=
  f.inArrivalOrder.foldl observe { q with lastSmoothedRtt := f.smoothedRtt }

theorem onFeedback_eq :
    q.onFeedback f =
      if f.packets.isEmpty then q
      else ((q.afterPackets f).sampleRound f).closeEpoch f.feedbackTime := rfl

section observe

variable (p : PacketOutcome)

theorem observe_epochMinimum : (q.observe p).epochMinimum = min q.epochMinimum p.oneWayDelay := by
  unfold observe
  dsimp only
  split <;> rfl

theorem observe_params : (q.observe p).params = q.params := by
  unfold observe
  dsimp only
  split <;> rfl

theorem observe_lastAverageUpdate : (q.observe p).lastAverageUpdate = q.lastAverageUpdate := by
  unfold observe
  dsimp only
  split <;> rfl

theorem observe_lastEpochEnd : (q.observe p).lastEpochEnd = q.lastEpochEnd := by
  unfold observe
  dsimp only
  split <;> rfl

theorem observe_closedEpochs : (q.observe p).closedEpochs = q.closedEpochs := by
  unfold observe
  dsimp only
  split <;> rfl

end observe

/-- What no packet changes, a list of packets does not change. -/
theorem foldl_observe_eq {α : Type} (π : QueueDelay → α) (hπ : ∀ q p, π (q.observe p) = π q)
    (l : List PacketOutcome) : π (l.foldl observe q) = π q := by
  induction l generalizing q with
  | nil => rfl
  | cons p rest ih => exact (ih (q.observe p)).trans (hπ q p)

@[simp] theorem afterPackets_params : (q.afterPackets f).params = q.params :=
  foldl_observe_eq _ QueueDelay.params observe_params _

@[simp] theorem afterPackets_lastAverageUpdate :
    (q.afterPackets f).lastAverageUpdate = q.lastAverageUpdate :=
  foldl_observe_eq _ QueueDelay.lastAverageUpdate observe_lastAverageUpdate _

@[simp] theorem afterPackets_lastEpochEnd : (q.afterPackets f).lastEpochEnd = q.lastEpochEnd :=
  foldl_observe_eq _ QueueDelay.lastEpochEnd observe_lastEpochEnd _

@[simp] theorem afterPackets_closedEpochs : (q.afterPackets f).closedEpochs = q.closedEpochs :=
  foldl_observe_eq _ QueueDelay.closedEpochs observe_closedEpochs _

/-! ### The last delay -/

@[simp] theorem sampleRound_params : (q.sampleRound f).params = q.params := by
  unfold sampleRound
  split <;> rfl

@[simp] theorem sampleRound_epochMinimum : (q.sampleRound f).epochMinimum = q.epochMinimum := by
  unfold sampleRound
  split <;> rfl

@[simp] theorem sampleRound_lastEpochEnd : (q.sampleRound f).lastEpochEnd = q.lastEpochEnd := by
  unfold sampleRound
  split <;> rfl

@[simp] theorem sampleRound_closedEpochs : (q.sampleRound f).closedEpochs = q.closedEpochs := by
  unfold sampleRound
  split <;> rfl

/-! ### The epoch -/

section closeEpoch

variable (now : Timestamp)

@[simp] theorem closeEpoch_params : (q.closeEpoch now).params = q.params := by
  unfold closeEpoch
  split <;> rfl

@[simp] theorem closeEpoch_average : (q.closeEpoch now).average = q.average := by
  unfold closeEpoch
  split <;> rfl

end closeEpoch

/-! ### Reports -/

@[simp] theorem onFeedback_params : (q.onFeedback f).params = q.params := by
  rw [onFeedback_eq]
  split
  next => rfl
  next => simp

end QueueDelay

end MediaSender
