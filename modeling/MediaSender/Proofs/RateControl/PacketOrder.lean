import Mathlib.Data.List.Sort
import Mathlib.Data.Prod.Lex
import Mathlib.Order.Lattice
import MediaSender.Proofs.Quantity
import MediaSender.RateControl.Round

/-! # The order of the packets in a report

A report may list its packets in any order.

* **Arrival.** Packets are compared by a key in lexicographic order (`arrivesBy_iff`), and packets
  with equal keys have equal one-way delays.  So the delays in the order of arrival are the same
  for every order in the report, ties included (`delays_eq_of_perm`), and the queue delay reads
  nothing else of the packets (`onFeedback_withPackets`).
* **Sums.** The size of the unmarked packets is a saturating sum; of sizes that are not negative it
  is the same in every order (`unmarkedSize_eq_of_perm`).
* **Counts.** All else that is read of the packets is a count, or whether there is one of a kind.
-/

namespace MediaSender

/-! ### Arrival -/

namespace PacketOutcome

/-- What packets are compared by: arrival, then departure, then number. -/
def arrivalKey (p : PacketOutcome) : ℤ ×ₗ ℤ ×ₗ ℤ :=
  toLex (p.receiveTime.raw, toLex (p.sent.sendTime.raw, p.sent.sequenceNumber))

theorem isLE_compare_then (m n : Int) (o : Ordering) :
    ((compare m n).then o).isLE = true ↔ m < n ∨ m = n ∧ o.isLE = true := by
  rcases lt_trichotomy m n with h | h | h
  · rw [compare_lt_iff_lt.mpr h]
    simp [h]
  · rw [compare_eq_iff_eq.mpr h]
    simp [h]
  · rw [compare_gt_iff_gt.mpr h]
    simp [h.not_gt, h.ne']

theorem arrivesBy_iff (p q : PacketOutcome) :
    p.arrivesBy q = true ↔ p.arrivalKey ≤ q.arrivalKey := by
  have h : p.arrivesBy q = ((compare p.receiveTime.raw q.receiveTime.raw).then
      ((compare p.sent.sendTime.raw q.sent.sendTime.raw).then
        (compare p.sent.sequenceNumber q.sent.sequenceNumber))).isLE := rfl
  rw [h, isLE_compare_then, isLE_compare_then, arrivalKey, arrivalKey, Prod.Lex.toLex_le_toLex,
    Prod.Lex.toLex_le_toLex, Int.isLE_compare]

/-- The one-way delay of packets with a key. -/
def delayOfKey (k : ℤ ×ₗ ℤ ×ₗ ℤ) : TimeDelta :=
  Timestamp.ofMicros (ofLex k).1 - Timestamp.ofMicros (ofLex (ofLex k).2).1

theorem oneWayDelay_eq (p : PacketOutcome) : p.oneWayDelay = delayOfKey p.arrivalKey := by
  have h : ∀ t : Timestamp, Timestamp.ofMicros t.raw = t := fun t =>
    Timestamp.ext (Quantity.ofInt_raw t.sinceEpoch)
  show p.receiveTime - p.sent.sendTime =
    Timestamp.ofMicros p.receiveTime.raw - Timestamp.ofMicros p.sent.sendTime.raw
  rw [h, h]

end PacketOutcome

namespace Feedback

/-- The report with other packets, or with its packets in another order. -/
def withPackets (f : Feedback) (packets : List PacketOutcome) : Feedback := { f with packets }

section perm

variable {f : Feedback} {l : List PacketOutcome} (hl : l.Perm f.packets)

include hl

theorem received_perm : (f.withPackets l).received.Perm f.received := hl.filter _

/-- Sorting by arrival puts the keys in one order, whatever order they come in. -/
theorem map_arrivalKey_inArrivalOrder :
    (f.withPackets l).inArrivalOrder.map (·.arrivalKey) = f.inArrivalOrder.map (·.arrivalKey) := by
  have hsorted : ∀ g : Feedback, (g.inArrivalOrder.map (·.arrivalKey)).Pairwise (· ≤ ·) := by
    intro g
    have htrans : ∀ a b c : PacketOutcome,
        a.arrivesBy b = true → b.arrivesBy c = true → a.arrivesBy c = true := by
      intro a b c hab hbc
      rw [PacketOutcome.arrivesBy_iff] at hab hbc ⊢
      exact le_trans hab hbc
    have htotal : ∀ a b : PacketOutcome, (a.arrivesBy b || b.arrivesBy a) = true := by
      intro a b
      rw [Bool.or_eq_true, PacketOutcome.arrivesBy_iff, PacketOutcome.arrivesBy_iff]
      exact le_total _ _
    have h := List.pairwise_mergeSort htrans htotal g.received
    rw [List.pairwise_map]
    exact h.imp fun {a b} hab => (PacketOutcome.arrivesBy_iff a b).mp hab
  have hperm : (f.withPackets l).inArrivalOrder.Perm f.inArrivalOrder :=
    (List.mergeSort_perm _ _).trans ((received_perm hl).trans (List.mergeSort_perm _ _).symm)
  exact List.Perm.eq_of_pairwise (fun a b _ _ hab hba => le_antisymm hab hba) (hsorted _)
    (hsorted _) (hperm.map _)

/-- The one-way delays in the order of arrival. -/
theorem delays_eq_of_perm :
    (f.withPackets l).inArrivalOrder.map (·.oneWayDelay) =
      f.inArrivalOrder.map (·.oneWayDelay) := by
  have h := congrArg (List.map PacketOutcome.delayOfKey) (map_arrivalKey_inArrivalOrder hl)
  rw [List.map_map, List.map_map] at h
  have hd : (PacketOutcome.delayOfKey ∘ fun p : PacketOutcome => p.arrivalKey) =
      fun p => p.oneWayDelay := by
    funext p
    exact p.oneWayDelay_eq.symm
  rw [hd] at h
  exact h

theorem isEmpty_received : (f.withPackets l).received.isEmpty = f.received.isEmpty :=
  (received_perm hl).isEmpty_eq

theorem countP_received (q : PacketOutcome → Bool) :
    (f.withPackets l).received.countP q = f.received.countP q := (received_perm hl).countP_eq q

theorem length_received : (f.withPackets l).received.length = f.received.length :=
  (received_perm hl).length_eq

theorem hasLoss_eq : (f.withPackets l).hasLoss = f.hasLoss := hl.any_eq

theorem hasMark_eq : (f.withPackets l).hasMark = f.hasMark := hl.any_eq

/-- Sizes that are not negative may be added in any order. -/
theorem unmarkedSize_eq_of_perm (hn : ∀ p ∈ f.packets, 0 ≤ p.sent.size) :
    (f.withPackets l).unmarkedSize = f.unmarkedSize := by
  apply List.Perm.foldl_eq' (hl.filter _)
  intro p hp q hq total
  have hp' := hl.mem_iff.mp (List.mem_of_mem_filter hp)
  have hq' := hl.mem_iff.mp (List.mem_of_mem_filter hq)
  exact Quantity.add_right_comm total (hn p hp') (hn q hq')

end perm

end Feedback

/-! ### The queue delay -/

namespace QueueDelay

/-- Take note of a one-way delay. -/
def observeDelay (q : QueueDelay) (δ : TimeDelta) : QueueDelay :=
  let q := { q with epochMinimum := min q.epochMinimum δ }
  if q.params.useAllPackets then q.updateAverage δ else q

theorem foldl_observe (q : QueueDelay) (l : List PacketOutcome) :
    l.foldl observe q = (l.map (·.oneWayDelay)).foldl observeDelay q := by
  rw [List.foldl_map]
  rfl

theorem lastDelay_eq (f : Feedback) :
    lastDelay f = ((f.inArrivalOrder.map (·.oneWayDelay)).getLast?).getD .plusInfinity := by
  rw [List.getLast?_map, lastDelay]
  cases f.inArrivalOrder.getLast? <;> rfl

/-- The queue delay reads of the packets the one-way delays in the order of arrival. -/
theorem onFeedback_withPackets (q : QueueDelay) {f : Feedback} {l : List PacketOutcome}
    (hl : l.Perm f.packets) : q.onFeedback (f.withPackets l) = q.onFeedback f := by
  have hempty : (f.withPackets l).packets.isEmpty = f.packets.isEmpty := hl.isEmpty_eq
  have hlast : lastDelay (f.withPackets l) = lastDelay f := by
    rw [lastDelay_eq, lastDelay_eq, Feedback.delays_eq_of_perm hl]
  have hround : ∀ q : QueueDelay, q.sampleRound (f.withPackets l) = q.sampleRound f := by
    intro q
    unfold sampleRound
    rw [hlast]
    rfl
  unfold onFeedback
  rw [hempty]
  split
  next => rfl
  next =>
    dsimp only
    rw [hround, foldl_observe, foldl_observe, Feedback.delays_eq_of_perm hl]
    rfl

end QueueDelay

/-! ### The rate control -/

namespace RateControl

variable (c : RateControl) {f : Feedback} {l : List PacketOutcome}

theorem observeMarks_withPackets (hl : l.Perm f.packets) :
    c.observeMarks (f.withPackets l) = c.observeMarks f := by
  unfold observeMarks
  rw [Feedback.isEmpty_received hl, Feedback.countP_received hl, Feedback.length_received hl]
  rfl

theorem observe_withPackets (hl : l.Perm f.packets) :
    c.observe (f.withPackets l) = c.observe f := by
  unfold observe
  rw [QueueDelay.onFeedback_withPackets c.queue hl, observeMarks_withPackets _ hl]
  rfl

theorem congestion_withPackets (hl : l.Perm f.packets) :
    c.congestion (f.withPackets l) = c.congestion f := by
  unfold congestion
  rw [Feedback.hasLoss_eq hl, Feedback.hasMark_eq hl]
  rfl

/-- The growth reads of the packets the size of the unmarked ones. -/
theorem grow_withPackets (hl : l.Perm f.packets) (hn : ∀ p ∈ f.packets, 0 ≤ p.sent.size)
    (x : Congestion) : c.grow (f.withPackets l) x = c.grow f x := by
  have hincrease : c.increase (f.withPackets l) x = c.increase f x := by
    unfold increase
    rw [Feedback.unmarkedSize_eq_of_perm hl hn]
    rfl
  unfold grow
  rw [hincrease]

theorem round_withPackets (hl : l.Perm f.packets) (hn : ∀ p ∈ f.packets, 0 ≤ p.sent.size) :
    c.round (f.withPackets l) = c.round f := by
  have hadjust : ∀ (b : RateControl) (x : Congestion),
      b.adjustWindow (f.withPackets l) x = b.adjustWindow f x := by
    intro b x
    unfold adjustWindow
    dsimp only
    rw [grow_withPackets _ hl hn]
    rfl
  unfold round
  rw [observe_withPackets c hl]
  dsimp only
  rw [congestion_withPackets _ hl, hadjust]
  rfl

/-- **The order of the packets in a report does not matter.**  In every state, for a report whose
packets have no negative size, any other order of the packets, ties and repetitions included,
leads to the same state, target rate and queue delay estimate included, and to the same report on
it, and so to the same log. -/
theorem onFeedback_eq_of_perm (f : Feedback) (l : List PacketOutcome) (hl : l.Perm f.packets)
    (hn : ∀ p ∈ f.packets, 0 ≤ p.sent.size) :
    c.onFeedback (f.withPackets l) = c.onFeedback f ∧
      ∀ log, c.step log (.feedback (f.withPackets l)) = c.step log (.feedback f) := by
  have h : c.onFeedback (f.withPackets l) = c.onFeedback f := by
    unfold onFeedback
    rw [round_withPackets c hl hn]
    rfl
  refine ⟨h, ?_⟩
  intro log
  simp only [step, h]

/-- Two packets that arrive together, one of them marked, and one that was lost, in both orders. -/
theorem onFeedback_eq_of_perm_with_ties :
    let sent (size : Int) : SentPacket := { sendTime := 0, size := .ofInt size }
    let f : Feedback :=
      { feedbackTime := .ofMillis 600
        smoothedRtt := .ofMillis 25
        packets :=
          [{ sent := sent 1000, receiveTime := .ofMillis 10 },
            { sent := sent 300, receiveTime := .ofMillis 10, marking := .congested },
            { sent := sent 500 }] }
    f.packets.reverse.Perm f.packets ∧ (∀ p ∈ f.packets, 0 ≤ p.sent.size) ∧
      (initial {}).onFeedback (f.withPackets f.packets.reverse) = (initial {}).onFeedback f ∧
      ∀ log, (initial {}).step log (.feedback (f.withPackets f.packets.reverse)) =
        (initial {}).step log (.feedback f) := by
  intro sent f
  have hl : f.packets.reverse.Perm f.packets := List.reverse_perm _
  have hn : ∀ p ∈ f.packets, 0 ≤ p.sent.size := by decide
  exact ⟨hl, hn, onFeedback_eq_of_perm (initial {}) f f.packets.reverse hl hn⟩

end RateControl

end MediaSender
