import MediaSender.Proofs.RateControl.Measured

/-! # The base delay along a run

A sample of the queue delay is a one-way delay less the base delay.  What the state remembers of a
run for this is a running minimum, a sliding minimum and a time; here it is compared with the
packets of the run themselves.

* **Epochs.** The packets that arrived are kept epoch by epoch, in the order they were processed
  (`Epochs`); a report with packets ends the epoch if the end before is far enough back
  (`Epochs.enter`).
* **Invariant.** The running minimum is that of the current epoch, and the sliding minimum follows
  those of the closed ones (`Remembers`).  Each packet and each report keep this
  (`Remembers.observe`, `Remembers.onFeedback`), in the middle of an epoch as at its end.
* **Base delay.** It is the least one-way delay of the current epoch and of as many of the last
  closed ones as the window counts (`Remembers.baseDelay_eq`); the plus infinity that the sliding
  minimum starts with takes a place in the window, but is no smaller than anything else in it.
* **Samples.** So every sample is a one-way delay less the least of some that include it
  (`sample_eq_sub_least`). -/

namespace MediaSender.QueueDelay

/-! ### The least one-way delay -/

/-- The least one-way delay of some packets, plus infinity of none. -/
def least (l : List PacketOutcome) : TimeDelta :=
  l.foldl (fun m p => min m p.oneWayDelay) .plusInfinity

theorem least_concat (l : List PacketOutcome) (p : PacketOutcome) :
    least (l ++ [p]) = min (least l) p.oneWayDelay := by
  rw [least, List.foldl_append]
  rfl

/-- The least one-way delay is the greatest lower bound of them. -/
theorem le_least_iff {l : List PacketOutcome} {δ : TimeDelta} :
    δ ≤ least l ↔ ∀ p ∈ l, δ ≤ p.oneWayDelay := by
  induction l using List.reverseRecOn with
  | nil => exact iff_of_true (Quantity.le_plusInfinity δ) fun _ hp => absurd hp List.not_mem_nil
  | append_singleton l p ih =>
      rw [least_concat, le_min_iff, ih, List.forall_mem_append, List.forall_mem_singleton]

theorem least_le {l : List PacketOutcome} {p : PacketOutcome} (hp : p ∈ l) :
    least l ≤ p.oneWayDelay :=
  le_least_iff.mp (le_refl _) p hp

/-- The least one-way delay is that of one of the packets. -/
theorem exists_least_eq {l : List PacketOutcome} (hl : l ≠ []) :
    ∃ y ∈ l, least l = y.oneWayDelay := by
  induction l using List.reverseRecOn with
  | nil => exact absurd rfl hl
  | append_singleton l p ih =>
      rw [least_concat]
      by_cases hle : p.oneWayDelay ≤ least l
      · exact ⟨p, List.mem_append_right l (List.mem_singleton_self p), min_eq_right hle⟩
      · have hne : l ≠ [] := by
          rintro rfl
          exact hle (Quantity.le_plusInfinity _)
        obtain ⟨y, hy, hleast⟩ := ih hne
        exact ⟨y, List.mem_append_left [p] hy, by rw [min_eq_left (le_of_not_ge hle), hleast]⟩

/-! ### Epochs -/

/-- The packets of a run that arrived, epoch by epoch. -/
structure Epochs where
  /-- The closed epochs, oldest first. -/
  closed : List (List PacketOutcome) := []
  current : List PacketOutcome := []
  /-- When the last closed epoch ended. -/
  lastEnd : Option Timestamp := none

namespace Epochs

/-- More packets arrive in the current epoch. -/
def extend (e : Epochs) (l : List PacketOutcome) : Epochs := { e with current := e.current ++ l }

/-- Whether the current epoch is to end: the end before, if there is one, is long enough ago. -/
def isOver (e : Epochs) (length : TimeDelta) (now : Timestamp) : Bool :=
  e.lastEnd.all fun t => decide (length ≤ now - t)

/-- The current epoch ends, and one without packets begins. -/
def close (e : Epochs) (now : Timestamp) : Epochs where
  closed := e.closed ++ [e.current]
  lastEnd := some now

/-- The packets of a report arrive, and then the epoch may end. -/
def enter (length : TimeDelta) (e : Epochs) (f : Feedback) : Epochs :=
  if f.packets.isEmpty then e
  else
    let e := e.extend f.inArrivalOrder
    if e.isOver length f.feedbackTime then e.close f.feedbackTime else e

/-- The packets of the last `n` closed epochs and of the current one. -/
def recent (e : Epochs) (n : Nat) : List PacketOutcome :=
  (e.closed.drop (e.closed.length - n)).flatten ++ e.current

end Epochs

/-- The epochs of a run of reports. -/
def epochs (length : TimeDelta) (reports : List Feedback) : Epochs :=
  reports.foldl (Epochs.enter length) {}

/-! ### What the state remembers of the epochs -/

/-- How many closed epochs count for the base delay, at least one. -/
def epochCount (p : Parameters) : Nat := (max p.baseDelayEpochs 1).toNat

/-- The state remembers the epochs as far as the base delay needs them. -/
structure Remembers (p : Parameters) (e : Epochs) (q : QueueDelay) : Prop where
  params : q.params = p
  current : q.epochMinimum = least e.current
  closed : q.closedEpochs.Follows (.plusInfinity :: e.closed.map least)
  windowLength : q.closedEpochs.windowLength = epochCount p
  lastEnd : q.lastEpochEnd = e.lastEnd.getD .minusInfinity

/-- The state while a report is processed, after the packets `done` of it. -/
def amid (q : QueueDelay) (f : Feedback) (done : List PacketOutcome) : QueueDelay :=
  done.foldl observe { q with lastSmoothedRtt := f.smoothedRtt }

variable {p : Parameters} {e : Epochs} {q : QueueDelay} {f : Feedback}

theorem remembers_initial (p : Parameters) : Remembers p {} (initial p) where
  params := rfl
  current := rfl
  closed := (SlidingMinimum.follows_ofLength _).insert _
  windowLength := by
    show max p.baseDelayEpochs.toNat 1 = (max p.baseDelayEpochs 1).toNat
    omega
  lastEnd := rfl

namespace Remembers

/-- What the base delay does not depend on may change. -/
theorem congr {q' : QueueDelay} (h : Remembers p e q) (hparams : q'.params = q.params)
    (hcurrent : q'.epochMinimum = q.epochMinimum) (hclosed : q'.closedEpochs = q.closedEpochs)
    (hend : q'.lastEpochEnd = q.lastEpochEnd) : Remembers p e q' where
  params := hparams.trans h.params
  current := hcurrent.trans h.current
  closed := hclosed ▸ h.closed
  windowLength := hclosed ▸ h.windowLength
  lastEnd := hend.trans h.lastEnd

/-- A packet enters the current epoch. -/
theorem observe (h : Remembers p e q) (x : PacketOutcome) :
    Remembers p (e.extend [x]) (q.observe x) where
  params := (observe_params q x).trans h.params
  current := by
    rw [observe_epochMinimum, h.current, Epochs.extend, least_concat]
  closed := by
    rw [observe_closedEpochs]
    exact h.closed
  windowLength := by
    rw [observe_closedEpochs]
    exact h.windowLength
  lastEnd := (observe_lastEpochEnd q x).trans h.lastEnd

theorem foldl_observe (h : Remembers p e q) (l : List PacketOutcome) :
    Remembers p (e.extend l) (l.foldl QueueDelay.observe q) := by
  induction l using List.reverseRecOn with
  | nil =>
      rw [Epochs.extend, List.append_nil]
      exact h
  | append_singleton l x ih =>
      have hx := ih.observe x
      rw [Epochs.extend, Epochs.extend, List.append_assoc] at hx
      rw [List.foldl_append]
      exact hx

/-- In the middle of a report its first packets are in the current epoch. -/
theorem amid (h : Remembers p e q) (f : Feedback) (done : List PacketOutcome) :
    Remembers p (e.extend done) (q.amid f done) := by
  have hrtt : Remembers p e { q with lastSmoothedRtt := f.smoothedRtt } := h.congr rfl rfl rfl rfl
  exact hrtt.foldl_observe done

theorem sampleRound (h : Remembers p e q) (f : Feedback) : Remembers p e (q.sampleRound f) :=
  h.congr (sampleRound_params q f) (sampleRound_epochMinimum q f) (sampleRound_closedEpochs q f)
    (sampleRound_lastEpochEnd q f)

/-- Before the first end the time remembered is minus infinity, which is always long enough ago. -/
theorem isOver_iff (h : Remembers p e q) (now : Timestamp) :
    e.isOver p.baseDelayEpochLength now = true ↔
      q.params.baseDelayEpochLength ≤ now - q.lastEpochEnd := by
  rw [h.params, h.lastEnd, Epochs.isOver]
  cases e.lastEnd with
  | none =>
      have hend : p.baseDelayEpochLength ≤ now - Timestamp.minusInfinity :=
        not_lt.mp (Quantity.not_sub_minusInfinity_lt _ _)
      exact iff_of_true rfl hend
  | some t => exact decide_eq_true_iff

theorem closeEpoch (h : Remembers p e q) (now : Timestamp) :
    Remembers p (if e.isOver p.baseDelayEpochLength now then e.close now else e)
      (q.closeEpoch now) := by
  unfold QueueDelay.closeEpoch
  split
  next hover =>
    rw [if_pos ((h.isOver_iff now).mp hover)]
    refine ⟨h.params, rfl, ?_, h.windowLength, rfl⟩
    have hclosed := h.closed.insert q.epochMinimum
    rw [h.current] at hclosed
    rw [Epochs.close, List.map_append, h.current]
    exact hclosed
  next hover =>
    rw [if_neg fun hc => hover ((h.isOver_iff now).mpr hc)]
    exact h

/-- A report keeps what is remembered. -/
theorem onFeedback (h : Remembers p e q) (f : Feedback) :
    Remembers p (e.enter p.baseDelayEpochLength f) (q.onFeedback f) := by
  rw [onFeedback_eq, Epochs.enter]
  split
  next => exact h
  next => exact ((h.amid f f.inArrivalOrder).sampleRound f).closeEpoch f.feedbackTime

/-- A run of reports keeps what is remembered. -/
theorem after (p : Parameters) (reports : List Feedback) :
    Remembers p (epochs p.baseDelayEpochLength reports) ((initial p).after reports) := by
  induction reports using List.reverseRecOn with
  | nil => exact remembers_initial p
  | append_singleton reports f ih =>
      rw [after_append, epochs, List.foldl_append]
      exact ih.onFeedback f

/-! ### The base delay -/

/-- A bound on the values in the window is one on those of the last closed epochs: plus infinity, if
it is still there, is no smaller than any bound. -/
theorem forall_window_iff (h : Remembers p e q) (δ : TimeDelta) :
    (∀ u ∈ q.closedEpochs.window (.plusInfinity :: e.closed.map least), δ ≤ u) ↔
      ∀ u ∈ (e.closed.drop (e.closed.length - epochCount p)).map least, δ ≤ u := by
  rw [SlidingMinimum.window, h.windowLength, List.length_cons, List.length_map, List.map_drop]
  obtain hlt | hle := Nat.lt_or_ge e.closed.length (epochCount p)
  · rw [Nat.sub_eq_zero_of_le hlt, Nat.sub_eq_zero_of_le (Nat.le_of_lt hlt), List.drop_zero,
      List.drop_zero, List.forall_mem_cons]
    exact and_iff_right (Quantity.le_plusInfinity δ)
  · rw [Nat.succ_sub hle, List.drop_succ_cons]

theorem le_baseDelay_iff (h : Remembers p e q) (δ : TimeDelta) :
    δ ≤ q.baseDelay ↔ δ ≤ least (e.recent (epochCount p)) := by
  obtain ⟨m, hmem, hmin, hleast⟩ := h.closed.minimum?_eq_some (List.cons_ne_nil _ _)
  have hm : δ ≤ m ↔ ∀ u ∈ q.closedEpochs.window (.plusInfinity :: e.closed.map least), δ ≤ u :=
    ⟨fun hδ u hu => le_trans hδ (not_lt.mp (hleast u hu)), fun hδ => hδ m hmem⟩
  rw [baseDelay, hmin, le_min_iff, h.current, hm, h.forall_window_iff, le_least_iff,
    le_least_iff, Epochs.recent, List.forall_mem_append, List.forall_mem_map, and_comm]
  simp only [le_least_iff, List.mem_flatten]
  exact and_congr_left fun _ => ⟨fun hδ x ⟨l, hl, hx⟩ => hδ l hl x hx,
    fun hδ l hl x hx => hδ x ⟨l, hl, hx⟩⟩

/-- The base delay is the least one-way delay of the epochs that count. -/
theorem baseDelay_eq (h : Remembers p e q) : q.baseDelay = least (e.recent (epochCount p)) :=
  le_antisymm ((h.le_baseDelay_iff _).mp (le_refl _))
    ((h.le_baseDelay_iff _).mpr (le_refl _))

end Remembers

/-! ### Samples -/

/-- The sample that the next packet gives; its own delay counts already. -/
def nextSample (q : QueueDelay) (x : PacketOutcome) : TimeDelta :=
  { q with epochMinimum := min q.epochMinimum x.oneWayDelay }.sample x.oneWayDelay

theorem nextSample_eq (q : QueueDelay) (x : PacketOutcome) :
    q.nextSample x = x.oneWayDelay - (q.observe x).baseDelay := by
  unfold observe
  dsimp only
  split <;> rfl

/-- If all packets count, the next sample is what enters the average. -/
theorem observe_average (hall : q.params.useAllPackets = true) (x : PacketOutcome) :
    (q.observe x).average = averaged q.params.queueDelayGain q.average (q.nextSample x) := by
  unfold observe
  dsimp only
  rw [if_pos hall]
  rfl

/-- If all packets count, then after a report the average is what its packets have made of it. -/
theorem average_onFeedback_of_all (hall : q.params.useAllPackets = true)
    {done rest : List PacketOutcome} {x : PacketOutcome}
    (hx : f.inArrivalOrder = done ++ x :: rest) :
    (q.onFeedback f).average = (rest.foldl observe ((q.amid f done).observe x)).average := by
  have hf : f.packets ≠ [] := by
    intro hnil
    have hmem : x ∈ f.inArrivalOrder := by
      rw [hx]
      exact List.mem_append_right done List.mem_cons_self
    rw [Feedback.mem_inArrivalOrder, hnil] at hmem
    exact List.not_mem_nil hmem.1
  have hdue : q.isDue f = false := by rw [isDue, hall, Bool.not_true, Bool.false_and]
  rw [average_onFeedback hf, hdue, if_neg Bool.false_ne_true, afterPackets, hx, List.foldl_append,
    List.foldl_cons]
  rfl

/-- **A sample is a one-way delay less the least of those that count.**  If all packets count, then
in every run of reports, whatever their times, the sample of an arrived packet is its one-way delay
less the least one-way delay of these packets: those of the last closed epochs, those processed
before it in its own epoch, and the packet itself.  So no sample is negative. -/
theorem sample_eq_sub_least (p : Parameters) (hall : p.useAllPackets = true)
    (before : List Feedback) (f : Feedback) (done rest : List PacketOutcome) (x : PacketOutcome)
    (hx : f.inArrivalOrder = done ++ x :: rest) :
    let q := ((initial p).after before).amid f done
    let heard := (epochs p.baseDelayEpochLength before).recent (epochCount p) ++ done ++ [x]
    (∃ y ∈ heard, (∀ z ∈ heard, y.oneWayDelay ≤ z.oneWayDelay) ∧
        q.nextSample x = x.oneWayDelay - y.oneWayDelay) ∧
      0 ≤ q.nextSample x ∧
      (q.observe x).average = averaged p.queueDelayGain q.average (q.nextSample x) ∧
      ((initial p).after (before ++ [f])).average = (rest.foldl observe (q.observe x)).average := by
  intro q heard
  have hamid : Remembers p ((epochs p.baseDelayEpochLength before).extend done) q :=
    (Remembers.after p before).amid f done
  have hheard : (((epochs p.baseDelayEpochLength before).extend done).extend [x]).recent
      (epochCount p) = heard := by
    simp only [Epochs.recent, Epochs.extend, heard, List.append_assoc]
  have hbase : (q.observe x).baseDelay = least heard := by
    rw [(hamid.observe x).baseDelay_eq, hheard]
  have hsample : q.nextSample x = x.oneWayDelay - least heard := by
    rw [nextSample_eq, hbase]
  have hparams : q.params = p := hamid.params
  refine ⟨?_, ?_, ?_, ?_⟩
  · have hne : heard ≠ [] := List.append_ne_nil_of_right_ne_nil _ (List.cons_ne_nil x [])
    obtain ⟨y, hy, hleast⟩ := exists_least_eq hne
    refine ⟨y, hy, fun z hz => ?_, by rw [hsample, hleast]⟩
    rw [← hleast]
    exact least_le hz
  · rw [hsample]
    exact Quantity.sub_nonneg (least_le (List.mem_append_right _ (List.mem_singleton_self x)))
  · rw [observe_average (by rw [hparams]; exact hall), hparams]
  · rw [after_append]
    refine average_onFeedback_of_all ?_ hx
    rw [after_params]
    exact hall

/-- Five reports, the fourth of them dated before the third, so that it ends no epoch.  With two
closed epochs in the window the least delay, 10 ms in the first epoch, no longer counts: a packet
with a delay of 60 ms, the second of its report to arrive, gives a sample of 30 ms. -/
theorem sample_eq_sub_least_of_expired_epoch :
    let p : Parameters := { useAllPackets := true, baseDelayEpochs := 2 }
    let before := [reportAt 60000 [.ofMillis 59960], reportAt 120000 [.ofMillis 119980],
      reportAt 180000 [.ofMillis 179990], reportAt 170000 [.ofMillis 170000]]
    let f := reportAt 180100 [.ofMillis 180100, .ofMillis 180110]
    let packet (arrival : Int) : PacketOutcome :=
      { sent := { sendTime := .ofMillis 180050, size := .ofInt 1000 }
        receiveTime := .ofMillis arrival }
    let q := ((initial p).after before).amid f [packet 180100]
    let heard := (epochs p.baseDelayEpochLength before).recent (epochCount p) ++ [packet 180100] ++
      [packet 180110]
    p.useAllPackets = true ∧ f.inArrivalOrder = [packet 180100] ++ packet 180110 :: [] ∧
      heard.map (·.oneWayDelay) = [30, 40, 50, 50, 60].map TimeDelta.ofMillis ∧
      (∃ y ∈ heard, (∀ z ∈ heard, y.oneWayDelay ≤ z.oneWayDelay) ∧
        q.nextSample (packet 180110) = (packet 180110).oneWayDelay - y.oneWayDelay) ∧
      0 ≤ q.nextSample (packet 180110) ∧ q.nextSample (packet 180110) = TimeDelta.ofMillis 30 := by
  intro p before f packet q heard
  have hsorted : f.received.Pairwise fun a b => a.arrivesBy b = true := by decide +kernel
  have hx : f.inArrivalOrder = [packet 180100] ++ packet 180110 :: [] :=
    List.mergeSort_of_pairwise hsorted
  have hheard : heard.map (·.oneWayDelay) = [30, 40, 50, 50, 60].map TimeDelta.ofMillis := by
    decide +kernel
  obtain ⟨hleast, hnonneg, -⟩ :=
    sample_eq_sub_least p rfl before f [packet 180100] [] (packet 180110) hx
  exact ⟨rfl, hx, hheard, hleast, hnonneg, by decide +kernel⟩

end MediaSender.QueueDelay
