import Mathlib.Data.List.Induction
import MediaSender.Proofs.Quantity
import MediaSender.Proofs.RateControl.QueueDelay

/-! # When the queue delay stays measured

The queue delay is plus infinity until it is measured.  Afterwards a sample that is not smaller is
averaged, and with a positive gain one infinite sample makes the average infinite.

* **Exact arithmetic.** `Quantity.SubExact`, `AddExact` and `ScaleExact` say that a result of finite
  operands does not saturate; `QueueDelay.ExactRun` asks this of all arithmetic that leads to the
  average in a run, and that the times of the packets are known.
* **Base delay.** No least one-way delay is ever minus infinity (`BaseAbove`), and that of the
  current epoch is no larger than the delay of a packet just observed, so the sample of a packet
  that arrived is finite (`isFinite_sample`).
* **Blanks.** If the average is not taken packet by packet, a report that is due and covers lost
  packets alone enters plus infinity (`Blanks`).  This is the only way in which a report undoes a
  measurement (`isFinite_onFeedback_iff`), and so the only one in a run
  (`average_isFinite_iff_not_blanks`).
* **Refutation.** Two reports refute that a measured queue delay always stays measured
  (`not_average_stays_finite`). -/

namespace MediaSender

/-! ### Exact arithmetic -/

namespace Quantity

variable {d : Dimension} {a b : Quantity d}

/-- The difference does not saturate if both amounts are finite. -/
def SubExact (a b : Quantity d) : Prop :=
  a.isFinite = true → b.isFinite = true → (a - b).isFinite = true

/-- The sum does not saturate if both amounts are finite. -/
def AddExact (a b : Quantity d) : Prop :=
  a.isFinite = true → b.isFinite = true → (a + b).isFinite = true

/-- The product does not saturate if the amount is finite. -/
def ScaleExact (a : Quantity d) (x : Float) : Prop :=
  a.isFinite = true → (a.scale x).isFinite = true

instance (a b : Quantity d) : Decidable (SubExact a b) := inferInstanceAs (Decidable (_ → _ → _))

instance (a b : Quantity d) : Decidable (AddExact a b) := inferInstanceAs (Decidable (_ → _ → _))

instance (a : Quantity d) (x : Float) : Decidable (ScaleExact a x) :=
  inferInstanceAs (Decidable (_ → _))

end Quantity

open Quantity (SubExact AddExact ScaleExact)

/-! ### Known times -/

/-- The times of a packet are known, that of its arrival unless it was lost, and their difference
does not saturate. -/
def PacketOutcome.Timed (p : PacketOutcome) : Prop :=
  p.sent.sendTime.isFinite = true ∧
    (p.receiveTime.isFinite = true ∨ p.receiveTime.isPlusInfinity = true) ∧
    SubExact p.receiveTime.sinceEpoch p.sent.sendTime.sinceEpoch

instance (p : PacketOutcome) : Decidable p.Timed := inferInstanceAs (Decidable (_ ∧ _))

theorem PacketOutcome.Timed.isFinite_oneWayDelay {p : PacketOutcome} (hp : p.Timed)
    (hr : p.isReceived = true) : p.oneWayDelay.isFinite = true := by
  obtain ⟨hsent, hfinite | hinfinite, hexact⟩ := hp
  · exact hexact hfinite hsent
  · rw [isReceived, hinfinite] at hr
    cases hr

/-! ### The base delay -/

namespace QueueDelay

/-- No least one-way delay, of the current epoch or of a closed one, is minus infinity. -/
structure BaseAbove (q : QueueDelay) : Prop where
  current : -0x8000000000000000 < q.epochMinimum.raw
  closed : ∀ c ∈ q.closedEpochs.candidates, -0x8000000000000000 < c.2.raw

section base

variable {q : QueueDelay} {delay : TimeDelta}

theorem baseAbove_initial (p : Parameters) : (initial p).BaseAbove where
  current := (by decide : (-0x8000000000000000 : Int) < 0x7fffffffffffffff)
  closed c hc := by
    obtain hc | hc := SlidingMinimum.of_mem_candidates_insert hc
    · exact absurd hc List.not_mem_nil
    · rw [hc]
      decide

theorem baseDelay_le (q : QueueDelay) : q.baseDelay ≤ q.epochMinimum := by
  unfold baseDelay
  split
  next => exact min_le_left _ _
  next => exact le_rfl

theorem BaseAbove.baseDelay (hq : q.BaseAbove) : -0x8000000000000000 < q.baseDelay.raw := by
  have hcurrent := hq.current
  unfold QueueDelay.baseDelay
  split
  next m hm =>
    obtain ⟨c, hc, rfl⟩ := SlidingMinimum.mem_of_minimum?_eq_some hm
    have hclosed := hq.closed c hc
    rw [Quantity.raw_min]
    omega
  next => exact hcurrent

theorem BaseAbove.withEpochMinimum (hq : q.BaseAbove) (hd : delay.isFinite = true) :
    { q with epochMinimum := min q.epochMinimum delay }.BaseAbove where
  current := by
    have hcurrent := hq.current
    have hlower := (Quantity.isFinite_iff_lt.mp hd).1
    rw [Quantity.raw_min]
    omega
  closed := hq.closed

theorem BaseAbove.closeEpoch (hq : q.BaseAbove) (now : Timestamp) :
    (q.closeEpoch now).BaseAbove := by
  unfold QueueDelay.closeEpoch
  split
  next =>
    refine ⟨(by decide : (-0x8000000000000000 : Int) < 0x7fffffffffffffff), ?_⟩
    intro c hc
    obtain hc | hc := SlidingMinimum.of_mem_candidates_insert hc
    · exact hq.closed c hc
    · rw [hc]
      exact hq.current
  next => exact hq

end base

/-! ### Samples -/

section samples

variable {q : QueueDelay} {delay : TimeDelta}

/-- Taking a one-way delay into the average saturates nowhere. -/
def Exact (q : QueueDelay) (delay : TimeDelta) : Prop :=
  SubExact delay q.baseDelay ∧
    (¬q.sample delay < q.average →
      ScaleExact (q.sample delay) q.params.queueDelayGain ∧
        ScaleExact q.average (1.0 - q.params.queueDelayGain) ∧
        AddExact ((q.sample delay).scale q.params.queueDelayGain)
          (q.average.scale (1.0 - q.params.queueDelayGain)))

instance (q : QueueDelay) (delay : TimeDelta) : Decidable (q.Exact delay) :=
  inferInstanceAs (Decidable (_ ∧ _))

/-- A finite delay no smaller than the least one of the epoch gives a finite sample. -/
theorem isFinite_sample (hq : q.BaseAbove) (he : q.Exact delay) (hd : delay.isFinite = true)
    (hle : q.epochMinimum ≤ delay) : (q.sample delay).isFinite = true := by
  have hbase : q.baseDelay.isFinite = true := by
    have hlower := hq.baseDelay
    have hupper : q.baseDelay.raw ≤ delay.raw := q.baseDelay_le.trans hle
    have hdelay := Quantity.isFinite_iff_lt.mp hd
    rw [Quantity.isFinite_iff_lt]
    omega
  exact he.1 hd hbase

/-- A finite sample keeps a finite average finite. -/
theorem isFinite_average_updateAverage (he : q.Exact delay)
    (hs : (q.sample delay).isFinite = true) (ha : q.average.isFinite = true) :
    (q.updateAverage delay).average.isFinite = true := by
  show (averaged q.params.queueDelayGain q.average (q.sample delay)).isFinite = true
  unfold averaged
  split
  next => exact hs
  next hlt =>
    obtain ⟨hsample, haverage, hsum⟩ := he.2 hlt
    exact hsum (hsample hs) (haverage ha)

/-- An infinite delay makes the average infinite, whatever the base delay is. -/
theorem average_updateAverage_plusInfinity (hg : 0.0 < q.params.queueDelayGain) :
    (q.updateAverage .plusInfinity).average = .plusInfinity := by
  show averaged q.params.queueDelayGain q.average (.plusInfinity - q.baseDelay) = .plusInfinity
  have hlt : ¬(.plusInfinity : TimeDelta) < q.average := by
    have hupper := q.average.upper
    rw [Quantity.lt_def, Quantity.raw_plusInfinity]
    omega
  rw [Quantity.plusInfinity_sub, averaged, if_neg hlt, Quantity.plusInfinity_scale hg,
    Quantity.plusInfinity_add]

end samples

/-! ### Packets -/

section packets

/-- Taking note of arrived packets one after the other saturates nowhere. -/
def ExactPackets : QueueDelay → List PacketOutcome → Prop
  | _, [] => True
  | q, p :: rest =>
    (q.params.useAllPackets = true →
      { q with epochMinimum := min q.epochMinimum p.oneWayDelay }.Exact p.oneWayDelay) ∧
    ExactPackets (q.observe p) rest

instance decidableExactPackets : ∀ (q : QueueDelay) (l : List PacketOutcome),
    Decidable (q.ExactPackets l)
  | _, [] => inferInstanceAs (Decidable True)
  | q, p :: rest =>
    have := decidableExactPackets (q.observe p) rest
    inferInstanceAs (Decidable (_ ∧ _))

variable {q : QueueDelay} {p : PacketOutcome} {l : List PacketOutcome}

theorem BaseAbove.observe (hq : q.BaseAbove) (hd : p.oneWayDelay.isFinite = true) :
    (q.observe p).BaseAbove := by
  have hmin := hq.withEpochMinimum hd
  unfold QueueDelay.observe
  dsimp only
  split
  next => exact ⟨hmin.current, hmin.closed⟩
  next => exact hmin

theorem BaseAbove.foldl_observe (hq : q.BaseAbove) (hl : ∀ p ∈ l, p.oneWayDelay.isFinite = true) :
    (l.foldl QueueDelay.observe q).BaseAbove := by
  induction l generalizing q with
  | nil => exact hq
  | cons p rest ih =>
      rw [List.forall_mem_cons] at hl
      exact ih (hq.observe hl.1) hl.2

/-- The least one-way delay is no larger than that of a packet just observed. -/
theorem epochMinimum_foldl_observe_le (q : QueueDelay) (hp : p ∈ l) :
    (l.foldl observe q).epochMinimum ≤ p.oneWayDelay := by
  have hmono : ∀ (l : List PacketOutcome) (q : QueueDelay),
      (l.foldl observe q).epochMinimum ≤ q.epochMinimum := by
    intro l
    induction l with
    | nil => exact fun q => le_rfl
    | cons p rest ih =>
        intro q
        have h := ih (q.observe p)
        rw [observe_epochMinimum] at h
        exact h.trans (min_le_left _ _)
  induction l generalizing q with
  | nil => cases hp
  | cons p' rest ih =>
      obtain rfl | hp := List.mem_cons.mp hp
      · have h := hmono rest (q.observe p)
        rw [observe_epochMinimum] at h
        exact h.trans (min_le_right _ _)
      · exact ih (q.observe p') hp

/-- A packet that arrived keeps a finite average finite. -/
theorem isFinite_average_observe (hq : q.BaseAbove) (hd : p.oneWayDelay.isFinite = true)
    (he : q.params.useAllPackets = true →
      { q with epochMinimum := min q.epochMinimum p.oneWayDelay }.Exact p.oneWayDelay)
    (ha : q.average.isFinite = true) : (q.observe p).average.isFinite = true := by
  unfold observe
  dsimp only
  split
  next hall =>
    refine isFinite_average_updateAverage (he hall) ?_ ha
    exact isFinite_sample (hq.withEpochMinimum hd) (he hall) hd (min_le_right _ _)
  next => exact ha

theorem isFinite_average_foldl_observe (hq : q.BaseAbove)
    (hl : ∀ p ∈ l, p.oneWayDelay.isFinite = true) (he : q.ExactPackets l)
    (ha : q.average.isFinite = true) : (l.foldl observe q).average.isFinite = true := by
  induction l generalizing q with
  | nil => exact ha
  | cons p rest ih =>
      rw [List.forall_mem_cons] at hl
      exact ih (hq.observe hl.1) hl.2 he.2 (isFinite_average_observe hq hl.1 he.1 ha)

end packets

/-! ### Reports -/

/-- Whether a report that covers packets enters one one-way delay into the average. -/
def isDue (q : QueueDelay) (f : Feedback) : Bool :=
  !q.params.useAllPackets &&
    decide (min q.params.virtualRtt f.smoothedRtt ≤ f.feedbackTime - q.lastAverageUpdate)

/-- A report enters a one-way delay into the average, but none of its packets arrived. -/
def Blanks (q : QueueDelay) (f : Feedback) : Prop :=
  q.isDue f = true ∧ f.packets ≠ [] ∧ f.received = []

/-- The times in a report are known, and taking note of it saturates nowhere. -/
def ExactReport (q : QueueDelay) (f : Feedback) : Prop :=
  (∀ p ∈ f.packets, p.Timed) ∧
    (f.packets ≠ [] →
      { q with lastSmoothedRtt := f.smoothedRtt }.ExactPackets f.inArrivalOrder ∧
        (q.isDue f = true → (q.afterPackets f).Exact (lastDelay f)))

instance (q : QueueDelay) (f : Feedback) : Decidable (q.ExactReport f) :=
  inferInstanceAs (Decidable (_ ∧ _))

section reports

variable {q : QueueDelay} {f : Feedback}

theorem isDue_afterPackets (q : QueueDelay) (f : Feedback) :
    (q.afterPackets f).isDue f = q.isDue f := by
  unfold isDue
  rw [afterPackets_params, afterPackets_lastAverageUpdate]

/-- The average after a report: the packets have entered it, or the last delay does if it is due. -/
theorem average_onFeedback (hf : f.packets ≠ []) :
    (q.onFeedback f).average =
      if q.isDue f = true then ((q.afterPackets f).updateAverage (lastDelay f)).average
      else (q.afterPackets f).average := by
  have hempty : f.packets.isEmpty = false := List.isEmpty_eq_false_iff.mpr hf
  rw [onFeedback_eq, if_neg (by rw [hempty]; decide), closeEpoch_average, ← isDue_afterPackets]
  unfold sampleRound isDue
  split <;> rfl

theorem BaseAbove.onFeedback (hq : q.BaseAbove) (hf : ∀ p ∈ f.packets, p.Timed) :
    (q.onFeedback f).BaseAbove := by
  rw [onFeedback_eq]
  split
  next => exact hq
  next =>
    have hrtt : { q with lastSmoothedRtt := f.smoothedRtt }.BaseAbove := ⟨hq.current, hq.closed⟩
    refine BaseAbove.closeEpoch ?_ _
    have hpackets := hrtt.foldl_observe (l := f.inArrivalOrder) fun p hp =>
      have hp := Feedback.mem_inArrivalOrder.mp hp
      (hf p hp.1).isFinite_oneWayDelay hp.2
    unfold sampleRound
    split
    next => exact ⟨hpackets.current, hpackets.closed⟩
    next => exact hpackets

/-- A report that no packet of which arrived has no last delay. -/
theorem lastDelay_eq_plusInfinity (h : f.received = []) : lastDelay f = .plusInfinity := by
  rw [lastDelay, Feedback.inArrivalOrder_eq_nil.mpr h]
  rfl

/-- The last delay is that of a packet that arrived. -/
theorem exists_lastDelay_eq (h : f.received ≠ []) :
    ∃ p ∈ f.inArrivalOrder, lastDelay f = p.oneWayDelay := by
  have hne : f.inArrivalOrder ≠ [] := fun hnil => h (Feedback.inArrivalOrder_eq_nil.mp hnil)
  refine ⟨f.inArrivalOrder.getLast hne, List.getLast_mem hne, ?_⟩
  rw [lastDelay, List.getLast?_eq_some_getLast hne]

/-- A report leaves a finite average finite, unless it blanks it. -/
theorem isFinite_onFeedback_iff (hg : 0.0 < q.params.queueDelayGain) (hq : q.BaseAbove)
    (he : q.ExactReport f) (ha : q.average.isFinite = true) :
    (q.onFeedback f).average.isFinite = true ↔ ¬q.Blanks f := by
  by_cases hf : f.packets = []
  · have h : q.onFeedback f = q := if_pos (List.isEmpty_iff.mpr hf)
    rw [h]
    exact iff_of_true ha fun hb => hb.2.1 hf
  obtain ⟨hpackets, hlast⟩ := he.2 hf
  have hdelay : ∀ p ∈ f.inArrivalOrder, p.oneWayDelay.isFinite = true := fun p hp =>
    have hp := Feedback.mem_inArrivalOrder.mp hp
    (he.1 p hp.1).isFinite_oneWayDelay hp.2
  have hrtt : { q with lastSmoothedRtt := f.smoothedRtt }.BaseAbove := ⟨hq.current, hq.closed⟩
  have hafter : (q.afterPackets f).average.isFinite = true :=
    isFinite_average_foldl_observe hrtt hdelay hpackets ha
  rw [average_onFeedback hf]
  split
  next hdue =>
    by_cases hr : f.received = []
    · rw [lastDelay_eq_plusInfinity hr,
        average_updateAverage_plusInfinity (by rw [afterPackets_params]; exact hg)]
      exact iff_of_false (by decide) fun hb => hb ⟨hdue, hf, hr⟩
    · obtain ⟨p, hp, hd⟩ := exists_lastDelay_eq hr
      have hexact := hlast hdue
      rw [hd] at hexact ⊢
      have hsample := isFinite_sample (hrtt.foldl_observe hdelay) hexact (hdelay p hp)
        (epochMinimum_foldl_observe_le _ hp)
      exact iff_of_true (isFinite_average_updateAverage hexact hsample hafter) fun hb => hr hb.2.2
  next hdue => exact iff_of_true hafter fun hb => hdue hb.1

end reports

/-! ### Runs -/

/-- The state after a run of reports. -/
def after (q : QueueDelay) (reports : List Feedback) : QueueDelay := reports.foldl onFeedback q

/-- The times in a run of reports are known, and taking note of them saturates nowhere. -/
def ExactRun : QueueDelay → List Feedback → Prop
  | _, [] => True
  | q, f :: rest => q.ExactReport f ∧ ExactRun (q.onFeedback f) rest

instance decidableExactRun : ∀ (q : QueueDelay) (reports : List Feedback),
    Decidable (q.ExactRun reports)
  | _, [] => inferInstanceAs (Decidable True)
  | q, f :: rest =>
    have := decidableExactRun (q.onFeedback f) rest
    inferInstanceAs (Decidable (_ ∧ _))

section runs

variable {q : QueueDelay} {reports later mid : List Feedback} {f : Feedback}

theorem after_append (q : QueueDelay) (l m : List Feedback) :
    q.after (l ++ m) = (q.after l).after m := List.foldl_append

theorem exactRun_append (l m : List Feedback) :
    q.ExactRun (l ++ m) ↔ q.ExactRun l ∧ (q.after l).ExactRun m := by
  induction l generalizing q with
  | nil => exact (iff_of_eq (true_and _)).symm
  | cons f rest ih => exact (and_congr_right fun _ => ih).trans and_assoc.symm

theorem after_params (q : QueueDelay) (reports : List Feedback) :
    (q.after reports).params = q.params := by
  induction reports generalizing q with
  | nil => rfl
  | cons f rest ih => exact (ih (q.onFeedback f)).trans (q.onFeedback_params f)

theorem BaseAbove.after (hq : q.BaseAbove) (he : q.ExactRun reports) :
    (q.after reports).BaseAbove := by
  induction reports generalizing q with
  | nil => exact hq
  | cons f rest ih => exact ih (hq.onFeedback he.1.1) he.2

/-- One report more: the average stays finite unless the report blanks it. -/
theorem isFinite_after_concat_iff (hg : 0.0 < q.params.queueDelayGain) (hq : q.BaseAbove)
    (he : q.ExactRun (mid ++ [f])) (ha : (q.after mid).average.isFinite = true) :
    (q.after (mid ++ [f])).average.isFinite = true ↔ ¬(q.after mid).Blanks f := by
  obtain ⟨hmid, hf, -⟩ := (exactRun_append mid [f]).mp he
  rw [after_append]
  refine isFinite_onFeedback_iff ?_ (hq.after hmid) hf ha
  rw [after_params]
  exact hg

/-- A finite average stays finite through a run exactly if no report blanks it. -/
theorem forall_isFinite_after_iff (hg : 0.0 < q.params.queueDelayGain) (hq : q.BaseAbove)
    (he : q.ExactRun later) (ha : q.average.isFinite = true) :
    (∀ mid, mid <+: later → (q.after mid).average.isFinite = true) ↔
      ∀ mid f, mid ++ [f] <+: later → ¬(q.after mid).Blanks f := by
  have hexact : ∀ mid, mid <+: later → q.ExactRun mid := by
    rintro mid ⟨rest, rfl⟩
    exact ((exactRun_append mid rest).mp he).1
  constructor
  · intro h mid f hf
    have hmid : mid <+: later := (List.prefix_append mid [f]).trans hf
    exact (isFinite_after_concat_iff hg hq (hexact _ hf) (h mid hmid)).mp (h _ hf)
  · intro h mid hmid
    induction mid using List.reverseRecOn with
    | nil => exact ha
    | append_singleton mid f ih =>
        have hfinite := ih ((List.prefix_append mid [f]).trans hmid)
        exact (isFinite_after_concat_iff hg hq (hexact _ hmid) hfinite).mpr (h mid f hmid)

end runs

/-- **A measured queue delay stays measured exactly as long as no report blanks it.**  Under any
parameters with a positive gain, in a run of reports whose times are known and whose arithmetic
does not saturate, once the queue delay is finite it is finite after every later report if and only
if none of these is due and covers lost packets alone.  So it stays finite if every packet enters
the average, and if each report that covers packets covers one that arrived. -/
theorem average_isFinite_iff_not_blanks (p : Parameters) (hg : 0.0 < p.queueDelayGain)
    (before later : List Feedback) (hrun : (initial p).ExactRun (before ++ later))
    (hm : ((initial p).after before).average.isFinite = true) :
    ((∀ mid, mid <+: later → ((initial p).after (before ++ mid)).average.isFinite = true) ↔
        ∀ mid f, mid ++ [f] <+: later → ¬((initial p).after (before ++ mid)).Blanks f) ∧
      ((p.useAllPackets = true ∨ ∀ f ∈ later, f.packets ≠ [] → f.received ≠ []) →
        ∀ mid, mid <+: later → ((initial p).after (before ++ mid)).average.isFinite = true) := by
  obtain ⟨hbefore, hlater⟩ := (exactRun_append before later).mp hrun
  have hgain : 0.0 < ((initial p).after before).params.queueDelayGain := by
    rw [after_params]
    exact hg
  have hiff := forall_isFinite_after_iff hgain ((baseAbove_initial p).after hbefore) hlater hm
  simp only [← after_append] at hiff
  refine ⟨hiff, fun h => hiff.mpr ?_⟩
  intro mid f hf hblanks
  obtain hall | hsome := h
  · have hdue := hblanks.1
    rw [isDue, after_params, initial, hall] at hdue
    cases hdue
  · have hmem : f ∈ later := hf.mem (List.mem_append_right mid List.mem_cons_self)
    exact hsome f hmem hblanks.2.1 hblanks.2.2

/-- The report, `sent` milliseconds into a session, on packets sent 50 ms before. -/
def reportAt (sent : Int) (arrivals : List Timestamp) : Feedback where
  feedbackTime := .ofMillis sent
  smoothedRtt := .ofMillis 50
  packets := arrivals.map fun receiveTime =>
    { sent := { sendTime := .ofMillis (sent - 50), size := .ofInt 1000 }, receiveTime }

/-- Where one of two packets is lost, the last one-way delay is that of the other. -/
theorem average_stays_finite_beside_loss :
    let p : Parameters := { useAllPackets := false }
    let before := [reportAt 1000 [.ofMillis 975]]
    let later := [reportAt 1100 [.ofMillis 1085, .plusInfinity]]
    0.0 < p.queueDelayGain ∧ (initial p).ExactRun (before ++ later) ∧
      ((initial p).after before).average.isFinite = true ∧
      (∀ f ∈ later, f.packets ≠ [] → f.received ≠ []) ∧
      ∀ mid, mid <+: later → ((initial p).after (before ++ mid)).average.isFinite = true := by
  intro p before later
  have hg : 0.0 < p.queueDelayGain := by decide +kernel
  have hrun : (initial p).ExactRun (before ++ later) := by decide +kernel
  have hm : ((initial p).after before).average.isFinite = true := by decide +kernel
  have hsome : ∀ f ∈ later, f.packets ≠ [] → f.received ≠ [] := by decide +kernel
  exact ⟨hg, hrun, hm, hsome,
    (average_isFinite_iff_not_blanks p hg before later hrun hm).2 (.inr hsome)⟩

/-- Not every measured queue delay stays measured, even if the gain is between zero and one, all
times are known and nothing saturates. -/
theorem not_average_stays_finite :
    ¬∀ (p : Parameters) (reports : List Feedback) (f : Feedback),
      0.0 < p.queueDelayGain → p.queueDelayGain < 1.0 →
      (∀ g ∈ reports ++ [f], g.feedbackTime.isFinite = true ∧ g.smoothedRtt.isFinite = true) →
      (initial p).ExactRun (reports ++ [f]) →
      ((initial p).after reports).average.isFinite = true →
      ((initial p).after (reports ++ [f])).average.isFinite = true := by
  intro h
  have hfinite := h { useAllPackets := false } [reportAt 1000 [.ofMillis 975]]
    (reportAt 1100 [.plusInfinity]) (by decide +kernel) (by decide +kernel) (by decide +kernel)
    (by decide +kernel) (by decide +kernel)
  revert hfinite
  decide +kernel

end QueueDelay

end MediaSender
