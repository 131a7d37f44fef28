import MediaSender.Proofs.Binary64.Exact
import MediaSender.Proofs.RateControl.BaseDelay

/-! # How far the average queue delay overshoots

With a gain of a quarter the average of `a` with a sample `s` of at least `a` is a quarter of `s`
and three quarters of `a`, each to the nearest microsecond.

* **Step.** Both terms end halfway between two microseconds and go up if `s` and `a` are equal and
  leave the remainder two when they are divided by four (`Ties`).  The average is then one
  microsecond above both, and in every other case it lies between them (`averaged_quarter`).
* **Run.** A sample below the average replaces it.  So an overshoot does not add up: an average that
  is not negative is followed by one of at most the sample, or one above it in a tie
  (`averaged_le_of_le`), and along a run it never is negative (`nonneg_average_after`).
* **Refutation.** Four packets, the last three of them 2 us slower than the first, lead to an
  average of 3 us (`not_average_le_greatest`). -/

namespace MediaSender

open Binary64

namespace QueueDelay

/-! ### One step -/

/-- Both terms of the average end halfway between two microseconds. -/
def Ties (a s : TimeDelta) : Prop := s = a ∧ s.raw % 4 = 2

section step

variable {a s m : TimeDelta}

theorem exactly_quarter : Exactly ((1 : ℕ) / 4) (parts (1.0 / 4.0)) := by
  refine ⟨rfl, ?_⟩
  have hparts : parts (1.0 / 4.0) = .finite .positive (2 ^ 52) (-54) (by decide) := rfl
  rw [hparts, value_finite, signed]
  norm_num

theorem exactly_three_quarters : Exactly ((3 : ℕ) / 4) (parts (1.0 - 1.0 / 4.0)) := by
  refine ⟨rfl, ?_⟩
  have hparts : parts (1.0 - 1.0 / 4.0) = .finite .positive (3 * 2 ^ 51) (-53) (by decide) := rfl
  rw [hparts, value_finite, signed]
  norm_num

theorem raw_averaged_quarter (ha : 0 ≤ a) (has : a ≤ s) (hs : s.raw ≤ 2 ^ 50) :
    (averaged (1.0 / 4.0) a s).raw = (s.raw + 2) / 4 + (3 * a.raw + 2) / 4 := by
  have ha' : 0 ≤ a.raw := ha
  have has' : a.raw ≤ s.raw := has
  have hs' : 0 ≤ s := le_trans ha has
  have hquarter := Quantity.raw_scale_quarters hs' one_pos exactly_quarter (by push_cast; omega)
  have hrest := Quantity.raw_scale_quarters ha three_pos exactly_three_quarters
    (by push_cast; omega)
  push_cast at hquarter hrest
  rw [averaged, if_neg (not_lt.mpr has), Quantity.raw_add, hquarter, hrest]
  rw [if_neg (by omega), if_neg (by omega)]
  omega

/-- The average lies between the old one and a sample that is no smaller, except for a tie. -/
theorem averaged_quarter (ha : 0 ≤ a) (has : a ≤ s) (hs : s.raw ≤ 2 ^ 50) :
    (¬Ties a s → a ≤ averaged (1.0 / 4.0) a s ∧ averaged (1.0 / 4.0) a s ≤ s) ∧
      (Ties a s → (averaged (1.0 / 4.0) a s).raw = s.raw + 1) := by
  have hraw := raw_averaged_quarter ha has hs
  have has' : a.raw ≤ s.raw := has
  rw [Ties, Quantity.ext_iff, Quantity.le_def, Quantity.le_def, hraw]
  omega

theorem averaged_nonneg (ha : 0 ≤ a) (hs : 0 ≤ s) : 0 ≤ averaged (1.0 / 4.0) a s := by
  unfold averaged
  split
  next => exact hs
  next =>
    exact Quantity.add_nonneg
      (Quantity.scale_nonneg hs (exactly_quarter.atLeast.mono (by positivity)))
      (Quantity.scale_nonneg ha (exactly_three_quarters.atLeast.mono (by positivity)))

/-- The average is at most any bound of the sample, except for a tie with that bound. -/
theorem averaged_le_of_le (ha : 0 ≤ a) (hs : s.raw ≤ 2 ^ 50) (hsm : s ≤ m) :
    (¬(s = m ∧ Ties a s) → averaged (1.0 / 4.0) a s ≤ m) ∧
      (s = m ∧ Ties a s → (averaged (1.0 / 4.0) a s).raw = m.raw + 1) := by
  by_cases hlt : s < a
  · rw [averaged, if_pos hlt]
    refine ⟨fun _ => hsm, ?_⟩
    rintro ⟨-, rfl, -⟩
    exact absurd hlt (lt_irrefl _)
  · obtain ⟨hbetween, habove⟩ := averaged_quarter ha (not_lt.mp hlt) hs
    constructor
    · intro hnot
      by_cases htie : Ties a s
      · -- the sample is below the bound, so one above it is not too much
        have hraw := habove htie
        have hne : s.raw ≠ m.raw := fun h => hnot ⟨Quantity.ext_iff.mpr h, htie⟩
        rw [Quantity.le_def] at hsm ⊢
        omega
      · exact le_trans (hbetween htie).2 hsm
    · rintro ⟨rfl, htie⟩
      exact habove htie

end step

/-! ### Samples of a run -/

/-- The samples that some packets give, one after the other. -/
def samples : QueueDelay → List PacketOutcome → List TimeDelta
  | _, [] => []
  | q, x :: rest => q.nextSample x :: (q.observe x).samples rest

/-- The samples that the packets of some reports give. -/
def samplesOver : QueueDelay → List Feedback → List TimeDelta
  | _, [] => []
  | q, f :: rest => (q.amid f []).samples f.inArrivalOrder ++ (q.onFeedback f).samplesOver rest

section samples

variable {q : QueueDelay}

theorem samples_concat (q : QueueDelay) (l : List PacketOutcome) (x : PacketOutcome) :
    q.samples (l ++ [x]) = q.samples l ++ [(l.foldl observe q).nextSample x] := by
  induction l generalizing q with
  | nil => rfl
  | cons y rest ih => simp [samples, ih]

theorem foldl_observe_params (q : QueueDelay) (l : List PacketOutcome) :
    (l.foldl observe q).params = q.params :=
  foldl_observe_eq _ QueueDelay.params observe_params l

theorem amid_params (q : QueueDelay) (f : Feedback) (done : List PacketOutcome) :
    (q.amid f done).params = q.params := foldl_observe_params _ done

/-- A sample is not negative: the delay of the packet counts for the base delay. -/
theorem nextSample_nonneg (q : QueueDelay) (x : PacketOutcome) : 0 ≤ q.nextSample x := by
  have hle := (q.observe x).baseDelay_le
  rw [observe_epochMinimum] at hle
  rw [nextSample_eq]
  exact Quantity.sub_nonneg (hle.trans (min_le_right _ _))

/-- If all packets count, a report leaves the average that its packets have made. -/
theorem average_onFeedback_eq_amid (hall : q.params.useAllPackets = true) (f : Feedback) :
    (q.onFeedback f).average = (q.amid f f.inArrivalOrder).average := by
  by_cases hf : f.packets = []
  · have hnone : f.inArrivalOrder = [] := by simp [Feedback.inArrivalOrder, Feedback.received, hf]
    have hsame : q.onFeedback f = q := if_pos (List.isEmpty_iff.mpr hf)
    rw [hsame, hnone]
    rfl
  · have hdue : q.isDue f = false := by simp [isDue, hall]
    rw [average_onFeedback hf, hdue, if_neg Bool.false_ne_true]
    rfl

end samples

/-! ### Along a run -/

section run

variable {q : QueueDelay}

theorem nonneg_average_foldl_observe (hall : q.params.useAllPackets = true)
    (hg : q.params.queueDelayGain = 1.0 / 4.0) (h : 0 ≤ q.average) (l : List PacketOutcome) :
    0 ≤ (l.foldl observe q).average := by
  induction l generalizing q with
  | nil => exact h
  | cons x rest ih =>
      have hstep : 0 ≤ (q.observe x).average := by
        rw [observe_average hall, hg]
        exact averaged_nonneg h (nextSample_nonneg q x)
      exact ih (by rw [observe_params]; exact hall) (by rw [observe_params]; exact hg) hstep

theorem nonneg_average_amid (hall : q.params.useAllPackets = true)
    (hg : q.params.queueDelayGain = 1.0 / 4.0) (h : 0 ≤ q.average) (f : Feedback)
    (done : List PacketOutcome) : 0 ≤ (q.amid f done).average :=
  nonneg_average_foldl_observe (q := q.amid f []) hall hg h done

theorem nonneg_average_after (hall : q.params.useAllPackets = true)
    (hg : q.params.queueDelayGain = 1.0 / 4.0) (h : 0 ≤ q.average) (reports : List Feedback) :
    0 ≤ (q.after reports).average := by
  induction reports generalizing q with
  | nil => exact h
  | cons f rest ih =>
      have hparams := q.onFeedback_params f
      have hreport : 0 ≤ (q.onFeedback f).average := by
        rw [average_onFeedback_eq_amid hall]
        exact nonneg_average_amid hall hg h f f.inArrivalOrder
      exact ih (by rw [hparams]; exact hall) (by rw [hparams]; exact hg) hreport

end run

/-- `m` is the greatest of `l`. -/
structure Greatest (m : TimeDelta) (l : List TimeDelta) : Prop where
  mem : m ∈ l
  le : ∀ s ∈ l, s ≤ m

theorem exists_greatest {l : List TimeDelta} (hl : l ≠ []) : ∃ m, Greatest m l := by
  have hsome : l.argmax Quantity.raw ≠ none := mt List.argmax_eq_none.mp hl
  obtain ⟨m, hm⟩ := Option.ne_none_iff_exists'.mp hsome
  exact ⟨m, List.argmax_mem hm, fun s hs => List.le_of_mem_argmax hs hm⟩

/-- The samples that a run of reports gives, and the packets `done` of one report more. -/
def samplesUpTo (p : Parameters) (before : List Feedback) (f : Feedback)
    (done : List PacketOutcome) : List TimeDelta :=
  (initial p).samplesOver before ++ (((initial p).after before).amid f []).samples done

/-- **The average overshoots by one microsecond at most, and only in a tie.**  If all packets count
and the gain is a quarter, then in every run of reports whose samples are below `2 ^ 50` the average
after a packet is at most the greatest sample so far, except if that is the sample of the packet
itself, equal to the average before it and with remainder two: then the average is one above it.  A
step with a sample of at least the average before it ends between the two, except in a tie, in which
it ends one above both. -/
theorem average_le_greatest (p : Parameters) (hall : p.useAllPackets = true)
    (hg : p.queueDelayGain = 1.0 / 4.0) (before : List Feedback) (f : Feedback)
    (done rest : List PacketOutcome) (x : PacketOutcome)
    (hx : f.inArrivalOrder = done ++ x :: rest)
    (hsmall : ∀ s ∈ samplesUpTo p before f (done ++ [x]), s.raw < 2 ^ 50) :
    let q := ((initial p).after before).amid f done
    let s := q.nextSample x
    let a := (q.observe x).average
    (∃ m, Greatest m (samplesUpTo p before f (done ++ [x])) ∧
        (¬(s = m ∧ s = q.average ∧ s.raw % 4 = 2) → a ≤ m) ∧
        (s = m ∧ s = q.average ∧ s.raw % 4 = 2 → a.raw = m.raw + 1)) ∧
      (q.average ≤ s →
        (¬(s = q.average ∧ s.raw % 4 = 2) → q.average ≤ a ∧ a ≤ s) ∧
        (s = q.average ∧ s.raw % 4 = 2 → a.raw = s.raw + 1)) ∧
      ((initial p).after (before ++ [f])).average = (rest.foldl observe (q.observe x)).average := by
  intro q s a
  have hparams : q.params = p := (amid_params _ f done).trans (after_params (initial p) before)
  have htaken : samplesUpTo p before f (done ++ [x]) = samplesUpTo p before f done ++ [s] := by
    rw [samplesUpTo, samples_concat, ← List.append_assoc]
    rfl
  rw [htaken] at hsmall ⊢
  have hmem := List.mem_append_right (samplesUpTo p before f done) (List.mem_singleton_self s)
  have hs50 := Int.le_of_lt (hsmall s hmem)
  have hstate : ((initial p).after before).params = p := after_params (initial p) before
  have hall' : ((initial p).after before).params.useAllPackets = true := by rw [hstate]; exact hall
  have hinitial : (0 : TimeDelta) ≤ .plusInfinity := by decide
  have hbefore := nonneg_average_after (q := initial p) hall hg hinitial before
  have hnonneg : 0 ≤ q.average :=
    nonneg_average_amid hall' (by rw [hstate]; exact hg) hbefore f done
  have haverage : a = averaged (1.0 / 4.0) q.average s := by
    rw [← hg, ← hparams]
    exact observe_average (by rw [hparams]; exact hall) x
  rw [haverage]
  refine ⟨?_, fun has => averaged_quarter hnonneg has hs50, ?_⟩
  · obtain ⟨m, hm⟩ := exists_greatest (List.ne_nil_of_mem hmem)
    exact ⟨m, hm, averaged_le_of_le hnonneg hs50 (hm.le s hmem)⟩
  · rw [after_append]
    exact average_onFeedback_of_all hall' hx

/-- A report, one second into a session, on packets that were sent 50 ms before and arrived these
microseconds after the report was sent. -/
def reportOfDelays (arrivals : List Int) : Feedback :=
  reportAt 1000 (arrivals.map fun n => .ofMicros (1000000 + n))

/-- A packet of such a report. -/
def packetOfDelay (n : Int) : PacketOutcome where
  sent := { sendTime := .ofMillis 950, size := .ofInt 1000 }
  receiveTime := .ofMicros (1000000 + n)

/-- Samples of 0 us, 3 us and 3 us: the last step raises the average from 1 us to 2 us. -/
theorem average_le_greatest_without_tie :
    let p : Parameters := {}
    let f := reportOfDelays [0, 3, 3]
    let done := [packetOfDelay 0, packetOfDelay 3]
    let q := ((initial p).after []).amid f done
    let a := (q.observe (packetOfDelay 3)).average
    p.useAllPackets = true ∧ p.queueDelayGain = 1.0 / 4.0 ∧
      f.inArrivalOrder = done ++ packetOfDelay 3 :: [] ∧
      samplesUpTo p [] f (done ++ [packetOfDelay 3]) = [0, 3, 3].map Quantity.ofInt ∧
      (∃ m, Greatest m (samplesUpTo p [] f (done ++ [packetOfDelay 3])) ∧ a ≤ m) ∧
      q.average ≤ a ∧ a ≤ q.nextSample (packetOfDelay 3) := by
  intro p f done q a
  have hsorted : f.received.Pairwise fun a b => a.arrivesBy b = true := by decide +kernel
  have hx : f.inArrivalOrder = done ++ packetOfDelay 3 :: [] := List.mergeSort_of_pairwise hsorted
  have hsamples :
      samplesUpTo p [] f (done ++ [packetOfDelay 3]) = [0, 3, 3].map Quantity.ofInt := by
    decide +kernel
  have hrem : ¬(q.nextSample (packetOfDelay 3)).raw % 4 = 2 := by decide +kernel
  obtain ⟨⟨m, hm, hle, -⟩, hstep, -⟩ := average_le_greatest p rfl rfl [] f done [] (packetOfDelay 3)
    hx (by rw [hsamples]; decide +kernel)
  have hbetween := (hstep (by decide +kernel)).1 fun htie => hrem htie.2
  exact ⟨rfl, rfl, hx, hsamples, ⟨m, hm, hle fun htie => hrem htie.2.2⟩, hbetween⟩

/-- Samples of 0 us, 2 us, 2 us and 2 us: the average goes from 0 us to 1 us, 2 us and 3 us, by
quarters that end halfway. -/
theorem not_average_le_greatest :
    ¬∀ (p : Parameters) (before : List Feedback) (f : Feedback) (done rest : List PacketOutcome)
      (x : PacketOutcome), p.useAllPackets = true → p.queueDelayGain = 1.0 / 4.0 →
      f.inArrivalOrder = done ++ x :: rest →
      (∀ g ∈ before ++ [f], g.feedbackTime.isFinite = true ∧ g.smoothedRtt.isFinite = true ∧
        ∀ y ∈ g.packets, y.sent.sendTime.isFinite = true ∧ y.receiveTime.isFinite = true) →
      (∀ s ∈ samplesUpTo p before f (done ++ x :: rest), s.raw < 2 ^ 50) →
      let q := ((initial p).after before).amid f done
      (∃ m, Greatest m (samplesUpTo p before f (done ++ [x])) ∧ (q.observe x).average ≤ m) ∧
        (q.average ≤ q.nextSample x →
          q.average ≤ (q.observe x).average ∧ (q.observe x).average ≤ q.nextSample x) := by
  intro hall
  let f := reportOfDelays [0, 2, 2, 2]
  let done := [packetOfDelay 0, packetOfDelay 2, packetOfDelay 2]
  have hsorted : f.received.Pairwise fun a b => a.arrivesBy b = true := by decide +kernel
  have hx : f.inArrivalOrder = done ++ packetOfDelay 2 :: [] := List.mergeSort_of_pairwise hsorted
  obtain ⟨⟨m, hm, hle⟩, -⟩ := hall {} [] f done [] (packetOfDelay 2) rfl rfl hx (by decide +kernel)
    (by decide +kernel)
  have habove : ∀ t ∈ samplesUpTo {} [] f (done ++ [packetOfDelay 2]),
      ¬(((initial {}).amid f done).observe (packetOfDelay 2)).average ≤ t := by decide +kernel
  exact habove m hm.mem hle

end QueueDelay

end MediaSender
