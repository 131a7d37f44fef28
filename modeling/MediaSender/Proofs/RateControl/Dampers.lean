import MediaSender.Proofs.Binary64.Integers
import MediaSender.Proofs.RateControl.TargetRate

/-! # Factors between zero and one

Most factors on the window and on its growth are meant to damp: they are between zero and one.
Floats round, and an estimate may even come out as not a number, but these bounds hold of what is
computed.

* **Calculus.** A `Damper` is between zero and one, or not a number.  Products of dampers, a damper
  divided by at least one, and one less a damper are dampers, and an amount that is scaled by a
  damper stays between zero and any bound that it has (`Damper.scale_mem`).
* **Factors.** The scales that a state computes from its window and its delays are dampers,
  whatever the window is.
* **Shares.** The average share of marked packets is a damper in every reachable state, under the
  default gain (`Reachable.markedShare`), and so is the share of the window that is given up for
  marks or for queue delay. -/

namespace MediaSender.Binary64

open Float.Model Float.Model.UnpackedFloat

/-- A factor between zero and one, or not a number. -/
structure Damper (x : Float) : Prop where
  nonneg : AtLeast 0 (parts x)
  le_one : AtMost 1 (parts x)

section dampers

variable {s : Sign} {m : ℕ} {e : ℤ} {hm : 0 < m} {a b lo x y : Float}

/-! ### Constants -/

theorem damper_of_parts (h : parts x = .finite .positive m e hm) (hle : (m : ℚ) * 2 ^ e ≤ 1) :
    Damper x := by
  constructor
  · rw [h]
    exact (value_pos hm e).le
  · rw [h]
    exact hle

theorem signed_zero : Signed .positive (parts 0.0) := rfl

theorem signed_one : Signed .positive (parts 1.0) := rfl

theorem signed_half : Signed .positive (parts 0.5) := rfl

theorem signed_quarter : Signed .positive (parts 0.25) := rfl

theorem signed_tenth : Signed .positive (parts 0.1) := rfl

theorem atLeast_one_float : AtLeast 1 (parts 1.0) := atLeast_of_signed signed_one value_one.ge

theorem atLeast_one_two : AtLeast 1 (parts 2.0) := by
  rw [show parts 2.0 = .finite .positive (2 ^ 52) (-51) (by decide) from rfl]
  show (1 : ℚ) ≤ ((2 ^ 52 : ℕ) : ℚ) * 2 ^ (-51 : ℤ)
  norm_num

theorem damper_one : Damper 1.0 :=
  damper_of_parts (show parts 1.0 = .finite .positive (2 ^ 52) (-52) (by decide) from rfl)
    (by norm_num)

theorem damper_half : Damper 0.5 :=
  damper_of_parts (show parts 0.5 = .finite .positive (2 ^ 52) (-53) (by decide) from rfl)
    (by norm_num)

theorem damper_quarter : Damper 0.25 :=
  damper_of_parts (show parts 0.25 = .finite .positive (2 ^ 52) (-54) (by decide) from rfl)
    (by norm_num)

theorem damper_tenth : Damper 0.1 :=
  damper_of_parts
    (show parts 0.1 = .finite .positive 7205759403792794 (-56) (by decide) from rfl) (by norm_num)

theorem damper_zero : Damper 0.0 := ⟨le_refl (0 : ℚ), (zero_le_one : (0 : ℚ) ≤ 1)⟩

/-! ### Operations -/

theorem Damper.mul (hx : Damper x) (hy : Damper y) : Damper (x * y) :=
  ⟨nonneg_mul hx.nonneg hy.nonneg,
    atMost_mul hx.le_one hy.le_one hx.nonneg zero_le_one representable_one (mul_one 1).le⟩

theorem Damper.div (hx : Damper x) (hy : AtLeast 1 (parts y)) : Damper (x / y) :=
  ⟨nonneg_div hx.nonneg (hy.unsigned zero_lt_one),
    atMost_div hx.le_one hy hx.nonneg zero_lt_one representable_one (div_one 1).le⟩

theorem atMost_one_sub (hx : AtLeast 0 (parts x)) : AtMost 1 (parts (1.0 - x)) :=
  atMost_sub damper_one.le_one hx representable_one (sub_zero 1).le

theorem Damper.one_sub (hx : Damper x) : Damper (1.0 - x) :=
  ⟨atLeast_sub atLeast_one_float hx.le_one representable_zero (sub_self 1).ge,
    atMost_one_sub hx.nonneg⟩

/-- The larger one of a float and a damper that is a number. -/
theorem Damper.maximum (hb : Damper b) (hs : Signed s (parts b)) (ha : AtMost 1 (parts a)) :
    Damper (maximum a b) :=
  ⟨(atLeast_maximum hs).mono (hb.nonneg.le_value hs), atMost_maximum ha hb.le_one⟩

theorem atLeast_maximum_one (a : Float) : AtLeast 1 (parts (Binary64.maximum a 1.0)) := by
  have h := atLeast_maximum (a := a) signed_one
  rwa [show value (parts 1.0) = 1 from value_one] at h

/-- A float that is kept between a damper and one. -/
theorem Damper.clamp (hlo : Damper lo) (hs : Signed s (parts lo)) (x : Float) :
    Damper (clamp lo 1.0 x) := by
  have hvalue : value (parts 1.0) = 1 := value_one
  have hle : AtLeast (value (parts lo)) (parts 1.0) :=
    atLeast_one_float.mono (hlo.le_one.value_le hs)
  have hmost := atMost_clamp signed_one (by rw [hvalue]; exact hlo.le_one) x
  rw [hvalue] at hmost
  exact ⟨(atLeast_clamp hs hle x).mono (hlo.nonneg.le_value hs), hmost⟩

/-- An amount that is scaled by a damper keeps each bound that a float can stand for. -/
theorem Damper.scale_mem {d : Dimension} {q b : Quantity d} (hx : Damper x)
    (hb : Representable b.raw) (hq : 0 ≤ q ∧ q ≤ b) : 0 ≤ q.scale x ∧ q.scale x ≤ b :=
  ⟨Quantity.scale_nonneg hq.1 hx.nonneg, Quantity.scale_le hq.1 hq.2 hb hx.le_one⟩

/-- An average with the default gain. -/
theorem Damper.average (hx : Damper x) (hy : Damper y) :
    Damper (1.0 / 16.0 * x + (1.0 - 1.0 / 16.0) * y) := by
  have hg : Signed .positive (parts (1.0 / 16.0)) := rfl
  have hgvalue : value (parts (1.0 / 16.0)) = 1 / 16 := by
    show (((2 ^ 52 : ℕ) : ℚ) * 2 ^ (-56 : ℤ)) = 1 / 16
    norm_num
  have hrest : Signed .positive (parts (1.0 - 1.0 / 16.0)) := rfl
  have hrestvalue : value (parts (1.0 - 1.0 / 16.0)) = 15 / 16 := by
    show (((15 * 2 ^ 49 : ℕ) : ℚ) * 2 ^ (-53 : ℤ)) = 15 / 16
    norm_num
  have hnew : AtMost (1 / 16) (parts (1.0 / 16.0 * x)) := by
    rw [← hgvalue]
    exact atMost_mul (atMost_value hg) hx.le_one hg.unsigned.atLeast_zero zero_le_one
      (representable_value hg) (mul_one _).le
  have hold : AtMost (15 / 16) (parts ((1.0 - 1.0 / 16.0) * y)) := by
    rw [← hrestvalue]
    exact atMost_mul (atMost_value hrest) hy.le_one hrest.unsigned.atLeast_zero zero_le_one
      (representable_value hrest) (mul_one _).le
  exact ⟨atLeast_add (nonneg_mul hg.unsigned.atLeast_zero hx.nonneg)
      (nonneg_mul hrest.unsigned.atLeast_zero hy.nonneg) representable_zero (by norm_num),
    atMost_add hnew hold representable_one (by norm_num)⟩

/-- A share of a whole. -/
theorem damper_share {k n : ℕ} (hn : 0 < n) (h : k ≤ n) :
    Damper (Float.ofNat k / Float.ofNat n) :=
  ⟨nonneg_div (unsigned_ofNat k).atLeast_zero (unsigned_ofNat n), atMost_ofNat_div hn h⟩

end dampers

/-! ### Zeros -/

/-- A zero of either sign, or not a number: what is left of a product with zero. -/
def Null : UnpackedFloat → Prop
  | .notANumber => True
  | .zero _ => True
  | _ => False

section null

variable {u : UnpackedFloat} {x y : Float}

theorem Null.eq_or_eq (h : Null u) : u = .notANumber ∨ ∃ s, u = .zero s := by
  cases u with
  | notANumber => exact .inl rfl
  | zero s => exact .inr ⟨s, rfl⟩
  | _ => exact h.elim

theorem Null.pack (h : Null u) : Null (Float.Model.pack u).unpack := by
  have hback : Canonical u ∧ Fits u := by
    obtain rfl | ⟨s, rfl⟩ := h.eq_or_eq <;> exact ⟨trivial, trivial⟩
  rwa [unpack_pack hback.1 hback.2]

theorem null_mul_left (h : Null (parts x)) : Null (parts (x * y)) := by
  refine Null.pack (u := UnpackedFloat.mul Format.binary64 (parts x) (parts y)) ?_
  obtain hx | ⟨s, hx⟩ := h.eq_or_eq
  all_goals
    rw [hx]
    cases parts y <;> exact trivial

theorem null_mul_right (h : Null (parts y)) : Null (parts (x * y)) := by
  refine Null.pack (u := UnpackedFloat.mul Format.binary64 (parts x) (parts y)) ?_
  obtain hy | ⟨s, hy⟩ := h.eq_or_eq
  all_goals
    rw [hy]
    cases parts x <;> exact trivial

theorem null_div (h : Null (parts x)) : Null (parts (x / y)) := by
  refine Null.pack (u := UnpackedFloat.div Format.binary64 (parts x) (parts y)) ?_
  obtain hx | ⟨s, hx⟩ := h.eq_or_eq
  all_goals
    rw [hx]
    cases parts y <;> exact trivial

theorem null_clamp (h : Null (parts x)) : Null (parts (clamp 0.0 1.0 x)) := by
  unfold clamp
  split
  next => exact trivial
  next =>
    split
    next hlt =>
      rw [lt_iff] at hlt
      obtain hx | ⟨s, hx⟩ := h.eq_or_eq
      · rw [hx] at hlt
        exact absurd hlt (by decide)
      · rw [hx] at hlt
        cases s <;> exact absurd hlt (by decide)
    next => exact h

/-- One and a zero. -/
theorem damper_one_add (h : Null (parts x)) : Damper (1.0 + x) := by
  have hbounds : AtMost 0 (parts x) ∧ AtLeast 0 (parts x) := by
    obtain hx | ⟨s, hx⟩ := h.eq_or_eq
    · rw [hx]
      exact ⟨trivial, trivial⟩
    · rw [hx]
      exact ⟨le_refl (0 : ℚ), le_refl (0 : ℚ)⟩
  exact ⟨atLeast_add damper_one.nonneg hbounds.2 representable_zero (by norm_num),
    atMost_add damper_one.le_one hbounds.1 representable_one (by norm_num)⟩

end null

end MediaSender.Binary64

/-! ### Factors of the queue delay -/

namespace MediaSender.QueueDelay

open Binary64

variable (q : QueueDelay)

theorem damper_growthScale : Damper q.growthScale := by
  unfold growthScale
  split
  next => exact damper_tenth.clamp signed_tenth _
  next => exact damper_one

theorem damper_backoff {segmentRatio : Float} (alphaLimit : Float)
    (hp : Damper q.params.reductionThreshold) (hs : AtLeast 0 (parts segmentRatio)) :
    Damper (q.backoff segmentRatio alphaLimit) := by
  have hscale := damper_half.maximum signed_half (atMost_one_sub hs)
  exact (((damper_zero.clamp signed_zero _).mul hp).div (atLeast_maximum_one _)).mul hscale

end MediaSender.QueueDelay

/-! ### Factors of the rate control -/

namespace MediaSender.RateControl

open Binary64

section factors

variable (c : RateControl) (f : Feedback)

theorem one_le_virtualRoundTrips : AtLeast 1 (parts (c.virtualRoundTrips f)) :=
  atLeast_maximum_one _

theorem damper_smallWindowScale (hs : 0 ≤ c.params.maxSegmentSize) (hw : 0 ≤ c.refWindow) :
    Damper c.smallWindowScale :=
  damper_half.maximum signed_half (atMost_one_sub (Quantity.nonneg_ratio hs hw))

theorem damper_inflectionFactor : Damper c.inflectionFactor := damper_tenth.clamp signed_tenth _

theorem damper_maximum_inflectionFactor : Damper (Binary64.maximum c.inflectionFactor 0.25) :=
  damper_quarter.maximum signed_quarter c.damper_inflectionFactor.le_one

theorem damper_markBackoff (ha : Damper c.markedShare) (hs : 0 ≤ c.params.maxSegmentSize)
    (hw : 0 ≤ c.refWindow) : Damper (c.markBackoff f) := by
  have hbackoff : Damper (c.markedShare / 2.0 / c.virtualRoundTrips f * c.smallWindowScale) :=
    ((ha.div atLeast_one_two).div (c.one_le_virtualRoundTrips f)).mul
      (c.damper_smallWindowScale hs hw)
  unfold markBackoff
  split
  next => exact hbackoff
  next => exact hbackoff.mul c.damper_maximum_inflectionFactor

/-- Right at a reaction no time has passed since it, so nothing is multiplicative about growth. -/
theorem damper_multiplicativeScale (ht : f.feedbackTime.isFinite = true)
    (hr : c.lastReaction = f.feedbackTime) : Damper (c.multiplicativeScale f) := by
  have hsince : c.sinceReaction f = 0 := by
    rw [sinceReaction, hr]
    exact Quantity.sub_self_of_isFinite ht
  have hrecovery : Null (parts (c.recovery f)) := by
    rw [recovery, hsince]
    exact null_clamp (null_div trivial)
  exact damper_one_add (null_mul_left (null_mul_right hrecovery))

end factors

/-! ### The average share of marks -/

section shares

variable (c : RateControl) (f : Feedback) (x : Congestion)

theorem damper_observe_markedShare (hg : c.params.markGain = 1.0 / 16.0)
    (h : Damper c.markedShare) : Damper (c.observe f).markedShare := by
  show Damper (({ c with queue := c.queue.onFeedback f } : RateControl).observeMarks f).markedShare
  unfold observeMarks
  split
  next => exact h
  next hne =>
    have hpos : 0 < f.received.length := by
      rw [List.length_pos_iff]
      exact fun hnil => hne (List.isEmpty_iff.mpr hnil)
    have hshare : Damper (Float.ofNat (f.received.countP (·.isMarked)) /
        Float.ofNat f.received.length) := damper_share hpos List.countP_le_length
    show Damper (c.params.markGain * _ + (1.0 - c.params.markGain) * c.markedShare)
    rw [hg]
    exact hshare.average h

theorem damper_reduceForMarks_markedShare (h : Damper c.markedShare) :
    Damper (c.reduceForMarks f).markedShare := by
  unfold reduceForMarks
  split
  next => exact damper_quarter
  next => exact h

@[simp] theorem markInflection_markedShare : c.markInflection.markedShare = c.markedShare := by
  unfold markInflection
  split <;> rfl

@[simp] theorem grow_markedShare : (c.grow f x).markedShare = c.markedShare := by
  unfold grow
  split <;> rfl

@[simp] theorem openInflection_markedShare (previous : DataSize) :
    (c.openInflection previous).markedShare = c.markedShare := by
  unfold openInflection
  split <;> rfl

@[simp] theorem rollOver_markedShare : (c.rollOver f).markedShare = c.markedShare := by
  unfold rollOver
  split <;> rfl

/-- Neither a loss nor a delay touches the share. -/
theorem damper_reduce_markedShare (h : Damper c.markedShare) :
    Damper (c.reduce f x).markedShare := by
  have hloss : Damper (if x.loss then c.reduceForLoss f else c).markedShare := by
    split <;> exact h
  have hmarks : ∀ c : RateControl, Damper c.markedShare →
      Damper (if x.mark then c.reduceForMarks f else c).markedShare := by
    intro c h
    split
    next => exact c.damper_reduceForMarks_markedShare f h
    next => exact h
  have hdelay : ∀ c : RateControl, Damper c.markedShare →
      Damper (if x.delay then c.reduceForDelay x else c).markedShare := by
    intro c h
    split <;> exact h
  exact hdelay _ (hmarks _ hloss)

theorem damper_afterReaction_markedShare (h : Damper c.markedShare) :
    Damper (c.afterReaction f x).markedShare := by
  unfold afterReaction
  split
  next =>
    show Damper (c.reduce f x).markInflection.markedShare
    rw [markInflection_markedShare]
    exact damper_reduce_markedShare c f x h
  next => exact h

theorem damper_round_markedShare (hg : c.params.markGain = 1.0 / 16.0)
    (h : Damper c.markedShare) : Damper (c.round f).markedShare := by
  have hafter := damper_afterReaction_markedShare _ f ((c.observe f).congestion f)
    (c.damper_observe_markedShare f hg h)
  rw [round, rollOver_markedShare, openInflection_markedShare]
  show Damper ((c.observe f).adjustWindow f ((c.observe f).congestion f)).markedShare
  rw [adjustWindow_eq]
  split
  next =>
    rw [grow_markedShare]
    exact hafter
  next => exact hafter

end shares

/-- The average share of marks is a share in every reachable state, under the default gain. -/
theorem Reachable.markedShare {p : Parameters} {c : RateControl} (hr : Reachable p c)
    (hg : p.markGain = 1.0 / 16.0) : Damper c.markedShare := by
  have h : c.params = p ∧ Damper c.markedShare := by
    refine hr.induction (P := fun c => c.params = p ∧ Damper c.markedShare)
      ⟨rfl, damper_zero⟩ ?_ ?_
    · rintro c f ⟨hp, hc⟩
      exact ⟨(round_params c f).trans hp, c.damper_round_markedShare f (by rw [hp, hg]) hc⟩
    · rintro c c' lower upper hc e
      rw [(setBounds_eq_ok e).2]
      exact hc
  exact h.2

theorem Reachable.queue_params {p : Parameters} {c : RateControl} (hr : Reachable p c) :
    c.queue.params = p := by
  refine hr.induction (P := fun c => c.queue.params = p) rfl ?_ ?_
  · intro c f hc
    show (c.round f).queue.params = p
    rw [round_queue, QueueDelay.onFeedback_params, hc]
  · intro c c' lower upper hc e
    rw [(setBounds_eq_ok e).2]
    exact hc

end MediaSender.RateControl
