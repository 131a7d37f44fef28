import MediaSender.Proofs.RateControl.CleanRounds

/-! # Backing off from a loss

A loss takes the window down by the loss factor, to whole bytes.  The same round then grows it
again, so that which way the window goes depends on how much data the report covers.

* **Reductions.** None of the reductions of a round takes a window above what bounds it already,
  except to the floor or to the window that the least rate needs (`Damped.reduce`).
* **Growth.** The window after growth is below a given one exactly if the sum with the increase or
  the ceiling is (`grow_lt_iff`).  In the round of a reaction the increase is at most the data that
  the report covers times the share of a packet in the window (`Damped.increase_le`).
* **Rounds.** So a loss that is reacted to takes the window to `Round.backoffLimit` at most
  (`Reachable.reduced_within_backoffLimit`), and the round ends below where it began exactly if
  growth does not make up for the difference.  For a report on much data it does. -/

namespace MediaSender.RateControl

open Binary64 Float.Model Float.Model.UnpackedFloat

/-! ### Reductions -/

/-- A state whose factors damp: the sizes are not negative, and the shares are shares. -/
structure Damped (c : RateControl) : Prop where
  segment : 0 ≤ c.params.maxSegmentSize
  floor : 0 ≤ c.params.minRefWindow
  threshold : Damper c.queue.params.reductionThreshold
  share : Damper c.markedShare

/-- The window is between nothing and `b`. -/
def Within (b : DataSize) (c : RateControl) : Prop := 0 ≤ c.refWindow ∧ c.refWindow ≤ b

section reductions

variable {c : RateControl} {f : Feedback} {x : Congestion} {b : DataSize}

theorem Damped.segmentRatio (h : Damped c) (hw : 0 ≤ c.refWindow) :
    AtLeast 0 (parts c.segmentRatio) :=
  Quantity.nonneg_ratio h.segment hw

theorem Damped.reduceForMarks (h : Damped c) (f : Feedback) : Damped (c.reduceForMarks f) := by
  have hqueue : (c.reduceForMarks f).queue = c.queue :=
    congrArg Prod.snd (c.reduceForMarks_frame f)
  exact ⟨by rw [reduceForMarks_params]; exact h.segment,
    by rw [reduceForMarks_params]; exact h.floor, by rw [hqueue]; exact h.threshold,
    c.damper_reduceForMarks_markedShare f h.share⟩

theorem Damped.reduceForMarks_within (h : Damped c) (hw : Within b c)
    (hfloor : c.params.minRefWindow ≤ b) (hb : Representable b.raw) :
    Within b (c.reduceForMarks f) := by
  have hbackoff := c.damper_markBackoff f h.share h.segment hw.1
  unfold RateControl.reduceForMarks
  split
  next =>
    -- the window is brought down first, but not below the floor
    have horder : c.params.minRefWindow ≤ max c.refWindow c.params.minRefWindow :=
      le_max_right _ _
    have hreset₀ : 0 ≤ c.resetWindow :=
      le_trans h.floor (Quantity.le_clamp horder _)
    have hreset : c.resetWindow ≤ b :=
      le_trans (Quantity.clamp_le horder _) (max_le hw.2 hfloor)
    exact (damper_quarter.maximum signed_quarter hbackoff.le_one).one_sub.scale_mem hb
      ⟨hreset₀, hreset⟩
  next => exact hbackoff.one_sub.scale_mem hb hw

theorem Damped.reduceForDelay_within (h : Damped c) (hw : Within b c) (hb : Representable b.raw) :
    Within (max b c.queue.minWindow) (c.reduceForDelay x) := by
  have hbackoff := c.queue.damper_backoff x.alphaLimit h.threshold (h.segmentRatio hw.1)
  have hscale := hbackoff.one_sub.scale_mem hb hw
  unfold Within reduceForDelay QueueDelay.reduceWindow
  split
  next hlt => exact ⟨hw.1.trans hlt.le, le_max_right _ _⟩
  next =>
    refine ⟨le_trans hscale.1 (le_max_right _ _), ?_⟩
    exact max_le (le_max_right _ _)
      (le_trans hscale.2 (le_max_left _ _))

/-- Without a mark and without queue delay the loss is all that reduces the window. -/
theorem reduce_of_loss_alone (c : RateControl) (f : Feedback) (hloss : x.loss = true)
    (hmark : x.mark = false) (hdelay : x.delay = false) : c.reduce f x = c.reduceForLoss f := by
  unfold RateControl.reduce
  rw [hloss, hmark, hdelay]
  rfl

@[simp] theorem markInflection_refWindow (c : RateControl) :
    c.markInflection.refWindow = c.refWindow := by
  unfold markInflection
  split <;> rfl

/-- What bounds the window after the loss, if there is one, the other reductions of the round keep,
except that the one for queue delay does not go below what the least rate needs. -/
theorem Damped.reduce (h : Damped c) (hw : Within b (if x.loss then c.reduceForLoss f else c))
    (hfloor : c.params.minRefWindow ≤ b) (hb : Representable b.raw) :
    Within (if x.delay then max b c.queue.minWindow else b) (c.reduce f x) := by
  have hfirst : Damped (if x.loss then c.reduceForLoss f else c) ∧
      (if x.loss then c.reduceForLoss f else c).params.minRefWindow ≤ b ∧
      (if x.loss then c.reduceForLoss f else c).queue = c.queue := by
    split
    next => exact ⟨⟨h.segment, h.floor, h.threshold, h.share⟩, hfloor, rfl⟩
    next => exact ⟨h, hfloor, rfl⟩
  have hmarks : ∀ c' : RateControl, Damped c' → Within b c' → c'.params.minRefWindow ≤ b →
      Damped (if x.mark then c'.reduceForMarks f else c') ∧
        Within b (if x.mark then c'.reduceForMarks f else c') ∧
        (if x.mark then c'.reduceForMarks f else c').queue = c'.queue := by
    intro c' h' hw' hfloor'
    split
    next =>
      exact ⟨h'.reduceForMarks f, h'.reduceForMarks_within hw' hfloor' hb,
        congrArg Prod.snd (c'.reduceForMarks_frame f)⟩
    next => exact ⟨h', hw', rfl⟩
  have hdelay : ∀ c' : RateControl, Damped c' → Within b c' → c'.queue = c.queue →
      Within (if x.delay then max b c.queue.minWindow else b)
        (if x.delay then c'.reduceForDelay x else c') := by
    intro c' h' hw' hqueue
    rw [← hqueue]
    split
    next => exact h'.reduceForDelay_within hw' hb
    next => exact hw'
  obtain ⟨hdamped, hfloor', hqueue⟩ := hfirst
  obtain ⟨hdamped', hw', hqueue'⟩ := hmarks _ hdamped hw hfloor'
  exact hdelay _ hdamped' hw' (hqueue'.trans hqueue)

end reductions

/-! ### Growth -/

section growth

variable {c : RateControl} {f : Feedback} {x : Congestion} {w : DataSize}

/-- Growth ends below a window that is above the floor exactly if it is stopped below. -/
theorem grow_lt_iff (hc : c.refWindow < w) (hfloor : c.params.minRefWindow < w) :
    (c.grow f x).refWindow < w ↔ min (c.refWindow + c.increase f x) c.ceiling < w := by
  unfold grow
  split
  next hlt =>
    unfold Quantity.clamp
    show (if _ then _ else if _ then _ else _ : DataSize) < w ↔ _
    simp only [Quantity.lt_def, Quantity.raw_min] at *
    split
    next => omega
    next =>
      split <;> omega
  next hge =>
    simp only [Quantity.lt_def, Quantity.raw_min] at *
    omega

/-- A round trip that is shorter than the virtual one, as a share of it. -/
theorem damper_rttShare (hrtt : 0 ≤ f.smoothedRtt) (hlt : f.smoothedRtt < c.params.virtualRtt) :
    Damper (f.smoothedRtt.ratio c.params.virtualRtt) := by
  have hrtt' : 0 ≤ f.smoothedRtt.raw := hrtt
  have hlt' : f.smoothedRtt.raw < c.params.virtualRtt.raw := hlt
  have hpos : 0 < c.params.virtualRtt := show 0 < c.params.virtualRtt.raw by omega
  exact ⟨Quantity.nonneg_ratio hrtt hpos.le,
    Quantity.atMost_one_ratio hrtt hlt.le hpos⟩

/-- Every factor of the increase damps, except the share of a packet in the window. -/
theorem Damped.increase_le (h : Damped c) (hw : 0 ≤ c.refWindow) (hu : 0 ≤ f.unmarkedSize)
    (hrtt : 0 ≤ f.smoothedRtt) (hm : Damper (c.multiplicativeScale f)) :
    c.increase f x ≤ f.unmarkedSize.scale c.segmentRatio := by
  have hnonneg : 0 ≤ f.unmarkedSize.scale c.segmentRatio :=
    Quantity.scale_nonneg hu (h.segmentRatio hw)
  cases hfinite : (f.unmarkedSize.scale c.segmentRatio).isFinite with
  | false => exact Quantity.le_of_not_isFinite hnonneg hfinite _
  | true =>
      have hb := Quantity.representable_scale hfinite
      have hincrease : 0 ≤ c.increase f x ∧ c.increase f x ≤ f.unmarkedSize.scale c.segmentRatio :=
        increase_induction (P := fun a => 0 ≤ a ∧ a ≤ f.unmarkedSize.scale c.segmentRatio)
          (F := Damper) (fun _ _ ha hy => hy.scale_mem hb ha) ⟨hnonneg, le_refl _⟩
          (fun hlt => (damper_rttShare hrtt hlt).mul (damper_rttShare hrtt hlt))
          c.queue.damper_growthScale c.damper_maximum_inflectionFactor
          (c.damper_smallWindowScale h.segment hw) hm
      exact hincrease.2

end growth

/-! ### Rounds -/

namespace Round

/-- The window that the loss alone leaves. -/
def lossStep (r : Round) : DataSize :=
  r.before.refWindow.scale (r.before.params.lossFactor / r.before.virtualRoundTrips r.report)

/-- What the window is reduced to at most after a loss: the floor, and what the least rate needs if
the queue delay is too large, may be above what the loss leaves. -/
def backoffLimit (r : Round) : DataSize :=
  let limit := max r.lossStep r.before.params.minRefWindow
  if r.congestion.delay then max limit (r.before.queue.onFeedback r.report).minWindow else limit

/-- What growth adds in the round. -/
def increase (r : Round) : DataSize := r.reduced.increase r.report r.congestion

/-- The data without a mark that the report covers, times the share of a packet in the reduced
window. -/
def increaseLimit (r : Round) : DataSize := r.report.unmarkedSize.scale r.reduced.segmentRatio

end Round

section rounds

variable {β : Float} {c : RateControl} {r : Round}

theorem Reachable.damped (hc : Reachable { lossFactor := β } c) (f : Feedback) :
    Damped (c.observe f) := by
  have hqueue : (c.observe f).queue = c.queue.onFeedback f :=
    congrArg Prod.snd (c.observe_frame f)
  have hparams : (c.observe f).params = { lossFactor := β } := by
    rw [observe_params, hc.params]
  refine ⟨?_, ?_, ?_, ?_⟩
  · rw [hparams]
    exact show (0 : ℤ) ≤ 1000 by decide
  · rw [hparams]
    exact show (0 : ℤ) ≤ 3000 by decide
  · rw [hqueue, QueueDelay.onFeedback_params, hc.queue_params]
    exact damper_half
  · exact c.damper_observe_markedShare f (by rw [hc.params]) (hc.markedShare rfl)

theorem Round.lossStep_le_backoffLimit (r : Round) : r.lossStep ≤ r.backoffLimit := by
  have hle := le_max_left r.lossStep r.before.params.minRefWindow
  unfold backoffLimit
  dsimp only
  split
  next => exact le_trans hle (le_max_left _ _)
  next => exact hle

theorem Round.reduceForLoss_refWindow (r : Round) :
    ((r.before.observe r.report).reduceForLoss r.report).refWindow = r.lossStep := by
  rw [reduceForLoss, virtualRoundTrips, observe_refWindow, observe_params]
  rfl

/-- A reaction leaves in the window what its reductions leave. -/
theorem Round.reduced_refWindow (hr : r.isReaction = true) :
    r.reduced.refWindow =
      ((r.before.observe r.report).reduce r.report r.congestion).refWindow := by
  have hreact : r.reduced = (r.before.observe r.report).react r.report r.congestion := if_pos hr
  rw [hreact]
  exact markInflection_refWindow _

theorem Round.reduced_of_loss_alone (hr : r.isReaction = true) (hloss : r.congestion.loss = true)
    (hmark : r.congestion.mark = false) (hdelay : r.congestion.delay = false) :
    r.reduced.refWindow = r.lossStep := by
  rw [r.reduced_refWindow hr, reduce_of_loss_alone _ _ hloss hmark hdelay,
    r.reduceForLoss_refWindow]

theorem Reachable.damped_reduced (hc : Reachable { lossFactor := β } r.before) :
    Damped r.reduced := by
  have h := hc.damped r.report
  have hqueue : r.reduced.queue = (r.before.observe r.report).queue :=
    congrArg Prod.snd (afterReaction_frame ..)
  have hparams : r.reduced.params = (r.before.observe r.report).params := afterReaction_params ..
  exact ⟨by rw [hparams]; exact h.segment, by rw [hparams]; exact h.floor,
    by rw [hqueue]; exact h.threshold, damper_afterReaction_markedShare _ _ _ h.share⟩

/-- A factor that is not negative, and less than one. -/
theorem damper_of_lossFactor (h₀ : 0.0 ≤ β) (h₁ : β < 1.0) : Damper β := by
  have hleast := atLeast_of_le signed_zero h₀
  have hmost := atMost_of_lt signed_one h₁
  rw [show value (parts 1.0) = 1 from value_one] at hmost
  exact ⟨hleast, hmost⟩

theorem signed_of_lossFactor (h₀ : 0.0 ≤ β) (h₁ : β < 1.0) : ∃ s, Signed s (parts β) := by
  obtain hn | ⟨s, hs⟩ | hs := special_or_signed (parts β)
  · rw [le_iff, hn] at h₀
    exact absurd h₀ (by decide)
  · rw [le_iff, hs] at h₀
    rw [lt_iff, hs] at h₁
    cases s with
    | negative => exact absurd h₀ (by decide)
    | positive => exact absurd h₁ (by decide)
  · exact hs

theorem Reachable.window_nonneg (hc : Reachable { lossFactor := β } c) : 0 ≤ c.refWindow :=
  le_trans (show (0 : ℤ) ≤ 3000 by decide) hc.floor

theorem Reachable.lossStep_eq (hc : Reachable { lossFactor := β } r.before) :
    r.lossStep = r.before.refWindow.scale (β / r.before.virtualRoundTrips r.report) := by
  rw [Round.lossStep, hc.params]

theorem Reachable.lossStep_nonneg (hc : Reachable { lossFactor := β } r.before) (hβ : Damper β) :
    0 ≤ r.lossStep := by
  rw [hc.lossStep_eq]
  exact Quantity.scale_nonneg hc.window_nonneg
    (hβ.div (r.before.one_le_virtualRoundTrips r.report)).nonneg

/-- A loss does not enlarge a window that floats count exactly. -/
theorem Reachable.lossStep_le (hc : Reachable { lossFactor := β } r.before) (hβ : Damper β)
    (hw : r.before.refWindow.raw ≤ 2 ^ 53) : r.lossStep ≤ r.before.refWindow := by
  rw [hc.lossStep_eq]
  exact ((hβ.div (r.before.one_le_virtualRoundTrips r.report)).scale_mem
    (Quantity.representable_raw hc.window_nonneg hw)
    ⟨hc.window_nonneg, le_refl _⟩).2

/-- It takes a byte away if the factor leaves a byte less. -/
theorem Reachable.lossStep_lt {s : Sign} (hc : Reachable { lossFactor := β } r.before)
    (hs : Signed s (parts β)) (hβ : Damper β) (hw : r.before.refWindow.raw ≤ 2 ^ 53)
    (hbyte : value (parts β) * r.before.refWindow.raw ≤ r.before.refWindow.raw - 1)
    (hpos : 0 < r.before.refWindow) : r.lossStep < r.before.refWindow := by
  have hpos' : 0 < r.before.refWindow.raw := hpos
  have hfactor : AtMost (value (parts β))
      (parts (β / r.before.virtualRoundTrips r.report)) :=
    atMost_div (atMost_value hs) (r.before.one_le_virtualRoundTrips r.report) hβ.nonneg zero_lt_one
      (representable_value hs) (div_one _).le
  have hless : (Quantity.ofInt (r.before.refWindow.raw - 1) : DataSize).raw =
      r.before.refWindow.raw - 1 := by
    rw [Quantity.raw_ofInt]
    omega
  have hless₀ : 0 ≤ (Quantity.ofInt (r.before.refWindow.raw - 1) : DataSize) := by
    show 0 ≤ (Quantity.ofInt (r.before.refWindow.raw - 1) : DataSize).raw
    rw [hless]
    omega
  have hle : r.lossStep ≤ Quantity.ofInt (r.before.refWindow.raw - 1) := by
    rw [hc.lossStep_eq]
    refine Quantity.scale_le_of_mul_le hc.window_nonneg ?_
      (Quantity.representable_raw hc.window_nonneg hw) le_rfl hfactor (hβ.nonneg.le_value hs) hless₀
      (Quantity.representable_raw hless₀ (by rw [hless]; omega)) ?_
    · rw [Bool.eq_false_iff, ne_eq, Quantity.isInfinite_iff]
      omega
    · rw [hless, mul_comm]
      exact_mod_cast hbyte
  have hle' : r.lossStep.raw ≤ (Quantity.ofInt (r.before.refWindow.raw - 1) : DataSize).raw := hle
  show r.lossStep.raw < r.before.refWindow.raw
  omega

/-- The reductions of a round keep what bounds the window after the loss, if there is one, except
for what the least rate needs. -/
theorem Reachable.reduced_within {b : DataSize} (hc : Reachable { lossFactor := β } r.before)
    (hr : r.isReaction = true)
    (hw : Within b (if r.congestion.loss then (r.before.observe r.report).reduceForLoss r.report
      else r.before.observe r.report))
    (hfloor : r.before.params.minRefWindow ≤ b) (hb : Representable b.raw) :
    Within (if r.congestion.delay then max b (r.before.queue.onFeedback r.report).minWindow else b)
      r.reduced := by
  have hqueue : (r.before.observe r.report).queue = r.before.queue.onFeedback r.report :=
    congrArg Prod.snd (observe_frame ..)
  have hreduce := (hc.damped r.report).reduce hw (by rw [observe_params]; exact hfloor) hb
  unfold Within at hreduce ⊢
  rw [r.reduced_refWindow hr, ← hqueue]
  exact hreduce

/-- The reductions of a round with a loss. -/
theorem Reachable.reduced_within_backoffLimit (hc : Reachable { lossFactor := β } r.before)
    (hβ : Damper β) (hr : r.isReaction = true) (hloss : r.congestion.loss = true)
    (hstep : r.lossStep < r.before.refWindow) : Within r.backoffLimit r.reduced := by
  have hstep₀ := hc.lossStep_nonneg hβ
  have hfinite : r.lossStep.isFinite = true := by
    have hlt : r.lossStep.raw < r.before.refWindow.raw := hstep
    have hnonneg : 0 ≤ r.lossStep.raw := hstep₀
    have hupper := r.before.refWindow.upper
    rw [Quantity.isFinite_iff]
    omega
  have hfloor : Representable r.before.params.minRefWindow.raw := by
    rw [hc.params]
    exact Quantity.representable_raw (show (0 : ℤ) ≤ 3000 by decide)
      (show (3000 : ℤ) ≤ 2 ^ 53 by norm_num)
  have hrep := Quantity.representable_max (Quantity.representable_scale hfinite) hfloor
  have hwithin : Within (max r.lossStep r.before.params.minRefWindow)
      ((r.before.observe r.report).reduceForLoss r.report) := by
    unfold Within
    rw [r.reduceForLoss_refWindow]
    exact ⟨hstep₀, le_max_left _ _⟩
  exact hc.reduced_within hr (by rw [hloss, if_pos rfl]; exact hwithin)
    (le_max_right _ _) hrep

/-- What growth does in a round with a reaction. -/
theorem Round.after_eq_grow (hr : r.isReaction = true) :
    r.after.refWindow = (r.reduced.grow r.report r.congestion).refWindow := by
  have hreact : r.reduced = (r.before.observe r.report).react r.report r.congestion := if_pos hr
  have hgrows : r.reduced.grows r.report r.congestion = true := by
    rw [hreact]
    exact grows_react ..
  rw [r.after_refWindow, Round.grown, adjustWindow_eq]
  exact congrArg RateControl.refWindow (if_pos hgrows)

theorem Round.reduced_lastReaction (hr : r.isReaction = true) :
    r.reduced.lastReaction = r.report.feedbackTime := by
  have hreact : r.reduced = (r.before.observe r.report).react r.report r.congestion := if_pos hr
  rw [hreact, react_lastReaction]

end rounds

/-- **A loss reduces the window, and the growth in the same round may make up for it.**  Let the
loss factor be at least zero and less than one, the other parameters as by default, and the window
of a reachable state above its floor.  A report of a loss that comes the shorter one of its round
trip and the virtual one after the last reaction, or later, is reacted to.

* The loss alone leaves the window times the loss factor, divided by the number of virtual round
  trips, in whole bytes.  This is no more than a window that floats count exactly, and less if the
  factor leaves a byte less.
* If it is less, then all reductions of the round take the window to the limit of the round at most:
  the floor, and what the least rate needs if the queue delay is too large, may be above what the
  loss leaves.  Without a mark or such a delay they take it to what the loss leaves.
* If that limit is below the window, then the round ends below the window exactly if growth does not
  make up for the difference: if the reduced window with the increase is below it, or the ceiling of
  growth is.
* If the report comes at a finite time, and its round trip is not negative, the increase is at most
  the data without a mark that it covers, lost packets included, times the share of a packet in the
  reduced window; so if this does not make up for the difference either, the round ends below the
  window. -/
theorem loss_reduces_window_unless_grown {β : Float} {r : Round}
    (hc : Reachable { lossFactor := β } r.before) (h₀ : 0.0 ≤ β) (h₁ : β < 1.0)
    (hw : r.before.params.minRefWindow < r.before.refWindow) (hloss : r.report.hasLoss = true)
    (hsize : ∀ p ∈ r.report.packets, 0 ≤ p.sent.size)
    (hwait : r.wait { lossFactor := β } ≤ r.time - r.before.lastReaction) :
    r.isReaction = true ∧
      (r.before.refWindow.raw ≤ 2 ^ 53 →
        r.lossStep ≤ r.before.refWindow ∧
          (value (parts β) * r.before.refWindow.raw ≤ r.before.refWindow.raw - 1 →
            r.lossStep < r.before.refWindow)) ∧
      (r.lossStep < r.before.refWindow →
        0 ≤ r.reduced.refWindow ∧ r.reduced.refWindow ≤ r.backoffLimit ∧
          (r.congestion.mark = false → r.congestion.delay = false →
            r.reduced.refWindow = r.lossStep)) ∧
      (r.backoffLimit < r.before.refWindow →
        (r.after.refWindow < r.before.refWindow ↔
            min (r.reduced.refWindow + r.increase) r.reduced.ceiling < r.before.refWindow) ∧
          (0 ≤ r.report.smoothedRtt → r.time.isFinite = true →
            r.increase ≤ r.increaseLimit ∧
              (r.reduced.refWindow + r.increaseLimit < r.before.refWindow →
                r.after.refWindow < r.before.refWindow))) := by
  have hβ := damper_of_lossFactor h₀ h₁
  obtain ⟨s, hs⟩ := signed_of_lossFactor h₀ h₁
  have hpos : 0 < r.before.refWindow := by
    have hfloor : r.before.params.minRefWindow.raw = 3000 := by rw [hc.params]; rfl
    have hw' : r.before.params.minRefWindow.raw < r.before.refWindow.raw := hw
    show 0 < r.before.refWindow.raw
    omega
  have hr : r.isReaction = true := by
    refine (Round.isReaction_iff hc.params).mpr ⟨?_, hwait⟩
    rw [Congestion.isAny, show r.congestion.loss = true from hloss, Bool.or_true]
  refine ⟨hr, ?_, ?_, ?_⟩
  · intro hexact
    exact ⟨hc.lossStep_le hβ hexact, fun hbyte => hc.lossStep_lt hs hβ hexact hbyte hpos⟩
  · intro hstep
    obtain ⟨hnonneg, hle⟩ := hc.reduced_within_backoffLimit hβ hr hloss hstep
    exact ⟨hnonneg, hle, fun hmark hdelay => r.reduced_of_loss_alone hr hloss hmark hdelay⟩
  · intro hlimit
    have hstep : r.lossStep < r.before.refWindow :=
      r.lossStep_le_backoffLimit.trans_lt hlimit
    obtain ⟨hnonneg, hle⟩ := hc.reduced_within_backoffLimit hβ hr hloss hstep
    have hreduced : r.reduced.refWindow < r.before.refWindow := hle.trans_lt hlimit
    have hfloor : r.reduced.params.minRefWindow < r.before.refWindow := by
      rw [Round.reduced, afterReaction_params, observe_params]
      exact hw
    have hgrow := grow_lt_iff (f := r.report) (x := r.congestion) hreduced hfloor
    rw [← r.after_eq_grow hr] at hgrow
    refine ⟨hgrow, ?_⟩
    intro hrtt htime
    have hincrease : r.increase ≤ r.increaseLimit :=
      hc.damped_reduced.increase_le hnonneg (unmarkedSize_nonneg hsize) hrtt
        (damper_multiplicativeScale _ _ htime (r.reduced_lastReaction hr))
    refine ⟨hincrease, fun hsum => hgrow.mpr ?_⟩
    have hadd := Quantity.add_le_add_left r.reduced.refWindow hincrease
    exact (min_le_left _ _).trans_lt (hadd.trans_lt hsum)

/-- The report, `sent` milliseconds into a session, on a packet of `size` bytes that arrived, and on
others. -/
def burstReport (sent size : Int) (others : List PacketOutcome) : Feedback where
  feedbackTime := .ofMillis sent
  smoothedRtt := .ofMillis 25
  dataInFlight := .ofInt 30000
  packets :=
    { sent := { sendTime := .ofMillis (sent - 50), size := .ofInt size },
      receiveTime := .ofMillis (sent - 25) } :: others

/-- The state after `first` bytes have arrived finds the report of `second` bytes more, and of a
thousand bytes lost. -/
def burstWithLoss (first second : Int) : Round :=
  ⟨((initial {}).onFeedback (burstReport 1000 first [])).1,
    burstReport 1100 second [{ sent := { sendTime := .ofMillis 1050, size := .ofInt 1000 } }]⟩

theorem reachable_burstWithLoss (first second : Int) :
    Reachable { lossFactor := 0.7 } (burstWithLoss first second).before :=
  (reachable_initial {}).onFeedback _

/-- Growth does not make up for a loss among few data. -/
theorem loss_reduces_window_of_small_report :
    (burstWithLoss 20000 4000).isReaction = true ∧
      (burstWithLoss 20000 4000).reduced.refWindow ≤ (burstWithLoss 20000 4000).backoffLimit ∧
      (burstWithLoss 20000 4000).after.refWindow < (burstWithLoss 20000 4000).before.refWindow := by
  obtain ⟨hreaction, -, hreduced, hround⟩ :=
    loss_reduces_window_unless_grown (reachable_burstWithLoss 20000 4000)
      (by decide +kernel) (by decide +kernel) (by decide +kernel) (by decide +kernel)
      (by decide +kernel) (by decide +kernel)
  obtain ⟨-, hle, -⟩ := hreduced (by decide +kernel)
  exact ⟨hreaction, hle, ((hround (by decide +kernel)).2 (by decide +kernel) (by decide +kernel)).2
    (by decide +kernel)⟩

/-- Growth more than makes up for a loss among many data, in a small window. -/
theorem loss_enlarges_window_of_large_report :
    ¬∀ (β : Float) (r : Round), 0.0 ≤ β → β < 1.0 → Reachable { lossFactor := β } r.before →
      r.before.params.minRefWindow < r.before.refWindow → r.report.hasLoss = true →
      (∀ p ∈ r.report.packets, 0 ≤ p.sent.size) →
      r.wait { lossFactor := β } ≤ r.time - r.before.lastReaction →
      r.after.refWindow < r.before.refWindow := by
  intro h
  have hlt := h 0.7 (burstWithLoss 4000 30000) (by decide +kernel) (by decide +kernel)
    (reachable_burstWithLoss 4000 30000) (by decide +kernel) (by decide +kernel)
    (by decide +kernel) (by decide +kernel)
  exact absurd hlt (by decide +kernel)

end MediaSender.RateControl
