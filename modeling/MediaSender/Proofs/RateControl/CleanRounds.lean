import MediaSender.Proofs.RateControl.Dampers
import MediaSender.Proofs.RateControl.GrowthCeiling

/-! # Rounds without congestion

A round whose report shows no congestion leaves the window to growth alone, and growth takes nothing
back.

* **Factors.** The increase is the data without a mark times one factor after the other, so what
  each of these multiplications keeps holds of the increase (`increase_induction`).
* **Signs.** A ratio to a degenerate window or round trip may be infinite or not a number, but no
  factor is below zero, so neither is the increase (`increase_nonneg`).
* **Ceiling.** The ceiling moves with the data in flight and may come to lie below the window.
  Growth then leaves the window where it is (`le_grow`). -/

namespace MediaSender.RateControl

open Binary64

section growth

variable {c : RateControl} {f : Feedback} {x : Congestion}

theorem unmarkedSize_nonneg (h : ∀ p ∈ f.packets, 0 ≤ p.sent.size) : 0 ≤ f.unmarkedSize := by
  refine List.foldlRecOn (motive := fun total => 0 ≤ total) _ _ (le_refl 0) ?_
  intro total htotal p hp
  exact Quantity.add_nonneg htotal (h p (List.mem_of_mem_filter hp))

/-- What holds of the data for a full share of a packet in the window, and is kept by each of the
other factors, holds of the increase. -/
theorem increase_induction {P : DataSize → Prop} {F : Float → Prop}
    (hscale : ∀ a y, P a → F y → P (a.scale y)) (h0 : P (f.unmarkedSize.scale c.segmentRatio))
    (hshort : f.smoothedRtt < c.params.virtualRtt →
      F (f.smoothedRtt.ratio c.params.virtualRtt * f.smoothedRtt.ratio c.params.virtualRtt))
    (hqueue : F c.queue.growthScale) (hinflection : F (Binary64.maximum c.inflectionFactor 0.25))
    (hsmall : F c.smallWindowScale) (hmultiplicative : F (c.multiplicativeScale f)) :
    P (c.increase f x) := by
  unfold increase
  refine hscale _ _ (hscale _ _ (hscale _ _ ?_ hinflection) hsmall) hmultiplicative
  have hfirst : P (if f.smoothedRtt < c.params.virtualRtt then
      (f.unmarkedSize.scale c.segmentRatio).scale (f.smoothedRtt.ratio c.params.virtualRtt *
        f.smoothedRtt.ratio c.params.virtualRtt) else f.unmarkedSize.scale c.segmentRatio) := by
    split
    next hlt => exact hscale _ _ h0 (hshort hlt)
    next => exact h0
  split
  next => exact hscale _ _ hfirst hqueue
  next => exact hfirst

/-! ### Signs -/

theorem one_le_growthFactor (hs : 0 ≤ c.params.maxSegmentSize) (hw : 0 ≤ c.refWindow)
    (hg : 0.0 ≤ c.params.growthShare) : AtLeast 1 (parts c.growthFactor) := by
  have hshare : AtLeast 0 (parts c.params.growthShare) := atLeast_of_le signed_zero hg
  have hproduct := nonneg_mul hshare (Quantity.nonneg_ratio hw hs)
  exact atLeast_add atLeast_one_float hproduct representable_one (add_zero 1).ge

/-- The multiplicative part adds to one, whatever the window and the time since the last reaction
are. -/
theorem nonneg_multiplicativeScale (hs : 0 ≤ c.params.maxSegmentSize) (hw : 0 ≤ c.refWindow)
    (hg : 0.0 ≤ c.params.growthShare) : AtLeast 0 (parts (c.multiplicativeScale f)) := by
  have hexcess : AtLeast 0 (parts (c.growthFactor - 1.0)) :=
    atLeast_sub (one_le_growthFactor hs hw hg) damper_one.le_one representable_zero
      (sub_self 1).ge
  have hrecovery : AtLeast 0 (parts (c.recovery f)) := (damper_zero.clamp signed_zero _).nonneg
  have hproduct := nonneg_mul (nonneg_mul hexcess hrecovery) c.damper_inflectionFactor.nonneg
  exact atLeast_add damper_one.nonneg hproduct representable_zero (by norm_num)

theorem increase_nonneg (hs : 0 ≤ c.params.maxSegmentSize) (hw : 0 ≤ c.refWindow)
    (hg : 0.0 ≤ c.params.growthShare) (hu : 0 ≤ f.unmarkedSize) : 0 ≤ c.increase f x := by
  refine increase_induction (P := fun a => 0 ≤ a) (F := fun y => AtLeast 0 (parts y))
    (fun _ _ ha hy => Quantity.scale_nonneg ha hy) ?_ ?_ ?_ ?_ ?_ ?_
  · exact Quantity.scale_nonneg hu (Quantity.nonneg_ratio hs hw)
  · intro
    exact nonneg_mul_self _
  · exact c.queue.damper_growthScale.nonneg
  · exact c.damper_maximum_inflectionFactor.nonneg
  · exact (c.damper_smallWindowScale hs hw).nonneg
  · exact nonneg_multiplicativeScale hs hw hg

/-! ### Growth -/

theorem le_grow (hw : 0 ≤ c.refWindow) (hi : 0 ≤ c.increase f x) :
    c.refWindow ≤ (c.grow f x).refWindow := by
  have hw' : 0 ≤ c.refWindow.raw := hw
  have hi' : 0 ≤ (c.increase f x).raw := hi
  unfold grow
  split
  next hlt =>
    have hsum : c.refWindow ≤ c.refWindow + c.increase f x := by
      have hupper := c.refWindow.upper
      rw [Quantity.le_def, Quantity.raw_add_of_nonneg _ hi]
      (repeat' split) <;> omega
    -- the ceiling is above the window here, so the clamp cannot end below it
    show c.refWindow ≤ Quantity.clamp _ _ _
    unfold Quantity.clamp
    split
    next hfloor => exact hsum.trans hfloor.le
    next =>
      split
      next => exact hlt.le
      next => exact hsum
  next => exact le_refl _

/-- Without congestion growth is all that happens to the window. -/
theorem adjustWindow_of_clean (hx : x.isAny = false) : c.adjustWindow f x = c.grow f x := by
  have hreacts : c.reacts f x = false := by rw [reacts, hx, Bool.false_and]
  have hgrows : c.grows f x = true := by rw [grows, hx, Bool.not_false, Bool.true_or]
  have hafter : c.afterReaction f x = c := by simp [afterReaction, hreacts]
  rw [adjustWindow_eq, hafter, if_pos hgrows]

end growth

/-- **Rounds without congestion never shrink the window.**  Let the largest packet and the floor of
the window be positive, and the share that the window may grow by not negative; the other parameters
may be anything.  If a report to a reachable state shows no loss, no mark and no queue delay that
calls for a reduction, and its packet sizes are not negative, then the window after the round is at
least the window before it.  Neither the round trip nor the data in flight matters. -/
theorem refWindow_le_of_clean {p : Parameters} {r : Round} (hc : Reachable p r.before)
    (hsegment : 0 < p.maxSegmentSize) (hfloor : 0 < p.minRefWindow) (hgrowth : 0.0 ≤ p.growthShare)
    (hloss : r.report.hasLoss = false) (hmark : r.report.hasMark = false)
    (hdelay : r.congestion.delay = false) (hsize : ∀ k ∈ r.report.packets, 0 ≤ k.sent.size) :
    r.before.refWindow ≤ r.after.refWindow := by
  have hany : r.congestion.isAny = false := by
    rw [Congestion.isAny, hdelay, show r.congestion.mark = false from hmark,
      show r.congestion.loss = false from hloss]
    rfl
  have hparams : (r.before.observe r.report).params = p := by rw [observe_params, hc.params]
  have hwindow : 0 ≤ (r.before.observe r.report).refWindow := by
    rw [observe_refWindow]
    exact hfloor.le.trans hc.floor
  have hincrease : 0 ≤ (r.before.observe r.report).increase r.report r.congestion :=
    increase_nonneg (by rw [hparams]; exact hsegment.le) hwindow
      (by rw [hparams]; exact hgrowth) (unmarkedSize_nonneg hsize)
  calc r.before.refWindow
      = (r.before.observe r.report).refWindow := (observe_refWindow ..).symm
    _ ≤ ((r.before.observe r.report).grow r.report r.congestion).refWindow :=
        le_grow hwindow hincrease
    _ = r.after.refWindow := by rw [r.after_refWindow, Round.grown, adjustWindow_of_clean hany]

/-- The window may grow without limit in a round trip, and has done so up to the ceiling.  Nothing
is in flight any more since, and the next report measures a round trip below zero. -/
def idleRound : Round :=
  ⟨(((initial { growthShare := Binary64.infinity }).onFeedback
      (steadyReport 600 9000)).1.onFeedback (steadyReport 700 0)).1,
    { steadyReport 800 0 with smoothedRtt := .ofMillis (-5) }⟩

/-- The ceiling has come down below the window, which stays. -/
theorem refWindow_le_of_clean_above_ceiling :
    Reachable { growthShare := Binary64.infinity } idleRound.before ∧
      idleRound.report.hasLoss = false ∧ idleRound.report.hasMark = false ∧
      idleRound.congestion.delay = false ∧
      idleRound.reduced.ceiling < idleRound.before.refWindow ∧
      idleRound.before.refWindow ≤ idleRound.after.refWindow := by
  have hc : Reachable { growthShare := Binary64.infinity } idleRound.before :=
    ((reachable_initial _).onFeedback _).onFeedback _
  have hdelay : idleRound.congestion.delay = false := by decide +kernel
  have hceiling : idleRound.reduced.ceiling < idleRound.before.refWindow := by decide +kernel
  exact ⟨hc, rfl, rfl, hdelay, hceiling,
    refWindow_le_of_clean hc (by decide) (by decide) (by decide +kernel) rfl rfl hdelay
      (by decide)⟩

end MediaSender.RateControl
