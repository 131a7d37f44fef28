import MediaSender.Proofs.RateControl.LossBackoff

/-! # The inflection point along a run

The state remembers the window at the last congestion as its inflection point.  A round that reacts
to congestion takes a snapshot of the window for this, unless the window has not grown since the
last snapshot.

* **Frame.** Of all that a round does, only the snapshot in a reaction sets the inflection point,
  and only it and the comparison at the end of the round change whether the next one may be taken
  (`Round.reduced_turningPoint`, `Round.after_turningPoint`).
* **Value.** The snapshot comes after the reductions of the round, so it is the reduced window and
  not the one in force when the congestion was noticed (`inflection_eq_reduced_window`); any loss
  that takes a byte shows the difference (`not_inflection_eq_window_before`).
* **Run.** A snapshot may be taken exactly if the window has grown in a round since the last one
  (`Reopened`), which every round keeps (`reopened_concat`), so two snapshots are separated by
  growth (`snapshots_separated_by_growth`). -/

namespace MediaSender.RateControl

open Binary64

/-- The inflection point, and whether congestion may set it. -/
def turningPoint (c : RateControl) : DataSize × Bool := (c.inflection, c.inflectionOpen)

/-! ### What a round does to the inflection point -/

section turningPoint

variable (c : RateControl) (f : Feedback) (x : Congestion)

@[simp] theorem observe_turningPoint : (c.observe f).turningPoint = c.turningPoint := by
  show (({ c with queue := c.queue.onFeedback f } : RateControl).observeMarks f).turningPoint = _
  unfold observeMarks
  split <;> rfl

@[simp] theorem reduceForMarks_turningPoint :
    (c.reduceForMarks f).turningPoint = c.turningPoint := by
  unfold reduceForMarks
  split <;> rfl

/-- The reductions read the inflection point of an earlier round, and leave it alone. -/
@[simp] theorem reduce_turningPoint : (c.reduce f x).turningPoint = c.turningPoint := by
  have hloss : (if x.loss then c.reduceForLoss f else c).turningPoint = c.turningPoint := by
    split <;> rfl
  have hmarks (c : RateControl) :
      (if x.mark then c.reduceForMarks f else c).turningPoint = c.turningPoint := by
    split
    next => exact c.reduceForMarks_turningPoint f
    next => rfl
  have hdelay (c : RateControl) :
      (if x.delay then c.reduceForDelay x else c).turningPoint = c.turningPoint := by
    split <;> rfl
  exact (hdelay _).trans ((hmarks _).trans hloss)

theorem markInflection_turningPoint :
    c.markInflection.turningPoint =
      if c.turningPoint.2 then (c.refWindow, false) else c.turningPoint := by
  unfold markInflection
  split
  next hopen => exact (if_pos hopen).symm
  next hopen => exact (if_neg hopen).symm

theorem react_turningPoint :
    (c.react f x).turningPoint =
      if c.turningPoint.2 then ((c.reduce f x).refWindow, false) else c.turningPoint := by
  show (c.reduce f x).markInflection.turningPoint = _
  rw [markInflection_turningPoint, reduce_turningPoint]

@[simp] theorem grow_turningPoint : (c.grow f x).turningPoint = c.turningPoint := by
  unfold grow
  split <;> rfl

@[simp] theorem adjustWindow_turningPoint :
    (c.adjustWindow f x).turningPoint = (c.afterReaction f x).turningPoint := by
  rw [adjustWindow_eq]
  split
  next => exact grow_turningPoint ..
  next => rfl

theorem openInflection_turningPoint (previous : DataSize) :
    (c.openInflection previous).turningPoint =
      (c.inflection, decide (previous < c.refWindow) || c.inflectionOpen) := by
  unfold openInflection
  split
  next hlt => rw [decide_eq_true hlt, Bool.true_or]; rfl
  next hge => rw [decide_eq_false hge, Bool.false_or]; rfl

@[simp] theorem rollOver_turningPoint : (c.rollOver f).turningPoint = c.turningPoint := by
  unfold rollOver
  split <;> rfl

end turningPoint

/-! ### Snapshots -/

namespace Round

/-- Whether the round takes a snapshot of the window: it reacts and may set the inflection point. -/
def isSnapshot (r : Round) : Bool := r.isReaction && r.before.inflectionOpen

/-- A snapshot takes the window that the reductions leave. -/
theorem reduced_turningPoint (r : Round) :
    r.reduced.turningPoint =
      if r.isSnapshot then (r.reduced.refWindow, false) else r.before.turningPoint := by
  have hopen : (r.before.observe r.report).turningPoint.2 = r.before.inflectionOpen := by
    rw [observe_turningPoint]
    rfl
  cases hr : r.isReaction with
  | true =>
      have hreact : r.reduced = (r.before.observe r.report).react r.report r.congestion :=
        if_pos hr
      rw [r.reduced_refWindow hr, hreact, react_turningPoint, hopen, isSnapshot, hr,
        Bool.true_and, observe_turningPoint]
  | false =>
      have hkeep : r.reduced = r.before.observe r.report := by
        rw [reduced, afterReaction, if_neg]
        rw [← isReaction, hr]
        exact Bool.false_ne_true
      rw [isSnapshot, hr, Bool.false_and, if_neg Bool.false_ne_true, hkeep, observe_turningPoint]

/-- At the end of a round growth allows the next snapshot. -/
theorem after_turningPoint (r : Round) :
    r.after.turningPoint =
      (r.reduced.inflection,
        decide (r.before.refWindow < r.after.refWindow) || r.reduced.inflectionOpen) := by
  have hadjusted : r.grown.turningPoint = r.reduced.turningPoint := adjustWindow_turningPoint ..
  have hinflection : r.grown.inflection = r.reduced.inflection := congrArg Prod.fst hadjusted
  have hopen : r.grown.inflectionOpen = r.reduced.inflectionOpen := congrArg Prod.snd hadjusted
  show (r.before.round r.report).turningPoint = _
  rw [round, rollOver_turningPoint, openInflection_turningPoint, observe_refWindow,
    ← hinflection, ← hopen, r.after_refWindow]
  rfl

theorem after_inflection (r : Round) :
    r.after.inflection = if r.isSnapshot then r.reduced.refWindow else r.before.inflection := by
  have hafter : r.after.inflection = r.reduced.inflection := congrArg Prod.fst r.after_turningPoint
  have hreduced := congrArg Prod.fst r.reduced_turningPoint
  rw [apply_ite Prod.fst] at hreduced
  exact hafter.trans hreduced

theorem after_inflectionOpen (r : Round) :
    r.after.inflectionOpen = true ↔
      r.before.refWindow < r.after.refWindow ∨
        r.before.inflectionOpen = true ∧ r.isSnapshot = false := by
  have hopen : r.reduced.inflectionOpen = (r.before.inflectionOpen && !r.isSnapshot) := by
    have h := congrArg Prod.snd r.reduced_turningPoint
    rw [apply_ite Prod.snd] at h
    rw [show r.reduced.inflectionOpen = _ from h]
    cases r.isSnapshot
    · exact (Bool.and_true _).symm
    · exact (Bool.and_false _).symm
  have hafter : r.after.inflectionOpen = _ := congrArg Prod.snd r.after_turningPoint
  rw [hafter, hopen]
  simp

end Round

/-! ### The value of a snapshot -/

/-- What the reductions of the round leave at most: the window before it, or what the least rate
needs if the queue delay is too large and that is more. -/
def Round.reductionLimit (r : Round) : DataSize :=
  if r.congestion.delay then
    max r.before.refWindow (r.before.queue.onFeedback r.report).minWindow
  else r.before.refWindow

/-- Under default parameters no reduction enlarges a window that floats count exactly. -/
theorem Reachable.reduced_within_reductionLimit {β : Float} {r : Round}
    (hc : Reachable { lossFactor := β } r.before) (hβ : Damper β) (hr : r.isReaction = true)
    (hexact : r.before.refWindow.raw ≤ 2 ^ 53) : Within r.reductionLimit r.reduced := by
  refine hc.reduced_within hr ?_ (by rw [hc.params]; exact hc.floor)
    (Quantity.representable_raw hc.window_nonneg hexact)
  split
  next =>
    unfold Within
    rw [r.reduceForLoss_refWindow]
    exact ⟨hc.lossStep_nonneg hβ, hc.lossStep_le hβ hexact⟩
  next =>
    unfold Within
    rw [observe_refWindow]
    exact ⟨hc.window_nonneg, le_refl _⟩

/-- **The inflection point is the window after the reductions.**  Let a round react while a snapshot
is allowed.  Then the inflection point becomes the window that the reductions for loss, marks and
queue delay leave, so it is the window in force before the round exactly if they leave that window
as it is.  Let further the loss factor be at least zero and less than one, the other parameters as
by default, and the state reachable.  Then the inflection point is not above the window before the
round if floats count this exactly, except where a queue delay calls for what the least rate needs;
and a loss puts it below the window before whenever the limit of the reductions is below. -/
theorem inflection_eq_reduced_window {r : Round} (hr : r.isReaction = true)
    (hopen : r.before.inflectionOpen = true) :
    r.after.inflection = r.reduced.refWindow ∧
      (r.after.inflection = r.before.refWindow ↔ r.reduced.refWindow = r.before.refWindow) ∧
      ∀ β : Float, 0.0 ≤ β → β < 1.0 → Reachable { lossFactor := β } r.before →
        (r.before.refWindow.raw ≤ 2 ^ 53 → r.after.inflection ≤ r.reductionLimit) ∧
          (r.report.hasLoss = true → r.backoffLimit < r.before.refWindow →
            r.after.inflection < r.before.refWindow) := by
  have hsnapshot : r.isSnapshot = true := by rw [Round.isSnapshot, hr, hopen, Bool.and_self]
  have hafter : r.after.inflection = r.reduced.refWindow := by
    rw [r.after_inflection, if_pos hsnapshot]
  refine ⟨hafter, by rw [hafter], ?_⟩
  intro β h₀ h₁ hc
  have hβ := damper_of_lossFactor h₀ h₁
  rw [hafter]
  refine ⟨fun hexact => (hc.reduced_within_reductionLimit hβ hr hexact).2, ?_⟩
  intro hloss hlimit
  have hstep : r.lossStep < r.before.refWindow :=
    r.lossStep_le_backoffLimit.trans_lt hlimit
  exact (hc.reduced_within_backoffLimit hβ hr hloss hstep).2.trans_lt hlimit

/-- After 20000 bytes have arrived, a loss takes down the window and the inflection point with
it. -/
theorem inflection_eq_reduced_window_of_loss :
    (burstWithLoss 20000 4000).isReaction = true ∧
      (burstWithLoss 20000 4000).before.inflectionOpen = true ∧
      (burstWithLoss 20000 4000).after.inflection =
        (burstWithLoss 20000 4000).reduced.refWindow ∧
      (burstWithLoss 20000 4000).after.inflection <
        (burstWithLoss 20000 4000).before.refWindow := by
  obtain ⟨hr, hopen⟩ : (burstWithLoss 20000 4000).isReaction = true ∧
      (burstWithLoss 20000 4000).before.inflectionOpen = true := by decide +kernel
  obtain ⟨hvalue, -, hlower⟩ := inflection_eq_reduced_window hr hopen
  have hloss := (hlower 0.7 (by decide +kernel) (by decide +kernel)
    (reachable_burstWithLoss 20000 4000)).2
  exact ⟨hr, hopen, hvalue, hloss (by decide +kernel) (by decide +kernel)⟩

/-- The inflection point is not always the window before the reductions. -/
theorem not_inflection_eq_window_before :
    ¬∀ (p : Parameters) (r : Round), Reachable p r.before → r.isReaction = true →
      r.before.inflectionOpen = true → r.after.inflection = r.before.refWindow := by
  intro h
  have hwindow := h { lossFactor := 0.7 } (burstWithLoss 20000 20000)
    (reachable_burstWithLoss 20000 20000) (by decide +kernel) (by decide +kernel)
  exact absurd hwindow (by decide +kernel)

/-! ### Snapshots along a run -/

/-- If there is a last snapshot among the rounds, then one of the rounds from that one on has ended
with a larger window than it began with. -/
def Reopened (past : List Round) : Prop :=
  ∀ earlier s since, past = earlier ++ s :: since → s.isSnapshot = true →
    (∀ k ∈ since, k.isSnapshot = false) → ∃ k ∈ s :: since, k.before.refWindow < k.after.refWindow

section run

variable {past : List Round} {r : Round}

theorem reopened_nil : Reopened [] := by
  intro earlier s since h
  simp at h

/-- One round more: its growth counts in any case, and without it the round must not be a snapshot
itself. -/
theorem reopened_concat :
    Reopened (past ++ [r]) ↔
      r.before.refWindow < r.after.refWindow ∨ Reopened past ∧ r.isSnapshot = false := by
  constructor
  · intro h
    by_cases hgrowth : r.before.refWindow < r.after.refWindow
    · exact .inl hgrowth
    right
    have hsnapshot : r.isSnapshot = false := by
      cases hs : r.isSnapshot with
      | false => rfl
      | true =>
          obtain ⟨k, hk, hlt⟩ := h past r [] rfl hs (by simp)
          rw [List.mem_singleton.mp hk] at hlt
          exact absurd hlt hgrowth
    refine ⟨?_, hsnapshot⟩
    rintro earlier s since rfl hs hsince
    obtain ⟨k, hk, hlt⟩ := h earlier s (since ++ [r]) (by simp) hs (by
      intro k hk
      obtain hk | hk := List.mem_append.mp hk
      · exact hsince k hk
      · rw [List.mem_singleton.mp hk]
        exact hsnapshot)
    obtain hk | hk := List.mem_append.mp (show k ∈ (s :: since) ++ [r] from hk)
    · exact ⟨k, hk, hlt⟩
    · rw [List.mem_singleton.mp hk] at hlt
      exact absurd hlt hgrowth
  · intro h earlier s since hsplit hs hsince
    obtain rfl | ⟨since', k, rfl⟩ := since.eq_nil_or_concat'
    · -- the last snapshot is the last round itself
      obtain ⟨-, hr⟩ := List.append_inj' hsplit rfl
      obtain rfl : r = s := List.singleton_inj.mp hr
      obtain hgrowth | ⟨-, hno⟩ := h
      · exact ⟨r, List.mem_singleton_self r, hgrowth⟩
      · rw [hs] at hno
        cases hno
    · rw [← List.cons_append, ← List.append_assoc] at hsplit
      obtain ⟨rfl, hr⟩ := List.append_inj' hsplit rfl
      obtain rfl : r = k := List.singleton_inj.mp hr
      obtain hgrowth | ⟨hpast, -⟩ := h
      · exact ⟨r, by simp, hgrowth⟩
      · obtain ⟨k, hk, hlt⟩ := hpast earlier s since' rfl hs fun k hk =>
          hsince k (List.mem_append_left _ hk)
        exact ⟨k, List.mem_append_left [r] hk, hlt⟩

end run

/-- **Snapshots are separated by growth.**  In any run of reports and accepted bounds, under any
parameters, the inflection point changes only in a round that reacts to congestion.  A reacting
round takes a snapshot exactly if there was none before, or the window has grown in a round from the
last snapshot on, the round of that snapshot included.  With a snapshot the inflection point becomes
the reduced window, and without one it stays. -/
theorem snapshots_separated_by_growth (p : Parameters) {inputs : List Input}
    {before later : List Round} {r : Round} (h : (initial p).rounds inputs = before ++ r :: later) :
    (r.after.inflection ≠ r.before.inflection → r.isReaction = true) ∧
      (r.isReaction = true → (r.isSnapshot = true ↔ Reopened before)) ∧
      r.after.inflection = (if r.isSnapshot then r.reduced.refWindow else r.before.inflection) := by
  have hopen : r.before.inflectionOpen = true ↔ Reopened before := by
    refine rounds_induction (P := fun past c => c.inflectionOpen = true ↔ Reopened past)
      (iff_of_true rfl reopened_nil) ?_ ?_ h
    · intro past r hr
      rw [r.after_inflectionOpen, reopened_concat, hr]
    · intro past c next lower upper hc hb
      obtain ⟨-, rfl⟩ := setBounds_eq_ok hb
      exact hc
  refine ⟨?_, ?_, r.after_inflection⟩
  · intro hchange
    by_contra hr
    rw [Bool.not_eq_true] at hr
    exact hchange (congrArg Prod.fst (Round.after_memory_of_not_isReaction hr))
  · intro hr
    rw [Round.isSnapshot, hr, Bool.true_and]
    exact hopen

/-- A second loss, then a report on 20000 bytes, then a third loss. -/
def lossAgain : Round := lossRound firstLoss.after 625

@[inherit_doc lossAgain] def growthBetween : Round := ⟨lossAgain.after, burstReport 700 20000 []⟩

@[inherit_doc lossAgain] def lossAfterGrowth : Round := lossRound growthBetween.after 800

/-- All three losses are reacted to.  The second one finds the window no larger than at the first,
and takes no snapshot; the third one takes one. -/
theorem snapshots_separated_by_growth_of_losses :
    lossAgain.isReaction = true ∧ ¬Reopened [firstLoss] ∧
      lossAgain.after.inflection = lossAgain.before.inflection ∧
      lossAfterGrowth.isReaction = true ∧ Reopened [firstLoss, lossAgain, growthBetween] ∧
      lossAfterGrowth.after.inflection = lossAfterGrowth.reduced.refWindow := by
  let run := (initial {}).rounds
    [.feedback firstLoss.report, .feedback lossAgain.report, .feedback growthBetween.report,
      .feedback lossAfterGrowth.report]
  have hsecond : run = [firstLoss] ++ lossAgain :: [growthBetween, lossAfterGrowth] := rfl
  have hfourth : run = [firstLoss, lossAgain, growthBetween] ++ lossAfterGrowth :: [] := rfl
  obtain ⟨hagain, hno, hlast, hyes⟩ : lossAgain.isReaction = true ∧ lossAgain.isSnapshot = false ∧
      lossAfterGrowth.isReaction = true ∧ lossAfterGrowth.isSnapshot = true := by decide +kernel
  obtain ⟨-, hagain_iff, hagain_after⟩ := snapshots_separated_by_growth {} hsecond
  obtain ⟨-, hlast_iff, hlast_after⟩ := snapshots_separated_by_growth {} hfourth
  rw [hno, if_neg Bool.false_ne_true] at hagain_after
  rw [hyes, if_pos rfl] at hlast_after
  have hclosed : ¬Reopened [firstLoss] := by
    rw [← hagain_iff hagain, hno]
    exact Bool.false_ne_true
  exact ⟨hagain, hclosed, hagain_after, hlast, (hlast_iff hlast).mp hyes, hlast_after⟩

end MediaSender.RateControl
