import MediaSender.Proofs.Quantity
import MediaSender.Proofs.RateControl.Runs

/-! # The floor of the reference window

No reduction keeps the window above `Parameters.minRefWindow`; the floor is a matter of the whole
round.

* **Coupling.** A reaction sets the time of the last reaction to the feedback time, and this is
  what lets the same round grow (`grows_react`).
* **Growth.** From any window, however small, growth ends at the floor or above, because the ceiling
  is no lower (`minRefWindow_le_grow`).
* **Rounds.** A round without reaction that cannot grow leaves the window alone, so every round
  keeps the floor (`minRefWindow_le_adjustWindow`), whatever its factors are, and whatever the
  parameters.  Every run does, then (`Reachable.floor`).
* **Reductions.** Each of the three kinds can go below (`Undercuts`). -/

namespace MediaSender.RateControl

section floor

variable (c : RateControl) (f : Feedback) (x : Congestion)

theorem grows_react : (c.react f x).grows f x = true := by
  rw [grows, react_lastReaction, decide_eq_true rfl, Bool.or_true]

theorem minRefWindow_le_ceiling : c.params.minRefWindow ≤ c.ceiling :=
  le_max_right _ _

/-- Growth restores the floor from any window. -/
theorem minRefWindow_le_grow : c.params.minRefWindow ≤ (c.grow f x).refWindow := by
  unfold grow
  split
  next => exact Quantity.le_clamp c.minRefWindow_le_ceiling _
  next h => exact le_trans c.minRefWindow_le_ceiling (not_lt.mp h)

theorem minRefWindow_le_adjustWindow (hc : c.params.minRefWindow ≤ c.refWindow) :
    c.params.minRefWindow ≤ (c.adjustWindow f x).refWindow := by
  rw [adjustWindow_eq]
  by_cases hr : c.reacts f x = true
  · -- The reductions may have gone below the floor, but the round grows.
    have ha : c.afterReaction f x = c.react f x := if_pos hr
    rw [ha, if_pos (grows_react c f x)]
    have hg := minRefWindow_le_grow (c.react f x) f x
    rw [react_params] at hg
    exact hg
  · have ha : c.afterReaction f x = c := if_neg hr
    rw [ha]
    split
    next => exact minRefWindow_le_grow c f x
    next => exact hc

theorem minRefWindow_le_round (hc : c.params.minRefWindow ≤ c.refWindow) :
    c.params.minRefWindow ≤ (c.round f).refWindow := by
  rw [round_refWindow]
  have h := minRefWindow_le_adjustWindow (c.observe f) f ((c.observe f).congestion f)
  rw [observe_params, observe_refWindow] at h
  exact h hc

end floor

/-- The floor holds along every run. -/
theorem Reachable.floor {p : Parameters} {c : RateControl} (hr : Reachable p c) :
    p.minRefWindow ≤ c.refWindow := by
  have h : c.params.minRefWindow ≤ c.refWindow := by
    refine hr.induction (P := fun c => c.params.minRefWindow ≤ c.refWindow)
      (le_refl p.minRefWindow) ?_ ?_
    · intro c f hc
      show (c.round f).params.minRefWindow ≤ (c.round f).refWindow
      rw [round_params]
      exact minRefWindow_le_round c f hc
    · intro c c' lower upper hc e
      rw [(setBounds_eq_ok e).2]
      exact hc
  rw [hr.params] at h
  exact h

/-! ### Below the floor in the middle of a round -/

/-- Some report to some reachable state shows congestion of the given kinds alone, and the
reaction to it takes the window below the floor in the middle of the round. -/
def Undercuts (loss mark delay : Bool) : Prop :=
  ∃ (p : Parameters) (c : RateControl) (f : Feedback),
    Reachable p c ∧
      (((c.observe f).congestion f).loss = loss ∧ ((c.observe f).congestion f).mark = mark ∧
        ((c.observe f).congestion f).delay = delay) ∧
      ((c.observe f).afterReaction f ((c.observe f).congestion f)).refWindow < p.minRefWindow

/-- The report, `sent` milliseconds into a session, on one packet sent at its start. -/
def reportOn (sent : Int) (receiveTime : Timestamp) (marking : Marking) : Feedback where
  feedbackTime := .ofMillis sent
  smoothedRtt := .ofMillis 25
  packets := [{ sent := { sendTime := 0, size := .ofInt 1000 }, receiveTime, marking }]

theorem undercuts_loss : Undercuts true false false :=
  ⟨{}, initial {}, reportOn 600 .plusInfinity .notCapable, reachable_initial {}, by decide +kernel⟩

theorem undercuts_mark : Undercuts false true false :=
  ⟨{}, initial {}, reportOn 600 (.ofMillis 10) .congested, reachable_initial {}, by decide +kernel⟩

/-- A one-way delay of half a second after one of ten milliseconds. -/
theorem undercuts_delay : Undercuts false false true :=
  ⟨{}, ((initial {}).onFeedback (reportOn 20 (.ofMillis 10) .notCapable)).1,
    reportOn 600 (.ofMillis 500) .notCapable, (reachable_initial {}).onFeedback _,
    by decide +kernel⟩

/-- **The reference window is never below its floor between two rounds**: not initially, and not
after any run of reports and accepted bounds, under any parameters.  In the middle of a round each
of the three kinds of congestion can take it below. -/
theorem minRefWindow_le_refWindow :
    (∀ (p : Parameters) (c : RateControl), Reachable p c → p.minRefWindow ≤ c.refWindow) ∧
      Undercuts true false false ∧ Undercuts false true false ∧ Undercuts false false true := by
  refine ⟨?_, undercuts_loss, undercuts_mark, undercuts_delay⟩
  intro p c hr
  exact hr.floor

/-- After the loss that undercuts the floor the round ends at the floor or above. -/
theorem minRefWindow_le_refWindow_after_loss :
    Reachable {} ((initial {}).onFeedback (reportOn 600 .plusInfinity .notCapable)).1 ∧
      ({} : Parameters).minRefWindow ≤
        ((initial {}).onFeedback (reportOn 600 .plusInfinity .notCapable)).1.refWindow := by
  have hr := (reachable_initial {}).onFeedback (reportOn 600 .plusInfinity .notCapable)
  exact ⟨hr, minRefWindow_le_refWindow.1 {} _ hr⟩

end MediaSender.RateControl
