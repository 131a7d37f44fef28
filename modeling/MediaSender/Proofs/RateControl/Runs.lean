import MediaSender.Proofs.Lists
import MediaSender.RateControl.Round

/-! # Runs of the rate control

A state is `Reachable` under given parameters if a run of reports and of accepted bounds ends in
it; the log that the run started with does not matter.

* **Steps.** An accepted input is a report, or bounds in order (`step_eq_ok`).
* **Induction.** What holds initially and is kept by both kinds of input holds of every reachable
  state (`Reachable.induction`).
* **Frames.** No operation changes the parameters, and only `react` and `grow` change the
  window. -/

namespace MediaSender.RateControl

/-- A state in which a run from the initial state ends. -/
def Reachable (p : Parameters) (c : RateControl) : Prop :=
  ∃ (log log' : ReportLog) (inputs : List Input),
    inputs.foldlM (fun s i => s.1.step s.2 i) (initial p, log) = .ok (c, log')

/-! ### Steps -/

theorem exists_setBounds_eq_ok (c : RateControl) {lower upper : DataRate} (h : ¬upper < lower) :
    ∃ c', c.setBounds lower upper = .ok c' :=
  ⟨_, if_neg h⟩

theorem setBounds_eq_ok {c c' : RateControl} {lower upper : DataRate}
    (e : c.setBounds lower upper = .ok c') :
    ¬upper < lower ∧
      c' = { c with
        minRate := lower, maxRate := upper, queue := { c.queue with minRate := lower } } := by
  unfold setBounds at e
  split at e
  next => cases e
  next h => exact ⟨h, (Except.ok.inj e).symm⟩

theorem step_eq_ok {c c' : RateControl} {log log' : ReportLog} {i : Input}
    (e : c.step log i = .ok (c', log')) :
    (∃ f, i = .feedback f ∧ c' = (c.onFeedback f).1 ∧ log' = log.record (c.onFeedback f).2) ∨
      (∃ lower upper, i = .bounds lower upper ∧ c.setBounds lower upper = .ok c' ∧ log' = log) := by
  cases i with
  | feedback f =>
      rw [step, Except.ok.injEq, Prod.mk.injEq] at e
      exact .inl ⟨f, rfl, e.1.symm, e.2.symm⟩
  | bounds lower upper =>
      rw [step] at e
      cases hb : c.setBounds lower upper with
      | error x => rw [hb] at e; cases e
      | ok c₁ =>
          rw [hb] at e
          cases e
          exact .inr ⟨lower, upper, rfl, hb, rfl⟩

/-- What holds initially and is kept by both kinds of input holds of every reachable state. -/
theorem Reachable.induction {p : Parameters} {P : RateControl → Prop} (h0 : P (initial p))
    (hf : ∀ c f, P c → P (c.onFeedback f).1)
    (hb : ∀ c c' lower upper, P c → c.setBounds lower upper = .ok c' → P c') {c : RateControl}
    (hr : Reachable p c) : P c := by
  obtain ⟨log, log', inputs, hrun⟩ := hr
  refine List.foldlM_induction (P := fun s => P s.1) ?_ h0 hrun
  intro s i s' hs e
  obtain ⟨f, -, hc, -⟩ | ⟨lower, upper, -, hok, -⟩ := step_eq_ok e
  · rw [hc]
    exact hf s.1 f hs
  · exact hb s.1 s'.1 lower upper hs hok

theorem reachable_initial (p : Parameters) : Reachable p (initial p) := ⟨{}, {}, [], rfl⟩

theorem Reachable.onFeedback {p : Parameters} {c : RateControl} (hr : Reachable p c)
    (f : Feedback) : Reachable p (c.onFeedback f).1 := by
  obtain ⟨log, log', inputs, hrun⟩ := hr
  exact ⟨log, log'.record (c.onFeedback f).2, inputs ++ [.feedback f],
    List.foldlM_concat_eq_ok hrun rfl⟩

/-! ### The two parts of an adjustment -/

section parts

variable (c : RateControl) (f : Feedback) (x : Congestion)

/-- The state in the middle of a round: if there is a reaction to the congestion, its reductions
are made, and nothing has grown yet. -/
def afterReaction : RateControl := if c.reacts f x then c.react f x else c

theorem adjustWindow_eq :
    c.adjustWindow f x =
      if (c.afterReaction f x).grows f x then (c.afterReaction f x).grow f x
      else c.afterReaction f x := rfl

end parts

/-! ### What stays the same -/

section frames

variable (c : RateControl) (f : Feedback) (x : Congestion)

@[simp] theorem observeMarks_params : (c.observeMarks f).params = c.params := by
  unfold observeMarks
  split <;> rfl

@[simp] theorem observeMarks_refWindow : (c.observeMarks f).refWindow = c.refWindow := by
  unfold observeMarks
  split <;> rfl

@[simp] theorem observe_params : (c.observe f).params = c.params :=
  observeMarks_params { c with queue := c.queue.onFeedback f } f

@[simp] theorem observe_refWindow : (c.observe f).refWindow = c.refWindow :=
  observeMarks_refWindow { c with queue := c.queue.onFeedback f } f

@[simp] theorem reduceForMarks_params : (c.reduceForMarks f).params = c.params := by
  unfold reduceForMarks
  split <;> rfl

@[simp] theorem reduce_params : (c.reduce f x).params = c.params := by
  unfold reduce
  split <;> split <;> split <;> simp [reduceForLoss, reduceForDelay]

@[simp] theorem markInflection_params : c.markInflection.params = c.params := by
  unfold markInflection
  split <;> rfl

@[simp] theorem react_params : (c.react f x).params = c.params := by
  show (c.reduce f x).markInflection.params = c.params
  rw [markInflection_params, reduce_params]

@[simp] theorem react_lastReaction : (c.react f x).lastReaction = f.feedbackTime := rfl

@[simp] theorem grow_params : (c.grow f x).params = c.params := by
  unfold grow
  split <;> rfl

@[simp] theorem afterReaction_params : (c.afterReaction f x).params = c.params := by
  unfold afterReaction
  split <;> simp

@[simp] theorem adjustWindow_params : (c.adjustWindow f x).params = c.params := by
  rw [adjustWindow_eq]
  split <;> simp

@[simp] theorem openInflection_params (previous : DataSize) :
    (c.openInflection previous).params = c.params := by
  unfold openInflection
  split <;> rfl

@[simp] theorem openInflection_refWindow (previous : DataSize) :
    (c.openInflection previous).refWindow = c.refWindow := by
  unfold openInflection
  split <;> rfl

@[simp] theorem rollOver_params : (c.rollOver f).params = c.params := by
  unfold rollOver
  split <;> rfl

@[simp] theorem rollOver_refWindow : (c.rollOver f).refWindow = c.refWindow := by
  unfold rollOver
  split <;> rfl

@[simp] theorem round_params : (c.round f).params = c.params := by
  simp [round, updateRate]

/-- Only the adjustment changes the window in a round. -/
theorem round_refWindow :
    (c.round f).refWindow =
      ((c.observe f).adjustWindow f ((c.observe f).congestion f)).refWindow := by
  simp [round, updateRate]

end frames

theorem Reachable.params {p : Parameters} {c : RateControl} (hr : Reachable p c) :
    c.params = p := by
  refine hr.induction (P := fun c => c.params = p) rfl ?_ ?_
  · intro c f hc
    exact (round_params c f).trans hc
  · intro c c' lower upper hc e
    rw [(setBounds_eq_ok e).2]
    exact hc

end MediaSender.RateControl
