import MediaSender.Proofs.RateControl.Runs

/-! # The bookkeeping of a round

Apart from congestion a state remembers of the reports when the path marked a packet last, and how
much was in flight (`books`).

* **Frames.** Neither a reaction nor growth changes any of it (`adjustWindow_books`).
* **Rounds.** So a round enters its report (`observe_books`, `beforeRollOver_books`), and may pass
  on the peak of data in flight at its end (`rollOver_books`). -/

namespace MediaSender

/-- Whether the report has a packet that arrived and is marked. -/
def Feedback.hasReceivedMark (f : Feedback) : Bool := f.received.any (·.isMarked)

namespace RateControl

/-- What a state remembers of marks and of data in flight. -/
structure Books where
  lastMark : Timestamp
  lastRollover : Timestamp
  peakInFlight : DataSize
  previousPeak : DataSize

/-- The books of a state. -/
def books (c : RateControl) : Books :=
  ⟨c.lastMark, c.lastRollover, c.peakInFlight, c.previousPeak⟩

section books

variable (c : RateControl) (f : Feedback) (x : Congestion)

theorem observeMarks_lastMark :
    (c.observeMarks f).lastMark = if f.hasReceivedMark then f.feedbackTime else c.lastMark := by
  unfold observeMarks Feedback.hasReceivedMark
  split
  next hempty =>
    rw [List.isEmpty_iff] at hempty
    rw [hempty]
    rfl
  next => simp only [List.countP_pos_iff, List.any_eq_true]

theorem observeMarks_books :
    (c.observeMarks f).books =
      { c.books with lastMark := if f.hasReceivedMark then f.feedbackTime else c.lastMark } := by
  rw [← observeMarks_lastMark]
  unfold observeMarks
  split <;> rfl

theorem observe_books :
    (c.observe f).books =
      { c.books with
        lastMark := if f.hasReceivedMark then f.feedbackTime else c.lastMark
        peakInFlight := max c.peakInFlight f.dataInFlight } := by
  have h := observeMarks_books { c with queue := c.queue.onFeedback f } f
  simp only [books, Books.mk.injEq] at h
  obtain ⟨hmark, hrollover, hpeak, hprevious⟩ := h
  simp only [books, observe, observeInFlight, hmark, hrollover, hpeak, hprevious]

@[simp] theorem reduceForMarks_books : (c.reduceForMarks f).books = c.books := by
  unfold reduceForMarks
  split <;> rfl

@[simp] theorem reduce_books : (c.reduce f x).books = c.books := by
  have hloss : (if x.loss then c.reduceForLoss f else c).books = c.books := by split <;> rfl
  have hmarks (c : RateControl) :
      (if x.mark then c.reduceForMarks f else c).books = c.books := by
    split
    next => exact reduceForMarks_books c f
    next => rfl
  have hdelay (c : RateControl) : (if x.delay then c.reduceForDelay x else c).books = c.books := by
    split <;> rfl
  exact (hdelay _).trans ((hmarks _).trans hloss)

@[simp] theorem markInflection_books : c.markInflection.books = c.books := by
  unfold markInflection
  split <;> rfl

@[simp] theorem react_books : (c.react f x).books = c.books := by
  show (c.reduce f x).markInflection.books = c.books
  rw [markInflection_books, reduce_books]

@[simp] theorem afterReaction_books : (c.afterReaction f x).books = c.books := by
  unfold afterReaction
  split
  next => exact react_books c f x
  next => rfl

@[simp] theorem grow_books : (c.grow f x).books = c.books := by
  unfold grow
  split <;> rfl

@[simp] theorem adjustWindow_books : (c.adjustWindow f x).books = c.books := by
  rw [adjustWindow_eq]
  split
  next => rw [grow_books, afterReaction_books]
  next => exact afterReaction_books c f x

@[simp] theorem openInflection_books (previous : DataSize) :
    (c.openInflection previous).books = c.books := by
  unfold openInflection
  split <;> rfl

theorem rollOver_books :
    (c.rollOver f).books =
      if c.longRoundTrip f ≤ f.feedbackTime - c.lastRollover then
        { c.books with
          lastRollover := f.feedbackTime, peakInFlight := 0, previousPeak := c.peakInFlight }
      else c.books := by
  unfold rollOver
  split <;> rfl

theorem rollOver_lastMark : (c.rollOver f).lastMark = c.lastMark := by
  unfold rollOver
  split <;> rfl

/-! ### The end of a round -/

/-- The state near the end of a round, which may yet pass on the peak of data in flight. -/
def beforeRollOver (c : RateControl) (f : Feedback) : RateControl :=
  (((c.observe f).adjustWindow f ((c.observe f).congestion f)).updateRate f).openInflection
    (c.observe f).refWindow

theorem round_eq : c.round f = (c.beforeRollOver f).rollOver f := rfl

/-- Until its end a round does no more to the books than to enter the report. -/
theorem beforeRollOver_books : (c.beforeRollOver f).books = (c.observe f).books := by
  rw [beforeRollOver, openInflection_books]
  exact adjustWindow_books ..

theorem beforeRollOver_params : (c.beforeRollOver f).params = c.params := by
  simp [beforeRollOver, updateRate]

/-- A round remembers the time of its report as that of the last mark if a packet arrived marked. -/
theorem round_lastMark :
    (c.round f).lastMark = if f.hasReceivedMark then f.feedbackTime else c.lastMark := by
  have hbooks := (c.beforeRollOver_books f).trans (c.observe_books f)
  rw [round_eq, rollOver_lastMark]
  exact congrArg Books.lastMark hbooks

end books

end RateControl

end MediaSender
