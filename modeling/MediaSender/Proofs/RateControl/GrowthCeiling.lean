import MediaSender.Proofs.RateControl.Bookkeeping
import MediaSender.Proofs.RateControl.Reactions

/-! # The ceiling of growth along a run

The window does not grow beyond what was in flight lately plus some room.  The state keeps two peaks
for this, and passes the younger one on at the end of a round if a round trip has passed (a
rollover).

* **History.** The rounds before a report fall into those since the last rollover and those between
  the last two (`sinceRollovers`), and the two peaks are the largest data in flight of the two parts
  (`Tallied`).  Every round keeps this (`Tallied.round`), and bounds do not matter to it.
* **Ceiling.** So the limit of growth is a function of the reports since the second last rollover
  (`Tallied.ceiling_eq`).
* **Growth.** Growth goes no further than that limit, and leaves a window alone that is beyond it
  (`grow_le`). -/

namespace MediaSender.RateControl

/-- The largest data in flight of the rounds, and not less than nothing. -/
def peak (rs : List Round) : DataSize := rs.foldl (fun m r => max m r.report.dataInFlight) 0

/-- The window up to which there is growth if the peak of data in flight is `m`. -/
def growthCeiling (p : Parameters) (m : DataSize) : DataSize :=
  max p.minRefWindow (p.maxSegmentSize + m.scale p.inFlightHeadRoom)

namespace Round

/-- The state that growth finds in the round. -/
def reduced (r : Round) : RateControl :=
  (r.before.observe r.report).afterReaction r.report r.congestion

/-- The state that growth leaves in the round. -/
def grown (r : Round) : RateControl :=
  (r.before.observe r.report).adjustWindow r.report r.congestion

/-- Whether the peak of data in flight is passed on at the end of the round. -/
def isRollover (r : Round) : Bool :=
  let c := r.before.beforeRollOver r.report
  decide (c.longRoundTrip r.report ≤ r.time - c.lastRollover)

end Round

/-- The rounds between the last two rollovers, and those since the last one.  As long as there are
not two rollovers, the first part begins with the run. -/
def sinceRollovers (rs : List Round) : List Round × List Round :=
  rs.foldl (fun (older, recent) r =>
    if r.isRollover then (recent ++ [r], []) else (older, recent ++ [r])) ([], [])

/-- The rounds since the second last rollover. -/
def sinceSecondRollover (rs : List Round) : List Round :=
  (sinceRollovers rs).1 ++ (sinceRollovers rs).2

/-- The last round with a rollover. -/
def lastRollover? (rs : List Round) : Option Round := (rs.filter Round.isRollover).getLast?

/-! ### Peaks -/

section peaks

variable (rs ss : List Round) (r : Round)

theorem peak_concat : peak (rs ++ [r]) = max (peak rs) r.report.dataInFlight := by simp [peak]

theorem peak_nonneg : 0 ≤ peak rs := by
  induction rs using List.reverseRecOn with
  | nil => exact le_refl 0
  | append_singleton rs r ih =>
      rw [peak_concat]
      exact le_trans ih (le_max_left ..)

theorem peak_append : peak (rs ++ ss) = max (peak rs) (peak ss) := by
  induction ss using List.reverseRecOn with
  | nil =>
      rw [List.append_nil]
      exact (max_eq_left (peak_nonneg rs)).symm
  | append_singleton ss s ih =>
      rw [← List.append_assoc, peak_concat, peak_concat, ih, max_assoc]

theorem sinceRollovers_concat :
    sinceRollovers (rs ++ [r]) =
      if r.isRollover then ((sinceRollovers rs).2 ++ [r], [])
      else ((sinceRollovers rs).1, (sinceRollovers rs).2 ++ [r]) := by
  simp [sinceRollovers]

theorem lastRollover?_concat :
    lastRollover? (rs ++ [r]) = if r.isRollover then some r else lastRollover? rs := by
  unfold lastRollover?
  rw [List.filter_append]
  split
  next h => simp [h]
  next h => simp [h]

end peaks

/-! ### Rounds -/

section rounds

variable {p : Parameters} {c : RateControl} {past : List Round} {r : Round}

namespace Round

theorem isRollover_iff :
    r.isRollover = true ↔
      max r.before.params.virtualRtt r.report.smoothedRtt ≤ r.time - r.before.lastRollover := by
  have hbooks := (r.before.beforeRollOver_books r.report).trans (observe_books ..)
  have hlast : (r.before.beforeRollOver r.report).lastRollover = r.before.lastRollover :=
    congrArg Books.lastRollover hbooks
  rw [isRollover, decide_eq_true_iff, longRoundTrip, beforeRollOver_params, hlast]

/-- A round enters its report, and passes on the peak at its end if it is time. -/
theorem after_books (r : Round) :
    r.after.books =
      if r.isRollover then
        { (r.before.observe r.report).books with
          lastRollover := r.time
          peakInFlight := 0
          previousPeak := (r.before.observe r.report).peakInFlight }
      else (r.before.observe r.report).books := by
  have hbooks := r.before.beforeRollOver_books r.report
  have hpeak : (r.before.beforeRollOver r.report).peakInFlight =
      (r.before.observe r.report).peakInFlight := congrArg Books.peakInFlight hbooks
  show (r.before.round r.report).books = _
  rw [round_eq, rollOver_books, hbooks, hpeak]
  exact (if_congr decide_eq_true_iff rfl rfl).symm

theorem after_lastRollover (r : Round) :
    r.after.lastRollover = if r.isRollover then r.time else r.before.lastRollover := by
  have hbooks := r.after_books
  split
  next hr =>
    rw [if_pos hr] at hbooks
    exact congrArg Books.lastRollover hbooks
  next hr =>
    rw [if_neg hr, observe_books] at hbooks
    exact congrArg Books.lastRollover hbooks

theorem after_refWindow (r : Round) : r.after.refWindow = r.grown.refWindow :=
  round_refWindow ..

theorem reduced_of_not_isReaction (h : r.isReaction = false) :
    r.reduced.refWindow = r.before.refWindow := by
  have hreduced : r.reduced = r.before.observe r.report := by
    rw [reduced, afterReaction, if_neg]
    rw [← isReaction, h]
    exact Bool.false_ne_true
  rw [hreduced, observe_refWindow]

end Round

/-- The two peaks and the time that a state remembers are those of the rounds before. -/
structure Tallied (p : Parameters) (past : List Round) (c : RateControl) : Prop where
  params : c.params = p
  rollover : c.lastRollover = ((lastRollover? past).map Round.time).getD .minusInfinity
  peak : c.peakInFlight = RateControl.peak (sinceRollovers past).2
  previous : c.previousPeak = RateControl.peak (sinceRollovers past).1

theorem tallied_initial (p : Parameters) : Tallied p [] (initial p) := ⟨rfl, rfl, rfl, rfl⟩

theorem Tallied.bounds (h : Tallied p past c) {next : RateControl} {lower upper : DataRate}
    (hb : c.setBounds lower upper = .ok next) : Tallied p past next := by
  obtain ⟨-, rfl⟩ := setBounds_eq_ok hb
  exact ⟨h.params, h.rollover, h.peak, h.previous⟩

/-- The younger peak takes in the report of a round. -/
theorem Tallied.observe_peak (h : Tallied p past r.before) :
    (r.before.observe r.report).peakInFlight =
      RateControl.peak ((sinceRollovers past).2 ++ [r]) := by
  rw [peak_concat, ← h.peak]
  exact congrArg Books.peakInFlight (observe_books ..)

theorem Tallied.round (h : Tallied p past r.before) : Tallied p (past ++ [r]) r.after := by
  have hparams : r.after.params = p := r.after_params.trans h.params
  have hbooks := r.after_books
  cases hr : r.isRollover with
  | true =>
      rw [hr, if_pos rfl] at hbooks
      refine ⟨hparams, ?_, ?_, ?_⟩
      · rw [lastRollover?_concat, hr]
        exact congrArg Books.lastRollover hbooks
      · rw [sinceRollovers_concat, hr]
        exact congrArg Books.peakInFlight hbooks
      · rw [sinceRollovers_concat, hr]
        exact (congrArg Books.previousPeak hbooks).trans h.observe_peak
  | false =>
      rw [hr, if_neg Bool.false_ne_true] at hbooks
      have hobserve := hbooks.trans (observe_books ..)
      refine ⟨hparams, ?_, ?_, ?_⟩
      · rw [lastRollover?_concat, hr]
        exact (congrArg Books.lastRollover hobserve).trans h.rollover
      · rw [sinceRollovers_concat, hr]
        exact (congrArg Books.peakInFlight hbooks).trans h.observe_peak
      · rw [sinceRollovers_concat, hr]
        exact (congrArg Books.previousPeak hobserve).trans h.previous

/-- The limit of growth that a round computes is that of the reports since the second last
rollover. -/
theorem Tallied.ceiling_eq (h : Tallied p past r.before) :
    r.reduced.ceiling = growthCeiling p (RateControl.peak (sinceSecondRollover past ++ [r])) := by
  have hparams : r.reduced.params = p := by
    rw [Round.reduced, afterReaction_params, observe_params, h.params]
  have hbooks : r.reduced.books = (r.before.observe r.report).books := afterReaction_books ..
  have hpeak : max r.reduced.peakInFlight r.reduced.previousPeak =
      RateControl.peak (sinceSecondRollover past ++ [r]) := by
    have hyounger : r.reduced.peakInFlight = _ :=
      (congrArg Books.peakInFlight hbooks).trans h.observe_peak
    have holder : r.reduced.previousPeak = _ :=
      (congrArg Books.previousPeak (hbooks.trans (observe_books ..))).trans h.previous
    rw [hyounger, holder, max_comm, ← peak_append, ← List.append_assoc]
    rfl
  rw [ceiling, growthCeiling, hparams, hpeak]
  exact max_comm ..

theorem Tallied.isRollover_iff (h : Tallied p past r.before) :
    r.isRollover = true ↔
      ∀ s ∈ lastRollover? past, max p.virtualRtt r.report.smoothedRtt ≤ r.time - s.time := by
  rw [Round.isRollover_iff, h.params, h.rollover]
  cases lastRollover? past with
  | none =>
      have hle : max p.virtualRtt r.report.smoothedRtt ≤ r.time - Timestamp.minusInfinity :=
        not_lt.mp (Quantity.not_sub_minusInfinity_lt _ _)
      simpa using hle
  | some s => simp

end rounds

/-! ### Growth -/

/-- Growth goes no further than the ceiling, and leaves a window alone that is beyond it. -/
theorem grow_le (c : RateControl) (f : Feedback) (x : Congestion) :
    (c.grow f x).refWindow ≤ max c.refWindow c.ceiling := by
  unfold grow
  split
  next =>
    refine le_trans (Quantity.clamp_le c.minRefWindow_le_ceiling _) ?_
    exact le_max_right ..
  next => exact le_max_left ..

/-- A round in which nothing may grow leaves alone what growth would find. -/
theorem Round.grown_le (r : Round) :
    r.grown.refWindow ≤ max r.reduced.refWindow r.reduced.ceiling := by
  rw [grown, adjustWindow_eq]
  split
  next => exact grow_le ..
  next => exact le_max_left ..

/-- **Growth ends where data was in flight lately.**  In any run of reports and accepted bounds,
under any parameters, let `m` be the largest data in flight of the reports since the second last
rollover, or nothing if that is more.

* The peak is passed on at the end of a round exactly if its report comes the longer one of its
  round trip and the virtual round trip after the last round with a rollover, if there was one; the
  state then remembers its time.
* Growth takes the window to no more than the larger one of the window that it finds and the limit
  for `m`.
* So in a round without a reaction to congestion the window afterwards is no more than the larger
  one of the window before and that limit. -/
theorem growth_ends_at_ceiling (p : Parameters) {inputs : List Input} {before later : List Round}
    {r : Round} (h : (initial p).rounds inputs = before ++ r :: later) :
    (r.isRollover = true ↔
        ∀ s ∈ lastRollover? before, max p.virtualRtt r.report.smoothedRtt ≤ r.time - s.time) ∧
      r.after.lastRollover = (if r.isRollover then r.time else r.before.lastRollover) ∧
      r.grown.refWindow ≤
        max r.reduced.refWindow (growthCeiling p (peak (sinceSecondRollover before ++ [r]))) ∧
      (r.isReaction = false →
        r.after.refWindow ≤
          max r.before.refWindow (growthCeiling p (peak (sinceSecondRollover before ++ [r])))) := by
  have ht : Tallied p before r.before :=
    rounds_induction (P := Tallied p) (tallied_initial p) (fun _ _ ht => ht.round)
      (fun _ _ _ _ _ ht hb => ht.bounds hb) h
  have hgrown := r.grown_le
  rw [ht.ceiling_eq] at hgrown
  refine ⟨ht.isRollover_iff, r.after_lastRollover, hgrown, ?_⟩
  intro hr
  rw [r.after_refWindow, ← Round.reduced_of_not_isReaction hr]
  exact hgrown

/-- The report, `sent` milliseconds into a session, on one packet that arrived, with `inFlight`
bytes in flight. -/
def steadyReport (sent inFlight : Int) : Feedback :=
  { reportOn sent (.ofMillis 10) .notCapable with dataInFlight := .ofInt inFlight }

/-- The rounds of a run in which ever less is in flight, each of them with a rollover. -/
def idleRounds : List Round :=
  (initial {}).rounds
    [.feedback (steadyReport 600 9000), .feedback (steadyReport 700 7000),
      .feedback (steadyReport 800 1000), .feedback (steadyReport 900 500)]

/-- In the last round the limit is down at the floor again, and growth stops. -/
theorem growth_ends_at_ceiling_of_idle :
    ∃ before r, idleRounds = before ++ [r] ∧ (lastRollover? before).isSome = true ∧
      r.isRollover = true ∧ r.isReaction = false ∧
      r.grown.refWindow ≤ max r.reduced.refWindow (.ofInt 3000) ∧
      r.after.refWindow ≤ max r.before.refWindow (.ofInt 3000) := by
  obtain ⟨r, hr, hlast, hroll, hreaction, hceiling⟩ : ∃ r ∈ idleRounds.getLast?,
      (lastRollover? idleRounds.dropLast).isSome = true ∧ r.isRollover = true ∧
        r.isReaction = false ∧
        growthCeiling {} (peak (sinceSecondRollover idleRounds.dropLast ++ [r])) = .ofInt 3000 := by
    decide +kernel
  obtain ⟨before, hsplit⟩ := List.getLast?_eq_some_iff.mp hr
  have hbefore : idleRounds.dropLast = before := by rw [hsplit, List.dropLast_concat]
  rw [hbefore] at hlast hceiling
  obtain ⟨-, -, hgrown, hafter⟩ := growth_ends_at_ceiling {} hsplit
  rw [hceiling] at hgrown hafter
  exact ⟨before, r, hsplit, hlast, hroll, hreaction, hgrown, hafter hreaction⟩

end MediaSender.RateControl
