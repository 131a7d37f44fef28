import MediaSender.Proofs.Controller.Turns
import MediaSender.Proofs.RateControl.Bookkeeping
import MediaSender.Proofs.RateControl.WindowFloor

/-! # The pacer's time window along a run

The controller keeps the time window in its state, and the time of the last mark in that of the rate
control.  Both are functions of the turns before.

* **Marks.** The rate control remembers the last report on the present route with a packet that
  arrived marked; a new route starts without marks (`Marked.turn`).
* **Window.** A report sets the window to what its time, its round trip, the streams in force and
  the last mark demand (`windowAfter_eq`); of the other turns only a route change sets it
  (`Turn.Answered.pacingWindow`).
* **Budgets.** Every pacer budget has the window that the turn leaves in the state, and room for one
  and a half times the target rate in it (`Turn.Answered.budget`). -/

namespace MediaSender

/-- The time of a report with a packet that arrived marked. -/
def NetworkMessage.mark? : NetworkMessage → Option Timestamp
  | .feedback f => if f.hasReceivedMark then some f.feedbackTime else none
  | _ => none

namespace SendController

/-- The feedback time of the last report on a route with a packet that arrived marked. -/
def lastMarkOn (route : List Turn) : Option Timestamp :=
  (route.filterMap (·.message.mark?)).getLast?

/-- The time window that a report leads to: a round trip if streams are configured and the last mark
is less than a second old, but at most a second, and a second otherwise. -/
def windowFor (p : Parameters) (streams : StreamSettings) (mark : Option Timestamp)
    (f : Feedback) : TimeDelta :=
  match streams.maxAllocated, mark with
  | some _, some marked =>
    if f.feedbackTime - marked < TimeDelta.ofSeconds 1 then
      min (max p.virtualRtt f.smoothedRtt) (TimeDelta.ofSeconds 1)
    else TimeDelta.ofSeconds 1
  | _, _ => TimeDelta.ofSeconds 1

/-- Whether the turn may set the time window: it takes a report or changes the route. -/
def Turn.setsWindow (t : Turn) : Bool := t.message.isFeedback || t.message.isRouteChange

/-! ### Turns -/

section pacing

variable {c : SendController} {e : NetworkMessage} {p : Pacing} {f : Feedback}

/-- A time before all others stands for no mark at all. -/
theorem windowAfter_eq {mark : Option Timestamp}
    (h : c.control.lastMark = mark.getD .minusInfinity) (f : Feedback) :
    c.windowAfter f = windowFor c.params c.streams mark f := by
  unfold windowAfter windowFor
  rw [h]
  cases hs : c.streams.maxAllocated with
  | none => simp [PacerBudget.defaultWindow]
  | some allocated =>
      cases mark with
      | none =>
          have hnot : ¬f.feedbackTime - Timestamp.minusInfinity < PacerBudget.defaultWindow :=
            Quantity.not_sub_minusInfinity_lt _ _
          rw [Option.getD_none, decide_eq_false hnot]
          rfl
      | some marked =>
          rw [Option.isSome_some, Bool.and_true]
          exact if_congr decide_eq_true_iff rfl rfl

theorem pacing_feedback (c : SendController) (f : Feedback) :
    c.pacing (.feedback f) =
      some ⟨{ c.informed f with currentTarget := some (c.informed f).control.targetRate },
        f.feedbackTime, (c.informed f).control.targetRate⟩ := rfl

/-- The rate control that a budget is computed with remembers the mark of the message, or starts
afresh on a new route. -/
theorem pacing_lastMark (h : c.pacing e = some p) :
    p.controller.control.lastMark =
      e.mark?.getD (if e.isRouteChange then .minusInfinity else c.control.lastMark) := by
  obtain ⟨m, rfl, rfl⟩ | ⟨m, control, rfl, hb, rfl⟩ | ⟨f, rfl, rfl⟩ | ⟨m, t, rfl, -, rfl⟩ :=
    pacing_cases h
  · rfl
  · obtain ⟨-, rfl⟩ := RateControl.setBounds_eq_ok hb
    rfl
  · show (c.control.round f).lastMark = _
    rw [RateControl.round_lastMark]
    cases hf : f.hasReceivedMark <;> simp [NetworkMessage.mark?, NetworkMessage.isRouteChange, hf]
  · rfl

/-- Apart from reports only a route change brings the time window up to date. -/
theorem pacing_pacingWindow (h : c.pacing e = some p) (hf : e.isFeedback = false)
    (hr : e.isRouteChange = false) : p.controller.pacingWindow = c.pacingWindow := by
  obtain ⟨m, rfl, rfl⟩ | ⟨m, control, rfl, -, rfl⟩ | ⟨f, rfl, rfl⟩ | ⟨m, t, rfl, -, rfl⟩ :=
    pacing_cases h
  · rfl
  · cases hr
  · cases hf
  · rfl

end pacing

section answered

variable {t : Turn} {f : Feedback}

theorem Turn.Answered.lastMark (ht : t.Answered) :
    t.after.control.lastMark =
      t.message.mark?.getD
        (if t.message.isRouteChange then .minusInfinity else t.before.control.lastMark) := by
  cases hp : t.pacing with
  | some p =>
      rw [(deliver_of_pacing hp ht).1, p.next_eq]
      exact pacing_lastMark hp
  | none =>
      obtain ⟨-, hroute, hfeedback, control, constraints, hafter, hmark⟩ :=
        deliver_of_no_pacing hp ht
      have hnone : t.message.mark? = none := by
        cases he : t.message with
        | feedback f => rw [he] at hfeedback; cases hfeedback
        | _ => rfl
      rw [hafter, hnone, hroute]
      exact hmark

theorem Turn.Answered.pacingWindow (ht : t.Answered) (hs : t.setsWindow = false) :
    t.after.pacingWindow = t.before.pacingWindow := by
  obtain ⟨hf, hr⟩ := Bool.or_eq_false_iff.mp hs
  cases hp : t.pacing with
  | some p =>
      rw [(deliver_of_pacing hp ht).1, p.next_eq]
      exact pacing_pacingWindow hp hf hr
  | none =>
      obtain ⟨-, -, -, control, constraints, hafter, -⟩ := deliver_of_no_pacing hp ht
      rw [hafter]

/-- Every pacer budget of an update has the time window and is for the target rate that the turn
leaves behind. -/
theorem Turn.Answered.budget (ht : t.Answered) {b : PacerBudget} (hb : t.update.pacer = some b) :
    b.timeWindow = t.after.pacingWindow ∧
      ∃ target, t.after.currentTarget = some target ∧
        b.dataWindow = DataRate.during (target.scale pacingFactor) b.timeWindow := by
  obtain ⟨p, hp, hafter, rfl⟩ := ht.exists_pacing hb
  rw [hafter]
  refine ⟨rfl, p.target, ?_, rfl⟩
  rw [p.next_eq]
  exact (pacing_keeps hp).2.2

/-- The answer to a report has a pacer budget. -/
theorem Turn.Answered.budget_of_feedback (ht : t.Answered) (hf : t.message = .feedback f) :
    ∃ b, t.update.pacer = some b := by
  have hp := t.before.pacing_feedback f
  rw [← hf] at hp
  obtain ⟨-, hpacer | ⟨-, m, hm⟩⟩ := deliver_of_pacing hp ht
  · exact ⟨_, hpacer⟩
  · rw [hf] at hm
    cases hm

end answered

/-! ### Runs -/

/-- The rate control remembers the last mark on the present route. -/
def Marked (past : List Turn) (c : SendController) : Prop :=
  c.control.lastMark = (lastMarkOn (onRoute past)).getD .minusInfinity

section runs

variable {config : ControllerConfig} {c : SendController} {past earlier later : List Turn}
  {messages : List NetworkMessage} {t : Turn} {f : Feedback}

theorem lastMarkOn_concat (past : List Turn) (t : Turn) :
    lastMarkOn (onRoute (past ++ [t])) =
      t.message.mark?.or (if t.message.isRouteChange then none else lastMarkOn (onRoute past)) := by
  rw [lastMarkOn, filterMap_onRoute_concat, List.getLast?_append]
  cases t.message.mark? <;> split <;> rfl

theorem marked_of_create (h : create config = .ok c) (δ : TimeDelta) :
    Marked [] (c.withInterval δ) := by
  obtain ⟨control, hb, rfl⟩ := create_eq_ok h
  obtain ⟨-, rfl⟩ := RateControl.setBounds_eq_ok hb
  rfl

theorem Marked.turn (h : Marked past t.before) (ht : t.Answered) :
    Marked (past ++ [t]) t.after := by
  rw [Marked, ht.lastMark, lastMarkOn_concat, h]
  cases t.message.mark? with
  | some marked => rfl
  | none =>
      rw [Option.none_or, Option.getD_none]
      split <;> rfl

/-- A report sets the time window from what the turns so far tell. -/
theorem Turn.Answered.pacingWindow_of_feedback (ht : t.Answered) (hf : t.message = .feedback f)
    (hbefore : InForce config earlier t.before) (hafter : Marked (earlier ++ [t]) t.after) :
    t.after.pacingWindow =
      windowFor (Parameters.ofTrials config.trials) (streamsInForce config.streams earlier)
        (lastMarkOn (onRoute (earlier ++ [t]))) f := by
  have hp := t.before.pacing_feedback f
  rw [← hf] at hp
  have hnext := (deliver_of_pacing hp ht).1
  rw [Pacing.next_eq] at hnext
  rw [Marked, hnext] at hafter
  rw [hnext, ← hbefore.params, ← hbefore.streams]
  exact windowAfter_eq (c := { t.before with control := (t.before.control.onFeedback f).1 })
    hafter f

/-- The time window stays until a report comes or the route changes. -/
theorem pacingWindow_of_quiet {quiet : List Turn} (h : c.turns messages = quiet ++ t :: later)
    (hquiet : ∀ s ∈ quiet ++ [t], s.setsWindow = false) :
    t.Answered ∧ t.after.pacingWindow = c.pacingWindow := by
  obtain ⟨ht, -, hafter, -⟩ := turns_induction
    (P := fun past c' => (∀ s ∈ past, s.setsWindow = false) → c'.pacingWindow = c.pacingWindow)
    (fun _ => rfl)
    (fun past s hs hanswered hall => by
      have hpast := hs fun r hr => hall r (List.mem_append_left _ hr)
      exact (hanswered.pacingWindow (hall s (by simp))).trans hpast)
    h
  exact ⟨ht, hafter hquiet⟩

end runs

/-- **The pacing window over whole runs.**  At each turn of a run of calls to a new controller, with
the turns before it:

* if it takes a report, the update has a pacer budget; its time window is what the report, the
  streams in force and the last mark on the present route demand (`windowFor`); and every pacer
  budget of a later turn has that time window too, until a turn takes a report or changes the route;
* if the update has a pacer budget, its data window is what one and a half times the current target
  rate carries in its time window. -/
theorem pacing_window_follows_marks {config : ControllerConfig} {c₀ : SendController}
    (h₀ : create config = .ok c₀) (δ : TimeDelta) {messages : List NetworkMessage}
    {earlier later : List Turn} {t : Turn}
    (h : (c₀.withInterval δ).turns messages = earlier ++ t :: later) :
    (∀ f, t.message = .feedback f →
        ∃ b, t.update.pacer = some b ∧
          b.timeWindow =
            windowFor (Parameters.ofTrials config.trials) (streamsInForce config.streams earlier)
              (lastMarkOn (onRoute (earlier ++ [t]))) f ∧
          ∀ quiet u rest, later = quiet ++ u :: rest →
            (∀ s ∈ quiet ++ [u], s.setsWindow = false) →
            ∀ b', u.update.pacer = some b' → b'.timeWindow = b.timeWindow) ∧
      ∀ b, t.update.pacer = some b →
        ∃ target, lastTarget (earlier ++ [t]) = some target ∧
          b.dataWindow = DataRate.during (target.scale pacingFactor) b.timeWindow := by
  obtain ⟨ht, ⟨hbefore, -⟩, ⟨hafter, hmarked⟩, messages', hlater⟩ := turns_induction
    (P := fun past c => InForce config past c ∧ Marked past c)
    ⟨inForce_of_create h₀ δ, marked_of_create h₀ δ⟩
    (fun past t hp ht => ⟨hp.1.turn ht, hp.2.turn ht⟩) h
  refine ⟨?_, ?_⟩
  · intro f hf
    obtain ⟨b, hb⟩ := ht.budget_of_feedback hf
    obtain ⟨hwindow, -⟩ := ht.budget hb
    refine ⟨b, hb, ?_, ?_⟩
    · rw [hwindow]
      exact ht.pacingWindow_of_feedback hf hbefore hmarked
    · intro quiet u rest hsplit hquiet b' hb'
      obtain ⟨hu, hsame⟩ := pacingWindow_of_quiet (hlater.trans hsplit) hquiet
      rw [(hu.budget hb').1, hsame, hwindow]
  · intro b hb
    obtain ⟨-, target, htarget, hdata⟩ := ht.budget hb
    exact ⟨target, hafter.target ▸ htarget, hdata⟩

/-- A run in which a marked packet is reported after streams have been configured, and the network
comes up a little later. -/
def markedRun : List Turn :=
  (plain.withInterval (.ofMillis 25)).turns
    [.streams { maxAllocated := some (.ofKbps 5000) },
      .feedback (RateControl.reportOn 600 (.ofMillis 10) .congested),
      .availability { atTime := .ofMillis 900, isAvailable := true }]

/-- The report of a mark brings the time window down to the virtual round trip, which it keeps. -/
theorem pacing_window_follows_marks_of_mark :
    create {} = .ok plain ∧
      ∃ streams report up b b', markedRun = [streams, report, up] ∧
        report.update.pacer = some b ∧ b.timeWindow = TimeDelta.ofMillis 25 ∧
        up.update.pacer = some b' ∧ b'.timeWindow = b.timeWindow ∧
        ∃ target, lastTarget [streams, report] = some target ∧
          b.dataWindow = DataRate.during (target.scale pacingFactor) b.timeWindow := by
  have h₀ : create {} = .ok plain := rfl
  obtain ⟨streams, report, up, b', hrun, hstreams, hreport, hup, hb'⟩ :
      ∃ streams report up b', markedRun = [streams, report, up] ∧
        streams.message = .streams { maxAllocated := some (.ofKbps 5000) } ∧
        report.message = .feedback (RateControl.reportOn 600 (.ofMillis 10) .congested) ∧
        up.setsWindow = false ∧ up.update.pacer = some b' :=
    ⟨_, _, _, _, rfl, rfl, rfl, rfl, rfl⟩
  have hsplit : (plain.withInterval (.ofMillis 25)).turns _ = [streams] ++ report :: [up] := hrun
  obtain ⟨hwindow, hdata⟩ := pacing_window_follows_marks h₀ (.ofMillis 25) hsplit
  obtain ⟨b, hb, hfor, hkept⟩ := hwindow _ hreport
  obtain ⟨target, htarget, hcarried⟩ := hdata b hb
  have hforce : streamsInForce {} [streams] = { maxAllocated := some (.ofKbps 5000) } := by
    rw [streamsInForce, List.foldl_cons, hstreams]
    rfl
  have hmark : NetworkMessage.mark? (.feedback (RateControl.reportOn 600 (.ofMillis 10)
      .congested)) = some (.ofMillis 600) := by
    decide +kernel
  refine ⟨h₀, streams, report, up, b, b', hrun, hb, ?_, hb', ?_, target, htarget, hcarried⟩
  · rw [hfor, lastMarkOn_concat, hreport, hmark, Option.some_or]
    show windowFor _ (streamsInForce {} [streams]) _ _ = _
    rw [hforce]
    decide +kernel
  · exact hkept [] up [] rfl (by simpa using hup) b' hb'

end SendController

end MediaSender
