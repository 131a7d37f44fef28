import MediaSender.Proofs.Controller.Polling
import MediaSender.Proofs.Guarded.Runs

/-! # The controller on a machine that may stop

Each answer of the controller that sets bounds, computes a pacer budget or runs a round has a
guarded one of the same shape.

* **Parameters.** The parameters that a controller reads from trials are words
  (`Parameters.wordSized_ofTrials`).
* **Use.** A new controller has such parameters and bounds in order, and every message that is
  answered keeps both (`SendController.Sound`).
* **Stops.** Inverted bounds stop a controller, and so does a report that exhausts the counter of
  closed epochs; nothing else does (`SendController.Sound.guardedDeliver_eq`). -/

namespace MediaSender

open Fault (ok_bind)

/-! ### Parameters -/

namespace Parameters

/-- A whole number that is read from a text is a signed 32-bit word. -/
theorem bounds_of_parse_integer {s : String} {n : Int}
    (h : ValueKind.parse? .integer s = some n) : -0x80000000 ≤ n ∧ n ≤ 0x7fffffff := by
  have h' : Text.Decimal.integerWithin? (-0x80000000) 0x7fffffff s.toList = some n := h
  rw [Text.Decimal.integerWithin?, Option.filter_eq_some_iff] at h'
  exact of_decide_eq_true h'.2

theorem WordSized.set {p q : Parameters} (hp : p.WordSized) {key value : String}
    (h : p.set key value = .ok q) : q.WordSized := by
  unfold Parameters.set at h
  split at h
  next => cases h
  next t _ =>
    split at h
    next => cases h
    next v hv =>
      cases h
      cases t with
      | postCongestionRtts => exact { hp with postCongestionRtts := bounds_of_parse_integer hv }
      | resetRtts => exact { hp with resetRtts := bounds_of_parse_integer hv }
      | baseDelayEpochs => exact { hp with baseDelayEpochs := bounds_of_parse_integer hv }
      | _ => exact ⟨hp.postCongestionRtts, hp.resetRtts, hp.baseDelayEpochs⟩

theorem WordSized.follow {p : Parameters} (hp : p.WordSized)
    (entry : Except TrialError (String × String)) : (p.follow entry).WordSized := by
  unfold Parameters.follow
  split
  next => exact hp
  next key value =>
    cases h : p.set key value with
    | error x => exact hp
    | ok q => exact hp.set h

/-- The parameters under any trials are words. -/
theorem wordSized_ofTrials (t : Trials) : (ofTrials t).WordSized := by
  have hfold : ∀ (entries : List (Except TrialError (String × String))) (p : Parameters),
      p.WordSized → (entries.foldl Parameters.follow p).WordSized := by
    intro entries
    induction entries with
    | nil => exact fun p hp => hp
    | cons entry rest ih => exact fun p hp => ih _ (hp.follow entry)
  exact hfold _ _ ⟨by decide, by decide, by decide⟩

end Parameters

/-! ### Answers -/

/-- The budget for two rates over a time window. -/
def PacerBudget.guardedOfRates (atTime : Timestamp) (dataRate padRate : DataRate)
    (window : TimeDelta) : Except Fault PacerBudget := do
  let dataWindow ← dataRate.guardedDuring window
  let padWindow ← padRate.guardedDuring window
  return { atTime, dataWindow, timeWindow := window, padWindow }

namespace SendController

/-- The pacer budget at `now` for a target rate. -/
def guardedPacerBudget (c : SendController) (now : Timestamp) (target : DataRate) :
    Except Fault (SendController × PacerBudget) := do
  let (c, pad) := c.padRate now target
  let budget ←
    PacerBudget.guardedOfRates now (target.scale pacingFactor) pad c.pacingWindow
  return ({ c with isPadding := !pad.isZero }, budget)

/-- Announce a target rate. -/
def guardedAnnounce (c : SendController) (now : Timestamp) (target : DataRate) (rtt : TimeDelta) :
    Except Fault (SendController × ControlUpdate) := do
  let (c, pacer) ← { c with currentTarget := some target }.guardedPacerBudget now target
  return (c,
    { pacer := some pacer
      target := some
        { atTime := now
          estimate := { atTime := now, roundTrip := rtt, period := estimatePeriod }
          rate := target } })

/-- The network came up or went down. -/
def guardedOnAvailability (c : SendController) (m : Availability) :
    Except Fault (SendController × ControlUpdate) :=
  if m.isAvailable then c.guardedAnnounce m.atTime c.startRate 0 else .ok (c, {})

/-- Start afresh on a new route. -/
def guardedOnRouteChange (c : SendController) (m : RouteChange) :
    Except Fault (SendController × ControlUpdate) := do
  let control ← RateControl.guardedInitial c.params
  let control ← control.guardedSetBounds m.constraints.lower m.constraints.upper
  let c := c.rerouted m control
  c.guardedAnnounce m.atTime c.startRate 0

/-- Tell the pacer when padding starts or stops. -/
def guardedOnProcessInterval (c : SendController) (m : ProcessInterval) :
    Except Fault (SendController × ControlUpdate) :=
  match c.currentTarget with
  | none => .ok (c, {})
  | some target => do
    let (next, pacer) ← c.guardedPacerBudget m.atTime target
    return (next, if next.isPadding = c.isPadding then {} else { pacer := some pacer })

/-- Take new rate limits. -/
def guardedOnConstraints (c : SendController) (m : RateConstraints) :
    Except Fault (SendController × ControlUpdate) := do
  let control ← c.control.guardedSetBounds m.lower m.upper
  return ({ c with control, constraints := m }, {})

/-- A round of feedback. -/
def guardedOnFeedback (c : SendController) (f : Feedback) :
    Except Fault (SendController × ControlUpdate) := do
  let (control, _) ← c.control.guardedOnFeedback f
  let c := { c with control }
  let c := { c with pacingWindow := c.windowAfter f }
  c.guardedAnnounce f.feedbackTime c.control.targetRate f.smoothedRtt

/-- Hand a message to the controller. -/
def guardedDeliver (c : SendController) :
    NetworkMessage → Except Fault (SendController × ControlUpdate)
  | .availability m => c.guardedOnAvailability m
  | .routeChange m => c.guardedOnRouteChange m
  | .processInterval m => c.guardedOnProcessInterval m
  | .streams m => .ok (c.onStreams m)
  | .constraints m => c.guardedOnConstraints m
  | .feedback m => c.guardedOnFeedback m
  | .remoteBitrate _ | .roundTrip _ | .sentPacket _ | .receivedPacket _ | .lossReport _
  | .linkEstimate _ => .ok (c, {})

end SendController

/-- The rate limits that a message carries. -/
def NetworkMessage.limits? : NetworkMessage → Option RateConstraints
  | .constraints m => some m
  | .routeChange m => some m.constraints
  | _ => none

namespace SendController

section answers

variable (c : SendController) (now : Timestamp) (target : DataRate)

theorem guardedPacerBudget_eq :
    c.guardedPacerBudget now target = .ok (c.pacerBudget now target) := by
  simp only [guardedPacerBudget, PacerBudget.guardedOfRates, DataRate.guardedDuring_eq]
  rfl

theorem guardedAnnounce_eq (rtt : TimeDelta) :
    c.guardedAnnounce now target rtt = .ok (c.announce now target rtt) := by
  rw [guardedAnnounce, guardedPacerBudget_eq]
  rfl

theorem guardedOnAvailability_eq (m : Availability) :
    c.guardedOnAvailability m = .ok (c.onAvailability m) := by
  unfold guardedOnAvailability onAvailability
  split
  next => exact guardedAnnounce_eq ..
  next => rfl

theorem guardedOnProcessInterval_eq (m : ProcessInterval) :
    c.guardedOnProcessInterval m = .ok (c.onProcessInterval m) := by
  unfold guardedOnProcessInterval onProcessInterval
  cases c.currentTarget with
  | none => rfl
  | some target =>
      dsimp only
      rw [guardedPacerBudget_eq]
      rfl

theorem guardedOnFeedback_eq {f : Feedback} (hp : c.control.params.WordSized)
    (hb : c.control.bounds.1 ≤ c.control.bounds.2) (hf : ¬c.control.queue.Exhausts f) :
    c.guardedOnFeedback f = .ok (c.onFeedback f) := by
  rw [guardedOnFeedback, RateControl.guardedOnFeedback_eq _ hp hb hf]
  exact guardedAnnounce_eq ..

theorem guardedOnFeedback_of_exhausts {f : Feedback} (hf : c.control.queue.Exhausts f) :
    c.guardedOnFeedback f = .error .overflow := by
  rw [guardedOnFeedback, RateControl.guardedOnFeedback_of_exhausts _ hf]
  rfl

theorem guardedOnRouteChange_of_le {m : RouteChange}
    (h : m.constraints.lower ≤ m.constraints.upper) :
    ∃ r, c.onRouteChange m = .ok r ∧ c.guardedOnRouteChange m = .ok r := by
  refine ⟨_, onRouteChange_of_ok c (RateControl.setBounds_of_le _ h), ?_⟩
  rw [guardedOnRouteChange, RateControl.guardedInitial_eq, ok_bind,
    RateControl.guardedSetBounds_of_le h, ok_bind]
  exact guardedAnnounce_eq ..

theorem guardedOnRouteChange_of_lt {m : RouteChange}
    (h : m.constraints.upper < m.constraints.lower) :
    c.guardedOnRouteChange m =
      .error (.invertedBounds m.constraints.lower m.constraints.upper) := by
  rw [guardedOnRouteChange, RateControl.guardedInitial_eq, ok_bind,
    RateControl.guardedSetBounds_of_lt h]
  rfl

theorem guardedOnConstraints_of_le {m : RateConstraints} (h : m.lower ≤ m.upper) :
    ∃ r, c.onConstraints m = .ok r ∧ c.guardedOnConstraints m = .ok r := by
  refine ⟨_, onConstraints_of_ok c (RateControl.setBounds_of_le _ h), ?_⟩
  rw [guardedOnConstraints, RateControl.guardedSetBounds_of_le h]
  rfl

theorem guardedOnConstraints_of_lt {m : RateConstraints} (h : m.upper < m.lower) :
    c.guardedOnConstraints m = .error (.invertedBounds m.lower m.upper) := by
  rw [guardedOnConstraints, RateControl.guardedSetBounds_of_lt h]
  rfl

end answers

/-! ### Controllers in use -/

/-- The parameters are words, and the bounds on the target rate are in order. -/
structure Sound (c : SendController) : Prop where
  words : c.params.WordSized
  controlWords : c.control.params.WordSized
  ordered : c.control.bounds.1 ≤ c.control.bounds.2

/-- The message is a report that exhausts the counter of closed epochs. -/
def Exhausts (c : SendController) (e : NetworkMessage) : Prop :=
  ∃ f, e = .feedback f ∧ c.control.queue.Exhausts f

section use

variable {c c' : SendController} {e : NetworkMessage} {u : ControlUpdate}

/-- A new controller is sound, whatever its process interval. -/
theorem sound_create {config : ControllerConfig} (h : create config = .ok c) (δ : TimeDelta) :
    (c.withInterval δ).Sound := by
  have hwords := Parameters.wordSized_ofTrials config.trials
  obtain ⟨control, hb, rfl⟩ := create_eq_ok h
  obtain ⟨hlt, rfl⟩ := RateControl.setBounds_eq_ok hb
  exact ⟨hwords, hwords, not_lt.mp hlt⟩

/-- A message without inverted bounds that does not exhaust the counter is answered as on a machine
that never stops. -/
theorem Sound.guardedDeliver_eq (hc : c.Sound) (hl : ∀ m, e.limits? = some m → m.lower ≤ m.upper)
    (he : ¬c.Exhausts e) :
    ∃ r, NetworkMessage.deliver c e = .ok r ∧ c.guardedDeliver e = .ok r := by
  cases e with
  | availability m => exact ⟨_, rfl, c.guardedOnAvailability_eq m⟩
  | routeChange m => exact c.guardedOnRouteChange_of_le (hl _ rfl)
  | processInterval m => exact ⟨_, rfl, c.guardedOnProcessInterval_eq m⟩
  | constraints m => exact c.guardedOnConstraints_of_le (hl _ rfl)
  | feedback f =>
      have hf : ¬c.control.queue.Exhausts f := fun hf => he ⟨f, rfl, hf⟩
      exact ⟨_, rfl, c.guardedOnFeedback_eq hc.controlWords hc.ordered hf⟩
  | _ => exact ⟨_, rfl, rfl⟩

/-- Inverted bounds stop the controller. -/
theorem guardedDeliver_of_lt {m : RateConstraints} (hm : e.limits? = some m)
    (h : m.upper < m.lower) :
    c.guardedDeliver e = .error (.invertedBounds m.lower m.upper) := by
  cases e with
  | constraints m' => cases hm; exact c.guardedOnConstraints_of_lt h
  | routeChange m' => cases hm; exact c.guardedOnRouteChange_of_lt h
  | _ => cases hm

/-- A report that exhausts the counter stops the controller. -/
theorem guardedDeliver_of_exhausts (he : c.Exhausts e) :
    c.guardedDeliver e = .error .overflow := by
  obtain ⟨f, rfl, hf⟩ := he
  exact c.guardedOnFeedback_of_exhausts hf

/-- What a message that is answered does to the rate control: nothing, a round, or other bounds
for the present one or for a fresh one. -/
theorem deliver_control (h : NetworkMessage.deliver c e = .ok (c', u)) :
    c'.control = c.control ∨ (∃ f, c'.control = (c.control.onFeedback f).1) ∨
      ∃ base lower upper, (base = c.control ∨ base = .initial c.params) ∧ lower ≤ upper ∧
        c'.control = base.withBounds lower upper := by
  cases e with
  | availability m =>
      have hc : (c.onAvailability m).1 = c' := congrArg Prod.fst (Except.ok.inj h)
      left
      rw [← hc]
      unfold onAvailability
      split
      next => exact announce_control ..
      next => rfl
  | processInterval m =>
      have hc : (c.onProcessInterval m).1 = c' := congrArg Prod.fst (Except.ok.inj h)
      left
      rw [← hc]
      unfold onProcessInterval
      split
      next => rfl
      next => exact padRate_control ..
  | feedback f =>
      have hc : (c.onFeedback f).1 = c' := congrArg Prod.fst (Except.ok.inj h)
      exact .inr (.inl ⟨f, by rw [← hc, onFeedback_control]⟩)
  | routeChange m =>
      obtain ⟨control, hb, hr⟩ := c.onRouteChange_eq_ok h
      obtain ⟨hlt, rfl⟩ := RateControl.setBounds_eq_ok hb
      have hcontrol := congrArg (fun r => r.1.control) hr
      dsimp only at hcontrol
      rw [announce_control] at hcontrol
      exact .inr (.inr ⟨_, _, _, .inr rfl, not_lt.mp hlt, hcontrol.symm⟩)
  | constraints m =>
      obtain ⟨control, hb, hr⟩ := c.onConstraints_eq_ok h
      obtain ⟨hlt, rfl⟩ := RateControl.setBounds_eq_ok hb
      cases hr
      exact .inr (.inr ⟨_, _, _, .inl rfl, not_lt.mp hlt, rfl⟩)
  | _ => cases h; exact .inl rfl

/-- Every message that is answered keeps a controller sound. -/
theorem Sound.deliver (hc : c.Sound) (h : NetworkMessage.deliver c e = .ok (c', u)) : c'.Sound := by
  have hwords : c'.params.WordSized := by
    rw [deliver_params h]
    exact hc.words
  obtain hsame | ⟨f, hround⟩ | ⟨base, lower, upper, hbase, hle, hbounds⟩ := deliver_control h
  · refine ⟨hwords, ?_, ?_⟩
    · rw [hsame]
      exact hc.controlWords
    · rw [hsame]
      exact hc.ordered
  · refine ⟨hwords, ?_, ?_⟩
    · rw [hround]
      show (c.control.round f).params.WordSized
      rw [RateControl.round_params]
      exact hc.controlWords
    · rw [hround]
      show (c.control.round f).bounds.1 ≤ (c.control.round f).bounds.2
      rw [RateControl.round_bounds]
      exact hc.ordered
  · refine ⟨hwords, ?_, ?_⟩
    · rw [hbounds]
      show base.params.WordSized
      obtain rfl | rfl := hbase
      · exact hc.controlWords
      · exact hc.words
    · rw [hbounds]
      exact hle

end use

end SendController

end MediaSender
