import MediaSender.Controller.Basic

/-! # Answers of the sending controller

What the answers to messages do in common.

* **Bounds.** A new controller, a route change and new constraints are refused if the rate control
  refuses the bounds, and otherwise have one outcome (`create_of_ok`, `onRouteChange_of_ok`,
  `onConstraints_of_ok`).  So what is made or answered has bounds that were accepted
  (`create_eq_ok`, `onRouteChange_eq_ok`, `onConstraints_eq_ok`).
* **Feedback.** A report is taken note of first, and then a rate is announced (`onFeedback_eq`).
* **Parameters.** No message changes the parameters (`deliver_params`). -/

namespace MediaSender.SendController

/-- The controller with another process interval. -/
def withInterval (c : SendController) (δ : TimeDelta) : SendController :=
  { c with processInterval := δ }

/-! ### Bounds that are accepted or not -/

section bounds

variable (c : SendController)

theorem create_of_ok (config : ControllerConfig) {control : RateControl}
    (h : (RateControl.initial (Parameters.ofTrials config.trials)).setBounds
      config.constraints.lower config.constraints.upper = .ok control) :
    create config = .ok
      { params := Parameters.ofTrials config.trials, control, constraints := config.constraints
        streams := config.streams } := by
  simp only [create, h]
  rfl

theorem create_of_error (config : ControllerConfig) {x : ControlError}
    (h : (RateControl.initial (Parameters.ofTrials config.trials)).setBounds
      config.constraints.lower config.constraints.upper = .error x) :
    create config = .error x := by
  simp only [create, h]
  rfl

theorem create_eq_ok {config : ControllerConfig} {c : SendController}
    (h : create config = .ok c) :
    ∃ control, (RateControl.initial (Parameters.ofTrials config.trials)).setBounds
        config.constraints.lower config.constraints.upper = .ok control ∧
      c =
        { params := Parameters.ofTrials config.trials, control
          constraints := config.constraints, streams := config.streams } := by
  cases hb : (RateControl.initial (Parameters.ofTrials config.trials)).setBounds
      config.constraints.lower config.constraints.upper with
  | error x => rw [create_of_error config hb] at h; cases h
  | ok control => rw [create_of_ok config hb] at h; exact ⟨control, rfl, (Except.ok.inj h).symm⟩

/-- The controller on a new route before it announces a rate. -/
def rerouted (c : SendController) (m : RouteChange) (control : RateControl) : SendController :=
  { c with
    control, constraints := m.constraints
    lastPaddingStart := .minusInfinity
    pacingWindow := PacerBudget.defaultWindow }

theorem onRouteChange_of_ok {m : RouteChange} {control : RateControl}
    (h : (RateControl.initial c.params).setBounds m.constraints.lower m.constraints.upper =
      .ok control) :
    c.onRouteChange m =
      .ok ((c.rerouted m control).announce m.atTime (c.rerouted m control).startRate 0) := by
  unfold onRouteChange
  rw [h]
  rfl

theorem onRouteChange_of_error {m : RouteChange} {x : ControlError}
    (h : (RateControl.initial c.params).setBounds m.constraints.lower m.constraints.upper =
      .error x) :
    c.onRouteChange m = .error x := by
  unfold onRouteChange
  rw [h]
  rfl

theorem onRouteChange_eq_ok {m : RouteChange} {r : SendController × ControlUpdate}
    (h : c.onRouteChange m = .ok r) :
    ∃ control, (RateControl.initial c.params).setBounds m.constraints.lower
        m.constraints.upper = .ok control ∧
      (c.rerouted m control).announce m.atTime (c.rerouted m control).startRate 0 = r := by
  cases hb : (RateControl.initial c.params).setBounds m.constraints.lower m.constraints.upper with
  | error x => rw [onRouteChange_of_error c hb] at h; cases h
  | ok control => rw [onRouteChange_of_ok c hb] at h; exact ⟨control, rfl, Except.ok.inj h⟩

theorem onConstraints_of_ok {m : RateConstraints} {control : RateControl}
    (h : c.control.setBounds m.lower m.upper = .ok control) :
    c.onConstraints m = .ok ({ c with control, constraints := m }, {}) := by
  unfold onConstraints
  rw [h]
  rfl

theorem onConstraints_of_error {m : RateConstraints} {x : ControlError}
    (h : c.control.setBounds m.lower m.upper = .error x) : c.onConstraints m = .error x := by
  unfold onConstraints
  rw [h]
  rfl

theorem onConstraints_eq_ok {m : RateConstraints} {r : SendController × ControlUpdate}
    (h : c.onConstraints m = .ok r) :
    ∃ control, c.control.setBounds m.lower m.upper = .ok control ∧
      ({ c with control, constraints := m }, {}) = r := by
  cases hb : c.control.setBounds m.lower m.upper with
  | error x => rw [onConstraints_of_error c hb] at h; cases h
  | ok control => rw [onConstraints_of_ok c hb] at h; exact ⟨control, rfl, Except.ok.inj h⟩

end bounds

/-! ### Feedback -/

/-- The controller after the rate control and the pacer's window have taken a report. -/
def informed (c : SendController) (f : Feedback) : SendController :=
  let c := { c with control := (c.control.onFeedback f).1 }
  { c with pacingWindow := c.windowAfter f }

theorem onFeedback_eq (c : SendController) (f : Feedback) :
    c.onFeedback f =
      (c.informed f).announce f.feedbackTime (c.informed f).control.targetRate f.smoothedRtt := rfl

/-! ### The parameters -/

theorem create_params {config : ControllerConfig} {c : SendController}
    (h : create config = .ok c) : c.params = Parameters.ofTrials config.trials := by
  obtain ⟨control, -, rfl⟩ := create_eq_ok h
  rfl

section params

variable (c : SendController) (now : Timestamp) (target : DataRate)

@[simp] theorem padRate_params : (c.padRate now target).1.params = c.params := by
  unfold padRate
  split <;> rfl

@[simp] theorem pacerBudget_params : (c.pacerBudget now target).1.params = c.params :=
  c.padRate_params now target

@[simp] theorem announce_params (rtt : TimeDelta) :
    (c.announce now target rtt).1.params = c.params :=
  pacerBudget_params { c with currentTarget := some target } now target

@[simp] theorem onAvailability_params (m : Availability) :
    (c.onAvailability m).1.params = c.params := by
  unfold onAvailability
  split
  next => exact announce_params ..
  next => rfl

@[simp] theorem onProcessInterval_params (m : ProcessInterval) :
    (c.onProcessInterval m).1.params = c.params := by
  unfold onProcessInterval
  split
  next => rfl
  next => exact pacerBudget_params ..

@[simp] theorem onFeedback_params (m : Feedback) : (c.onFeedback m).1.params = c.params :=
  announce_params ..

end params

/-- No message changes the parameters. -/
theorem deliver_params {c c' : SendController} {e : NetworkMessage} {u : ControlUpdate}
    (h : NetworkMessage.deliver c e = .ok (c', u)) : c'.params = c.params := by
  cases e with
  | availability m =>
      have hc : (c.onAvailability m).1 = c' := congrArg Prod.fst (Except.ok.inj h)
      rw [← hc, onAvailability_params]
  | routeChange m =>
      obtain ⟨control, -, hc⟩ := c.onRouteChange_eq_ok h
      have hp := announce_params (c.rerouted m control) m.atTime
        (c.rerouted m control).startRate 0
      rw [hc] at hp
      exact hp
  | processInterval m =>
      have hc : (c.onProcessInterval m).1 = c' := congrArg Prod.fst (Except.ok.inj h)
      rw [← hc, onProcessInterval_params]
  | constraints m =>
      obtain ⟨control, -, hc⟩ := c.onConstraints_eq_ok h
      cases hc
      rfl
  | feedback m =>
      have hc : (c.onFeedback m).1 = c' := congrArg Prod.fst (Except.ok.inj h)
      rw [← hc, onFeedback_params]
  | streams m => cases h; rfl
  | remoteBitrate m => cases h; rfl
  | roundTrip m => cases h; rfl
  | sentPacket m => cases h; rfl
  | receivedPacket m => cases h; rfl
  | lossReport m => cases h; rfl
  | linkEstimate m => cases h; rfl

end MediaSender.SendController
