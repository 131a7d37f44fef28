import MediaSender.Proofs.Controller.Answers
import MediaSender.Proofs.Epoch.RateControl

/-! # The sending controller on another clock

A message told on another clock is answered with the same update, told on that clock.

* **Messages and updates.** All timestamps in them move to the other clock (`NetworkMessage.rebase`,
  `ControlUpdate.rebase`).  Only those that the controller reads need one there
  (`NetworkMessage.Rebasable`); bounds and stream settings carry times that it only keeps.
* **Padding.** The start of the padding interval is the controller's own note of time.  Before the
  first one it is minus infinity, on every clock.
* **Answers.** `SendController.Rebasable.deliver_rebase` is the step of a run. -/

namespace MediaSender

variable {k : Int}

/-! ### Messages -/

/-- The limits as told by the other clock. -/
def RateConstraints.rebase (k : Int) (m : RateConstraints) : RateConstraints :=
  { m with atTime := m.atTime.rebase k }

/-- The settings as told by the other clock. -/
def StreamSettings.rebase (k : Int) (m : StreamSettings) : StreamSettings :=
  { m with atTime := m.atTime.rebase k }

/-- The message as told by the other clock. -/
def Availability.rebase (k : Int) (m : Availability) : Availability :=
  { m with atTime := m.atTime.rebase k }

/-- The message as told by the other clock. -/
def RouteChange.rebase (k : Int) (m : RouteChange) : RouteChange where
  atTime := m.atTime.rebase k
  constraints := m.constraints.rebase k

/-- The message as told by the other clock. -/
def ProcessInterval.rebase (k : Int) (m : ProcessInterval) : ProcessInterval :=
  { m with atTime := m.atTime.rebase k }

/-- What a controller is made from as told by the other clock. -/
def ControllerConfig.rebase (k : Int) (config : ControllerConfig) : ControllerConfig :=
  { config with
    constraints := config.constraints.rebase k
    streams := config.streams.rebase k }

namespace NetworkMessage

/-- The message as told by the other clock. -/
def rebase (k : Int) : NetworkMessage → NetworkMessage
  | .availability m => .availability (m.rebase k)
  | .routeChange m => .routeChange (m.rebase k)
  | .processInterval m => .processInterval (m.rebase k)
  | .remoteBitrate m => .remoteBitrate { m with receiveTime := m.receiveTime.rebase k }
  | .roundTrip m => .roundTrip { m with receiveTime := m.receiveTime.rebase k }
  | .sentPacket m => .sentPacket (m.rebase k)
  | .receivedPacket m =>
    .receivedPacket
      { m with sendTime := m.sendTime.rebase k, receiveTime := m.receiveTime.rebase k }
  | .streams m => .streams (m.rebase k)
  | .constraints m => .constraints (m.rebase k)
  | .lossReport m =>
    .lossReport
      { m with
        receiveTime := m.receiveTime.rebase k
        startTime := m.startTime.rebase k
        endTime := m.endTime.rebase k }
  | .feedback m => .feedback (m.rebase k)
  | .linkEstimate m =>
    .linkEstimate
      { m with
        updateTime := m.updateTime.rebase k
        lastReceiveTime := m.lastReceiveTime.rebase k
        lastSendTime := m.lastSendTime.rebase k }

/-- The times that a controller reads of the message have timestamps on the other clock. -/
def Rebasable (k : Int) : NetworkMessage → Prop
  | .availability m => m.atTime.Rebasable k
  | .routeChange m => m.atTime.Rebasable k
  | .processInterval m => m.atTime.Rebasable k
  | .feedback m => m.Rebasable k
  | _ => True

instance (k : Int) (e : NetworkMessage) : Decidable (e.Rebasable k) := by
  cases e <;> unfold Rebasable <;> infer_instance

end NetworkMessage

/-! ### Updates -/

/-- The budget as told by the other clock. -/
def PacerBudget.rebase (k : Int) (b : PacerBudget) : PacerBudget :=
  { b with atTime := b.atTime.rebase k }

/-- The target rate as told by the other clock. -/
def TargetRate.rebase (k : Int) (t : TargetRate) : TargetRate :=
  { t with
    atTime := t.atTime.rebase k
    estimate := { t.estimate with atTime := t.estimate.atTime.rebase k } }

/-- The update as told by the other clock. -/
def ControlUpdate.rebase (k : Int) (u : ControlUpdate) : ControlUpdate :=
  { u with
    pacer := u.pacer.map (·.rebase k)
    probes := u.probes.map fun p => { p with atTime := p.atTime.rebase k }
    target := u.target.map (·.rebase k) }

namespace SendController

/-- The state with its notes of time on the other clock. -/
def rebase (k : Int) (c : SendController) : SendController :=
  { c with
    control := c.control.rebase k
    constraints := c.constraints.rebase k
    streams := c.streams.rebase k
    lastPaddingStart := c.lastPaddingStart.rebase k }

/-- The notes of time that are read have timestamps on the other clock. -/
structure Rebasable (k : Int) (c : SendController) : Prop where
  control : c.control.Rebasable k
  lastPaddingStart : c.lastPaddingStart.Rebasable k

/-- An answer with its times on the other clock. -/
def rebaseAnswer (k : Int) (r : SendController × ControlUpdate) : SendController × ControlUpdate :=
  (r.1.rebase k, r.2.rebase k)

@[simp] theorem rebase_params (c : SendController) : (c.rebase k).params = c.params := rfl

section answers

variable {c : SendController} {now : Timestamp} {f : Feedback}

/-! ### Padding and pacing -/

theorem mayPad_rebase (c : SendController) (target : DataRate) (hnow : now.Rebasable k) :
    (c.rebase k).mayPad (now.rebase k) target = c.mayPad now target := by
  unfold mayPad
  rw [hnow.isFinite_rebase]
  rfl

theorem Rebasable.paddingStart_rebase (hc : c.Rebasable k) (hnow : now.Rebasable k) :
    (c.rebase k).paddingStart (now.rebase k) = (c.paddingStart now).rebase k := by
  have hsince : now.rebase k - (c.rebase k).lastPaddingStart = now - c.lastPaddingStart :=
    hc.lastPaddingStart.rebase_sub_rebase hnow
  unfold paddingStart
  rw [hsince, rebase_params]
  split <;> rfl

theorem Rebasable.paddingStart (hc : c.Rebasable k) (hnow : now.Rebasable k) :
    (c.paddingStart now).Rebasable k := by
  unfold SendController.paddingStart
  split
  next => exact hnow
  next => exact hc.lastPaddingStart

theorem Rebasable.padRate_rebase (hc : c.Rebasable k) (hnow : now.Rebasable k)
    (target : DataRate) :
    (c.rebase k).padRate (now.rebase k) target =
      ((c.padRate now target).1.rebase k, (c.padRate now target).2) := by
  have hstart := hc.paddingStart hnow
  have hsince := hstart.rebase_sub_rebase hnow
  unfold padRate
  rw [mayPad_rebase c target hnow, hc.paddingStart_rebase hnow]
  split
  next =>
    dsimp only
    rw [hsince, rebase_params]
    rfl
  next => rfl

theorem Rebasable.padRate (hc : c.Rebasable k) (hnow : now.Rebasable k) (target : DataRate) :
    (c.padRate now target).1.Rebasable k := by
  unfold SendController.padRate
  split
  next => exact ⟨hc.control, hc.paddingStart hnow⟩
  next => exact hc

theorem Rebasable.pacerBudget_rebase (hc : c.Rebasable k) (hnow : now.Rebasable k)
    (target : DataRate) :
    (c.rebase k).pacerBudget (now.rebase k) target =
      ((c.pacerBudget now target).1.rebase k, (c.pacerBudget now target).2.rebase k) := by
  unfold pacerBudget
  rw [hc.padRate_rebase hnow]
  rfl

theorem Rebasable.pacerBudget (hc : c.Rebasable k) (hnow : now.Rebasable k) (target : DataRate) :
    (c.pacerBudget now target).1.Rebasable k := by
  have hpadded := hc.padRate hnow target
  exact ⟨hpadded.control, hpadded.lastPaddingStart⟩

theorem Rebasable.withTarget (hc : c.Rebasable k) (target : DataRate) :
    { c with currentTarget := some target }.Rebasable k :=
  ⟨hc.control, hc.lastPaddingStart⟩

theorem Rebasable.announce_rebase (hc : c.Rebasable k) (hnow : now.Rebasable k)
    (target : DataRate) (rtt : TimeDelta) :
    (c.rebase k).announce (now.rebase k) target rtt =
      rebaseAnswer k (c.announce now target rtt) := by
  have hbudget := (hc.withTarget target).pacerBudget_rebase hnow target
  have hstate : { c.rebase k with currentTarget := some target } =
      ({ c with currentTarget := some target } : SendController).rebase k := rfl
  unfold announce
  rw [hstate, hbudget]
  rfl

theorem Rebasable.announce (hc : c.Rebasable k) (hnow : now.Rebasable k) (target : DataRate)
    (rtt : TimeDelta) : (c.announce now target rtt).1.Rebasable k :=
  (hc.withTarget target).pacerBudget hnow target

/-! ### Answers -/

theorem create_rebase (config : ControllerConfig) :
    create (config.rebase k) = (create config).map (·.rebase k) := by
  have hbounds := RateControl.setBounds_rebase (k := k)
    (RateControl.initial (Parameters.ofTrials config.trials))
    config.constraints.lower config.constraints.upper
  rw [RateControl.initial_rebase] at hbounds
  cases h : (RateControl.initial (Parameters.ofTrials config.trials)).setBounds
      config.constraints.lower config.constraints.upper with
  | error x =>
      rw [create_of_error config h, create_of_error (config.rebase k) h]
      rfl
  | ok control =>
      have hbounds' := hbounds.trans (congrArg (Except.map (·.rebase k)) h)
      rw [create_of_ok config h, create_of_ok (config.rebase k) hbounds']
      rfl

theorem rebasable_create {config : ControllerConfig} (h : create config = .ok c) :
    c.Rebasable k := by
  obtain ⟨control, hb, rfl⟩ := create_eq_ok h
  refine ⟨?_, Timestamp.rebasable_minusInfinity⟩
  exact (RateControl.rebasable_initial _).setBounds hb

theorem Rebasable.onAvailability_rebase (hc : c.Rebasable k) {m : Availability}
    (hm : m.atTime.Rebasable k) :
    (c.rebase k).onAvailability (m.rebase k) = rebaseAnswer k (c.onAvailability m) := by
  have hup : (m.rebase k).isAvailable = m.isAvailable := rfl
  unfold onAvailability
  rw [hup]
  split
  next => exact hc.announce_rebase hm c.startRate 0
  next => rfl

theorem Rebasable.onAvailability (hc : c.Rebasable k) {m : Availability}
    (hm : m.atTime.Rebasable k) : (c.onAvailability m).1.Rebasable k := by
  unfold SendController.onAvailability
  split
  next => exact hc.announce hm c.startRate 0
  next => exact hc

theorem Rebasable.onProcessInterval_rebase (hc : c.Rebasable k) {m : ProcessInterval}
    (hm : m.atTime.Rebasable k) :
    (c.rebase k).onProcessInterval (m.rebase k) = rebaseAnswer k (c.onProcessInterval m) := by
  have htarget : (c.rebase k).currentTarget = c.currentTarget := rfl
  unfold onProcessInterval
  rw [htarget]
  split
  next => rfl
  next target _ =>
    have hbudget := hc.pacerBudget_rebase hm target
    have htime : (m.rebase k).atTime = m.atTime.rebase k := rfl
    rw [htime, hbudget]
    have hflag : ((c.pacerBudget m.atTime target).1.rebase k).isPadding =
        (c.pacerBudget m.atTime target).1.isPadding := rfl
    have hflag' : (c.rebase k).isPadding = c.isPadding := rfl
    unfold rebaseAnswer
    dsimp only
    rw [hflag, hflag']
    split <;> rfl

theorem Rebasable.onProcessInterval (hc : c.Rebasable k) {m : ProcessInterval}
    (hm : m.atTime.Rebasable k) : (c.onProcessInterval m).1.Rebasable k := by
  unfold SendController.onProcessInterval
  split
  next => exact hc
  next target _ => exact hc.pacerBudget hm target

/-- A new route starts with notes of time that are no instants. -/
theorem Rebasable.rerouted {m : RouteChange} {control : RateControl}
    (h : (RateControl.initial c.params).setBounds m.constraints.lower m.constraints.upper =
      .ok control) : (c.rerouted m control).Rebasable k where
  control := (RateControl.rebasable_initial c.params).setBounds h
  lastPaddingStart := Timestamp.rebasable_minusInfinity

theorem onRouteChange_rebase (c : SendController) {m : RouteChange} (hm : m.atTime.Rebasable k) :
    (c.rebase k).onRouteChange (m.rebase k) = (c.onRouteChange m).map (rebaseAnswer k) := by
  have hbounds := RateControl.setBounds_rebase (k := k) (RateControl.initial c.params)
    m.constraints.lower m.constraints.upper
  rw [RateControl.initial_rebase] at hbounds
  cases h : (RateControl.initial c.params).setBounds m.constraints.lower
      m.constraints.upper with
  | error x =>
      rw [onRouteChange_of_error c h, onRouteChange_of_error (c.rebase k) (m := m.rebase k) h]
      rfl
  | ok control =>
      have hbounds' := hbounds.trans (congrArg (Except.map (·.rebase k)) h)
      have hroute := Rebasable.rerouted (k := k) h
      have hannounce := hroute.announce_rebase hm (c.rerouted m control).startRate 0
      rw [onRouteChange_of_ok c h, onRouteChange_of_ok (c.rebase k) (m := m.rebase k) hbounds']
      exact congrArg Except.ok hannounce

theorem onConstraints_rebase (c : SendController) (m : RateConstraints) :
    (c.rebase k).onConstraints (m.rebase k) = (c.onConstraints m).map (rebaseAnswer k) := by
  have hbounds := RateControl.setBounds_rebase (k := k) c.control m.lower m.upper
  cases h : c.control.setBounds m.lower m.upper with
  | error x =>
      rw [h] at hbounds
      rw [onConstraints_of_error c h, onConstraints_of_error (c.rebase k) (m := m.rebase k) hbounds]
      rfl
  | ok control =>
      rw [h] at hbounds
      rw [onConstraints_of_ok c h, onConstraints_of_ok (c.rebase k) (m := m.rebase k) hbounds]
      rfl

theorem Rebasable.windowAfter_rebase (hc : c.Rebasable k) (hf : f.Rebasable k) :
    (c.rebase k).windowAfter (f.rebase k) = c.windowAfter f := by
  have hsince : (f.rebase k).feedbackTime - (c.rebase k).control.lastMark =
      f.feedbackTime - c.control.lastMark :=
    hc.control.lastMark.rebase_sub_rebase hf.feedbackTime
  unfold windowAfter
  rw [hsince]
  rfl

theorem Rebasable.informed_rebase (hc : c.Rebasable k) (hf : f.Rebasable k) :
    (c.rebase k).informed (f.rebase k) = (c.informed f).rebase k := by
  have hcontrol : ((c.rebase k).control.onFeedback (f.rebase k)).1 =
      (c.control.onFeedback f).1.rebase k := by
    show ((c.control.rebase k).onFeedback (f.rebase k)).1 = _
    rw [hc.control.onFeedback_rebase hf]
  have hc' : { c with control := (c.control.onFeedback f).1 }.Rebasable k :=
    ⟨hc.control.onFeedback hf, hc.lastPaddingStart⟩
  have hwindow := hc'.windowAfter_rebase hf
  unfold informed
  rw [hcontrol]
  show { c.rebase k with
    control := (c.control.onFeedback f).1.rebase k
    pacingWindow :=
      (({ c with control := (c.control.onFeedback f).1 } : SendController).rebase k).windowAfter
        (f.rebase k) } = _
  rw [hwindow]
  rfl

theorem Rebasable.informed (hc : c.Rebasable k) (hf : f.Rebasable k) :
    (c.informed f).Rebasable k :=
  ⟨hc.control.onFeedback hf, hc.lastPaddingStart⟩

theorem Rebasable.onFeedback_rebase (hc : c.Rebasable k) (hf : f.Rebasable k) :
    (c.rebase k).onFeedback (f.rebase k) = rebaseAnswer k (c.onFeedback f) := by
  rw [onFeedback_eq, onFeedback_eq, hc.informed_rebase hf]
  exact (hc.informed hf).announce_rebase hf.feedbackTime _ _

theorem Rebasable.onFeedback (hc : c.Rebasable k) (hf : f.Rebasable k) :
    (c.onFeedback f).1.Rebasable k :=
  (hc.informed hf).announce hf.feedbackTime _ _

/-- Every message is answered in the same way on both clocks. -/
theorem Rebasable.deliver_rebase (hc : c.Rebasable k) {e : NetworkMessage} (he : e.Rebasable k) :
    NetworkMessage.deliver (c.rebase k) (e.rebase k) =
      (NetworkMessage.deliver c e).map (rebaseAnswer k) := by
  cases e with
  | availability m => exact congrArg Except.ok (hc.onAvailability_rebase he)
  | routeChange m => exact onRouteChange_rebase c he
  | processInterval m => exact congrArg Except.ok (hc.onProcessInterval_rebase he)
  | constraints m => exact onConstraints_rebase c m
  | feedback m => exact congrArg Except.ok (hc.onFeedback_rebase he)
  | streams m => rfl
  | remoteBitrate m => rfl
  | roundTrip m => rfl
  | sentPacket m => rfl
  | receivedPacket m => rfl
  | lossReport m => rfl
  | linkEstimate m => rfl

theorem Rebasable.deliver {c' : SendController} {u : ControlUpdate} (hc : c.Rebasable k)
    {e : NetworkMessage} (he : e.Rebasable k) (h : NetworkMessage.deliver c e = .ok (c', u)) :
    c'.Rebasable k := by
  cases e with
  | availability m =>
      have hanswer : c.onAvailability m = (c', u) := Except.ok.inj h
      have hafter := hc.onAvailability he
      rw [hanswer] at hafter
      exact hafter
  | routeChange m =>
      obtain ⟨control, hb, hanswer⟩ := c.onRouteChange_eq_ok h
      have hafter := (Rebasable.rerouted (k := k) hb).announce he
        (c.rerouted m control).startRate 0
      rw [hanswer] at hafter
      exact hafter
  | processInterval m =>
      have hanswer : c.onProcessInterval m = (c', u) := Except.ok.inj h
      have hafter := hc.onProcessInterval he
      rw [hanswer] at hafter
      exact hafter
  | constraints m =>
      obtain ⟨control, hb, hanswer⟩ := c.onConstraints_eq_ok h
      cases hanswer
      exact ⟨hc.control.setBounds hb, hc.lastPaddingStart⟩
  | feedback m =>
      have hanswer : c.onFeedback m = (c', u) := Except.ok.inj h
      have hafter := hc.onFeedback he
      rw [hanswer] at hafter
      exact hafter
  | streams m => cases h; exact ⟨hc.control, hc.lastPaddingStart⟩
  | remoteBitrate m => cases h; exact hc
  | roundTrip m => cases h; exact hc
  | sentPacket m => cases h; exact hc
  | receivedPacket m => cases h; exact hc
  | lossReport m => cases h; exact hc
  | linkEstimate m => cases h; exact hc

end answers

end SendController

end MediaSender
