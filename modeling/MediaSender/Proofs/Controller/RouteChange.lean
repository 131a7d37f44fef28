import MediaSender.Proofs.Controller.Sessions
import MediaSender.Proofs.RateControl.Runs

/-! # Route changes

A controller on a new route behaves as a new controller would: nothing of the old route is left.

* **Interval.** No answer reads the process interval.  Controllers that differ in it alone
  (`withInterval`) give the same answers and differ in it alone afterwards
  (`deliver_withInterval`), so a whole run shows the same (`observations_withInterval`).
* **Announcement.** The announcement of a target rate overwrites the target and the padding flag of
  the old route, and reads neither (`announce_overwrites`).
* **Reset.** What it does read, the route change has set as a new controller has it, from parameters
  that have not changed since the trials were read (`startsAfresh_of_params`). -/

namespace MediaSender

namespace SendController

/-- What a caller sees of a run of messages: after each one the update and the rate control, and an
error at a message that breaks a rule, which ends the run. -/
def observations (c : SendController) :
    List NetworkMessage → List (Except ControlError (ControlUpdate × RateControl))
  | [] => []
  | e :: rest =>
    match NetworkMessage.deliver c e with
    | .error x => [.error x]
    | .ok (c', u) => .ok (u, c'.control) :: c'.observations rest

/-! ### The process interval -/

section interval

variable (c : SendController) (δ : TimeDelta) (now : Timestamp) (target : DataRate)

theorem padRate_withInterval :
    (c.withInterval δ).padRate now target =
      ((c.padRate now target).1.withInterval δ, (c.padRate now target).2) := by
  have hm : (c.withInterval δ).mayPad now target = c.mayPad now target := rfl
  unfold padRate
  rw [hm]
  split <;> rfl

theorem pacerBudget_withInterval :
    (c.withInterval δ).pacerBudget now target =
      ((c.pacerBudget now target).1.withInterval δ, (c.pacerBudget now target).2) := by
  unfold pacerBudget
  rw [padRate_withInterval]
  have hw : ((c.padRate now target).1.withInterval δ).pacingWindow =
      (c.padRate now target).1.pacingWindow := rfl
  simp only [hw]
  rfl

theorem announce_withInterval (rtt : TimeDelta) :
    (c.withInterval δ).announce now target rtt =
      ((c.announce now target rtt).1.withInterval δ, (c.announce now target rtt).2) := by
  have h := pacerBudget_withInterval { c with currentTarget := some target } δ now target
  have hc : { c.withInterval δ with currentTarget := some target } =
      ({ c with currentTarget := some target } : SendController).withInterval δ := rfl
  unfold announce
  rw [hc, h]

theorem onProcessInterval_withInterval (m : ProcessInterval) :
    (c.withInterval δ).onProcessInterval m =
      ((c.onProcessInterval m).1.withInterval δ, (c.onProcessInterval m).2) := by
  have ht : (c.withInterval δ).currentTarget = c.currentTarget := rfl
  unfold onProcessInterval
  rw [ht]
  split
  next => rfl
  next target _ =>
    rw [pacerBudget_withInterval]
    rfl

theorem onRouteChange_withInterval (m : RouteChange) :
    (c.withInterval δ).onRouteChange m =
      (c.onRouteChange m).map fun r => (r.1.withInterval δ, r.2) := by
  cases h : (RateControl.initial c.params).setBounds m.constraints.lower m.constraints.upper with
  | error x =>
      rw [onRouteChange_of_error c h, onRouteChange_of_error (c.withInterval δ) h]
      rfl
  | ok control =>
      rw [onRouteChange_of_ok c h, onRouteChange_of_ok (c.withInterval δ) h]
      exact congrArg Except.ok (announce_withInterval (c.rerouted m control) δ m.atTime _ 0)

theorem onConstraints_withInterval (m : RateConstraints) :
    (c.withInterval δ).onConstraints m =
      (c.onConstraints m).map fun r => (r.1.withInterval δ, r.2) := by
  cases h : c.control.setBounds m.lower m.upper with
  | error x =>
      rw [onConstraints_of_error c h, onConstraints_of_error (c.withInterval δ) h]
      rfl
  | ok control =>
      rw [onConstraints_of_ok c h, onConstraints_of_ok (c.withInterval δ) h]
      rfl

theorem onAvailability_withInterval (m : Availability) :
    (c.withInterval δ).onAvailability m =
      ((c.onAvailability m).1.withInterval δ, (c.onAvailability m).2) := by
  unfold onAvailability
  split
  next => exact announce_withInterval c δ m.atTime _ 0
  next => rfl

theorem deliver_withInterval (e : NetworkMessage) :
    NetworkMessage.deliver (c.withInterval δ) e =
      (NetworkMessage.deliver c e).map fun r => (r.1.withInterval δ, r.2) := by
  cases e with
  | availability m => exact congrArg Except.ok (onAvailability_withInterval c δ m)
  | routeChange m => exact onRouteChange_withInterval c δ m
  | processInterval m => exact congrArg Except.ok (onProcessInterval_withInterval c δ m)
  | constraints m => exact onConstraints_withInterval c δ m
  | feedback m =>
      refine congrArg Except.ok ?_
      exact announce_withInterval
        { c with
          control := (c.control.onFeedback m).1
          pacingWindow :=
            ({ c with control := (c.control.onFeedback m).1 } : SendController).windowAfter m }
        δ m.feedbackTime _ m.smoothedRtt
  | streams m => rfl
  | remoteBitrate m => rfl
  | roundTrip m => rfl
  | sentPacket m => rfl
  | receivedPacket m => rfl
  | lossReport m => rfl
  | linkEstimate m => rfl

end interval

/-- A run shows the same with any process interval. -/
theorem observations_withInterval (c : SendController) (δ : TimeDelta)
    (messages : List NetworkMessage) :
    (c.withInterval δ).observations messages = c.observations messages := by
  induction messages generalizing c with
  | nil => rfl
  | cons e rest ih =>
      rw [observations, observations, deliver_withInterval]
      cases NetworkMessage.deliver c e with
      | error x => rfl
      | ok r =>
          show Except.ok (r.2, r.1.control) :: (r.1.withInterval δ).observations rest =
            Except.ok (r.2, r.1.control) :: r.1.observations rest
          rw [ih r.1]

/-! ### A new route -/

/-- The announcement of a target rate reads neither the last target nor the padding flag, and
overwrites both. -/
theorem announce_overwrites (c : SendController) (last : Option DataRate) (padding : Bool)
    (now : Timestamp) (target : DataRate) (rtt : TimeDelta) :
    { c with currentTarget := last, isPadding := padding }.announce now target rtt =
      c.announce now target rtt := by
  have hm : ({ c with currentTarget := some target, isPadding := padding } :
      SendController).mayPad now target =
      ({ c with currentTarget := some target } : SendController).mayPad now target := rfl
  simp only [announce, pacerBudget, padRate, hm]
  split <;> rfl

/-- A new controller with the parameters and the streams of `c`, for the new route. -/
def fresh (c : SendController) (m : RouteChange) (control : RateControl) : SendController where
  params := c.params
  control := control
  constraints := m.constraints
  streams := c.streams

theorem announce_rerouted (c : SendController) (m : RouteChange) (control : RateControl)
    (now : Timestamp) (target : DataRate) (rtt : TimeDelta) :
    (c.rerouted m control).announce now target rtt =
      (((c.fresh m control).announce now target rtt).1.withInterval c.processInterval,
        ((c.fresh m control).announce now target rtt).2) := by
  have hc : c.rerouted m control =
      { c.fresh m control with
        currentTarget := c.currentTarget
        isPadding := c.isPadding }.withInterval c.processInterval := rfl
  rw [hc, announce_withInterval, announce_overwrites]

/-- After a change of the route the controller is, but for the process interval, what a new one
with the constraints of the new route and the streams of the old one becomes when the network comes
up at that time; the answers are the same, and so is all that a run shows afterwards. -/
def StartsAfresh (c : SendController) (trials : Trials) (m : RouteChange) : Prop :=
  ∃ (new c' new' : SendController) (u : ControlUpdate),
    create { trials, constraints := m.constraints, streams := c.streams } = .ok new ∧
      NetworkMessage.deliver c (.routeChange m) = .ok (c', u) ∧
      NetworkMessage.deliver new (.availability { atTime := m.atTime, isAvailable := true }) =
        .ok (new', u) ∧
      c' = new'.withInterval c.processInterval ∧ c'.control = new'.control ∧
      ∀ messages, c'.observations messages = new'.observations messages

/-- A route change reads nothing but the parameters and the streams of the old route. -/
theorem startsAfresh_of_params {c : SendController} {trials : Trials} {m : RouteChange}
    (hp : c.params = Parameters.ofTrials trials)
    (hm : ¬m.constraints.upper < m.constraints.lower) : c.StartsAfresh trials m := by
  obtain ⟨control, hb⟩ := (RateControl.initial c.params).exists_setBounds_eq_ok hm
  obtain ⟨new', u, hann⟩ : ∃ new' u, (c.fresh m control).announce m.atTime
      (c.fresh m control).startRate 0 = (new', u) := ⟨_, _, rfl⟩
  have hroute : c.onRouteChange m = .ok (new'.withInterval c.processInterval, u) := by
    have hs : (c.rerouted m control).startRate = (c.fresh m control).startRate := rfl
    rw [onRouteChange_of_ok c hb, announce_rerouted, hs, hann]
  have hnew : create { trials, constraints := m.constraints, streams := c.streams } =
      .ok (c.fresh m control) := by
    unfold fresh
    rw [hp] at hb ⊢
    exact create_of_ok { trials, constraints := m.constraints, streams := c.streams } hb
  refine ⟨c.fresh m control, new'.withInterval c.processInterval, new', u, hnew, hroute, ?_, rfl,
    rfl, ?_⟩
  · exact congrArg Except.ok hann
  · intro messages
    exact observations_withInterval new' c.processInterval messages

end SendController

/-- **A route change leaks nothing of the old route.**  In every reachable session a route change
with bounds in order starts the controller afresh, under the trials that the session began with. -/
theorem Session.Reachable.startsAfresh {config : ControllerConfig} {s : Session}
    (hs : s.Reachable config) (m : RouteChange)
    (hm : ¬m.constraints.upper < m.constraints.lower) :
    s.controller.StartsAfresh config.trials m :=
  SendController.startsAfresh_of_params hs.params hm

/-- A route change after a report with a congestion mark, which has shortened the pacer's time
window and reduced the reference window, while a padding interval runs. -/
theorem Session.startsAfresh_after_mark :
    ∃ s : Session,
      s.Reachable {} ∧
        s.controller.pacingWindow = .ofMillis 25 ∧ s.controller.lastPaddingStart = .ofMillis 600 ∧
        s.controller.control.lastReaction = .ofMillis 600 ∧
        s.controller.StartsAfresh {}
          { atTime := .ofMillis 700, constraints := { minimum := some (.ofKbps 100) } } := by
  have hc : SendController.create {} = .ok
      { params := Parameters.ofTrials {}, control := .initial (Parameters.ofTrials {})
        constraints := {}, streams := {} } := rfl
  have hs : Session.Reachable {} _ :=
    ⟨_, .ofMillis 10,
      [.read (.streams { maxAllocated := some (.ofKbps 5000) }),
        .call (.feedback
          { feedbackTime := .ofMillis 600
            smoothedRtt := .ofMillis 25
            packets :=
              [{ sent := { sendTime := 0, size := .ofInt 1000 }
                 receiveTime := .ofMillis 10
                 marking := .congested }] })],
      hc, rfl⟩
  refine ⟨_, hs, ?_, ?_, ?_, hs.startsAfresh _ (by decide)⟩
  · decide +kernel
  · decide +kernel
  · decide +kernel

end MediaSender
