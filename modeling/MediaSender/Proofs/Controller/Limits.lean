import MediaSender.Proofs.Controller.Announcements

/-! # Announced rates and their limits

* **In force.** The rate control of a controller is bounded by the limits of the constraints that it
  accepted last, and these are in order (`Obeys`).  A new controller obeys its own constraints, and
  each answer makes it obey those of the message, if it carries any (`Obeys.deliver`).
* **Feedback.** A rate that is announced after feedback comes from the rate control, so it is
  between the limits.
* **Start.** A rate that is announced when the network comes up or the route changes is the start
  rate, which no limit touches (`MayAnnounce`). -/

namespace MediaSender

/-- The constraints in force after some messages that have been accepted. -/
def constraintsInForce (k : RateConstraints) (messages : List NetworkMessage) : RateConstraints :=
  messages.foldl (fun k e => e.limits?.getD k) k

theorem constraintsInForce_concat (k : RateConstraints) (messages : List NetworkMessage)
    (e : NetworkMessage) :
    constraintsInForce k (messages ++ [e]) = e.limits?.getD (constraintsInForce k messages) := by
  simp [constraintsInForce]

namespace SendController

/-- The constraints are in order, and the controller and its rate control have taken them. -/
structure Obeys (c : SendController) (k : RateConstraints) : Prop where
  constraints : c.constraints = k
  bounds : c.control.bounds = (k.lower, k.upper)
  ordered : k.lower ≤ k.upper

/-- A target rate that a message may make a controller announce under these constraints: one between
the limits after feedback, and the start rate when the network comes up or the route changes. -/
def MayAnnounce (k : RateConstraints) (e : NetworkMessage) (rate : DataRate) : Prop :=
  match e with
  | .feedback _ => k.lower ≤ rate ∧ rate ≤ k.upper
  | .availability _ => rate = k.starting.getD defaultStartRate
  | .routeChange _ => rate = k.starting.getD defaultStartRate
  | _ => False

section frames

variable (c : SendController) (now : Timestamp) (target : DataRate)

@[simp] theorem padRate_constraints : (c.padRate now target).1.constraints = c.constraints := by
  unfold padRate
  split <;> rfl

theorem onProcessInterval_limits (m : ProcessInterval) :
    (c.onProcessInterval m).1.constraints = c.constraints ∧
      (c.onProcessInterval m).1.control = c.control := by
  unfold onProcessInterval
  split
  next => exact ⟨rfl, rfl⟩
  next => exact ⟨padRate_constraints .., padRate_control ..⟩

end frames

section limits

variable {c c' : SendController} {k : RateConstraints} {e : NetworkMessage} {u : ControlUpdate}
  {a : Announcement}

theorem Obeys.congr (h : Obeys c k) (hk : c'.constraints = c.constraints)
    (hc : c'.control = c.control) : Obeys c' k :=
  ⟨hk.trans h.constraints, (congrArg RateControl.bounds hc).trans h.bounds, h.ordered⟩

/-- Bounds that are accepted are in order, and the rate control has them afterwards. -/
theorem obeys_of_setBounds {control : RateControl}
    (hb : control.setBounds k.lower k.upper = .ok c.control) (hk : c.constraints = k) :
    Obeys c k := by
  obtain ⟨hlt, hc⟩ := RateControl.setBounds_eq_ok hb
  refine ⟨hk, ?_, not_lt.mp hlt⟩
  rw [hc]
  rfl

/-- The controller right before it announces obeys the constraints then in force, and may announce
the rate. -/
theorem Obeys.announcement (h : Obeys c k) (ha : c.announcement e = some a) :
    Obeys a.controller (e.limits?.getD k) ∧ MayAnnounce (e.limits?.getD k) e a.rate := by
  cases e with
  | availability m =>
      simp only [SendController.announcement] at ha
      split at ha
      next =>
        cases ha
        refine ⟨h, ?_⟩
        show c.constraints.starting.getD defaultStartRate = _
        rw [h.constraints]
        rfl
      next => cases ha
  | routeChange m =>
      simp only [SendController.announcement] at ha
      split at ha
      next control hb =>
        cases ha
        exact ⟨obeys_of_setBounds (c := c.rerouted m control) hb rfl, rfl⟩
      next => cases ha
  | feedback f =>
      cases ha
      have hbounds := c.control.round_bounds f
      have hrate := c.control.targetRate_round f (by rw [h.bounds]; exact h.ordered)
      rw [h.bounds] at hbounds hrate
      exact ⟨⟨h.constraints, hbounds, h.ordered⟩, hrate⟩
  | _ => cases ha

theorem Obeys.deliver (h : Obeys c k) (hd : NetworkMessage.deliver c e = .ok (c', u)) :
    Obeys c' (e.limits?.getD k) := by
  cases ha : c.announcement e with
  | some a =>
      rw [deliver_of_announcement ha, Except.ok.injEq] at hd
      have hc : a.answer.1 = c' := congrArg Prod.fst hd
      rw [← hc]
      exact (h.announcement ha).1.congr (padRate_constraints ..) (announce_control ..)
  | none =>
      obtain ⟨m, rfl, hm⟩ | ⟨m, control, rfl, hb, rfl, -⟩ | ⟨he, ⟨streams, rfl⟩, -⟩ :=
        deliver_of_no_announcement ha hd
      · have hc : (c.onProcessInterval m).1 = c' := congrArg Prod.fst hm
        have hlimits := c.onProcessInterval_limits m
        rw [hc] at hlimits
        exact h.congr hlimits.1 hlimits.2
      · -- the message's own constraints are in force, and have just been accepted
        exact obeys_of_setBounds (c := { c with control, constraints := m }) hb rfl
      · rw [he]
        exact h.congr rfl rfl

/-- Every target rate of an answer may be announced under the constraints then in force. -/
theorem Obeys.mayAnnounce (h : Obeys c k) (hd : NetworkMessage.deliver c e = .ok (c', u))
    {t : TargetRate} (ht : u.target = some t) : MayAnnounce (e.limits?.getD k) e t.rate := by
  have hrate := target_eq_announcement hd
  rw [ht] at hrate
  cases ha : c.announcement e with
  | some a =>
      rw [ha] at hrate
      have heq : t.rate = a.rate := Option.some.inj hrate
      rw [heq]
      exact (h.announcement ha).2
  | none =>
      rw [ha] at hrate
      cases hrate

theorem obeys_of_create {config : ControllerConfig} (h : create config = .ok c) :
    Obeys c config.constraints := by
  obtain ⟨control, hb, rfl⟩ := create_eq_ok h
  exact obeys_of_setBounds hb rfl

end limits

end SendController

/-! ### Runs -/

namespace Session

open SendController (Obeys MayAnnounce create)

/-- The controller of a session that is used through its queues obeys the constraints in force. -/
theorem obeys_constraintsInForce {config : ControllerConfig} {c : SendController}
    (h₀ : create config = .ok c) (δ : TimeDelta) (exchanges : List Exchange) :
    let a := exchanges.foldl Account.exchange { session := { controller := c.withInterval δ } }
    a.session.controller.Obeys (constraintsInForce config.constraints a.messages) := by
  refine List.foldlRecOn exchanges Account.exchange
    (motive := fun a => a.session.controller.Obeys
      (constraintsInForce config.constraints a.messages)) ?_ ?_
  · exact (SendController.obeys_of_create h₀).congr rfl rfl
  · intro a ha x _
    obtain hr | ⟨e, u, ht⟩ := a.exchange_cases x
    · rw [hr.controller, hr.messages]
      exact ha
    · rw [ht.messages, constraintsInForce_concat]
      exact ha.deliver ht.deliver

/-- **Rates announced after feedback respect the constraints in force.**  Let a session with a new
controller be used through its queues, and then let it accept a message.  The constraints in force
are those of the message, if it carries any, and otherwise those accepted last; their limits are in
order.  If what comes of the message has a target rate, then the message was feedback, and the rate
is between the limits; or the network came up or the route changed, and it is the start rate that
the constraints name or else the default one. -/
theorem announced_within_limits {config : ControllerConfig} {c : SendController}
    (h₀ : create config = .ok c) (δ : TimeDelta) (exchanges : List Exchange) {a : Account}
    {e : NetworkMessage}
    (ha : exchanges.foldl Account.exchange { session := { controller := c.withInterval δ } } = a)
    (he : (a.session.read e).2.isOk = true) :
    ∃ u, a.session.Takes e u (a.session.read e).1 ∧
      (constraintsInForce config.constraints (a.messages ++ [e])).lower ≤
        (constraintsInForce config.constraints (a.messages ++ [e])).upper ∧
      ∀ t, u.target = some t →
        MayAnnounce (constraintsInForce config.constraints (a.messages ++ [e])) e t.rate := by
  have hobeys := obeys_constraintsInForce h₀ δ exchanges
  simp only [ha] at hobeys
  obtain ⟨u, htakes⟩ := read_takes he
  rw [constraintsInForce_concat]
  refine ⟨u, htakes, (hobeys.deliver htakes.deliver).ordered, ?_⟩
  intro t ht
  exact hobeys.mayAnnounce htakes.deliver ht

/-- Limits that leave a single rate, above the default start rate. -/
def fixedRate : ControllerConfig where
  constraints := { minimum := some (.ofKbps 500), maximum := some (.ofKbps 500) }

/-- A new session under these limits. -/
def fixedRateSession : Session where
  controller :=
    { params := Parameters.ofTrials {}
      control :=
        (RateControl.initial (Parameters.ofTrials {})).withBounds (.ofKbps 500) (.ofKbps 500)
      constraints := fixedRate.constraints
      streams := {} }

/-- After a report the only rate between the limits is announced. -/
theorem announced_within_limits_of_fixedRate :
    create fixedRate = .ok fixedRateSession.controller ∧
      ∃ u t, fixedRateSession.Takes (.feedback { feedbackTime := .ofMillis 20 }) u
          (fixedRateSession.read (.feedback { feedbackTime := .ofMillis 20 })).1 ∧
        u.target = some t ∧ t.rate = .ofKbps 500 := by
  have h₀ : create fixedRate = .ok fixedRateSession.controller := rfl
  obtain ⟨u, htakes, -, hrate⟩ := announced_within_limits h₀ (.ofMillis 25) []
    (e := .feedback { feedbackTime := .ofMillis 20 }) rfl (by decide +kernel)
  have htarget := SendController.target_eq_announcement htakes.deliver
  obtain ⟨t, ht, -⟩ := Option.map_eq_some_iff.mp htarget
  obtain ⟨hlower, hupper⟩ := hrate t ht
  exact ⟨h₀, u, t, htakes, ht, le_antisymm hupper hlower⟩

/-- When the network comes up the start rate is announced, though the limits exclude it. -/
theorem not_announced_within_limits :
    ¬∀ (config : ControllerConfig) (c : SendController) (δ : TimeDelta)
        (exchanges : List Exchange) (a : Account) (e : NetworkMessage) (u : ControlUpdate)
        (t : TargetRate),
      create config = .ok c →
      exchanges.foldl Account.exchange { session := { controller := c.withInterval δ } } = a →
      (a.session.read e).2.isOk = true →
      a.session.Takes e u (a.session.read e).1 →
      u.target = some t →
      (constraintsInForce config.constraints (a.messages ++ [e])).lower ≤ t.rate ∧
        t.rate ≤ (constraintsInForce config.constraints (a.messages ++ [e])).upper := by
  intro hall
  have he : (fixedRateSession.read
      (.availability { atTime := .ofSeconds 1, isAvailable := true })).2.isOk = true := by
    decide +kernel
  obtain ⟨u, htakes⟩ := read_takes he
  have htarget := SendController.target_eq_announcement htakes.deliver
  obtain ⟨t, ht, hrate⟩ := Option.map_eq_some_iff.mp htarget
  have hlower := (hall fixedRate fixedRateSession.controller (.ofMillis 25) [] _ _ u t rfl rfl he
    htakes ht).1
  rw [hrate] at hlower
  revert hlower
  decide +kernel

end Session

end MediaSender
