import MediaSender.Proofs.Controller.Sessions
import MediaSender.Proofs.Guarded.Controller

/-! # Sessions on a machine that may stop

A session checks the constraints in a message before its controller sees them, so that inverted
bounds do not stop it.

* **Check.** The check compares two limits that are both given.  A limit that is left out stands for
  zero or plus infinity, and of constraints that pass the check, those with an upper limit below
  zero and no lower one still have inverted bounds; no others have (`inverted_iff_slipsThrough`).
* **Messages.** In every reachable session, reading a message stops only for such constraints and
  for a report that exhausts the counter of closed epochs (`Session.Stops`); otherwise it is taken
  or refused as on a machine that never stops, and refused for one of two reasons
  (`guardedRead_of_reachable`).
* **Refutation.** One message to a new session refutes that reading never stops
  (`not_guardedRead_never_stops`). -/

namespace MediaSender

/-! ### The check -/

namespace RateConstraints

/-- An upper limit below zero, and no lower one. -/
def SlipsThrough (m : RateConstraints) : Prop :=
  m.minimum = none ∧ ∃ upper, m.maximum = some upper ∧ upper < 0

/-- Constraints that pass the check have inverted bounds exactly if they slip through. -/
theorem inverted_iff_slipsThrough {m : RateConstraints} (h : m.check = .ok ()) :
    m.upper < m.lower ↔ m.SlipsThrough := by
  obtain ⟨atTime, minimum, maximum, starting⟩ := m
  have hinfinity : ∀ lower : DataRate, ¬(.plusInfinity : DataRate) < lower := by
    intro lower
    have hlower := lower.upper
    rw [Quantity.lt_def, Quantity.raw_plusInfinity]
    omega
  cases minimum with
  | none =>
      cases maximum with
      | none =>
          refine iff_of_false (hinfinity 0) ?_
          rintro ⟨-, upper, hupper, -⟩
          cases hupper
      | some upper =>
          constructor
          · intro hlt
            exact ⟨rfl, upper, rfl, hlt⟩
          · rintro ⟨-, upper', hupper, hlt⟩
            obtain rfl : upper = upper' := Option.some.inj hupper
            exact hlt
  | some lower =>
      refine iff_of_false ?_ fun hm => Option.some_ne_none lower hm.1
      cases maximum with
      | none => exact hinfinity lower
      | some upper =>
          intro hlt
          have hlt : upper < lower := hlt
          have hcheck : (if upper < lower then .error (.invalidConstraints lower upper)
            else .ok () : Except ControlError Unit) = .ok () := h
          rw [if_pos hlt] at hcheck
          cases hcheck

/-- The check refuses with the two limits. -/
theorem check_eq_error {m : RateConstraints} {x : ControlError} (h : m.check = .error x) :
    ∃ lower upper, x = .invalidConstraints lower upper := by
  unfold check at h
  split at h
  next lower upper _ _ =>
    split at h
    next =>
      cases h
      exact ⟨lower, upper, rfl⟩
    next => cases h
  next => cases h

end RateConstraints

namespace NetworkMessage

variable {e : NetworkMessage}

theorem check_of_limits {m : RateConstraints} (h : e.limits? = some m) : e.check = m.check := by
  cases e with
  | constraints m' => cases h; rfl
  | routeChange m' => cases h; rfl
  | _ => cases h

theorem check_eq_error {x : ControlError} (h : e.check = .error x) :
    ∃ lower upper, x = .invalidConstraints lower upper := by
  cases e with
  | constraints m => exact RateConstraints.check_eq_error h
  | routeChange m => exact RateConstraints.check_eq_error h
  | _ => cases h

end NetworkMessage

/-! ### Reading -/

namespace Session

/-- The session after its controller has answered a message. -/
def afterAnswer (s : Session) (e : NetworkMessage) (controller : SendController)
    (u : ControlUpdate) : Session :=
  let next := { s with controller, deadline := s.deadlineAfter e }.enqueue u
  if e.isFeedback then next.enqueueReport else next

/-- Hand a message to the controller and queue what comes of it. -/
def guardedAccept (s : Session) (e : NetworkMessage) : Except Fault Session := do
  let (controller, u) ← s.controller.guardedDeliver e
  return s.afterAnswer e controller u

/-- Take a message: the session after it, and whether it was refused. -/
def guardedRead (s : Session) (e : NetworkMessage) :
    Except Fault (Session × Except ControlError Unit) :=
  if s.isClosed then .ok (s, .error .closed)
  else
    match e.check with
    | .error refusal => .ok (s, .error refusal)
    | .ok () => do
      let next ← s.guardedAccept e
      return (next, .ok ())

/-- The session is open, and the message carries constraints that slip through the check, or is a
report that exhausts the counter of closed epochs. -/
def Stops (s : Session) (e : NetworkMessage) : Prop :=
  s.isClosed = false ∧
    ((∃ m, e.limits? = some m ∧ m.SlipsThrough) ∨ s.controller.Exhausts e)

section reading

variable {s : Session} {e : NetworkMessage}

theorem read_of_isClosed (h : s.isClosed = true) : s.read e = (s, .error .closed) := if_pos h

theorem guardedRead_of_isClosed (h : s.isClosed = true) :
    s.guardedRead e = .ok (s, .error .closed) := if_pos h

theorem read_of_check_error (hs : s.isClosed = false) {x : ControlError} (h : e.check = .error x) :
    s.read e = (s, .error x) := by
  rw [read, hs, h]
  rfl

theorem guardedRead_of_check_error (hs : s.isClosed = false) {x : ControlError}
    (h : e.check = .error x) : s.guardedRead e = .ok (s, .error x) := by
  rw [guardedRead, hs, h]
  rfl

theorem guardedRead_of_check_ok (hs : s.isClosed = false) (h : e.check = .ok ()) :
    s.guardedRead e = (s.guardedAccept e >>= fun next => .ok (next, .ok ())) := by
  rw [guardedRead, hs, h]
  rfl

theorem accept_of_ok {c : SendController} {u : ControlUpdate}
    (h : e.deliver s.controller = .ok (c, u)) : s.accept e = .ok (s.afterAnswer e c u) := by
  unfold accept call
  rw [h]
  rfl

theorem guardedAccept_of_ok {c : SendController} {u : ControlUpdate}
    (h : s.controller.guardedDeliver e = .ok (c, u)) :
    s.guardedAccept e = .ok (s.afterAnswer e c u) := by
  rw [guardedAccept, h]
  rfl

/-- A message that does not stop a sound session is read alike on both machines, and refused only
if the session is closed or the constraints are in the wrong order. -/
theorem guardedRead_eq (hc : s.controller.Sound) (h : ¬s.Stops e) :
    s.guardedRead e = .ok (s.read e) ∧
      ((s.read e).2 = .ok () ∨ (s.read e).2 = .error .closed ∨
        ∃ lower upper, (s.read e).2 = .error (.invalidConstraints lower upper)) := by
  cases hs : s.isClosed with
  | true =>
      rw [guardedRead_of_isClosed hs, read_of_isClosed hs]
      exact ⟨rfl, .inr (.inl rfl)⟩
  | false =>
      cases hcheck : e.check with
      | error x =>
          obtain ⟨lower, upper, rfl⟩ := NetworkMessage.check_eq_error hcheck
          rw [guardedRead_of_check_error hs hcheck, read_of_check_error hs hcheck]
          exact ⟨rfl, .inr (.inr ⟨lower, upper, rfl⟩)⟩
      | ok =>
          have hlimits : ∀ m, e.limits? = some m → m.lower ≤ m.upper := by
            intro m hm
            rw [NetworkMessage.check_of_limits hm] at hcheck
            rw [← not_lt, RateConstraints.inverted_iff_slipsThrough hcheck]
            exact fun hslips => h ⟨hs, .inl ⟨m, hm, hslips⟩⟩
          have hroom : ¬s.controller.Exhausts e := fun he => h ⟨hs, .inr he⟩
          obtain ⟨⟨c, u⟩, hdeliver, hguarded⟩ := hc.guardedDeliver_eq hlimits hroom
          have hread : s.read e = (s.afterAnswer e c u, .ok ()) := by
            rw [read, hs, hcheck, accept_of_ok hdeliver]
            rfl
          rw [guardedRead_of_check_ok hs hcheck, guardedAccept_of_ok hguarded, hread]
          exact ⟨rfl, .inl rfl⟩

/-- Constraints that slip through the check stop an open session. -/
theorem guardedRead_of_slipsThrough (hs : s.isClosed = false) {m : RateConstraints}
    (hm : e.limits? = some m) (hslips : m.SlipsThrough) :
    s.guardedRead e = .error (.invertedBounds m.lower m.upper) := by
  have hcheck : m.check = .ok () := by
    unfold RateConstraints.check
    rw [hslips.1]
  have hlt := (RateConstraints.inverted_iff_slipsThrough hcheck).mpr hslips
  rw [← NetworkMessage.check_of_limits hm] at hcheck
  rw [guardedRead_of_check_ok hs hcheck, guardedAccept, SendController.guardedDeliver_of_lt hm hlt]
  rfl

/-- A report that exhausts the counter of closed epochs stops an open session. -/
theorem guardedRead_of_exhausts (hs : s.isClosed = false) (he : s.controller.Exhausts e) :
    s.guardedRead e = .error .overflow := by
  have hcheck : e.check = .ok () := by
    obtain ⟨f, rfl, -⟩ := he
    rfl
  rw [guardedRead_of_check_ok hs hcheck, guardedAccept,
    SendController.guardedDeliver_of_exhausts he]
  rfl

/-- The controller of a reachable session is sound. -/
theorem Reachable.sound {config : ControllerConfig} (hr : s.Reachable config) :
    s.controller.Sound :=
  hr.controller_induction (fun _ δ hc => SendController.sound_create hc δ)
    fun _ _ _ _ hc hd => hc.deliver hd

end reading

/-- **Reading a message stops for two reasons only.**  Constraints that pass the check have bounds
in order unless they have an upper limit below zero and no lower one.  In every reachable session
a message is taken, refused for its constraints or refused because the session is closed, also on
a machine that stops at inverted bounds, at clamps with inverted ends and at integers that
overflow, unless the session is open and the message carries such constraints, or is a report that
closes one epoch more than a 64-bit counter can count; each of these two stops it. -/
theorem guardedRead_of_reachable (config : ControllerConfig) (s : Session)
    (hr : s.Reachable config) (e : NetworkMessage) :
    (∀ m : RateConstraints, m.check = .ok () → (m.lower ≤ m.upper ↔ ¬m.SlipsThrough)) ∧
      (¬s.Stops e →
        s.guardedRead e = .ok (s.read e) ∧
          ((s.read e).2 = .ok () ∨ (s.read e).2 = .error .closed ∨
            ∃ lower upper, (s.read e).2 = .error (.invalidConstraints lower upper))) ∧
      (s.Stops e →
        (∃ m, e.limits? = some m ∧ m.SlipsThrough ∧
            s.guardedRead e = .error (.invertedBounds m.lower m.upper)) ∨
          s.controller.Exhausts e ∧ s.guardedRead e = .error .overflow) := by
  refine ⟨?_, guardedRead_eq hr.sound, ?_⟩
  · intro m hm
    rw [← not_lt, RateConstraints.inverted_iff_slipsThrough hm]
  · rintro ⟨hs, ⟨m, hm, hslips⟩ | he⟩
    · exact .inl ⟨m, hm, hslips, guardedRead_of_slipsThrough hs hm hslips⟩
    · exact .inr ⟨he, guardedRead_of_exhausts hs he⟩

/-- A new session. -/
def fresh : Session :=
  { controller := {
      params := Parameters.ofTrials {}
      control := .initial (Parameters.ofTrials {})
      constraints := {}
      streams := {} } }

theorem reachable_fresh : fresh.Reachable {} := ⟨fresh.controller, .ofMillis 25, [], rfl, rfl⟩

/-- Limits in the wrong order for a new route, and an upper limit below zero without a lower one. -/
theorem guardedRead_of_reachable_for_routes :
    let refused : NetworkMessage :=
      .routeChange { constraints := { minimum := some (.ofInt 5), maximum := some (.ofInt (-1)) } }
    let stopping : NetworkMessage :=
      .routeChange { constraints := { maximum := some (.ofInt (-1)) } }
    fresh.Reachable {} ∧
      (¬fresh.Stops refused ∧ fresh.guardedRead refused = .ok (fresh.read refused)) ∧
      fresh.Stops stopping ∧
      ((∃ m, stopping.limits? = some m ∧ m.SlipsThrough ∧
          fresh.guardedRead stopping = .error (.invertedBounds m.lower m.upper)) ∨
        fresh.controller.Exhausts stopping ∧ fresh.guardedRead stopping = .error .overflow) := by
  intro refused stopping
  have hrefused : ¬fresh.Stops refused := by
    rintro ⟨-, ⟨m, hm, hslips⟩ | ⟨f, hf, -⟩⟩
    · cases hm
      cases hslips.1
    · simp only [refused, reduceCtorEq] at hf
  have hstopping : fresh.Stops stopping :=
    ⟨rfl, .inl ⟨_, rfl, rfl, _, rfl, by decide⟩⟩
  have h := guardedRead_of_reachable {} fresh reachable_fresh
  exact ⟨reachable_fresh, ⟨hrefused, ((h refused).2.1 hrefused).1⟩, hstopping,
    (h stopping).2.2 hstopping⟩

/-- An upper limit below zero alone passes the check with inverted bounds, and stops a new
session. -/
theorem not_guardedRead_never_stops :
    (¬∀ m : RateConstraints, m.check = .ok () → m.lower ≤ m.upper) ∧
      ¬∀ (config : ControllerConfig) (s : Session), s.Reachable config →
        ∀ e : NetworkMessage, ∃ r, s.guardedRead e = .ok r := by
  have hslips : ({ maximum := some (.ofInt (-1)) } : RateConstraints).SlipsThrough :=
    ⟨rfl, _, rfl, by decide⟩
  constructor
  · intro h
    have hle := h { maximum := some (.ofInt (-1)) } rfl
    rw [← not_lt, RateConstraints.inverted_iff_slipsThrough rfl] at hle
    exact hle hslips
  · intro h
    obtain ⟨r, hr⟩ := h {} fresh reachable_fresh (.constraints { maximum := some (.ofInt (-1)) })
    rw [guardedRead_of_slipsThrough rfl rfl hslips] at hr
    cases hr

end Session

end MediaSender
