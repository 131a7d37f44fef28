import MediaSender.Controller.Basic

/-! # Sessions

A session stands between a sending controller and its surroundings, which read no update when it
arises but ask for it later.

* **Queues.** Updates with changes, and the report of each feedback, wait in the order they came.
* **Timer.** While the network is available the controller wants to be called at `deadline`.
* **Checks.** Constraints in the wrong order are refused, and a closed session refuses
  everything; a refusal changes nothing. -/

namespace MediaSender

/-- A controller with its timer and its queues. -/
structure Session where
  controller : SendController
  deadline : Option Timestamp := none
  updates : List ControlUpdate := []
  reports : List RateReport := []
  isClosed : Bool := false

/-- Refuse limits in the wrong order. -/
def RateConstraints.check (c : RateConstraints) : Except ControlError Unit :=
  match c.minimum, c.maximum with
  | some lower, some upper =>
    if upper < lower then .error (.invalidConstraints lower upper) else .ok ()
  | _, _ => .ok ()

/-- Refuse messages with limits in the wrong order. -/
def NetworkMessage.check : NetworkMessage → Except ControlError Unit
  | .constraints m => m.check
  | .routeChange m => m.constraints.check
  | _ => .ok ()

/-- Whether the message is feedback. -/
def NetworkMessage.isFeedback : NetworkMessage → Bool
  | .feedback _ => true
  | _ => false

namespace Session

/-- The deadline after a message. -/
def deadlineAfter (s : Session) : NetworkMessage → Option Timestamp
  | .availability m =>
    if m.isAvailable then some (m.atTime + s.controller.processInterval) else none
  | _ => s.deadline

/-- Queue an update, unless it is without changes. -/
def enqueue (s : Session) (u : ControlUpdate) : Session :=
  if u.hasChanges then { s with updates := s.updates ++ [u] } else s

/-- Queue the report on the last feedback. -/
def enqueueReport (s : Session) : Session :=
  match s.controller.control.lastReport with
  | some r => { s with reports := s.reports ++ [r] }
  | none => s

/-- Hand a message to the controller at once, past the queues. -/
def call (s : Session) (e : NetworkMessage) : Except ControlError (Session × ControlUpdate) :=
  (e.deliver s.controller).map fun (controller, u) => ({ s with controller }, u)

/-- Hand a checked message to the controller and queue what comes of it. -/
def accept (s : Session) (e : NetworkMessage) : Except ControlError Session :=
  (call s e).map fun (next, u) =>
    let next := { next with deadline := s.deadlineAfter e }.enqueue u
    if e.isFeedback then next.enqueueReport else next

/-- Take a message: the session after it, and whether it was refused. -/
def read (s : Session) (e : NetworkMessage) : Session × Except ControlError Unit :=
  if s.isClosed then (s, .error .closed)
  else
    match e.check with
    | .error refusal => (s, .error refusal)
    | .ok () =>
      match s.accept e with
      | .error refusal => (s, .error refusal)
      | .ok next => (next, .ok ())

/-- Let the time be `now`: a deadline that has come calls the controller and moves on. -/
def advance (s : Session) (now : Timestamp) : Session :=
  match s.deadline with
  | none => s
  | some deadline =>
    if deadline ≤ now then
      let (controller, u) := s.controller.onProcessInterval { atTime := now }
      { s with controller, deadline := some (now + s.controller.processInterval) }.enqueue u
    else s

/-- The oldest update that waits. -/
def nextUpdate (s : Session) : Session × Option ControlUpdate :=
  ({ s with updates := s.updates.tail }, s.updates.head?)

/-- The oldest report that waits. -/
def nextReport (s : Session) : Session × Option RateReport :=
  ({ s with reports := s.reports.tail }, s.reports.head?)

/-- End the session: nothing waits any more, and nothing is taken. -/
def close (s : Session) : Session :=
  { s with deadline := none, updates := [], reports := [], isClosed := true }

end Session

end MediaSender
