import MediaSender.Proofs.Guarded.Controller

/-! # Announcements of a target rate

Three kinds of messages make the controller announce a target rate, each after the controller has
been brought up to date (`announcement`).

* **Announcing.** The answer is then the announcement (`deliver_of_announcement`), whose update
  carries the rate and the pacer budget for it.
* **Other messages.** The answer is that to the passing of a period, or an update without changes
  from a controller that has at most other constraints or other streams
  (`deliver_of_no_announcement`).
* **Rates.** So every target rate of an update is that of an announcement
  (`target_eq_announcement`). -/

namespace MediaSender.SendController

/-- What a controller is to announce. -/
structure Announcement where
  /-- The controller right before it announces. -/
  controller : SendController
  atTime : Timestamp
  rate : DataRate
  roundTrip : TimeDelta

/-- The controller after an announcement, and the update. -/
def Announcement.answer (a : Announcement) : SendController × ControlUpdate :=
  a.controller.announce a.atTime a.rate a.roundTrip

/-- What the controller is to announce at a message. -/
def announcement (c : SendController) : NetworkMessage → Option Announcement
  | .availability m => if m.isAvailable then some ⟨c, m.atTime, c.startRate, 0⟩ else none
  | .routeChange m =>
    match (RateControl.initial c.params).setBounds m.constraints.lower m.constraints.upper with
    | .ok control =>
      some ⟨c.rerouted m control, m.atTime, (c.rerouted m control).startRate, 0⟩
    | .error _ => none
  | .feedback f =>
    some ⟨c.informed f, f.feedbackTime, (c.informed f).control.targetRate, f.smoothedRtt⟩
  | _ => none

section messages

variable {c c' : SendController} {e : NetworkMessage} {u : ControlUpdate} {a : Announcement}

theorem deliver_of_announcement (h : c.announcement e = some a) :
    NetworkMessage.deliver c e = .ok a.answer := by
  cases e with
  | availability m =>
      simp only [announcement] at h
      split at h
      next hm =>
        cases h
        show Except.ok (c.onAvailability m) = _
        rw [onAvailability, if_pos hm]
        rfl
      next => cases h
  | routeChange m =>
      simp only [announcement] at h
      split at h
      next control hb =>
        cases h
        exact onRouteChange_of_ok c hb
      next => cases h
  | feedback f => cases h; exact congrArg Except.ok (onFeedback_eq c f)
  | _ => cases h

/-- A message without an announcement tells that a period has passed, or gives an update without
changes and at most sets the constraints or the streams. -/
theorem deliver_of_no_announcement (h : c.announcement e = none)
    (hd : NetworkMessage.deliver c e = .ok (c', u)) :
    (∃ m, e = .processInterval m ∧ c.onProcessInterval m = (c', u)) ∨
      (∃ m control, e = .constraints m ∧ c.control.setBounds m.lower m.upper = .ok control ∧
        c' = { c with control, constraints := m } ∧ u = {}) ∨
      (e.limits? = none ∧ (∃ streams, c' = { c with streams }) ∧ u = {}) := by
  cases e with
  | availability m =>
      have hu : c.onAvailability m = (c', u) := Except.ok.inj hd
      simp only [announcement] at h
      split at h
      next => cases h
      next hm =>
        rw [onAvailability, if_neg hm] at hu
        cases hu
        exact .inr (.inr ⟨rfl, ⟨c.streams, rfl⟩, rfl⟩)
  | routeChange m =>
      obtain ⟨control, hb, -⟩ := c.onRouteChange_eq_ok hd
      simp [announcement, hb] at h
  | constraints m =>
      obtain ⟨control, hb, hu⟩ := c.onConstraints_eq_ok hd
      cases hu
      exact .inr (.inl ⟨m, control, rfl, hb, rfl, rfl⟩)
  | processInterval m => exact .inl ⟨m, rfl, Except.ok.inj hd⟩
  | feedback f => cases h
  | streams m => cases hd; exact .inr (.inr ⟨rfl, ⟨m, rfl⟩, rfl⟩)
  | remoteBitrate m => cases hd; exact .inr (.inr ⟨rfl, ⟨_, rfl⟩, rfl⟩)
  | roundTrip m => cases hd; exact .inr (.inr ⟨rfl, ⟨_, rfl⟩, rfl⟩)
  | sentPacket m => cases hd; exact .inr (.inr ⟨rfl, ⟨_, rfl⟩, rfl⟩)
  | receivedPacket m => cases hd; exact .inr (.inr ⟨rfl, ⟨_, rfl⟩, rfl⟩)
  | lossReport m => cases hd; exact .inr (.inr ⟨rfl, ⟨_, rfl⟩, rfl⟩)
  | linkEstimate m => cases hd; exact .inr (.inr ⟨rfl, ⟨_, rfl⟩, rfl⟩)

/-- The passing of a period announces no target rate. -/
@[simp] theorem onProcessInterval_target (c : SendController) (m : ProcessInterval) :
    (c.onProcessInterval m).2.target = none := by
  unfold onProcessInterval
  split
  next => rfl
  next =>
    simp only
    split <;> rfl

/-- Every target rate of an update is that of an announcement. -/
theorem target_eq_announcement (hd : NetworkMessage.deliver c e = .ok (c', u)) :
    u.target.map (·.rate) = (c.announcement e).map (·.rate) := by
  cases ha : c.announcement e with
  | some a =>
      rw [deliver_of_announcement ha, Except.ok.injEq] at hd
      have hu : a.answer.2 = u := congrArg Prod.snd hd
      rw [← hu]
      rfl
  | none =>
      obtain ⟨m, rfl, hm⟩ | ⟨m, control, -, -, -, rfl⟩ | ⟨-, -, rfl⟩ :=
        deliver_of_no_announcement ha hd
      · have hu : (c.onProcessInterval m).2 = u := congrArg Prod.snd hm
        rw [← hu, onProcessInterval_target]
        rfl
      · rfl
      · rfl

end messages

/-! ### Direct calls -/

/-- An accepted call is added to the calls so far. -/
theorem serve_eq_ok {p p' : SendController × List Call} {e : NetworkMessage}
    (h : serve p e = .ok p') :
    ∃ u, NetworkMessage.deliver p.1 e = .ok (p'.1, u) ∧
      p'.2 = p.2 ++ [{ message := e, update := u, logged := p.1.logged e }] := by
  unfold serve at h
  cases hd : NetworkMessage.deliver p.1 e with
  | error x => rw [hd] at h; cases h
  | ok r =>
      rw [hd] at h
      cases h
      exact ⟨r.2, rfl, rfl⟩

end MediaSender.SendController
