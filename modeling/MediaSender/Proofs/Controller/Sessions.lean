import MediaSender.Controller.Session
import MediaSender.Proofs.Controller.Answers
import MediaSender.Proofs.Lists

/-! # Runs of sessions

A session is `Reachable` from a configuration if it opens with a controller made from it and a
process interval, and some actions later is as it is.  An action is a message at once (`call`), a
message through the queues (`read`), the passing of time (`advance`), a look at what waits, or the
end.

* **Steps.** Of all actions only `call`, `read` and `advance` change the controller, and all three
  do so by handing it a message (`act_controller`).
* **Induction.** So what a new controller has and every message keeps, the controller of every
  reachable session has (`Reachable.controller_induction`). -/

namespace MediaSender.Session

/-- What may be done to a session. -/
inductive Action where
  | call (e : NetworkMessage)
  | read (e : NetworkMessage)
  | advance (now : Timestamp)
  | nextUpdate
  | nextReport
  | close

/-- The session after an action; a message past the queues that breaks a rule ends the run. -/
def act (s : Session) : Action → Except ControlError Session
  | .call e => (s.call e).map (·.1)
  | .read e => .ok (s.read e).1
  | .advance now => .ok (s.advance now)
  | .nextUpdate => .ok s.nextUpdate.1
  | .nextReport => .ok s.nextReport.1
  | .close => .ok s.close

/-- A session in which some actions end, from a new controller with this configuration and any
process interval. -/
def Reachable (config : ControllerConfig) (s : Session) : Prop :=
  ∃ (c : SendController) (δ : TimeDelta) (actions : List Action),
    SendController.create config = .ok c ∧
      actions.foldlM act { controller := c.withInterval δ } = .ok s

section steps

variable {s s' : Session}

theorem call_eq_ok {e : NetworkMessage} {u : ControlUpdate} (h : s.call e = .ok (s', u)) :
    ∃ c, e.deliver s.controller = .ok (c, u) ∧ s' = { s with controller := c } := by
  unfold call at h
  cases hd : e.deliver s.controller with
  | error x => rw [hd] at h; cases h
  | ok p =>
      rw [hd] at h
      have hp : ({ s with controller := p.1 }, p.2) = (s', u) := Except.ok.inj h
      rw [Prod.mk.injEq] at hp
      refine ⟨p.1, ?_, hp.1.symm⟩
      rw [← hp.2]

@[simp] theorem enqueue_controller (s : Session) (u : ControlUpdate) :
    (s.enqueue u).controller = s.controller := by
  unfold enqueue
  split <;> rfl

@[simp] theorem enqueueReport_controller (s : Session) :
    s.enqueueReport.controller = s.controller := by
  unfold enqueueReport
  split <;> rfl

@[simp] theorem enqueue_deadline (s : Session) (u : ControlUpdate) :
    (s.enqueue u).deadline = s.deadline := by
  unfold enqueue
  split <;> rfl

@[simp] theorem enqueueReport_deadline (s : Session) : s.enqueueReport.deadline = s.deadline := by
  unfold enqueueReport
  split <;> rfl

@[simp] theorem enqueue_isClosed (s : Session) (u : ControlUpdate) :
    (s.enqueue u).isClosed = s.isClosed := by
  unfold enqueue
  split <;> rfl

@[simp] theorem enqueueReport_isClosed (s : Session) : s.enqueueReport.isClosed = s.isClosed := by
  unfold enqueueReport
  split <;> rfl

theorem deadlineAfter_up (s : Session) {m : Availability} (hm : m.isAvailable = true) :
    s.deadlineAfter (.availability m) = some (m.atTime + s.controller.processInterval) :=
  if_pos hm

theorem deadlineAfter_down (s : Session) {m : Availability} (hm : ¬m.isAvailable = true) :
    s.deadlineAfter (.availability m) = none :=
  if_neg hm

/-- A message that is accepted is answered by the controller and sets the deadline. -/
theorem accept_eq_ok {e : NetworkMessage} (h : s.accept e = .ok s') :
    (∃ u, e.deliver s.controller = .ok (s'.controller, u)) ∧
      s'.deadline = s.deadlineAfter e ∧ s'.isClosed = s.isClosed := by
  unfold accept at h
  cases hc : s.call e with
  | error x => rw [hc] at h; cases h
  | ok p =>
      obtain ⟨next, u⟩ := p
      obtain ⟨c, hd, rfl⟩ := call_eq_ok hc
      rw [hc] at h
      have hs := Except.ok.inj h
      have hcontroller : s'.controller = c := by
        rw [← hs]
        split <;> simp
      refine ⟨⟨u, by rw [hcontroller]; exact hd⟩, ?_⟩
      rw [← hs]
      split <;> simp

/-- A message that is read leaves the controller alone or reaches it. -/
theorem read_controller (s : Session) (e : NetworkMessage) :
    (s.read e).1.controller = s.controller ∨
      ∃ c u, e.deliver s.controller = .ok (c, u) ∧ (s.read e).1.controller = c := by
  unfold read
  split
  next => exact .inl rfl
  next =>
    split
    next => exact .inl rfl
    next =>
      split
      next => exact .inl rfl
      next next ha =>
        obtain ⟨⟨u, hd⟩, -⟩ := accept_eq_ok ha
        exact .inr ⟨next.controller, u, hd, rfl⟩

/-- The passing of time leaves the controller alone or tells it that a period has passed. -/
theorem advance_controller (s : Session) (now : Timestamp) :
    (s.advance now).controller = s.controller ∨
      ∃ c u, NetworkMessage.deliver s.controller (.processInterval { atTime := now }) = .ok (c, u) ∧
        (s.advance now).controller = c := by
  unfold advance
  split
  next => exact .inl rfl
  next =>
    split
    next => exact .inr ⟨_, _, rfl, enqueue_controller _ _⟩
    next => exact .inl rfl

/-- An action leaves the controller alone or hands it a message. -/
theorem act_controller {a : Action} (h : s.act a = .ok s') :
    s'.controller = s.controller ∨
      ∃ e c u, NetworkMessage.deliver s.controller e = .ok (c, u) ∧ s'.controller = c := by
  cases a with
  | call e =>
      rw [act] at h
      cases hc : s.call e with
      | error x => rw [hc] at h; cases h
      | ok p =>
          rw [hc] at h
          obtain ⟨c, hd, hn⟩ := call_eq_ok hc
          have hs : p.1 = s' := Except.ok.inj h
          exact .inr ⟨e, c, p.2, hd, by rw [← hs, hn]⟩
  | read e =>
      have hs := Except.ok.inj h
      rw [← hs]
      exact (s.read_controller e).imp_right fun ⟨c, u, hd, hc⟩ => ⟨e, c, u, hd, hc⟩
  | advance now =>
      have hs := Except.ok.inj h
      rw [← hs]
      exact (s.advance_controller now).imp_right fun ⟨c, u, hd, hc⟩ => ⟨_, c, u, hd, hc⟩
  | nextUpdate => cases h; exact .inl rfl
  | nextReport => cases h; exact .inl rfl
  | close => cases h; exact .inl rfl

end steps

/-- What a new controller has, with any process interval, and what every message keeps, the
controller of every reachable session has. -/
theorem Reachable.controller_induction {config : ControllerConfig} {P : SendController → Prop}
    (h0 : ∀ c δ, SendController.create config = .ok c → P (c.withInterval δ))
    (hd : ∀ c e c' u, P c → NetworkMessage.deliver c e = .ok (c', u) → P c') {s : Session}
    (hr : s.Reachable config) : P s.controller := by
  obtain ⟨c, δ, actions, hc, hrun⟩ := hr
  refine List.foldlM_induction (P := fun s => P s.controller) ?_ (h0 c δ hc) hrun
  intro s a s' hs ha
  obtain h | ⟨e, c', u, hdel, h⟩ := act_controller ha
  · rw [h]
    exact hs
  · rw [h]
    exact hd s.controller e c' u hs hdel

/-- The parameters of a session are those of the trials it began with. -/
theorem Reachable.params {config : ControllerConfig} {s : Session} (hr : s.Reachable config) :
    s.controller.params = Parameters.ofTrials config.trials := by
  refine hr.controller_induction (P := fun c => c.params = Parameters.ofTrials config.trials) ?_ ?_
  · intro c δ hc
    have hp := SendController.create_params hc
    exact hp
  · intro c e c' u hc hd
    rw [SendController.deliver_params hd]
    exact hc

end MediaSender.Session
