import MediaSender.Proofs.Controller.Polling
import MediaSender.Proofs.Epoch.Controller

/-! # Sessions on another clock

A session that is used by another clock shows what it shows by this one, told by that clock.

* **Replies.** What an action gives back, the deadline, and the state of the rate control are all
  that a session shows (`Observation`).
* **Deadlines.** A session adds the process interval to a time in two places: when the network comes
  up, and when a deadline has come.  These are the only sums that the range can cut off on one
  clock and not on the other, so a run is asked to stay in the range there (`RunsExactly`).
* **Runs.** An action does the same on both clocks (`Rebasable.act_rebase`) and gives back the same
  (`Rebasable.reply_rebase`), so a run shows the same (`Rebasable.observations_rebase`). -/

namespace MediaSender

variable {k : Int}

namespace Session

/-! ### What a session shows -/

/-- What an action gives back. -/
inductive Reply where
  | called (answer : Except ControlError ControlUpdate)
  | read (answer : Except ControlError Unit)
  | nothing
  | nextUpdate (u : Option ControlUpdate)
  | nextReport (r : Option RateReport)

/-- What an action gives back. -/
def reply (s : Session) : Action → Reply
  | .call e => .called ((s.call e).map (·.2))
  | .read e => .read (s.read e).2
  | .advance _ => .nothing
  | .nextUpdate => .nextUpdate s.nextUpdate.2
  | .nextReport => .nextReport s.nextReport.2
  | .close => .nothing

/-- What is seen of a session after an action. -/
structure Observation where
  reply : Reply
  deadline : Option Timestamp
  control : RateControl

/-- What is seen of a run; a message past the queues that breaks a rule ends it. -/
def observations (s : Session) : List Action → List (Except ControlError Observation)
  | [] => []
  | a :: rest =>
    match s.act a with
    | .error x => [.error x]
    | .ok s' =>
      .ok { reply := s.reply a, deadline := s'.deadline, control := s'.controller.control } ::
        s'.observations rest

/-! ### Deadlines in the range -/

/-- The time that an action sets the next deadline from, if it does. -/
def countsFrom (s : Session) : Action → Option Timestamp
  | .read (.availability m) => if m.isAvailable && !s.isClosed then some m.atTime else none
  | .advance now => if s.isDue now then some now else none
  | _ => none

/-- A deadline that the action sets is in the range. -/
def SchedulesExactly (s : Session) (a : Action) : Prop :=
  ∀ t ∈ s.countsFrom a, t.AddsExactly s.controller.processInterval

instance (s : Session) (a : Action) : Decidable (s.SchedulesExactly a) :=
  inferInstanceAs (Decidable (∀ t ∈ s.countsFrom a, t.AddsExactly s.controller.processInterval))

/-- All deadlines that are set in a run are in the range. -/
def RunsExactly : Session → List Action → Prop
  | _, [] => True
  | s, a :: rest =>
    s.SchedulesExactly a ∧
      match s.act a with
      | .ok s' => s'.RunsExactly rest
      | .error _ => True

instance decidableRunsExactly : (s : Session) → (actions : List Action) →
    Decidable (s.RunsExactly actions)
  | _, [] => inferInstanceAs (Decidable True)
  | s, a :: rest =>
    have : Decidable (match s.act a with
        | .ok s' => s'.RunsExactly rest
        | .error _ => True) :=
      match s.act a with
      | .ok s' => decidableRunsExactly s' rest
      | .error _ => inferInstanceAs (Decidable True)
    inferInstanceAs (Decidable (_ ∧ _))

/-! ### The other clock -/

/-- The action as told by the other clock. -/
def Action.rebase (k : Int) : Action → Action
  | .call e => .call (e.rebase k)
  | .read e => .read (e.rebase k)
  | .advance now => .advance (now.rebase k)
  | .nextUpdate => .nextUpdate
  | .nextReport => .nextReport
  | .close => .close

/-- The times that are read of the action have timestamps on the other clock. -/
def Action.Rebasable (k : Int) : Action → Prop
  | .call e => e.Rebasable k
  | .read e => e.Rebasable k
  | .advance now => now.Rebasable k
  | _ => True

instance (k : Int) (a : Action) : Decidable (a.Rebasable k) := by
  cases a <;> unfold Action.Rebasable <;> infer_instance

/-- The reply as told by the other clock. -/
def Reply.rebase (k : Int) : Reply → Reply
  | .called answer => .called (answer.map (·.rebase k))
  | .read answer => .read answer
  | .nothing => .nothing
  | .nextUpdate u => .nextUpdate (u.map (·.rebase k))
  | .nextReport r => .nextReport (r.map (·.rebase k))

/-- The observation as told by the other clock. -/
def Observation.rebase (k : Int) (o : Observation) : Observation where
  reply := o.reply.rebase k
  deadline := o.deadline.map (·.rebase k)
  control := o.control.rebase k

/-- The session with all its times on the other clock. -/
def rebase (k : Int) (s : Session) : Session :=
  { s with
    controller := s.controller.rebase k
    deadline := s.deadline.map (·.rebase k)
    updates := s.updates.map (·.rebase k)
    reports := s.reports.map (·.rebase k) }

/-- The times that are read of the session have timestamps on the other clock. -/
structure Rebasable (k : Int) (s : Session) : Prop where
  controller : s.controller.Rebasable k
  deadline : ∀ t, s.deadline = some t → t.Rebasable k

section actions

variable {s s' : Session} {e : NetworkMessage} {u : ControlUpdate} {now : Timestamp}

/-! ### Queues -/

theorem hasChanges_rebase (u : ControlUpdate) : (u.rebase k).hasChanges = u.hasChanges := by
  unfold ControlUpdate.hasChanges ControlUpdate.rebase
  dsimp only
  rw [Option.isSome_map, Option.isSome_map, List.isEmpty_map]

theorem enqueue_rebase (s : Session) (u : ControlUpdate) :
    (s.rebase k).enqueue (u.rebase k) = (s.enqueue u).rebase k := by
  unfold enqueue
  rw [hasChanges_rebase]
  split
  next =>
    unfold rebase
    rw [List.map_append]
    rfl
  next => rfl

theorem enqueueReport_rebase (s : Session) :
    (s.rebase k).enqueueReport = s.enqueueReport.rebase k := by
  have hlast : (s.rebase k).controller.control.lastReport =
      s.controller.control.lastReport.map (·.rebase k) := rfl
  unfold enqueueReport
  rw [hlast]
  cases s.controller.control.lastReport with
  | none => rfl
  | some r =>
      unfold rebase
      dsimp only [Option.map_some]
      rw [List.map_append]
      rfl

theorem nextUpdate_rebase (s : Session) :
    (s.rebase k).nextUpdate = (s.nextUpdate.1.rebase k, s.nextUpdate.2.map (·.rebase k)) := by
  unfold nextUpdate rebase
  dsimp only
  rw [List.map_tail, List.head?_map]

theorem nextReport_rebase (s : Session) :
    (s.rebase k).nextReport = (s.nextReport.1.rebase k, s.nextReport.2.map (·.rebase k)) := by
  unfold nextReport rebase
  dsimp only
  rw [List.map_tail, List.head?_map]

/-! ### Messages -/

theorem Rebasable.call_rebase (hs : s.Rebasable k) (he : e.Rebasable k) :
    (s.rebase k).call (e.rebase k) = (s.call e).map fun r => (r.1.rebase k, r.2.rebase k) := by
  have hdeliver := hs.controller.deliver_rebase he
  unfold call
  show (NetworkMessage.deliver (s.controller.rebase k) (e.rebase k)).map _ = _
  rw [hdeliver]
  cases NetworkMessage.deliver s.controller e <;> rfl

theorem Rebasable.call (hs : s.Rebasable k) (he : e.Rebasable k) (h : s.call e = .ok (s', u)) :
    s'.Rebasable k := by
  obtain ⟨c, hd, rfl⟩ := call_eq_ok h
  exact ⟨hs.controller.deliver he hd, hs.deadline⟩

theorem check_rebase (e : NetworkMessage) : (e.rebase k).check = e.check := by
  cases e <;> rfl

theorem isFeedback_rebase (e : NetworkMessage) : (e.rebase k).isFeedback = e.isFeedback := by
  cases e <;> rfl

theorem countsFrom_up {m : Availability} (hopen : s.isClosed = false)
    (hm : m.isAvailable = true) : s.countsFrom (.read (.availability m)) = some m.atTime := by
  simp only [countsFrom, hm, hopen, Bool.not_false, Bool.and_self, if_true]

/-- The deadline after a message that an open session takes. -/
theorem Rebasable.deadlineAfter_rebase (hs : s.Rebasable k) (he : e.Rebasable k)
    (hopen : s.isClosed = false) (h : s.SchedulesExactly (.read e))
    (h' : (s.rebase k).SchedulesExactly (.read (e.rebase k))) :
    (∀ t, s.deadlineAfter e = some t → t.Rebasable k) ∧
      (s.rebase k).deadlineAfter (e.rebase k) = (s.deadlineAfter e).map (·.rebase k) := by
  cases e with
  | availability m =>
      by_cases hm : m.isAvailable = true
      · have hexact := h m.atTime (countsFrom_up hopen hm)
        have hexact' := h' (m.atTime.rebase k) (countsFrom_up (m := m.rebase k) hopen hm)
        obtain ⟨hsum, hadd⟩ := Timestamp.Rebasable.rebase_add he hexact hexact'
        have hup := s.deadlineAfter_up hm
        have hup' := (s.rebase k).deadlineAfter_up (m := m.rebase k) hm
        rw [hup]
        refine ⟨?_, ?_⟩
        · intro t ht
          cases ht
          exact hsum
        · exact hup'.trans (congrArg some hadd)
      · have hdown := s.deadlineAfter_down hm
        have hdown' := (s.rebase k).deadlineAfter_down (m := m.rebase k) hm
        rw [hdown]
        refine ⟨?_, hdown'⟩
        intro t ht
        cases ht
  | _ => exact ⟨hs.deadline, rfl⟩

/-- A message that an open session takes. -/
theorem Rebasable.accept_rebase (hs : s.Rebasable k) (he : e.Rebasable k)
    (hopen : s.isClosed = false) (h : s.SchedulesExactly (.read e))
    (h' : (s.rebase k).SchedulesExactly (.read (e.rebase k))) :
    (s.rebase k).accept (e.rebase k) = (s.accept e).map (·.rebase k) := by
  have hcall := hs.call_rebase he
  have hdeadline := (hs.deadlineAfter_rebase he hopen h h').2
  unfold accept
  rw [hcall, hdeadline, isFeedback_rebase]
  cases s.call e with
  | error x => rfl
  | ok p =>
      obtain ⟨next, u⟩ := p
      have henqueue := enqueue_rebase (k := k) { next with deadline := s.deadlineAfter e } u
      have hreport := enqueueReport_rebase (k := k)
        ({ next with deadline := s.deadlineAfter e }.enqueue u)
      rw [← henqueue] at hreport
      show Except.ok _ = Except.ok _
      refine congrArg Except.ok ?_
      split
      next => exact hreport
      next => exact henqueue

theorem Rebasable.accept (hs : s.Rebasable k) (he : e.Rebasable k) (hopen : s.isClosed = false)
    (h : s.SchedulesExactly (.read e))
    (h' : (s.rebase k).SchedulesExactly (.read (e.rebase k))) (ha : s.accept e = .ok s') :
    s'.Rebasable k := by
  obtain ⟨⟨u, hd⟩, hdeadline, -⟩ := accept_eq_ok ha
  refine ⟨hs.controller.deliver he hd, ?_⟩
  rw [hdeadline]
  exact (hs.deadlineAfter_rebase he hopen h h').1

theorem Rebasable.read_rebase (hs : s.Rebasable k) (he : e.Rebasable k)
    (h : s.SchedulesExactly (.read e))
    (h' : (s.rebase k).SchedulesExactly (.read (e.rebase k))) :
    (s.rebase k).read (e.rebase k) = ((s.read e).1.rebase k, (s.read e).2) := by
  have hclosed : (s.rebase k).isClosed = s.isClosed := rfl
  unfold read
  rw [hclosed, check_rebase]
  cases hopen : s.isClosed with
  | true => rfl
  | false =>
      rw [hs.accept_rebase he hopen h h']
      cases e.check with
      | error x => rfl
      | ok _ => cases s.accept e <;> rfl

theorem Rebasable.read (hs : s.Rebasable k) (he : e.Rebasable k)
    (h : s.SchedulesExactly (.read e))
    (h' : (s.rebase k).SchedulesExactly (.read (e.rebase k))) : (s.read e).1.Rebasable k := by
  unfold Session.read
  cases hopen : s.isClosed with
  | true => exact hs
  | false =>
      cases e.check with
      | error x => exact hs
      | ok _ =>
          cases ha : s.accept e with
          | error x => exact hs
          | ok next => exact hs.accept he hopen h h' ha

/-! ### Time -/

theorem Rebasable.isDue_rebase (hs : s.Rebasable k) (hnow : now.Rebasable k) :
    (s.rebase k).isDue (now.rebase k) = s.isDue now := by
  unfold isDue
  show (s.deadline.map (·.rebase k)).any _ = _
  cases hd : s.deadline with
  | none => rfl
  | some t =>
      have hle := (hs.deadline t hd).rebase_le_rebase hnow
      exact decide_eq_decide.mpr hle

theorem countsFrom_due (h : s.isDue now = true) : s.countsFrom (.advance now) = some now :=
  if_pos h

theorem Rebasable.advance_due (hs : s.Rebasable k) (hnow : now.Rebasable k)
    (hdue : s.isDue now = true) (h : s.SchedulesExactly (.advance now))
    (h' : (s.rebase k).SchedulesExactly (.advance (now.rebase k))) :
    (s.rebase k).advance (now.rebase k) = (s.advance now).rebase k ∧
      (s.advance now).Rebasable k := by
  have hdue' : (s.rebase k).isDue (now.rebase k) = true := (hs.isDue_rebase hnow).trans hdue
  have hexact := h now (countsFrom_due hdue)
  have hexact' := h' (now.rebase k) (countsFrom_due hdue')
  obtain ⟨hsum, hadd⟩ := hnow.rebase_add hexact hexact'
  have hanswer : (s.rebase k).controller.onProcessInterval { atTime := now.rebase k } =
      SendController.rebaseAnswer k (s.controller.onProcessInterval { atTime := now }) :=
    hs.controller.onProcessInterval_rebase (m := { atTime := now }) hnow
  have hinterval : (s.rebase k).controller.processInterval = s.controller.processInterval := rfl
  have hafter := hs.controller.onProcessInterval (m := { atTime := now }) hnow
  refine ⟨?_, ?_⟩
  · rw [advance_of_isDue now hdue, advance_of_isDue (now.rebase k) hdue', hanswer, hinterval, hadd]
    exact enqueue_rebase
      { s with
        controller := (s.controller.onProcessInterval { atTime := now }).1
        deadline := some (now + s.controller.processInterval) } _
  · rw [advance_of_isDue now hdue]
    refine ⟨?_, ?_⟩
    · rw [enqueue_controller]
      exact hafter
    · intro t ht
      rw [enqueue_deadline] at ht
      cases ht
      exact hsum

theorem Rebasable.advance_rebase (hs : s.Rebasable k) (hnow : now.Rebasable k)
    (h : s.SchedulesExactly (.advance now))
    (h' : (s.rebase k).SchedulesExactly (.advance (now.rebase k))) :
    (s.rebase k).advance (now.rebase k) = (s.advance now).rebase k ∧
      (s.advance now).Rebasable k := by
  have hsame := hs.isDue_rebase hnow
  cases hdue : s.isDue now with
  | true => exact hs.advance_due hnow hdue h h'
  | false =>
      rw [advance_of_not_isDue now hdue, advance_of_not_isDue (now.rebase k) (hsame.trans hdue)]
      exact ⟨rfl, hs⟩

/-! ### Actions and runs -/

section act

variable {a : Action} (hs : s.Rebasable k) (ha : a.Rebasable k) (h : s.SchedulesExactly a)
  (h' : (s.rebase k).SchedulesExactly (a.rebase k))

include hs ha h h'

/-- An action does the same on both clocks. -/
theorem Rebasable.act_rebase : (s.rebase k).act (a.rebase k) = (s.act a).map (·.rebase k) := by
  cases a with
  | call e =>
      have hcall := hs.call_rebase ha
      show ((s.rebase k).call (e.rebase k)).map (·.1) = ((s.call e).map (·.1)).map _
      rw [hcall]
      cases s.call e <;> rfl
  | read e =>
      have hread := hs.read_rebase ha h h'
      show Except.ok ((s.rebase k).read (e.rebase k)).1 = _
      rw [hread]
      rfl
  | advance now => exact congrArg Except.ok (hs.advance_rebase ha h h').1
  | nextUpdate => exact congrArg (fun r => Except.ok r.1) s.nextUpdate_rebase
  | nextReport => exact congrArg (fun r => Except.ok r.1) s.nextReport_rebase
  | close => rfl

theorem Rebasable.act (hact : s.act a = .ok s') : s'.Rebasable k := by
  cases a with
  | call e =>
      cases hc : s.call e with
      | error x => rw [Session.act, hc] at hact; cases hact
      | ok p =>
          rw [Session.act, hc] at hact
          have hs' : p.1 = s' := Except.ok.inj hact
          rw [← hs']
          exact hs.call ha hc
  | read e =>
      cases hact
      exact hs.read ha h h'
  | advance now =>
      cases hact
      exact (hs.advance_rebase ha h h').2
  | nextUpdate => cases hact; exact ⟨hs.controller, hs.deadline⟩
  | nextReport => cases hact; exact ⟨hs.controller, hs.deadline⟩
  | close =>
      cases hact
      refine ⟨hs.controller, ?_⟩
      intro t ht
      cases ht

/-- An action gives back the same on both clocks. -/
theorem Rebasable.reply_rebase : (s.rebase k).reply (a.rebase k) = (s.reply a).rebase k := by
  cases a with
  | call e =>
      have hcall := hs.call_rebase ha
      show Reply.called (((s.rebase k).call (e.rebase k)).map (·.2)) = _
      rw [hcall, reply]
      cases s.call e <;> rfl
  | read e =>
      have hread := hs.read_rebase ha h h'
      show Reply.read ((s.rebase k).read (e.rebase k)).2 = Reply.read (s.read e).2
      rw [hread]
  | advance now => rfl
  | nextUpdate => exact congrArg (fun r => Reply.nextUpdate r.2) s.nextUpdate_rebase
  | nextReport => exact congrArg (fun r => Reply.nextReport r.2) s.nextReport_rebase
  | close => rfl

end act

/-- A run shows the same on both clocks. -/
theorem Rebasable.observations_rebase {actions : List Action} (hs : s.Rebasable k)
    (ha : ∀ a ∈ actions, a.Rebasable k) (h : s.RunsExactly actions)
    (h' : (s.rebase k).RunsExactly (actions.map (·.rebase k))) :
    (s.rebase k).observations (actions.map (·.rebase k)) =
      (s.observations actions).map (Except.map (·.rebase k)) := by
  induction actions generalizing s with
  | nil => rfl
  | cons a rest ih =>
      rw [List.map_cons] at h' ⊢
      obtain ⟨ha, hrest⟩ := List.forall_mem_cons.mp ha
      have hact := hs.act_rebase ha h.1 h'.1
      have hreply := hs.reply_rebase ha h.1 h'.1
      have hlater := h.2
      have hlater' := h'.2
      rw [observations, observations, hreply]
      rw [hact] at hlater' ⊢
      cases hs' : s.act a with
      | error x => rfl
      | ok s' =>
          rw [hs'] at hlater hlater'
          have hnext := ih (hs.act ha h.1 h'.1 hs') hrest hlater hlater'
          exact congrArg (List.cons _) hnext

end actions

/-! ### New sessions -/

/-- A session with a new controller and a process interval. -/
def opened (config : ControllerConfig) (δ : TimeDelta) : Except ControlError Session :=
  (SendController.create config).map fun c => { controller := c.withInterval δ }

theorem opened_rebase (config : ControllerConfig) (δ : TimeDelta) :
    opened (config.rebase k) δ = (opened config δ).map (·.rebase k) := by
  unfold opened
  rw [SendController.create_rebase]
  cases SendController.create config <;> rfl

theorem rebasable_opened {config : ControllerConfig} {δ : TimeDelta} {s : Session}
    (h : opened config δ = .ok s) : s.Rebasable k := by
  unfold opened at h
  cases hc : SendController.create config with
  | error x => rw [hc] at h; cases h
  | ok c =>
      rw [hc] at h
      cases h
      have hcontroller := SendController.rebasable_create (k := k) hc
      refine ⟨⟨hcontroller.control, hcontroller.lastPaddingStart⟩, ?_⟩
      intro t ht
      cases ht

end Session

end MediaSender
