import MediaSender.Proofs.Guarded.Sessions

/-! # Refusals and the end of a session

* **Refusals.** The controller itself refuses nothing but inverted bounds, which stop the program
  instead of being returned (`deliver_eq_error`).  So what a session refuses is decided before the
  controller sees it: the session is closed, or the check finds two limits in the wrong order
  (`refuses_iff`).  A refusal leaves the session as it is.
* **Silence.** Closing empties the queues and takes the deadline away.  A closed session reads
  nothing, and calls past the queues change its controller alone, so every action keeps it silent
  (`Silent.act`), and so does every run. -/

namespace MediaSender

/-! ### What the check finds -/

/-- The message carries two limits, and they are in the wrong order. -/
def NetworkMessage.CarriesInverted (e : NetworkMessage) (lower upper : DataRate) : Prop :=
  ∃ m, e.limits? = some m ∧ m.minimum = some lower ∧ m.maximum = some upper ∧ upper < lower

theorem RateConstraints.check_eq_error_iff {m : RateConstraints} {x : ControlError} :
    m.check = .error x ↔
      ∃ lower upper, m.minimum = some lower ∧ m.maximum = some upper ∧ upper < lower ∧
        x = .invalidConstraints lower upper := by
  unfold check
  constructor
  · intro h
    split at h
    next lower upper hmin hmax =>
      split at h
      next hlt => exact ⟨lower, upper, hmin, hmax, hlt, (Except.error.inj h).symm⟩
      next => cases h
    next => cases h
  · rintro ⟨lower, upper, hmin, hmax, hlt, rfl⟩
    rw [hmin, hmax]
    exact if_pos hlt

theorem NetworkMessage.check_eq_error_iff {e : NetworkMessage} {x : ControlError} :
    e.check = .error x ↔
      ∃ lower upper, e.CarriesInverted lower upper ∧ x = .invalidConstraints lower upper := by
  cases hm : e.limits? with
  | none =>
      -- a message without limits passes the check
      have hcheck : e.check = .ok () := by
        cases e with
        | constraints m => cases hm
        | routeChange m => cases hm
        | _ => rfl
      simp [hcheck, CarriesInverted, hm]
  | some m =>
      rw [check_of_limits hm, RateConstraints.check_eq_error_iff]
      simp [CarriesInverted, hm, and_assoc]

/-! ### What the controller refuses -/

theorem RateControl.setBounds_eq_error {c : RateControl} {lower upper : DataRate}
    {x : ControlError} (h : c.setBounds lower upper = .error x) :
    x = .invertedBounds lower upper := by
  unfold setBounds at h
  split at h
  next => exact (Except.error.inj h).symm
  next => cases h

theorem SendController.deliver_eq_error {c : SendController} {e : NetworkMessage}
    {x : ControlError} (h : NetworkMessage.deliver c e = .error x) :
    ∃ lower upper, x = .invertedBounds lower upper := by
  cases e with
  | routeChange m =>
      cases hb : (RateControl.initial c.params).setBounds m.constraints.lower
          m.constraints.upper with
      | ok control => cases (c.onRouteChange_of_ok hb).symm.trans h
      | error y =>
          have hy : y = x := Except.error.inj ((c.onRouteChange_of_error hb).symm.trans h)
          exact ⟨_, _, hy ▸ RateControl.setBounds_eq_error hb⟩
  | constraints m =>
      cases hb : c.control.setBounds m.lower m.upper with
      | ok control => cases (c.onConstraints_of_ok hb).symm.trans h
      | error y =>
          have hy : y = x := Except.error.inj ((c.onConstraints_of_error hb).symm.trans h)
          exact ⟨_, _, hy ▸ RateControl.setBounds_eq_error hb⟩
  | _ => cases h

/-! ### Refusals -/

namespace Session

/-- The session answers a message with an error.  Inverted bounds are none: they stop the
program. -/
def Refuses (s : Session) (e : NetworkMessage) (x : ControlError) : Prop :=
  (s.read e).2 = .error x ∧ ∀ lower upper, x ≠ .invertedBounds lower upper

section refusals

variable {s s' : Session} {e : NetworkMessage} {x : ControlError}

theorem accept_eq_error (h : s.accept e = .error x) :
    NetworkMessage.deliver s.controller e = .error x := by
  cases hd : NetworkMessage.deliver s.controller e with
  | error y =>
      unfold accept call at h
      rw [hd] at h
      exact congrArg Except.error (Except.error.inj h)
  | ok r =>
      rw [accept_of_ok hd] at h
      cases h

/-- A session refuses if it is closed, and otherwise if the check does. -/
theorem refuses_iff :
    s.Refuses e x ↔
      s.isClosed = true ∧ x = .closed ∨ s.isClosed = false ∧ e.check = .error x := by
  cases hs : s.isClosed with
  | true =>
      rw [Refuses, read_of_isClosed hs]
      constructor
      · rintro ⟨hx, -⟩
        exact .inl ⟨rfl, (Except.error.inj hx).symm⟩
      · rintro (⟨-, rfl⟩ | ⟨h, -⟩)
        · exact ⟨rfl, by simp⟩
        · cases h
  | false =>
      cases hcheck : e.check with
      | error y =>
          rw [Refuses, read_of_check_error hs hcheck]
          constructor
          · rintro ⟨hx, -⟩
            exact .inr ⟨rfl, hx⟩
          · rintro (⟨h, -⟩ | ⟨-, hx⟩)
            · cases h
            · obtain ⟨lower, upper, rfl⟩ := NetworkMessage.check_eq_error hcheck
              cases hx
              exact ⟨rfl, by simp⟩
      | ok =>
          -- only the controller is left to answer with an error, and its errors are no refusals
          refine iff_of_false ?_ (by simp)
          rintro ⟨hx, hstop⟩
          have haccept : s.accept e = .error x := by
            rw [read, hs, hcheck] at hx
            cases ha : s.accept e with
            | error y => simpa [ha] using hx
            | ok next => simp [ha] at hx
          obtain ⟨lower, upper, h⟩ := SendController.deliver_eq_error (accept_eq_error haccept)
          exact hstop lower upper h

theorem read_of_refuses (h : s.Refuses e x) : (s.read e).1 = s :=
  read_of_not_isOk (by rw [h.1]; rfl)

end refusals

/-! ### Silence -/

/-- The session is closed, nothing waits, and there is no deadline. -/
structure Silent (s : Session) : Prop where
  closed : s.isClosed = true
  deadline : s.deadline = none
  updates : s.updates = []
  reports : s.reports = []

section silence

variable {s s' : Session}

theorem silent_close (s : Session) : s.close.Silent := ⟨rfl, rfl, rfl, rfl⟩

/-- Every action keeps a session silent. -/
theorem Silent.act (h : s.Silent) {a : Action} (ha : s.act a = .ok s') : s'.Silent := by
  cases a with
  | call e =>
      cases hc : s.call e with
      | error x =>
          rw [Session.act, hc] at ha
          cases ha
      | ok p =>
          obtain ⟨c, -, hp⟩ := call_eq_ok hc
          rw [Session.act, hc] at ha
          have hs : p.1 = s' := Except.ok.inj ha
          rw [← hs, hp]
          exact ⟨h.closed, h.deadline, h.updates, h.reports⟩
  | read e =>
      have hs : (s.read e).1 = s' := Except.ok.inj ha
      rw [← hs, read_of_isClosed h.closed]
      exact h
  | advance now =>
      have hs : s.advance now = s' := Except.ok.inj ha
      rw [← hs, advance, h.deadline]
      exact h
  | nextUpdate =>
      cases ha
      exact ⟨h.closed, h.deadline, congrArg List.tail h.updates, h.reports⟩
  | nextReport =>
      cases ha
      exact ⟨h.closed, h.deadline, h.updates, congrArg List.tail h.reports⟩
  | close =>
      cases ha
      exact silent_close s

theorem Silent.run (h : s.Silent) {actions : List Action}
    (hrun : actions.foldlM Session.act s = .ok s') : s'.Silent :=
  List.foldlM_induction (fun _ _ _ hs ha => hs.act ha) h hrun

end silence

/-- **A session refuses for two reasons only, at no cost, and is silent once it is closed.**

* A message is refused if and only if the session is closed or the message carries two limits in
  the wrong order.
* A message that is refused leaves the session as it is: controller, timer and queues.
* After the session has been closed, whatever is done to it, no update and no report comes out of it
  and it has no deadline. -/
theorem refuses_and_falls_silent (s : Session) :
    (∀ e, (∃ x, s.Refuses e x) ↔
      s.isClosed = true ∨ ∃ lower upper, e.CarriesInverted lower upper) ∧
    (∀ e x, s.Refuses e x → (s.read e).1 = s) ∧
    ∀ (actions : List Action) (s' : Session), actions.foldlM act s.close = .ok s' →
      s'.nextUpdate.2 = none ∧ s'.nextReport.2 = none ∧ s'.deadline = none := by
  refine ⟨?_, fun e x => read_of_refuses, ?_⟩
  · intro e
    simp only [refuses_iff, NetworkMessage.check_eq_error_iff]
    cases s.isClosed with
    | true => simp
    | false =>
        constructor
        · rintro ⟨x, ⟨h, -⟩ | ⟨-, lower, upper, hinverted, -⟩⟩
          · cases h
          · exact .inr ⟨lower, upper, hinverted⟩
        · rintro (h | ⟨lower, upper, hinverted⟩)
          · cases h
          · exact ⟨_, .inr ⟨rfl, lower, upper, hinverted, rfl⟩⟩
  · intro actions s' hrun
    have hsilent := (silent_close s).run hrun
    refine ⟨?_, ?_, hsilent.deadline⟩
    · rw [nextUpdate, hsilent.updates]
      rfl
    · rw [nextReport, hsilent.reports]
      rfl

/-- A session in which updates and a report wait and a deadline is set. -/
def waiting : Session :=
  ((fresh.read (.availability { atTime := 0, isAvailable := true })).1.read
    (.feedback { feedbackTime := .ofMillis 20 })).1

/-- A route with limits in the wrong order is refused, and after the end of the session messages
past the queues still make its controller announce rates, but nothing comes out. -/
theorem refuses_and_falls_silent_while_waiting :
    let e : NetworkMessage :=
      .routeChange { constraints := { minimum := some (.ofInt 5), maximum := some (.ofInt 1) } }
    waiting.updates.length = 2 ∧ waiting.reports.length = 1 ∧
      waiting.deadline = some (.ofMillis 25) ∧
      waiting.Refuses e (.invalidConstraints (.ofInt 5) (.ofInt 1)) ∧
      (waiting.read e).1 = waiting ∧
      ∃ s', [.call (.feedback { feedbackTime := .ofMillis 60 }),
            .read (.availability { atTime := .ofMillis 70, isAvailable := true }),
            .call (.availability { atTime := .ofMillis 80, isAvailable := true }),
            .advance (.ofSeconds 1)].foldlM act waiting.close = .ok s' ∧
          s'.controller.currentTarget = some SendController.defaultStartRate ∧
          s'.nextUpdate.2 = none ∧ s'.nextReport.2 = none ∧ s'.deadline = none := by
  intro e
  have hrefuses : waiting.Refuses e (.invalidConstraints (.ofInt 5) (.ofInt 1)) :=
    refuses_iff.mpr (.inr ⟨by decide +kernel, rfl⟩)
  obtain ⟨-, hkeeps, hsilent⟩ := refuses_and_falls_silent waiting
  have hrun : [.call (.feedback { feedbackTime := .ofMillis 60 }),
      .read (.availability { atTime := .ofMillis 70, isAvailable := true }),
      .call (.availability { atTime := .ofMillis 80, isAvailable := true }),
      .advance (.ofSeconds 1)].foldlM act waiting.close = .ok _ := rfl
  exact ⟨by decide +kernel, by decide +kernel, by decide +kernel, hrefuses, hkeeps e _ hrefuses, _,
    hrun, by decide +kernel, hsilent _ _ hrun⟩

end Session

end MediaSender
