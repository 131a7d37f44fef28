import MediaSender.Proofs.Controller.RouteChange

/-! # Sessions and direct calls

A session that is used through its queues gives what direct calls to its controller give, later but
in the same order.

* **Direct calls.** A second controller takes the messages that reach the first one: each message
  that the session reads without refusing it, and for each moment at which the deadline has come the
  message that a period has passed (`SendController.serve`).
* **Account.** What has been handed out of the session is kept beside it, with the messages that
  have reached its controller (`Account`).  What is handed out and what waits make up all of the
  output.
* **Step.** An exchange moves output without changing all of it, or the controller takes one
  message and all of the output grows by what the call gives (`Account.exchange_cases`).
* **Run.** So the account goes along with the direct calls (`Account.Follows`). -/

namespace MediaSender

namespace SendController

/-- A direct call with what came of it. -/
structure Call where
  message : NetworkMessage
  update : ControlUpdate
  /-- The report that the rate control logged in the call. -/
  logged : Option RateReport

/-- The report that the rate control logs when the controller takes a message. -/
def logged (c : SendController) : NetworkMessage → Option RateReport
  | .feedback f => some (c.control.onFeedback f).2
  | _ => none

/-- The controller after one more call, and the calls so far. -/
def serve (p : SendController × List Call) (e : NetworkMessage) :
    Except ControlError (SendController × List Call) :=
  (e.deliver p.1).map fun r =>
    (r.1, p.2 ++ [{ message := e, update := r.2, logged := p.1.logged e }])

/-- A call logs a report if and only if its message is feedback, and the report has the target rate
of the update of the call. -/
def Call.IsReported (k : Call) : Prop :=
  k.logged.isSome = k.message.isFeedback ∧
    ∀ r, k.logged = some r → k.update.target.map (·.rate) = some r.targetRate

section calls

variable (c : SendController)

@[simp] theorem padRate_control (now : Timestamp) (target : DataRate) :
    (c.padRate now target).1.control = c.control := by
  unfold padRate
  split <;> rfl

@[simp] theorem announce_control (now : Timestamp) (target : DataRate) (rtt : TimeDelta) :
    (c.announce now target rtt).1.control = c.control :=
  padRate_control { c with currentTarget := some target } now target

@[simp] theorem onFeedback_control (f : Feedback) :
    (c.onFeedback f).1.control = (c.control.onFeedback f).1 :=
  announce_control ..

theorem logged_withInterval (δ : TimeDelta) (e : NetworkMessage) :
    (c.withInterval δ).logged e = c.logged e := by
  cases e <;> rfl

theorem isSome_logged (e : NetworkMessage) : (c.logged e).isSome = e.isFeedback := by
  cases e <;> rfl

variable {c} {c' : SendController} {e : NetworkMessage} {u : ControlUpdate}

/-- The rate control keeps the report that it logs, and the update has the same target rate. -/
theorem deliver_of_logged {r : RateReport} (h : NetworkMessage.deliver c e = .ok (c', u))
    (hr : c.logged e = some r) :
    c'.control.lastReport = some r ∧ u.target.map (·.rate) = some r.targetRate := by
  cases e with
  | feedback f =>
      have hc : c.onFeedback f = (c', u) := Except.ok.inj h
      have hlog : (c.control.onFeedback f).2 = r := Option.some.inj hr
      have hcontrol : c'.control = (c.control.onFeedback f).1 := by
        rw [← onFeedback_control, hc]
      have hu : (c.onFeedback f).2 = u := congrArg Prod.snd hc
      refine ⟨?_, ?_⟩
      · rw [hcontrol, ← hlog]
        rfl
      · rw [← hu, ← hlog]
        rfl
  | _ => cases hr

theorem serve_of_ok (calls : List Call) (h : NetworkMessage.deliver c e = .ok (c', u)) :
    serve (c, calls) e =
      .ok (c', calls ++ [{ message := e, update := u, logged := c.logged e }]) := by
  unfold serve
  rw [h]
  rfl

theorem isReported_of_deliver (h : NetworkMessage.deliver c e = .ok (c', u)) :
    Call.IsReported { message := e, update := u, logged := c.logged e } := by
  refine ⟨c.isSome_logged e, ?_⟩
  intro r hr
  exact (deliver_of_logged h hr).2

end calls

end SendController

namespace Session

/-- The session has taken a message: its controller has answered, and what the call gave waits. -/
structure Takes (s : Session) (e : NetworkMessage) (u : ControlUpdate) (s' : Session) : Prop where
  deliver : e.deliver s.controller = .ok (s'.controller, u)
  updates : s'.updates = s.updates ++ [u].filter (·.hasChanges)
  reports : s'.reports = s.reports ++ (s.controller.logged e).toList

/-- Whether the deadline has come. -/
def isDue (s : Session) (now : Timestamp) : Bool := s.deadline.any fun d => decide (d ≤ now)

/-! ### The messages that reach the controller -/

section taking

variable (s : Session) (e : NetworkMessage) (u : ControlUpdate) (now : Timestamp)

@[simp] theorem enqueue_updates :
    (s.enqueue u).updates = s.updates ++ [u].filter (·.hasChanges) := by
  unfold enqueue
  cases h : u.hasChanges <;> simp [h]

@[simp] theorem enqueue_reports : (s.enqueue u).reports = s.reports := by
  unfold enqueue
  split <;> rfl

@[simp] theorem enqueueReport_updates : s.enqueueReport.updates = s.updates := by
  unfold enqueueReport
  split <;> rfl

theorem enqueueReport_reports :
    s.enqueueReport.reports = s.reports ++ s.controller.control.lastReport.toList := by
  unfold enqueueReport
  split
  next r h => rw [h]; rfl
  next h => rw [h]; exact (List.append_nil s.reports).symm

variable {s e} {s' : Session}

theorem accept_takes (h : s.accept e = .ok s') : ∃ u, s.Takes e u s' := by
  unfold accept at h
  cases hc : s.call e with
  | error x => rw [hc] at h; cases h
  | ok p =>
      obtain ⟨next, u⟩ := p
      obtain ⟨c, hd, rfl⟩ := call_eq_ok hc
      rw [hc] at h
      have hs := Except.ok.inj h
      simp only at hs
      refine ⟨u, ?_⟩
      cases hl : s.controller.logged e with
      | none =>
          have he : e.isFeedback = false := by
            rw [← s.controller.isSome_logged e, hl]
            rfl
          rw [if_neg (by simp [he])] at hs
          subst hs
          refine ⟨?_, ?_, ?_⟩
          · rw [enqueue_controller]
            exact hd
          · rw [enqueue_updates]
          · rw [enqueue_reports, hl]
            exact (List.append_nil s.reports).symm
      | some r =>
          have he : e.isFeedback = true := by
            rw [← s.controller.isSome_logged e, hl]
            rfl
          -- the session queues the report that the controller kept, which is the one logged
          have hr := (SendController.deliver_of_logged hd hl).1
          rw [if_pos he] at hs
          subst hs
          refine ⟨?_, ?_, ?_⟩
          · rw [enqueueReport_controller, enqueue_controller]
            exact hd
          · rw [enqueueReport_updates, enqueue_updates]
          · rw [enqueueReport_reports, enqueue_reports, enqueue_controller, hl, hr]

/-- Only an open session reads a message without refusing it. -/
theorem read_of_isOk (h : (s.read e).2.isOk = true) :
    s.isClosed = false ∧ s.accept e = .ok (s.read e).1 := by
  unfold read at h ⊢
  split at h
  next => cases h
  next hopen =>
    rw [if_neg hopen]
    split at h
    next => cases h
    next hcheck =>
      split at h
      next => cases h
      next next ha => exact ⟨eq_false_of_ne_true hopen, ha⟩

theorem read_takes (h : (s.read e).2.isOk = true) : ∃ u, s.Takes e u (s.read e).1 :=
  accept_takes (read_of_isOk h).2

theorem read_of_not_isOk (h : (s.read e).2.isOk = false) : (s.read e).1 = s := by
  unfold read at h ⊢
  split
  next => rfl
  next hopen =>
    split
    next => rfl
    next hcheck =>
      split
      next => rfl
      next next ha =>
        rw [if_neg hopen, hcheck, ha] at h
        cases h

theorem advance_of_isDue (h : s.isDue now = true) :
    s.advance now =
      { s with
        controller := (s.controller.onProcessInterval { atTime := now }).1
        deadline := some (now + s.controller.processInterval) }.enqueue
          (s.controller.onProcessInterval { atTime := now }).2 := by
  unfold isDue at h
  unfold advance
  cases hd : s.deadline with
  | none => rw [hd] at h; cases h
  | some deadline =>
      rw [hd] at h
      have hle : deadline ≤ now := of_decide_eq_true h
      simp only [if_pos hle]

theorem advance_takes (h : s.isDue now = true) :
    ∃ u, s.Takes (.processInterval { atTime := now }) u (s.advance now) := by
  refine ⟨(s.controller.onProcessInterval { atTime := now }).2, ?_⟩
  rw [advance_of_isDue now h]
  refine ⟨?_, ?_, ?_⟩
  · rw [enqueue_controller]
    rfl
  · rw [enqueue_updates]
  · rw [enqueue_reports]
    exact (List.append_nil s.reports).symm

theorem advance_of_not_isDue (h : s.isDue now = false) : s.advance now = s := by
  unfold isDue at h
  unfold advance
  cases hd : s.deadline with
  | none => rfl
  | some deadline =>
      rw [hd] at h
      have hle : ¬deadline ≤ now := of_decide_eq_false h
      simp only [if_neg hle]

end taking

/-! ### Exchanges -/

/-- What is done to a session that is used through its queues. -/
inductive Exchange where
  | read (e : NetworkMessage)
  | advance (now : Timestamp)
  | nextUpdate
  | nextReport

/-- A session with the messages that have reached its controller and what has been handed out. -/
structure Account where
  session : Session
  messages : List NetworkMessage := []
  updates : List ControlUpdate := []
  reports : List RateReport := []

namespace Account

/-- The account after an exchange. -/
def exchange (a : Account) : Exchange → Account
  | .read e =>
    { a with
      session := (a.session.read e).1
      messages := if (a.session.read e).2.isOk then a.messages ++ [e] else a.messages }
  | .advance now =>
    { a with
      session := a.session.advance now
      messages :=
        if a.session.isDue now then a.messages ++ [.processInterval { atTime := now }]
        else a.messages }
  | .nextUpdate =>
    { a with
      session := a.session.nextUpdate.1
      updates := a.updates ++ a.session.nextUpdate.2.toList }
  | .nextReport =>
    { a with
      session := a.session.nextReport.1
      reports := a.reports ++ a.session.nextReport.2.toList }

/-- The updates handed out, then those that wait. -/
def allUpdates (a : Account) : List ControlUpdate := a.updates ++ a.session.updates

/-- The reports handed out, then those that wait. -/
def allReports (a : Account) : List RateReport := a.reports ++ a.session.reports

/-- The controller has taken nothing, and the output is what it was. -/
structure Rests (a a' : Account) : Prop where
  controller : a'.session.controller = a.session.controller
  messages : a'.messages = a.messages
  updates : a'.allUpdates = a.allUpdates
  reports : a'.allReports = a.allReports

/-- The controller has taken a message, and what the call gave has joined the output. -/
structure Takes (a : Account) (e : NetworkMessage) (u : ControlUpdate) (a' : Account) : Prop where
  deliver : e.deliver a.session.controller = .ok (a'.session.controller, u)
  messages : a'.messages = a.messages ++ [e]
  updates : a'.allUpdates = a.allUpdates ++ [u].filter (·.hasChanges)
  reports : a'.allReports = a.allReports ++ (a.session.controller.logged e).toList

/-- What a session has taken, its account takes. -/
theorem takes_of_session {a : Account} {e : NetworkMessage} {u : ControlUpdate} {s' : Session}
    (h : a.session.Takes e u s') :
    a.Takes e u { a with session := s', messages := a.messages ++ [e] } where
  deliver := h.deliver
  messages := rfl
  updates := by
    unfold allUpdates
    rw [h.updates, List.append_assoc]
  reports := by
    unfold allReports
    rw [h.reports, List.append_assoc]

theorem nextUpdate_rests (a : Account) : a.Rests (a.exchange .nextUpdate) where
  controller := rfl
  messages := rfl
  updates := by
    have h : a.session.updates.head?.toList ++ a.session.updates.tail = a.session.updates := by
      cases a.session.updates <;> rfl
    show (a.updates ++ a.session.updates.head?.toList) ++ a.session.updates.tail = _
    rw [List.append_assoc, h]
    rfl
  reports := rfl

theorem nextReport_rests (a : Account) : a.Rests (a.exchange .nextReport) where
  controller := rfl
  messages := rfl
  updates := rfl
  reports := by
    have h : a.session.reports.head?.toList ++ a.session.reports.tail = a.session.reports := by
      cases a.session.reports <;> rfl
    show (a.reports ++ a.session.reports.head?.toList) ++ a.session.reports.tail = _
    rw [List.append_assoc, h]
    rfl

/-- In an exchange the controller takes nothing or one message. -/
theorem exchange_cases (a : Account) (x : Exchange) :
    a.Rests (a.exchange x) ∨ ∃ e u, a.Takes e u (a.exchange x) := by
  cases x with
  | read e =>
      cases h : (a.session.read e).2.isOk with
      | true =>
          obtain ⟨u, ht⟩ := read_takes h
          refine .inr ⟨e, u, ?_⟩
          simp only [exchange, h, if_true]
          exact takes_of_session ht
      | false =>
          have hs := read_of_not_isOk h
          refine .inl ?_
          simp only [exchange, h, hs]
          exact ⟨rfl, rfl, rfl, rfl⟩
  | advance now =>
      cases h : a.session.isDue now with
      | true =>
          obtain ⟨u, ht⟩ := advance_takes now h
          refine .inr ⟨.processInterval { atTime := now }, u, ?_⟩
          simp only [exchange, h, if_true]
          exact takes_of_session ht
      | false =>
          have hs := advance_of_not_isDue now h
          refine .inl ?_
          simp only [exchange, h, hs]
          exact ⟨rfl, rfl, rfl, rfl⟩
  | nextUpdate => exact .inl a.nextUpdate_rests
  | nextReport => exact .inl a.nextReport_rests

/-! ### Runs of exchanges -/

/-- The account goes along with direct calls to a second controller.  It was opened with a session
`s`, and the second controller was that of `s` with the process interval `δ`.

* The second controller takes the messages of the account, one call for each, and is then that of
  the session, with its own process interval.
* The updates handed out and those that wait are, after what waited in `s`, those of the calls that
  changed something.
* The reports handed out and those that wait are, after what waited in `s`, those that the calls
  logged: one for each feedback, with the target rate of the update of the same call. -/
def Follows (s : Session) (δ : TimeDelta) (a : Account) : Prop :=
  ∃ calls,
    a.messages.foldlM SendController.serve (s.controller.withInterval δ, []) =
        .ok (a.session.controller.withInterval δ, calls) ∧
      calls.map (·.message) = a.messages ∧
      a.updates ++ a.session.updates =
        s.updates ++ (calls.map (·.update)).filter (·.hasChanges) ∧
      a.reports ++ a.session.reports = s.reports ++ calls.filterMap (·.logged) ∧
      ∀ k ∈ calls, k.IsReported

section run

variable {s : Session} {δ : TimeDelta} {a a' : Account}

theorem Follows.of_rests (h : Follows s δ a) (hr : a.Rests a') : Follows s δ a' := by
  obtain ⟨calls, hserve, hmessages, hu, hlog, hk⟩ := h
  refine ⟨calls, ?_, ?_, ?_, ?_, hk⟩
  · rw [hr.messages, hr.controller]
    exact hserve
  · rw [hr.messages]
    exact hmessages
  · exact hr.updates.trans hu
  · exact hr.reports.trans hlog

theorem Follows.of_takes {e : NetworkMessage} {u : ControlUpdate} (h : Follows s δ a)
    (ht : a.Takes e u a') : Follows s δ a' := by
  obtain ⟨calls, hserve, hmessages, hu, hlog, hk⟩ := h
  have hdel : NetworkMessage.deliver (a.session.controller.withInterval δ) e =
      .ok (a'.session.controller.withInterval δ, u) := by
    rw [SendController.deliver_withInterval, ht.deliver]
    rfl
  refine ⟨calls ++ [{ message := e, update := u, logged := a.session.controller.logged e }],
    ?_, ?_, ?_, ?_, ?_⟩
  · rw [ht.messages]
    have hstep := SendController.serve_of_ok calls hdel
    rw [SendController.logged_withInterval] at hstep
    exact List.foldlM_concat_eq_ok hserve hstep
  · rw [List.map_append, hmessages, ht.messages]
    rfl
  · apply ht.updates.trans
    rw [List.map_append, List.filter_append, ← List.append_assoc, ← hu]
    rfl
  · apply ht.reports.trans
    rw [List.filterMap_append, ← List.append_assoc, ← hlog]
    cases a.session.controller.logged e <;> simp [allReports]
  · intro k hmem
    obtain hold | hnew := List.mem_append.mp hmem
    · exact hk k hold
    · rw [List.mem_singleton.mp hnew]
      exact SendController.isReported_of_deliver ht.deliver

end run

end Account

/-- **A session does what direct calls do.**  Whatever is done to a session through its queues, its
account goes along with direct calls to a second controller with any process interval: no output
is lost, no output comes twice, and all of it comes in order. -/
theorem follows_directCalls (s : Session) (δ : TimeDelta) (exchanges : List Exchange) :
    (exchanges.foldl Account.exchange { session := s }).Follows s δ := by
  have hstart : Account.Follows s δ { session := s } := by
    refine ⟨[], rfl, rfl, ?_, ?_, ?_⟩
    · exact (List.append_nil s.updates).symm
    · exact (List.append_nil s.reports).symm
    · intro k hk
      cases hk
  refine List.foldlRecOn exchanges Account.exchange hstart ?_
  intro a ha x _
  obtain hr | ⟨e, u, ht⟩ := a.exchange_cases x
  · exact ha.of_rests hr
  · exact ha.of_takes ht

/-- A new session takes the announcement of the network and a report, refuses inverted limits, and
calls the controller when its deadline has come: three messages, of which the last changes nothing.
The first of the two updates has been handed out. -/
example :
    let a := [Exchange.read (.availability { atTime := 0, isAvailable := true }),
        .nextUpdate,
        .read (.constraints { minimum := some (.ofKbps 2), maximum := some (.ofKbps 1) }),
        .read (.feedback { feedbackTime := .ofMillis 20 }),
        .advance (.ofMillis 24), .advance (.ofMillis 25)].foldl Account.exchange
      { session :=
          { controller :=
              { params := {}, control := .initial {}, constraints := {}, streams := {} } } }
    a.messages.length = 3 ∧ a.updates.length = 1 ∧ a.session.updates.length = 1 ∧
      a.session.reports.length = 1 ∧ a.session.deadline = some (.ofMillis 50) := by
  decide +kernel

end Session

end MediaSender
