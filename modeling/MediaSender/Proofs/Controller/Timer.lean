import MediaSender.Proofs.Guarded.Sessions
import MediaSender.Proofs.Quantity

/-! # The timer of a session

* **Progress.** A deadline that has come is moved beyond the present, even where the sum saturates,
  and so none has come any more (`isDue_advance`).  Before it has come, the passing of time does
  nothing.
* **Availability.** Three things write the deadline: a message on the availability of the network
  that the session accepts, a deadline that has come, and the end of the session.  The first decides
  whether there is a deadline, the second keeps one if there is one, and the third takes it away.
  So there is one exactly if the last such message said that the network is available and the
  session is open (`Timed`), which every action keeps (`Timed.act`). -/

namespace MediaSender

/-- What the message says about the availability of the network. -/
def NetworkMessage.availability? : NetworkMessage → Option Availability
  | .availability m => some m
  | _ => none

/-- The message on the availability of the network that came last. -/
def lastAvailability (messages : List NetworkMessage) : Option Availability :=
  (messages.filterMap (·.availability?)).getLast?

theorem lastAvailability_append (l messages : List NetworkMessage) :
    lastAvailability (l ++ messages) = (lastAvailability messages).or (lastAvailability l) := by
  rw [lastAvailability, List.filterMap_append, List.getLast?_append]
  rfl

theorem lastAvailability_singleton (e : NetworkMessage) :
    lastAvailability [e] = e.availability? := by
  cases e <;> rfl

namespace Session

/-- The messages that a session accepts through its queues in an action. -/
def heard (s : Session) : Action → List NetworkMessage
  | .read e => if (s.read e).2.isOk then [e] else []
  | _ => []

/-- The messages that a session accepts through its queues in the course of some actions. -/
def accepted (s : Session) : List Action → List NetworkMessage
  | [] => []
  | a :: rest =>
    s.heard a ++
      match s.act a with
      | .ok s' => s'.accepted rest
      | .error _ => []

theorem accepted_cons_of_ok {s s' : Session} {a : Action} (rest : List Action)
    (ha : s.act a = .ok s') : s.accepted (a :: rest) = s.heard a ++ s'.accepted rest := by
  rw [accepted, ha]

/-! ### Progress -/

section progress

variable {s : Session} {now : Timestamp}

/-- A deadline that has not come lies ahead. -/
theorem isDue_eq_false_iff : s.isDue now = false ↔ ∀ t, s.deadline = some t → now < t := by
  have hlt : ∀ t : Timestamp, ¬t ≤ now ↔ now < t := fun t => Int.not_le
  unfold isDue
  cases s.deadline with
  | none => simp
  | some t => simp [hlt]

/-- After the passing of time to a finite time no deadline has come. -/
theorem isDue_advance (hpos : 0 < s.controller.processInterval) (hnow : now.isFinite = true) :
    (s.advance now).isDue now = false := by
  cases hdue : s.isDue now with
  | true =>
      rw [isDue_eq_false_iff, advance_of_isDue now hdue, enqueue_deadline]
      rintro t ⟨⟩
      exact Quantity.lt_add_of_pos hnow hpos
  | false =>
      rw [advance_of_not_isDue now hdue]
      exact hdue

/-- The passing of time neither sets a deadline nor takes one away, and does not close. -/
theorem advance_timer (s : Session) (now : Timestamp) :
    (s.advance now).deadline.isSome = s.deadline.isSome ∧
      (s.advance now).isClosed = s.isClosed := by
  cases hdue : s.isDue now with
  | true =>
      rw [advance_of_isDue now hdue, enqueue_deadline, enqueue_isClosed]
      refine ⟨?_, rfl⟩
      cases hd : s.deadline with
      | none => rw [isDue, hd] at hdue; cases hdue
      | some t => rfl
  | false =>
      rw [advance_of_not_isDue now hdue]
      exact ⟨rfl, rfl⟩

end progress

/-! ### Availability -/

/-- Let the session have accepted some messages.  It has a deadline exactly if the last one on the
availability of the network said that it is available, and the session is open. -/
def Timed (s : Session) (messages : List NetworkMessage) : Prop :=
  s.deadline.isSome = true ↔
    (∃ m, lastAvailability messages = some m ∧ m.isAvailable = true) ∧ s.isClosed = false

section availability

variable {s s' : Session} {messages : List NetworkMessage} {e : NetworkMessage} {a : Action}

theorem Timed.congr (h : s.Timed messages) (hd : s'.deadline.isSome = s.deadline.isSome)
    (hc : s'.isClosed = s.isClosed) : s'.Timed messages := by
  unfold Timed
  rw [hd, hc]
  exact h

/-- Only a message on the availability of the network writes the deadline. -/
theorem deadlineAfter_of_availability?_eq_none (h : e.availability? = none) :
    s.deadlineAfter e = s.deadline := by
  cases e with
  | availability m => cases h
  | _ => rfl

theorem isSome_deadlineAfter {m : Availability} (h : e.availability? = some m) :
    (s.deadlineAfter e).isSome = m.isAvailable := by
  cases e with
  | availability m' =>
      cases h
      by_cases hm : m.isAvailable = true
      · rw [s.deadlineAfter_up hm, hm]
        rfl
      · rw [s.deadlineAfter_down hm, eq_false_of_ne_true hm]
        rfl
  | _ => cases h

theorem Timed.read (h : s.Timed messages) (hok : (s.read e).2.isOk = true) :
    (s.read e).1.Timed (messages ++ [e]) := by
  obtain ⟨hopen, haccept⟩ := read_of_isOk hok
  obtain ⟨-, hdeadline, hclosed⟩ := accept_eq_ok haccept
  unfold Timed at h ⊢
  rw [hdeadline, hclosed, lastAvailability_append, lastAvailability_singleton]
  cases he : e.availability? with
  | none =>
      rw [deadlineAfter_of_availability?_eq_none he]
      exact h
  | some m =>
      rw [isSome_deadlineAfter he]
      simp [hopen]

/-- Every action keeps the timer of a session. -/
theorem Timed.act (h : s.Timed messages) (ha : s.act a = .ok s') :
    s'.Timed (messages ++ s.heard a) := by
  cases a with
  | call e =>
      show s'.Timed (messages ++ [])
      rw [List.append_nil]
      rw [Session.act] at ha
      cases hc : s.call e with
      | error x => rw [hc] at ha; cases ha
      | ok p =>
          rw [hc] at ha
          obtain ⟨c, -, hp⟩ := call_eq_ok hc
          have hs : p.1 = s' := Except.ok.inj ha
          rw [← hs, hp]
          exact h
  | read e =>
      have hs : (s.read e).1 = s' := Except.ok.inj ha
      rw [← hs, heard]
      cases hok : (s.read e).2.isOk with
      | true => exact h.read hok
      | false =>
          rw [read_of_not_isOk hok, if_neg Bool.false_ne_true, List.append_nil]
          exact h
  | advance now =>
      have hs : s.advance now = s' := Except.ok.inj ha
      obtain ⟨hdeadline, hclosed⟩ := s.advance_timer now
      show s'.Timed (messages ++ [])
      rw [← hs, List.append_nil]
      exact h.congr hdeadline hclosed
  | nextUpdate =>
      cases ha
      show Timed _ (messages ++ [])
      rw [List.append_nil]
      exact h
  | nextReport =>
      cases ha
      show Timed _ (messages ++ [])
      rw [List.append_nil]
      exact h
  | close =>
      -- there is no deadline any more, and the session is not open
      cases ha
      exact iff_of_false (fun hd => by cases hd) fun hopen => by cases hopen.2

theorem Timed.run {actions : List Action} (h : s.Timed messages)
    (hrun : actions.foldlM Session.act s = .ok s') :
    s'.Timed (messages ++ s.accepted actions) := by
  -- what has been accepted before the actions that are left grows with each of them
  induction actions generalizing s messages with
  | nil =>
      have hs : s = s' := Except.ok.inj hrun
      rw [← hs, accepted, List.append_nil]
      exact h
  | cons a rest ih =>
      obtain ⟨s₁, ha, hrest⟩ := List.foldlM_cons_eq_ok hrun
      rw [accepted_cons_of_ok rest ha, ← List.append_assoc]
      exact ih (h.act ha) hrest

end availability

/-- **The timer makes progress and follows the network.**

* In every session with a process interval above zero, after the passing of time to any finite time
  there is no deadline, or it lies ahead.
* Before the deadline has come the passing of time changes nothing, and nor does it without one.
* In a session that opens with any controller, after any actions there is a deadline if and only if
  the last message on the availability of the network that the session accepted said that it is
  available, and the session is open. -/
theorem timer_follows_network :
    (∀ s : Session, 0 < s.controller.processInterval → ∀ now : Timestamp, now.isFinite = true →
      (s.advance now).deadline = none ∨ ∃ t, (s.advance now).deadline = some t ∧ now < t) ∧
      (∀ (s : Session) (now : Timestamp), (∀ t, s.deadline = some t → now < t) →
        s.advance now = s) ∧
      ∀ (c : SendController) (actions : List Action) (s : Session),
        actions.foldlM act { controller := c } = .ok s →
        (s.deadline.isSome = true ↔
          (∃ m, lastAvailability (accepted { controller := c } actions) = some m ∧
            m.isAvailable = true) ∧ s.isClosed = false) := by
  refine ⟨?_, ?_, ?_⟩
  · intro s hpos now hnow
    have hahead := isDue_eq_false_iff.mp (isDue_advance hpos hnow)
    cases hd : (s.advance now).deadline with
    | none => exact .inl rfl
    | some t => exact .inr ⟨t, rfl, hahead t hd⟩
  · intro s now hahead
    exact advance_of_not_isDue now (isDue_eq_false_iff.mpr hahead)
  · intro c actions s hrun
    have hstart : ({ controller := c } : Session).Timed [] := by
      refine iff_of_false (fun hd => by cases hd) ?_
      rintro ⟨⟨m, hm, -⟩, -⟩
      cases hm
    exact hstart.run hrun

/-- The network comes up, a deadline is served, the network goes down and comes up again, and a
route with limits in the wrong order is refused.  At the last finite time the next deadline
saturates, and still lies ahead. -/
theorem timer_follows_network_to_the_last_time :
    let actions : List Action :=
      [.read (.availability { atTime := 0, isAvailable := true }), .advance (.ofMillis 30),
        .read (.availability { atTime := .ofMillis 40 }), .advance (.ofMillis 90),
        .read (.availability { atTime := .ofMillis 100, isAvailable := true }),
        .read (.routeChange
          { constraints := { minimum := some (.ofInt 5), maximum := some (.ofInt 1) } })]
    let up : Availability := { atTime := .ofMillis 100, isAvailable := true }
    let last : Timestamp := .ofMicros 0x7ffffffffffffffe
    ∃ s, actions.foldlM act fresh = .ok s ∧
      lastAvailability (fresh.accepted actions) = some up ∧ s.isClosed = false ∧
      s.deadline.isSome = true ∧
      s.deadline = some (.ofMillis 125) ∧ s.advance (.ofMillis 124) = s ∧
      0 < s.controller.processInterval ∧ last.isFinite = true ∧
      ∃ t, (s.advance last).deadline = some t ∧ last < t := by
  intro actions up last
  obtain ⟨hprogress, hbefore, hnetwork⟩ := timer_follows_network
  obtain ⟨s, hrun, hdeadline, hopen, hpos⟩ : ∃ s, actions.foldlM act fresh = .ok s ∧
      s.deadline = some (.ofMillis 125) ∧ s.isClosed = false ∧
      0 < s.controller.processInterval :=
    ⟨_, rfl, by decide +kernel, by decide +kernel, by decide +kernel⟩
  have hup : lastAvailability (fresh.accepted actions) = some up := by decide +kernel
  have hlast : last.isFinite = true := by decide
  have hahead : ∀ t, s.deadline = some t → Timestamp.ofMillis 124 < t := by
    intro t ht
    obtain rfl : .ofMillis 125 = t := Option.some.inj (hdeadline.symm.trans ht)
    decide
  have hset := (hnetwork fresh.controller actions s hrun).mpr ⟨⟨up, hup, rfl⟩, hopen⟩
  refine ⟨s, hrun, hup, hopen, hset, hdeadline, hbefore s _ hahead, hpos, hlast, ?_⟩
  refine (hprogress s hpos last hlast).resolve_left fun hnone => ?_
  have hkept := (s.advance_timer last).1
  rw [hnone, hset] at hkept
  cases hkept

end Session

end MediaSender
