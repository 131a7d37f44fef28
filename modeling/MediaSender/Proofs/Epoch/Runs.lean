import MediaSender.Proofs.Epoch.History
import MediaSender.Proofs.Epoch.Sessions

/-! # Runs on another clock

The epoch of the clock does not matter: a session and a packet history that are told all times by
another clock show and answer the same, told by that clock. -/

namespace MediaSender

/-- **The epoch of the clock does not matter.**  Let another clock show `k` microseconds more.

* A session that is used by the other clock, from its configuration on, shows after each action what
  it shows by this clock, if the times that it reads have timestamps on the other clock and the
  deadlines it sets are in the range on both.
* A packet history that is used by the other clock gives the same answers, if the times it is told
  have timestamps on the other clock. -/
theorem runs_rebase (k : Int) :
    (∀ (config : ControllerConfig) (δ : TimeDelta) (actions : List Session.Action),
        (∀ a ∈ actions, a.Rebasable k) →
        (∀ s, Session.opened config δ = .ok s → s.RunsExactly actions) →
        (∀ s, Session.opened (config.rebase k) δ = .ok s →
          s.RunsExactly (actions.map (·.rebase k))) →
        (Session.opened (config.rebase k) δ).map (·.observations (actions.map (·.rebase k))) =
          (Session.opened config δ).map
            fun s => (s.observations actions).map (Except.map (·.rebase k))) ∧
      ∀ (m : PaddingMode) (ops ops' : List PacketHistory.Operation),
        List.Forall₂ (PacketHistory.Operation.Rebases k) ops ops' →
        (PacketHistory.empty m).answers ops' =
          ((PacketHistory.empty m).answers ops).map (List.map (·.rebase k)) := by
  refine ⟨?_, ?_⟩
  · intro config δ actions ha h h'
    rw [Session.opened_rebase] at h' ⊢
    cases hs : Session.opened config δ with
    | error x => rfl
    | ok s =>
        rw [hs] at h'
        have hrun := (Session.rebasable_opened hs).observations_rebase ha (h s hs) (h' _ rfl)
        exact congrArg Except.ok hrun
  · intro m ops ops' ho
    have hempty : (PacketHistory.empty m).Rebasable k := PacketHistory.rebasable_nil rfl rfl
    exact hempty.answers_rebase ho

/-- A second later: a session whose deadline has come while a report with a lost packet waits, and
a history that hands out a packet stored three milliseconds after it was captured. -/
theorem runs_rebase_by_a_second :
    let actions : List Session.Action :=
      [.read (.availability { atTime := 0, isAvailable := true }),
        .read (.feedback
          { feedbackTime := .ofMillis 20
            packets :=
              [{ sent := { sendTime := 0, size := .ofInt 1000 }
                 receiveTime := .ofMillis 10 },
                { sent := { sendTime := .ofMillis 1, size := .ofInt 500 } }] }),
        .advance (.ofMillis 25), .nextUpdate, .nextReport]
    let ops (t : Timestamp) (p : RtpPacket) : List PacketHistory.Operation :=
      [.configure .storeAndCull 10, .put p t, .resend 7 t some]
    let p : RtpPacket :=
      { sequenceNumber := 7, captureTime := .ofMillis (-3), allowRetransmission := true }
    (Session.opened (({} : ControllerConfig).rebase 1000000) (.ofMillis 25)).map
          (·.observations (actions.map (·.rebase 1000000))) =
        (Session.opened {} (.ofMillis 25)).map
          (fun s => (s.observations actions).map (Except.map (·.rebase 1000000))) ∧
      (PacketHistory.empty .lastPacket).answers
          (ops (.ofSeconds 1) { p with captureTime := .ofMillis 997 }) =
        ((PacketHistory.empty .lastPacket).answers (ops 0 p)).map
          (List.map (·.rebase 1000000)) := by
  intro actions ops p
  obtain ⟨hsessions, hhistories⟩ := runs_rebase 1000000
  have ha : ∀ a ∈ actions, a.Rebasable 1000000 := by decide +kernel
  have hopened : Session.opened {} (.ofMillis 25) = .ok _ := rfl
  have hopened' :
      Session.opened (({} : ControllerConfig).rebase 1000000) (.ofMillis 25) = .ok _ := rfl
  refine ⟨hsessions {} (.ofMillis 25) actions ha ?_ ?_, hhistories .lastPacket _ _ ?_⟩
  · intro s hs
    rw [hopened] at hs
    cases hs
    decide +kernel
  · intro s hs
    rw [hopened'] at hs
    cases hs
    decide +kernel
  · have ht : (0 : Timestamp).Rebasable 1000000 := by decide
    have hp : p.captureTime.Rebasable 1000000 := by decide
    exact .cons (.configure .storeAndCull 10) (.cons (.put hp ht)
      (.cons (.resend 7 ht fun _ _ => rfl) .nil))

end MediaSender
