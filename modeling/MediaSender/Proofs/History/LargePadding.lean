import MediaSender.Proofs.Binary64.Exact
import MediaSender.Proofs.History.Refusals

/-! # Padding with a recent large packet

A history that pads with large packets keeps one packet aside and the largest payload beside it.
Which packet that is follows from the packets stored since the last operation that drops all of
them, and from nothing else.

* **Periods.** A packet more than `LargePacket.sequenceGap` ahead of the one kept aside starts a new
  period (`period`).  The one kept aside is the latest packet of the period that is large beside the
  largest (`candidate?`); there is one, because the largest is large (`LargePacket.near_self`).
* **Step.** Taking note of a packet brings the record of a period up to date
  (`LargePacket.observe_ofPeriod`): a packet that is not large leaves the largest payload as it was.
* **Runs.** So the record is that of the period throughout (`Tracks.run`).  Operations that neither
  store nor drop all packets leave it alone (`step_frame`), even if no entry is left. -/

namespace MediaSender

/-! ### Periods -/

section period

variable {packets : List RtpPacket} {p : RtpPacket}

/-- The largest payload of some packets. -/
def largestPayload (packets : List RtpPacket) : Nat :=
  (packets.map RtpPacket.payloadSize).max?.getD 0

/-- The latest packet that is large beside the largest; the latest comes first. -/
def candidate? (packets : List RtpPacket) : Option RtpPacket :=
  packets.find? fun p => LargePacket.near p.payloadSize (largestPayload packets)

/-- Of the packets stored so far, those since the last jump in the sequence numbers; the latest
comes first. -/
def period : List RtpPacket → List RtpPacket
  | [] => []
  | p :: earlier =>
    if (candidate? (period earlier)).all fun c =>
        p.sequenceNumber.isNewer (c.sequenceNumber + LargePacket.sequenceGap) then [p]
    else p :: period earlier

theorem largestPayload_cons (p : RtpPacket) (packets : List RtpPacket) :
    largestPayload (p :: packets) = max p.payloadSize (largestPayload packets) := by
  rw [largestPayload, largestPayload, List.map_cons, List.max?_cons]
  cases (packets.map RtpPacket.payloadSize).max? <;> simp

theorem payloadSize_le_largestPayload (hp : p ∈ packets) :
    p.payloadSize ≤ largestPayload packets :=
  List.le_max?_getD_of_mem (List.mem_map_of_mem hp)

theorem exists_payloadSize_eq_largestPayload (hne : packets ≠ []) :
    ∃ p ∈ packets, p.payloadSize = largestPayload packets := by
  obtain ⟨n, hn⟩ : ∃ n, (packets.map RtpPacket.payloadSize).max? = some n :=
    Option.isSome_iff_exists.mp (by simpa using hne)
  obtain ⟨p, hp, rfl⟩ := List.mem_map.mp (List.max?_mem hn)
  exact ⟨p, hp, by rw [largestPayload, hn, Option.getD_some]⟩

theorem period_ne_nil {stored : List RtpPacket} (hne : stored ≠ []) : period stored ≠ [] := by
  cases stored with
  | nil => exact absurd rfl hne
  | cons p earlier =>
      rw [period]
      split <;> exact List.cons_ne_nil _ _

theorem period_isPrefixOf (stored : List RtpPacket) : period stored <+: stored := by
  induction stored with
  | nil => exact List.prefix_rfl
  | cons p earlier ih =>
      rw [period]
      split
      next => exact ⟨earlier, rfl⟩
      next => exact List.cons_prefix_cons.mpr ⟨rfl, ih⟩

end period

/-! ### The record of a period -/

namespace LargePacket

open Binary64

theorem parts_tolerance :
    parts tolerance = .finite .positive 8556839292003942 (-53) (by decide) := rfl

/-- A payload is large beside itself. -/
theorem near_self (n : ℕ) : near n n = true := by
  rw [near, decide_eq_true_iff]
  obtain rfl | hn := n.eq_zero_or_pos
  · exact of_decide_eq_true rfl
  · obtain hinf | ⟨hs, hpos⟩ := parts_ofNat_pos hn
    · rw [le_iff]
      show ((Float.Model.pack (Float.Model.UnpackedFloat.mul Float.Model.Format.binary64
        (parts (Float.ofNat n)) (parts tolerance))).unpack.compare _).any _ = true
      rw [hinf]
      rfl
    · refine mul_le_self hs hpos rfl ?_ ?_ <;> rw [parts_tolerance, value_finite, signed] <;>
        norm_num

/-- There is a latest large packet, because the largest is large. -/
theorem exists_candidate {packets : List RtpPacket} (hne : packets ≠ []) :
    ∃ after c before, packets = after ++ c :: before ∧ candidate? packets = some c ∧
      near c.payloadSize (MediaSender.largestPayload packets) = true ∧
      ∀ q ∈ after, near q.payloadSize (MediaSender.largestPayload packets) = false := by
  obtain ⟨p, hp, hsize⟩ := exists_payloadSize_eq_largestPayload hne
  have hsome : (candidate? packets).isSome = true :=
    List.find?_isSome.mpr ⟨p, hp, by rw [hsize, near_self]⟩
  obtain ⟨c, hc⟩ := Option.isSome_iff_exists.mp hsome
  obtain ⟨hnear, after, before, hsplit, hafter⟩ := List.find?_eq_some_iff_append.mp hc
  exact ⟨after, c, before, hsplit, hc, hnear, fun q hq => by simpa using hafter q hq⟩

/-- A packet that is not large beside the largest, itself included, is not the largest. -/
theorem max_eq_of_near_eq_false {n largest : Nat} (h : near n (max n largest) = false) :
    max n largest = largest := by
  obtain hle | hle := le_total n largest
  · exact max_eq_right hle
  · rw [max_eq_left hle, near_self] at h
    cases h

/-- What is kept at the end of a period. -/
def ofPeriod (packets : List RtpPacket) : LargePacket where
  packet := candidate? packets
  largestPayload := MediaSender.largestPayload packets

theorem afterGap_ofPeriod (packets : List RtpPacket) (p : RtpPacket) :
    (ofPeriod packets).afterGap p = (candidate? packets).all fun c =>
      p.sequenceNumber.isNewer (c.sequenceNumber + sequenceGap) := by
  unfold afterGap ofPeriod
  cases candidate? packets <;> rfl

theorem ofPeriod_singleton (p : RtpPacket) :
    ofPeriod [p] = { packet := some p, largestPayload := p.payloadSize } := by
  have hlargest : MediaSender.largestPayload [p] = p.payloadSize := rfl
  simp [ofPeriod, candidate?, hlargest, near_self]

/-- The candidate changes only for a new packet that is large, because one that is not leaves the
largest payload as it was. -/
theorem candidate?_cons (p : RtpPacket) (packets : List RtpPacket) :
    candidate? (p :: packets) =
      if near p.payloadSize (max p.payloadSize (MediaSender.largestPayload packets)) then some p
      else candidate? packets := by
  rw [candidate?, largestPayload_cons, List.find?_cons]
  cases hnear : near p.payloadSize (max p.payloadSize (MediaSender.largestPayload packets)) with
  | true => rfl
  | false =>
      rw [max_eq_of_near_eq_false hnear]
      rfl

/-- Taking note of a packet brings the record of the period up to date. -/
theorem observe_ofPeriod (stored : List RtpPacket) (p : RtpPacket) :
    (ofPeriod (period stored)).observe p = ofPeriod (period (p :: stored)) := by
  unfold observe
  rw [afterGap_ofPeriod, period]
  split
  next hgap => simp [hgap, ofPeriod_singleton]
  next hgap =>
    simp only [hgap, Bool.false_or]
    rw [ofPeriod, ofPeriod, candidate?_cons, largestPayload_cons, max_comm p.payloadSize]

end LargePacket

namespace PacketHistory

/-! ### What is stored -/

namespace Moment

/-- Whether all packets are dropped. -/
def drops (x : Moment) : Bool :=
  match x.operation with
  | .configure .. | .clear => true
  | _ => false

/-- The packet that is stored. -/
def kept? (x : Moment) : Option RtpPacket :=
  match x.operation with
  | .put p _ => if x.before.isEnabled && p.allowRetransmission then some p else none
  | _ => none

end Moment

/-- The packets stored since the last time that all were dropped, the latest first; whether they
were removed since then does not matter. -/
def Past.stored (t : Past) : List RtpPacket :=
  (t.takeWhile fun x => !x.drops).filterMap Moment.kept?

/-- Whether an operation neither stores a packet nor drops all of them. -/
def Operation.isAside : Operation → Bool
  | .configure .. | .put .. | .clear => false
  | _ => true

section steps

variable {h h' : PacketHistory} {o : Operation} {r : Option RtpPacket} {t : Past} {x : Moment}

theorem Past.stored_cons_of_drops (hx : x.drops = true) : Past.stored (x :: t) = [] := by
  simp [Past.stored, hx]

theorem Past.stored_cons_of_kept {p : RtpPacket} (hx : x.drops = false) (hp : x.kept? = some p) :
    Past.stored (x :: t) = p :: t.stored := by
  simp [Past.stored, hx, hp]

theorem Past.stored_cons_of_not_kept (hx : x.drops = false) (hp : x.kept? = none) :
    Past.stored (x :: t) = t.stored := by
  simp [Past.stored, hx, hp]

/-- Operations that neither store nor drop all packets change the slots and the round trip only. -/
theorem step_frame (ho : o.isAside = true) (e : h.step o = .ok (h', r)) :
    ∃ slots rtt, h' = { h with slots, rtt } := by
  cases o with
  | configure => cases ho
  | put => cases ho
  | clear => cases ho
  | setRtt rtt now =>
      have e := (step_setRtt_eq_ok e).1
      unfold PacketHistory.setRtt at e
      split at e
      next => cases e
      next =>
        rw [Except.ok.injEq] at e
        rw [← e]
        split <;> exact ⟨_, _, rfl⟩
  | resend s now f =>
      rw [step, Except.ok.injEq] at e
      obtain ⟨hsame, -⟩ | ⟨i, d, q, -, -, -, -, -, hw⟩ := h.resend_cases s now f
      · rw [hsame] at e
        cases e
        exact ⟨_, _, rfl⟩
      · rw [e] at hw
        exact ⟨_, _, hw.result⟩
  | markSent s now =>
      cases e
      unfold PacketHistory.markSent
      split <;> exact ⟨_, _, rfl⟩
  | acknowledge arrived =>
      cases e
      exact ⟨_, _, h.acknowledge_eq_withSlots arrived⟩
  | pad now f =>
      rw [step, Except.ok.injEq] at e
      unfold PacketHistory.pad at e
      split at e
      next =>
        split at e
        next =>
          cases e
          exact ⟨_, _, rfl⟩
        next =>
          obtain ⟨hsame, -⟩ | ⟨d, q, -, -, -, hw⟩ := h.padWithLast_cases now f
          · rw [hsame] at e
            cases e
            exact ⟨_, _, rfl⟩
          · rw [e] at hw
            exact ⟨_, _, hw.result⟩
      next =>
        cases e
        exact ⟨_, _, rfl⟩

theorem run_frame {ops : List Operation} {handed : List (Option RtpPacket)}
    (ho : ∀ o ∈ ops, o.isAside = true) (e : h.run ops = .ok (h', handed)) :
    ∃ slots rtt, h' = { h with slots, rtt } := by
  induction ops generalizing h handed with
  | nil =>
      cases e
      exact ⟨_, _, rfl⟩
  | cons o ops ih =>
      obtain ⟨h₁, r, later, hstep, hrest, -⟩ := run_cons_eq_ok e
      rw [List.forall_mem_cons] at ho
      obtain ⟨slots, rtt, rfl⟩ := step_frame ho.1 hstep
      obtain ⟨slots', rtt', rfl⟩ := ih ho.2 hrest
      exact ⟨slots', rtt', rfl⟩

/-! ### The record along a run -/

/-- The history pads with large packets, and keeps the record of the present period. -/
structure Tracks (h : PacketHistory) (t : Past) : Prop where
  mode : h.paddingMode = .recentLargePacket
  large : h.large = .ofPeriod (period t.stored)

theorem Tracks.put (ht : h.Tracks t) (p : RtpPacket) (now : Timestamp) (r : Option RtpPacket) :
    (h.put p now).Tracks (⟨h, .put p now, r⟩ :: t) := by
  cases hp : h.isEnabled && p.allowRetransmission with
  | false =>
      have hkept : Moment.kept? ⟨h, .put p now, r⟩ = none := by simp [Moment.kept?, hp]
      rw [PacketHistory.put, if_neg (by simp [hp])]
      exact ⟨ht.mode, by rw [Past.stored_cons_of_not_kept rfl hkept, ht.large]⟩
  | true =>
      have hkept : Moment.kept? ⟨h, .put p now, r⟩ = some p := by simp [Moment.kept?, hp]
      rw [PacketHistory.put, if_pos hp]
      refine ⟨ht.mode, ?_⟩
      rw [Past.stored_cons_of_kept rfl hkept, ← LargePacket.observe_ofPeriod, ← ht.large]
      exact if_pos ht.mode

theorem Tracks.step (ht : h.Tracks t) (e : h.step o = .ok (h', r)) :
    h'.Tracks (⟨h, o, r⟩ :: t) := by
  have haside (ho : o.isAside = true) (hd : Moment.drops ⟨h, o, r⟩ = false)
      (hk : Moment.kept? ⟨h, o, r⟩ = none) : h'.Tracks (⟨h, o, r⟩ :: t) := by
    obtain ⟨slots, rtt, rfl⟩ := step_frame ho e
    exact ⟨ht.mode, by rw [Past.stored_cons_of_not_kept hd hk]; exact ht.large⟩
  cases o with
  | configure mode n =>
      cases e
      exact ⟨ht.mode, by rw [Past.stored_cons_of_drops rfl]; rfl⟩
  | clear =>
      cases e
      exact ⟨ht.mode, by rw [Past.stored_cons_of_drops rfl]; rfl⟩
  | put p now =>
      cases e
      exact ht.put p now none
  | _ => exact haside rfl rfl rfl

theorem Tracks.run (ht : h.Tracks t) {ops : List Operation} {handed : List (Option RtpPacket)}
    (e : h.run ops = .ok (h', handed)) : h'.Tracks (past t h ops) :=
  past_induction (P := fun t h => h.Tracks t) (fun _ _ _ _ _ ht hstep => ht.step hstep) ht e

theorem tracks_empty : (empty .recentLargePacket).Tracks [] := ⟨rfl, rfl⟩

end steps

/-- **Padding with a recent large packet.**  After any run of a history that pads with large
packets, padding has no answer if no packet was stored since all packets were last dropped.
Otherwise it goes by one packet `c` of the present period, which ends with the packet stored last:
`c` is large beside the largest payload of the period, and every packet stored after it is not.
Padding changes nothing, and `c` serves however often, until another packet is stored or all are
dropped, even if by then all packets are acknowledged or culled. -/
theorem pad_recent_large {ops : List Operation} {h : PacketHistory}
    {handed : List (Option RtpPacket)}
    (hrun : (empty .recentLargePacket).run ops = .ok (h, handed)) {stored : List RtpPacket}
    (hstored : (past [] (empty .recentLargePacket) ops).stored = stored) :
    (stored = [] → ∀ now f, h.pad now f = (h, none)) ∧
      (stored ≠ [] → period stored <+: stored ∧
        ∃ after c before, period stored = after ++ c :: before ∧
          c.payloadSize ≤ largestPayload (period stored) ∧
          LargePacket.near c.payloadSize (largestPayload (period stored)) = true ∧
          (∀ q ∈ after, LargePacket.near q.payloadSize (largestPayload (period stored)) = false) ∧
          ∀ (later : List Operation) (h' : PacketHistory) (handed' : List (Option RtpPacket)),
            (∀ o ∈ later, o.isAside = true) → h.run later = .ok (h', handed') →
              ∀ now f, h'.pad now f = (h', f c)) := by
  have hr : h.Reachable := ⟨.recentLargePacket, ops, handed, hrun⟩
  have ht : h.Tracks (past [] (empty .recentLargePacket) ops) := tracks_empty.run hrun
  have hlarge := ht.large
  rw [hstored] at hlarge
  constructor
  · rintro rfl now f
    rw [hr.pad_of_large ht.mode, hlarge]
    rfl
  · intro hne
    obtain ⟨after, c, before, hsplit, hc, hnear, hafter⟩ :=
      LargePacket.exists_candidate (period_ne_nil hne)
    refine ⟨period_isPrefixOf stored, after, c, before, hsplit, ?_, hnear, hafter, ?_⟩
    · exact payloadSize_le_largestPayload (hsplit ▸ by simp)
    · intro later h' handed' haside hlater now f
      obtain ⟨slots, rtt, rfl⟩ := run_frame haside hlater
      have hr' : PacketHistory.Reachable { h with slots, rtt } :=
        run_induction (fun _ _ _ _ hr hs => hr.step hs) hr hlater
      rw [hr'.pad_of_large ht.mode]
      show (_, h.large.packet.bind f) = _
      rw [hlarge]
      show (_, (candidate? (period stored)).bind f) = _
      rw [hc]
      rfl

/-- Packet `s` with a payload of `n` zeros. -/
def packetOfSize (s : SequenceNumber) (n : Nat) : RtpPacket :=
  { packetNumbered s with payload := List.replicate n 0 }

/-- Packet 2000 starts a new period, in which packet 2001 is the latest large one.  It goes out as
padding twice over when all packets are acknowledged. -/
theorem pad_recent_large_of_acknowledged :
    ∃ h h' handed handed', (empty .recentLargePacket).run
        [.configure .storeAndCull 10, .put (packetOfSize 5 30) 0, .acknowledge [5],
          .put (packetOfSize 2000 20) 0, .put (packetOfSize 2001 19) 0,
          .put (packetOfSize 2002 1) 0] = .ok (h, handed) ∧
      h.run [.acknowledge [2000, 2001, 2002], .pad 0 some] = .ok (h', handed') ∧
      h'.slots = [] ∧ h'.pad 0 some = (h', some (packetOfSize 2001 19)) := by
  let h : PacketHistory :=
    { paddingMode := .recentLargePacket
      mode := .storeAndCull
      numberToStore := 10
      slots := [some (.fresh (packetOfSize 2000 20) 0), some (.fresh (packetOfSize 2001 19) 0),
        some (.fresh (packetOfSize 2002 1) 0)]
      large := { packet := some (packetOfSize 2001 19), largestPayload := 20 } }
  have hrun : (empty .recentLargePacket).run
      [.configure .storeAndCull 10, .put (packetOfSize 5 30) 0, .acknowledge [5],
        .put (packetOfSize 2000 20) 0, .put (packetOfSize 2001 19) 0,
        .put (packetOfSize 2002 1) 0] = .ok (h, List.replicate 6 none) := rfl
  have hlater : h.run [.acknowledge [2000, 2001, 2002], .pad 0 some] =
    .ok ({ h with slots := [] }, [none, some (packetOfSize 2001 19)]) := rfl
  let stored := [packetOfSize 2002 1, packetOfSize 2001 19, packetOfSize 2000 20, packetOfSize 5 30]
  have hperiod : period stored =
    [packetOfSize 2002 1, packetOfSize 2001 19, packetOfSize 2000 20] := rfl
  have hlargest : largestPayload (period stored) = 20 := rfl
  have hsmall : LargePacket.near (packetOfSize 2002 1).payloadSize 20 = false := rfl
  have hlarge : LargePacket.near (packetOfSize 2001 19).payloadSize 20 = true := rfl
  obtain ⟨-, after, c, before, hsplit, -, hnear, hafter, hpad⟩ :=
    (pad_recent_large hrun (rfl : _ = stored)).2 (List.cons_ne_nil _ _)
  have hanswer := hpad _ _ _ (by decide) hlater 0 some
  refine ⟨h, _, _, _, hrun, hlater, rfl, hanswer.trans ?_⟩
  rw [hlargest] at hnear hafter
  rw [hperiod] at hsplit
  rcases after with _ | ⟨q, _ | ⟨q', rest⟩⟩
  · injection hsplit with hc
    rw [← hc, hsmall] at hnear
    cases hnear
  · injection hsplit with _ htail
    injection htail with hc
    rw [hc]
  · injection hsplit with _ htail
    injection htail with hq
    have hnot := hafter q' (by simp)
    rw [← hq, hlarge] at hnot
    cases hnot

end PacketHistory

end MediaSender
