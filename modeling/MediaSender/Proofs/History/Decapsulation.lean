import MediaSender.Proofs.History.Retransmission

/-! # Retransmissions taken apart

A receiver of the retransmission stream takes a packet of it apart (RFC 4588): the first two bytes
of the payload are the number of the media packet, high byte first, and the rest is its payload.

* **Packets.** Taking apart undoes `RtpPacket.toRtx`, but for the sender's notes
  (`RtpPacket.decapsulate_toRtx`).
* **Origin.** The packet that the past tells of a number was put in the run
  (`exists_put_of_packet?`), and the history keeps it as it was put (`Accounted.packet_of_find?`).
* **Runs.** So whatever has happened before, a packet that is handed out for retransmission gives
  back the packet that was put last under its number (`resend_toRtx_decapsulate`). -/

namespace MediaSender

/-- The number that two bytes denote, high byte first. -/
def SequenceNumber.ofBytes (high low : UInt8) : SequenceNumber :=
  .ofNat (0x100 * high.toNat + low.toNat)

theorem SequenceNumber.ofBytes_bytes (s : SequenceNumber) :
    SequenceNumber.ofBytes (s >>> 8).toUInt8 s.toUInt8 = s := by
  have hs := s.toNat_lt
  have hhigh : (s >>> 8).toNat = s.toNat / 0x100 := by
    rw [UInt16.toNat_shiftRight, Nat.shiftRight_eq_div_pow]
    rfl
  apply UInt16.toNat_inj.mp
  simp only [ofBytes, UInt16.toNat_ofNat', UInt16.toNat_toUInt8, hhigh]
  omega

namespace RtpPacket

/-- The media packet that a packet of the retransmission stream resends, if it has one.  The
payload type of the media stream is known from the session. -/
def decapsulate (r : RtpPacket) (payloadType : UInt8) : Option RtpPacket :=
  match r.payload, r.retransmittedSsrc with
  | high :: low :: payload, some ssrc =>
    some {
      ssrc := ssrc
      sequenceNumber := .ofBytes high low
      timestamp := r.timestamp
      payloadType := payloadType
      marker := r.marker
      payload := payload
      paddingSize := r.paddingSize
      captureTime := r.captureTime }
  | _, _ => none

/-- The packet without the notes on its sending: its kind, whether it may be stored, and what it
resends itself. -/
def withoutNotes (p : RtpPacket) : RtpPacket :=
  { p with
    kind := none
    allowRetransmission := false
    retransmittedSequenceNumber := none
    retransmittedSsrc := none }

theorem decapsulate_toRtx (p : RtpPacket) (ssrc : UInt32) (payloadType : UInt8)
    (n : SequenceNumber) :
    (p.toRtx ssrc payloadType n).decapsulate p.payloadType = some p.withoutNotes := by
  simp only [decapsulate, toRtx, SequenceNumber.bytes, List.cons_append, List.nil_append,
    SequenceNumber.ofBytes_bytes, withoutNotes]

end RtpPacket

namespace PacketHistory

/-- A packet that may not be stored changes nothing. -/
theorem put_of_not_allowed (h : PacketHistory) {p : RtpPacket} (hp : p.allowRetransmission = false)
    (now : Timestamp) : h.put p now = h := by
  rw [put, hp, Bool.and_false, if_neg Bool.false_ne_true]

/-! ### Origin -/

section origin

variable {t : Past} {h : PacketHistory} {s : SequenceNumber} {p : RtpPacket}

theorem Moment.exists_put_of_stored? {x : Moment} (hx : x.stored? s = some p) :
    ∃ sent, x.operation = .put p sent := by
  unfold stored? at hx
  split at hx
  next q sent ho =>
    split at hx
    next =>
      obtain rfl := Option.some.inj hx
      exact ⟨sent, ho⟩
    next => cases hx
  next => cases hx

/-- The packet that the past tells was put in the run, if not before. -/
theorem exists_put_of_packet? {ops : List Operation}
    (hp : (past t h ops).packet? s = some p) :
    t.packet? s = some p ∨ ∃ sent, Operation.put p sent ∈ ops := by
  induction ops generalizing t h with
  | nil => exact .inl hp
  | cons o rest ih =>
      rw [past] at hp
      split at hp
      next h' r _ =>
        -- the past of the rest starts with the moment of this operation
        rcases ih hp with hcons | ⟨sent, hm⟩
        · rw [Past.packet?_cons, Option.or_eq_some_iff] at hcons
          rcases hcons with hx | ⟨-, ht⟩
          · obtain ⟨sent, ho⟩ := Moment.exists_put_of_stored? hx
            exact .inr ⟨sent, List.mem_cons.mpr (.inl ho.symm)⟩
          · exact .inl ht
        · exact .inr ⟨sent, List.mem_cons_of_mem _ hm⟩
      next => exact .inl hp

/-- The packet stored under a number has that number, and is the one that the past tells. -/
theorem Accounted.packet_of_find? (ha : h.Accounted t) (hc : h.Consistent) {e : Entry}
    (he : h.find? s = some e) :
    t.packet? s = some e.packet ∧ e.packet.sequenceNumber = s := by
  obtain ⟨n, hn⟩ := hc.laid
  have hfind := (find?_eq_some_iff.mp he).2
  have hs : e.sequenceNumber = s := hn.sequenceNumber_of_find? hfind
  have hpacket := (ha.entries e (Slots.mem_of_find? hfind)).packet
  rw [hs] at hpacket
  exact ⟨hpacket, hs⟩

end origin

/-- **A retransmission gives back the packet that was put.**  After any run, let a request for `s`
be answered with `r`, dressed for a retransmission stream.  Then `r` is a packet of that stream,
two bytes larger than a packet `p` that is stored under `s` and is the one put last under it.  The
payload of `r` is two bytes that denote `s`, and then the payload of `p`, so that `r` taken apart is
`p` but for the sender's notes.  Put into any history, `r` is not stored and changes nothing. -/
theorem resend_toRtx_decapsulate (m : PaddingMode) (ops : List Operation) {h : PacketHistory}
    {handed : List (Option RtpPacket)} (hrun : (empty m).run ops = .ok (h, handed))
    {s n : SequenceNumber} {now : Timestamp} {ssrc : UInt32} {payloadType : UInt8} {r : RtpPacket}
    (hr : (h.resend s now fun p => some (p.toRtx ssrc payloadType n)).2 = some r) :
    ∃ p, (h.find? s).map Entry.packet = some p ∧ (past [] (empty m) ops).packet? s = some p ∧
      p.sequenceNumber = s ∧ (∃ sent, Operation.put p sent ∈ ops) ∧
      (∃ high low, r.payload = high :: low :: p.payload ∧ SequenceNumber.ofBytes high low = s) ∧
      r.decapsulate p.payloadType = some p.withoutNotes ∧
      r.ssrc = ssrc ∧ r.payloadType = payloadType ∧ r.sequenceNumber = n ∧
      r.size = p.size + 2 ∧
      ∀ (g : PacketHistory) (later : Timestamp), g.put r later = g := by
  have ha : h.Accounted (past [] (empty m) ops) :=
    (accounted_empty m).run (consistent_empty m) (fun _ hne => absurd rfl hne) hrun
  have hc : h.Consistent := Reachable.consistent ⟨m, ops, handed, hrun⟩
  cases he : h.find? s with
  | none =>
      rw [resend, he] at hr
      cases hr
  | some e =>
      obtain ⟨hpacket, hs⟩ := ha.packet_of_find? hc he
      have hput : ∃ sent, Operation.put e.packet sent ∈ ops := by
        rcases exists_put_of_packet? hpacket with hnone | hput
        · cases hnone
        · exact hput
      have hdressed := ((resend_eq_some_of_find? he).mp hr).1
      obtain rfl : e.packet.toRtx ssrc payloadType n = r := Option.some.inj hdressed
      refine ⟨e.packet, rfl, hpacket, hs, hput, ⟨_, _, rfl, ?_⟩,
        e.packet.decapsulate_toRtx ssrc payloadType n, rfl, rfl, rfl,
        e.packet.size_toRtx ssrc payloadType n, fun g later => g.put_of_not_allowed rfl later⟩
      rw [SequenceNumber.ofBytes_bytes, hs]

/-- A packet with this number and payload. -/
def packetCarrying (s : SequenceNumber) (payload : List UInt8) : RtpPacket :=
  { ssrc := 7, sequenceNumber := s, payload := payload, allowRetransmission := true }

/-- A packet with the last number before the wrap is put twice, handed out and reported sent, and
becomes the first one that is stored, as the one in front of it is culled. -/
def puttingTwice : List Operation :=
  [.configure .storeAndCull 2, .setRtt (.ofMillis 100) 0, .put (packetCarrying 0xfffe []) 0,
    .put (packetCarrying 0xffff [9]) 0, .put (packetCarrying 0 []) 0,
    .put (packetCarrying 0xffff [1, 2, 3]) (.ofMillis 500),
    .resend 0xffff (.ofMillis 600) fun q => some (q.toRtx 2 97 6),
    .markSent 0xffff (.ofMillis 620), .put (packetCarrying 1 []) (.ofMillis 1200)]

/-- Handed out again, the packet gives back what was put the second time. -/
theorem resend_toRtx_decapsulate_across_wrap :
    ∃ h handed r, (empty .lastPacket).run puttingTwice = .ok (h, handed) ∧
      h.slots.map (Option.map Entry.sequenceNumber) = [some 0xffff, some 0, some 1] ∧
      (h.resend 0xffff (.ofMillis 1300) fun q => some (q.toRtx 2 97 7)).2 = some r ∧
      (∃ high low, r.payload = [high, low, 1, 2, 3] ∧ SequenceNumber.ofBytes high low = 0xffff) ∧
      r.decapsulate 0 = some (packetCarrying 0xffff [1, 2, 3]).withoutNotes := by
  obtain ⟨h, handed, hrun, hslots, r, hr⟩ : ∃ h handed,
      (empty .lastPacket).run puttingTwice = .ok (h, handed) ∧
        h.slots.map (Option.map Entry.sequenceNumber) = [some 0xffff, some 0, some 1] ∧
        ∃ r, (h.resend 0xffff (.ofMillis 1300) fun q => some (q.toRtx 2 97 7)).2 = some r :=
    ⟨{ mode := .storeAndCull
       numberToStore := 2
       rtt := some (.ofMillis 100)
       slots :=
        [some { Entry.fresh (packetCarrying 0xffff [1, 2, 3]) (.ofMillis 500) with
            lastTransmission := .ofMillis 620, timesRetransmitted := 1 },
          some (.fresh (packetCarrying 0 []) 0),
          some (.fresh (packetCarrying 1 []) (.ofMillis 1200))] }, _, rfl, rfl, _, rfl⟩
  have hput : (past [] (empty .lastPacket) puttingTwice).packet? 0xffff =
      some (packetCarrying 0xffff [1, 2, 3]) := rfl
  obtain ⟨p, -, hp, -, -, hpayload, hback, -⟩ :=
    resend_toRtx_decapsulate .lastPacket puttingTwice hrun hr
  obtain rfl : packetCarrying 0xffff [1, 2, 3] = p := Option.some.inj (hput.symm.trans hp)
  exact ⟨h, handed, r, hrun, hslots, hr, hpayload, hback⟩

end PacketHistory

end MediaSender
