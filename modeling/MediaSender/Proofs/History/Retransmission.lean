import MediaSender.Proofs.History.Past

/-! # When a packet is handed out

The history keeps three fields for each entry, and five operations write them; whether a packet is
handed out for retransmission is nevertheless a matter of the past of the run alone.

* **Accounts.** A history is `Accounted` for by a past if all its entries follow it and its round
  trip is the one set last.  Every step keeps this with the moment it adds (`Accounted.step`), and
  so does every run (`Accounted.run`).
* **Gate.** A stored packet is handed out exactly if the encapsulation takes it, it is not
  outstanding, and it has rested a round trip since it was last transmitted again
  (`Accounted.resend_gate`).
* **Spacing.** So between two times that a packet is handed out it was reported sent, and the
  second time is a round trip after its last transmission (`Accounted.sent_between`). -/

namespace MediaSender.PacketHistory

/-- The entries and the round trip are those that the past tells. -/
structure Accounted (t : Past) (h : PacketHistory) : Prop where
  entries : ∀ e, some e ∈ h.slots → e.Follows t
  rtt : t.roundTrip? = h.rtt

variable {t : Past} {h : PacketHistory}

/-! ### Steps -/

section steps

/-- An operation that leaves entries which were there before, and does nothing under their
numbers. -/
theorem Accounted.spared (ha : h.Accounted t) {h' : PacketHistory} {x : Moment}
    (he : ∀ e, some e ∈ h'.slots → some e ∈ h.slots ∧ x.Spares e.sequenceNumber)
    (hx : x.roundTrip? = none) (hr : h'.rtt = h.rtt) : h'.Accounted (x :: t) := by
  constructor
  · intro e hm
    obtain ⟨hm', hsp⟩ := he e hm
    exact (ha.entries e hm').spared hsp
  · rw [Past.roundTrip?_cons, hx, hr, ← ha.rtt]
    rfl

theorem Accounted.setRtt (ha : h.Accounted t) {rtt : TimeDelta} {now : Timestamp}
    {h' : PacketHistory} (e : h.setRtt rtt now = .ok h') (r : Option RtpPacket) :
    h'.Accounted (⟨h, .setRtt rtt now, r⟩ :: t) := by
  have hkept : h'.rtt = some rtt ∧ ∀ d, some d ∈ h'.slots → some d ∈ h.slots := by
    unfold PacketHistory.setRtt at e
    split at e
    next => cases e
    next =>
      rw [Except.ok.injEq] at e
      rw [← e]
      split
      next => exact ⟨rfl, fun d hd => Slots.mem_of_mem_cull hd⟩
      next => exact ⟨rfl, fun d hd => hd⟩
  constructor
  · intro d hd
    exact (ha.entries d (hkept.2 d hd)).spared {}
  · rw [Past.roundTrip?_cons, hkept.1]
    rfl

theorem Accounted.put (ha : h.Accounted t) (hc : h.Consistent) (p : RtpPacket) (now : Timestamp)
    (r : Option RtpPacket) : (h.put p now).Accounted (⟨h, .put p now, r⟩ :: t) := by
  by_cases hp : (h.isEnabled && p.allowRetransmission) = true
  · have hrtt : (h.put p now).rtt = h.rtt := by rw [PacketHistory.put, if_pos hp]; rfl
    constructor
    · intro d hd
      rcases hc.mem_put hp hd with rfl | ⟨hm, hne⟩
      · apply Entry.follows_fresh
        simp [Moment.stored?, hp]
      · apply (ha.entries d hm).spared
        refine { stored := ?_ }
        simp [Moment.stored?, hne.symm]
    · rw [Past.roundTrip?_cons, hrtt, ← ha.rtt]
      rfl
  · rw [PacketHistory.put, if_neg hp]
    apply ha.spared _ rfl rfl
    intro d hd
    refine ⟨hd, { stored := ?_ }⟩
    simp [Moment.stored?, hp]

theorem Accounted.resend (ha : h.Accounted t) (hc : h.Consistent) (s : SequenceNumber)
    (now : Timestamp) (f : Encapsulation) :
    (h.resend s now f).1.Accounted (⟨h, .resend s now f, (h.resend s now f).2⟩ :: t) := by
  have hidle : h.Accounted (⟨h, .resend s now f, none⟩ :: t) := by
    apply ha.spared _ rfl rfl
    intro d hd
    refine ⟨hd, { handsOut := ?_ }⟩
    simp [Moment.handsOut]
  unfold PacketHistory.resend
  split
  next => exact hidle
  next e he =>
    split
    next => exact hidle
    next =>
      split
      next => exact hidle
      next q _ =>
        obtain ⟨n, hn⟩ := hc.laid
        have hfind := (find?_eq_some_iff.mp he).2
        have hs := hn.sequenceNumber_of_find? hfind
        constructor
        · intro d hd
          rcases hn.mem_update (Nat.le_of_lt hc.short) hd with ⟨e', he', rfl⟩ | ⟨hm, hne⟩
          · rw [hfind, Option.some.injEq] at he'
            subst he'
            subst hs
            exact (ha.entries e (Slots.mem_of_find? hfind)).handedOut h now f q
          · apply (ha.entries d hm).spared
            refine { handsOut := ?_ }
            simp [Moment.handsOut, (hne e hfind).symm]
        · rw [Past.roundTrip?_cons, ha.rtt]
          rfl

theorem Accounted.markSent (ha : h.Accounted t) (hc : h.Consistent) (s : SequenceNumber)
    (now : Timestamp) (r : Option RtpPacket) :
    (h.markSent s now).Accounted (⟨h, .markSent s now, r⟩ :: t) := by
  by_cases hs : h.contains s = true
  · obtain ⟨e, he⟩ := Option.isSome_iff_exists.mp hs
    obtain ⟨hen, hfind⟩ := find?_eq_some_iff.mp he
    obtain ⟨n, hn⟩ := hc.laid
    have hes := hn.sequenceNumber_of_find? hfind
    rw [PacketHistory.markSent, if_pos hen]
    constructor
    · intro d hd
      rcases hn.mem_update (Nat.le_of_lt hc.short) hd with ⟨e', he', rfl⟩ | ⟨hm, hne⟩
      · rw [hfind, Option.some.injEq] at he'
        subst he'
        subst hes
        exact (ha.entries e (Slots.mem_of_find? hfind)).reportedSent hs now r
      · apply (ha.entries d hm).spared
        refine { sent := ?_ }
        simp [Moment.sent?, (hne e hfind).symm]
    · rw [Past.roundTrip?_cons, ha.rtt]
      rfl
  · have hspares : ∀ k, Moment.Spares ⟨h, .markSent s now, r⟩ k := by
      intro k
      refine { sent := ?_ }
      simp only [Moment.sent?]
      rw [if_neg]
      rintro ⟨rfl, hk⟩
      exact hs hk
    apply ha.spared _ rfl
    · unfold PacketHistory.markSent
      split <;> rfl
    · intro d hd
      refine ⟨?_, hspares _⟩
      unfold PacketHistory.markSent at hd
      split at hd
      next hen =>
        obtain ⟨n, hn⟩ := hc.laid
        rcases hn.mem_update (Nat.le_of_lt hc.short) hd with ⟨e, he, -⟩ | ⟨hm, -⟩
        · have hf := find?_eq_some_iff.mpr ⟨hen, he⟩
          exact absurd (by rw [contains, hf]; rfl) hs
        · exact hm
      next => exact hd

theorem Accounted.padWithLast (ha : h.Accounted t) (hc : h.Consistent)
    (hm : h.paddingMode = .lastPacket) (now : Timestamp) (f : Encapsulation) :
    (h.padWithLast now f).1.Accounted (⟨h, .pad now f, (h.padWithLast now f).2⟩ :: t) := by
  have hidle : h.Accounted (⟨h, .pad now f, none⟩ :: t) := by
    apply ha.spared _ rfl rfl
    intro d hd
    refine ⟨hd, { padded := ?_ }⟩
    simp [Moment.padded?]
  unfold PacketHistory.padWithLast
  split
  next => exact hidle
  next e he =>
    split
    next => exact hidle
    next =>
      split
      next => exact hidle
      next q _ =>
        obtain ⟨n, hn⟩ := hc.laid
        constructor
        · intro d hd
          rcases hn.mem_updateLast (Nat.le_of_lt hc.short) he hd with rfl | ⟨hd', hne⟩
          · have hme : some e ∈ h.slots := by
              rw [Option.join_eq_some_iff] at he
              exact List.mem_of_getLast? he
            exact (ha.entries e hme).padded hm he now f q
          · apply (ha.entries d hd').spared
            refine { padded := ?_ }
            simp [Moment.padded?, Moment.lastNumber?, he, hne.symm]
        · rw [Past.roundTrip?_cons, ha.rtt]
          rfl

/-- Padding with large packets transmits none of the stored ones. -/
theorem Accounted.pad (ha : h.Accounted t) (hc : h.Consistent) (hs : h.Supplied)
    (now : Timestamp) (f : Encapsulation) :
    (h.pad now f).1.Accounted (⟨h, .pad now f, (h.pad now f).2⟩ :: t) := by
  cases hm : h.paddingMode with
  | lastPacket =>
      unfold PacketHistory.pad
      rw [hm]
      split
      next => exact ha.padWithLast hc hm now f
      next =>
        apply ha.spared _ rfl rfl
        intro d hd
        refine ⟨hd, { padded := ?_ }⟩
        simp [Moment.padded?]
  | recentLargePacket =>
      have hsame : (h.pad now f).1 = h := by rw [hs.pad_of_large hc hm]
      rw [hsame]
      apply ha.spared _ rfl rfl
      intro d hd
      refine ⟨hd, { padded := ?_ }⟩
      simp [Moment.padded?, hm]

theorem acknowledge_rtt (h : PacketHistory) (arrived : List SequenceNumber) :
    (h.acknowledge arrived).rtt = h.rtt := by
  rw [h.acknowledge_eq_withSlots]

theorem Accounted.step (ha : h.Accounted t) (hc : h.Consistent) (hs : h.Supplied) {o : Operation}
    {h' : PacketHistory} {r : Option RtpPacket} (e : h.step o = .ok (h', r)) :
    h'.Accounted (⟨h, o, r⟩ :: t) := by
  cases o with
  | setRtt rtt now => exact ha.setRtt (step_setRtt_eq_ok e).1 r
  | configure mode n =>
      cases e
      refine ha.spared ?_ rfl rfl
      intro d hd
      cases hd
  | put p now => cases e; exact ha.put hc p now none
  | resend s now f =>
      have hr := ha.resend hc s now f
      rw [PacketHistory.step, Except.ok.injEq] at e
      rw [e] at hr
      exact hr
  | markSent s now => cases e; exact ha.markSent hc s now none
  | acknowledge arrived =>
      cases e
      refine ha.spared ?_ rfl (h.acknowledge_rtt arrived)
      intro d hd
      exact ⟨mem_of_mem_acknowledge hd, {}⟩
  | pad now f =>
      have hr := ha.pad hc hs now f
      rw [PacketHistory.step, Except.ok.injEq] at e
      rw [e] at hr
      exact hr
  | clear =>
      cases e
      refine ha.spared ?_ rfl rfl
      intro d hd
      cases hd

/-- What the past tells is kept up to date along a run. -/
theorem Accounted.run (ha : h.Accounted t) (hc : h.Consistent) (hs : h.Supplied)
    {ops : List Operation} {h' : PacketHistory} {handed : List (Option RtpPacket)}
    (hr : h.run ops = .ok (h', handed)) : h'.Accounted (past t h ops) := by
  refine (past_induction (P := fun t h => h.Accounted t ∧ h.Consistent ∧ h.Supplied) ?_
    ⟨ha, hc, hs⟩ hr).1
  rintro t h o h' r ⟨ha, hc, hs⟩ hstep
  exact ⟨ha.step hc hs hstep, hc.step hstep, hs.step hstep⟩

theorem accounted_empty (m : PaddingMode) : (empty m).Accounted [] where
  entries e he := by cases he
  rtt := rfl

end steps

/-! ### The gate -/

section gate

variable {s : SequenceNumber} {now : Timestamp} {f : Encapsulation} {q : RtpPacket}

theorem resend_eq_some_of_find? {e : Entry} (he : h.find? s = some e) :
    (h.resend s now f).2 = some q ↔
      f e.packet = some q ∧ e.pending = false ∧ e.rested h.rtt now = true := by
  unfold PacketHistory.resend
  rw [he]
  dsimp only
  cases e.pending with
  | true => simp
  | false =>
      cases e.rested h.rtt now with
      | false => simp
      | true => cases f e.packet <;> simp

/-- The round trip set last, if one was set, has passed since the packet was last transmitted
again, if it was. -/
def Past.IsRested (t : Past) (s : SequenceNumber) (now : Timestamp) : Prop :=
  ∀ r, t.roundTrip? = some r → ∀ last, t.lastTransmission? s = some last → r ≤ now - last

/-- A stored packet is handed out exactly if the encapsulation takes it, it is not outstanding,
and it has rested. -/
theorem Accounted.resend_gate (ha : h.Accounted t) (hc : h.Consistent)
    (hs : h.contains s = true) :
    ∃ p, t.packet? s = some p ∧
      ∀ now f q, (h.resend s now f).2 = some q ↔
        f p = some q ∧ t.isOutstanding s = false ∧ t.IsRested s now := by
  obtain ⟨e, he⟩ := Option.isSome_iff_exists.mp hs
  obtain ⟨n, hn⟩ := hc.laid
  have hfind := (find?_eq_some_iff.mp he).2
  obtain ⟨hpacket, hpending, hlast⟩ := ha.entries e (Slots.mem_of_find? hfind)
  rw [hn.sequenceNumber_of_find? hfind] at hpacket hpending hlast
  refine ⟨e.packet, hpacket, ?_⟩
  intro now f q
  rw [resend_eq_some_of_find? he, Entry.rested_iff, hpending, Past.IsRested, ha.rtt, hlast]

/-- A packet that was handed out before was reported sent since then, and has rested since it was
last transmitted. -/
theorem Accounted.sent_between (ha : h.Accounted t) (hc : h.Consistent)
    (hq : (h.resend s now f).2 = some q) {later earlier : Past} {x : Moment}
    (ht : t = later ++ x :: earlier) (hx : x.handsOut s = true)
    (hl : ∀ y ∈ later, y.stored? s = none) :
    (∃ y ∈ later, ∃ sent, y.sent? s = some sent) ∧
      ∃ last, List.findSome? (·.transmitted? s) later = some last ∧
        ∀ r, t.roundTrip? = some r → r ≤ now - last := by
  have hs : h.contains s = true := by
    cases he : h.find? s with
    | none =>
        simp only [PacketHistory.resend, he] at hq
        cases hq
    | some e => rw [contains, he]; rfl
  obtain ⟨p, -, hgate⟩ := ha.resend_gate hc hs
  obtain ⟨-, hout, hrest⟩ := (hgate now f q).mp hq
  rw [ht] at hout
  obtain ⟨y, hy, sent, hsent⟩ := Past.exists_sent_of_handsOut hl hx hout
  refine ⟨⟨y, hy, sent, hsent⟩, ?_⟩
  have hsome : (List.findSome? (·.transmitted? s) later).isSome = true := by
    rw [List.findSome?_isSome_iff]
    refine ⟨y, hy, ?_⟩
    rw [Moment.transmitted?, hsent]
    rfl
  obtain ⟨last, hlast⟩ := Option.isSome_iff_exists.mp hsome
  refine ⟨last, hlast, ?_⟩
  intro r hr
  apply hrest r hr
  rw [ht]
  exact Past.lastTransmission?_append hl (Moment.stored?_of_handsOut hx) hlast

end gate

/-- **When a packet is handed out for retransmission.**  After any run, for a number `s` under
which a packet is stored, a request for `s` is answered with `q` exactly if the encapsulation makes
`q` of the packet stored last under `s`, the packet was not handed out since it was stored or last
reported sent, and, if a round trip was set, the packet has not been transmitted again since it was
stored or the round trip set last has passed since then.  So between two requests that are
answered, with nothing stored under `s` between them, the packet was reported sent, and if a round
trip is set it has passed since the last transmission between them. -/
theorem resend_eq_some_iff (m : PaddingMode) (ops : List Operation)
    {handed : List (Option RtpPacket)}
    (hrun : (empty m).run ops = .ok (h, handed)) {s : SequenceNumber}
    (hs : h.contains s = true) :
    (∃ p, (past [] (empty m) ops).packet? s = some p ∧
      ∀ now f q, (h.resend s now f).2 = some q ↔
        f p = some q ∧ (past [] (empty m) ops).isOutstanding s = false ∧
          (past [] (empty m) ops).IsRested s now) ∧
    ∀ now f q, (h.resend s now f).2 = some q → ∀ (later earlier : Past) (x : Moment),
      past [] (empty m) ops = later ++ x :: earlier → x.handsOut s = true →
        (∀ y ∈ later, y.stored? s = none) →
          (∃ y ∈ later, ∃ sent, y.sent? s = some sent) ∧
            ∃ last, List.findSome? (·.transmitted? s) later = some last ∧
              ∀ r, (past [] (empty m) ops).roundTrip? = some r → r ≤ now - last := by
  have hr : h.Reachable := ⟨m, ops, handed, hrun⟩
  have ha : h.Accounted (past [] (empty m) ops) :=
    (accounted_empty m).run (consistent_empty m) (fun _ hne => absurd rfl hne) hrun
  constructor
  · exact ha.resend_gate hr.consistent hs
  · intro now f q hq later earlier x ht hx hl
    exact ha.sent_between hr.consistent hq ht hx hl

/-- A packet that was resent and then went out as padding is handed out again a round trip after
the padding. -/
theorem resend_eq_some_iff_after_padding :
    let p : RtpPacket := { sequenceNumber := 5, allowRetransmission := true }
    let ops : List Operation :=
      [.configure .store 10, .setRtt (.ofMillis 100) 0, .put p 0, .resend 5 (.ofMillis 10) some,
        .markSent 5 (.ofMillis 20), .pad (.ofMillis 30) some]
    ∃ h handed, (empty .lastPacket).run ops = .ok (h, handed) ∧ h.contains 5 = true ∧
      ∀ (now : Timestamp) (q : RtpPacket), (h.resend 5 now some).2 = some q ↔
        p = q ∧ TimeDelta.ofMillis 100 ≤ now - Timestamp.ofMillis 30 := by
  intro p ops
  obtain ⟨h, handed, hrun, hs⟩ : ∃ h handed,
      (empty .lastPacket).run ops = .ok (h, handed) ∧ h.contains 5 = true :=
    ⟨_, _, rfl, by decide⟩
  refine ⟨h, handed, hrun, hs, ?_⟩
  intro now q
  obtain ⟨⟨p', hp', hgate⟩, -⟩ := resend_eq_some_iff .lastPacket ops hrun hs
  have hp : (past [] (empty .lastPacket) ops).packet? 5 = some p := by decide
  have hout : (past [] (empty .lastPacket) ops).isOutstanding 5 = false := by decide
  have hrtt : (past [] (empty .lastPacket) ops).roundTrip? = some (.ofMillis 100) := by decide
  have hlast : (past [] (empty .lastPacket) ops).lastTransmission? 5 = some (.ofMillis 30) := by
    decide
  rw [hp, Option.some.injEq] at hp'
  rw [hgate, ← hp', Past.IsRested, hrtt, hlast]
  simp [hout]

end MediaSender.PacketHistory
