import MediaSender.Proofs.History.Retransmission

/-! # Pending packets stay

A packet that was handed out for retransmission waits until it is reported sent.

* **Steps.** While it waits, most operations leave its entry exactly as it is: those that remove
  entries pass over pending ones, and those that change entries are about others (`mem_step`).
* **Exceptions.** Dropping all packets, storing another one under the same number, and the hard
  limit on the slots are the only ways to lose it (`MayDrop`).
* **Runs.** So it is stored as long as none of these happens (`mem_run`), whatever is
  acknowledged, however much time passes, and however few packets are to be kept. -/

namespace MediaSender

namespace Slots

variable {slots : Slots} {d : Entry}

/-! ### Entries that an operation leaves in place -/

theorem mem_update_of_ne {s : SequenceNumber} (f : Entry → Entry) (hd : some d ∈ slots)
    (hne : slots.find? s ≠ some d) : some d ∈ slots.update s f := by
  obtain ⟨j, hj⟩ := (mem_iff_entryOf 0).mp hd
  refine (mem_iff_entryOf 0).mpr ⟨j, ?_⟩
  rw [entryOf_update, if_neg, hj]
  rintro rfl
  rw [← find?_eq_entryOf] at hj
  exact hne hj

theorem mem_updateLast_of_ne (f : Entry → Entry) (hd : some d ∈ slots)
    (hne : slots.getLast?.join ≠ some d) : some d ∈ slots.updateLast f := by
  obtain ⟨j, hj⟩ := (mem_iff_entryOf 0).mp hd
  refine (mem_iff_entryOf 0).mpr ⟨j, ?_⟩
  rw [entryOf_updateLast, if_neg, hj]
  rintro rfl
  rw [entryOf_add, entryAt_last] at hj
  exact hne hj

theorem mem_removeAt_of_ne {i : Int} (hi : 0 ≤ i) (hd : some d ∈ slots)
    (hne : slots.entryAt i ≠ some d) : some d ∈ slots.removeAt i := by
  obtain ⟨m, -, hat⟩ := exists_entryAt_removeAt slots hi
  obtain ⟨j, hj⟩ := mem_iff_entryAt.mp hd
  refine mem_iff_entryAt.mpr ⟨j - m, ?_⟩
  rw [hat, if_neg, hj]
  rintro rfl
  exact hne hj

/-- An insertion leaves the entries with other numbers in place. -/
theorem Laid.mem_insert_of_ne {n : Int} (h : Laid n slots) (hl : slots.length ≤ 0x8000)
    {e : Entry} (hd : some d ∈ slots) (hne : d.sequenceNumber ≠ e.sequenceNumber) :
    some d ∈ slots.insert e := by
  obtain ⟨k, n', hi⟩ := h.exists_inserted hl e
  obtain ⟨j, hj⟩ := (mem_iff_entryOf n).mp hd
  refine (mem_iff_entryOf n').mpr ⟨j, ?_⟩
  rw [hi.entryOf_eq, if_neg (hi.ne_of_number_ne h hj hne), hj]

theorem Laid.find?_update {n : Int} (h : Laid n slots) {s : SequenceNumber} {f : Entry → Entry}
    (hd : slots.find? s = some d) (hf : ∀ e, (f e).sequenceNumber = e.sequenceNumber) :
    (slots.update s f).find? s = some (f d) := by
  have hne : slots ≠ [] := by
    rintro rfl
    cases hd
  have hne' : slots.update s f ≠ [] := by
    rw [← List.length_pos_iff, length_update]
    exact List.length_pos_iff.mpr hne
  have hpos : (slots.update s f).position s = slots.position s := by
    rw [(h.update s hf).position_eq hne', h.position_eq hne]
  rw [find?_eq_entryOf n] at hd ⊢
  rw [hpos, entryOf_update, if_pos rfl, hd]
  rfl

/-- The number of slots from that of `e` on. -/
def countFrom (slots : Slots) (e : Entry) : Nat := (slots.dropWhile (· ≠ some e)).length

/-- Culling takes a pending entry only while the slots from it on exhaust the limit. -/
theorem mem_cull_of_pending {numberToStore : Nat} {δ : TimeDelta} {now : Timestamp}
    (hd : some d ∈ slots) (hp : d.pending = true)
    (hl : slots.countFrom d < Retention.maxSlots) : some d ∈ slots.cull numberToStore δ now := by
  induction slots with
  | nil => exact hd
  | cons slot rest ih =>
      by_cases hslot : slot = some d
      · -- the entry itself is at the front, and the limit is the only reason to give it up
        subst hslot
        have hlen : rest.length + 1 < Retention.maxSlots := by
          rw [countFrom, List.dropWhile_cons_of_neg (by simp)] at hl
          exact hl
        have hkeep : Retention.givesUp numberToStore δ now (rest.length + 1) d = false := by
          simp [Retention.givesUp, hp, Nat.not_le_of_lt hlen]
        rw [cull, hkeep, if_neg Bool.false_ne_true]
        exact List.mem_cons_self
      · have hrest : some d ∈ rest := (List.mem_cons.mp hd).resolve_left fun h => hslot h.symm
        have hl' : Slots.countFrom rest d < Retention.maxSlots := by
          rw [countFrom, List.dropWhile_cons_of_pos (by simp [hslot])] at hl
          exact hl
        cases slot with
        | none => exact ih hrest hl'
        | some a =>
            rw [cull]
            split
            next => exact ih hrest hl'
            next => exact hd

end Slots

namespace PacketHistory

variable {h h' : PacketHistory} {e : Entry}

/-! ### Operations that may drop a pending packet -/

/-- Culling at `now` drops the entry, at a moment when there are at least `Retention.maxSlots`
slots. -/
def Overruns (h : PacketHistory) (e : Entry) (now : Timestamp) : Prop :=
  some e ∉ (h.cull now).slots ∧ Retention.maxSlots ≤ h.slots.countFrom e

instance (h : PacketHistory) (e : Entry) (now : Timestamp) : Decidable (h.Overruns e now) :=
  inferInstanceAs (Decidable (_ ∧ _))

/-- Whether the operation may drop a pending entry: it drops all packets, it stores one under the
same number, or its culling meets the hard limit.  A packet that may not be sent again is not
stored, and nothing is culled for it. -/
def MayDrop (h : PacketHistory) (e : Entry) : Operation → Prop
  | .configure _ _ => True
  | .clear => True
  | .put p now =>
    p.allowRetransmission = true ∧ (p.sequenceNumber = e.sequenceNumber ∨ h.Overruns e now)
  | .setRtt rtt now => ({ h with rtt := some rtt } : PacketHistory).Overruns e now
  | _ => False

instance decidableMayDrop (h : PacketHistory) (e : Entry) :
    (o : Operation) → Decidable (h.MayDrop e o)
  | .configure _ _ | .clear => isTrue trivial
  | .put p now => inferInstanceAs (Decidable
      (p.allowRetransmission = true ∧ (p.sequenceNumber = e.sequenceNumber ∨ h.Overruns e now)))
  | .setRtt rtt now =>
    inferInstanceAs (Decidable (({ h with rtt := some rtt } : PacketHistory).Overruns e now))
  | .resend _ _ _ | .markSent _ _ | .acknowledge _ | .pad _ _ => isFalse id

/-- Whether the operation reports packet `s` sent. -/
def Operation.reportsSent (s : SequenceNumber) : Operation → Bool
  | .markSent s' _ => decide (s' = s)
  | _ => false

/-! ### Steps -/

theorem mem_cull_of_not_overruns {now : Timestamp} (he : some e ∈ h.slots)
    (hp : e.pending = true) (ho : ¬h.Overruns e now) : some e ∈ (h.cull now).slots := by
  by_contra hgone
  have hl : ¬Retention.maxSlots ≤ h.slots.countFrom e := fun hl => ho ⟨hgone, hl⟩
  exact hgone (Slots.mem_cull_of_pending he hp (Nat.lt_of_not_le hl))

theorem mem_setRtt {rtt : TimeDelta} {now : Timestamp} (he : some e ∈ h.slots)
    (hp : e.pending = true) (ho : ¬({ h with rtt := some rtt } : PacketHistory).Overruns e now)
    (hs : h.setRtt rtt now = .ok h') : some e ∈ h'.slots := by
  unfold setRtt at hs
  split at hs
  next => cases hs
  next =>
    rw [Except.ok.injEq] at hs
    rw [← hs]
    split
    next => exact mem_cull_of_not_overruns (h := { h with rtt := some rtt }) he hp ho
    next => exact he

theorem Consistent.mem_put_of_pending (hc : h.Consistent) {p : RtpPacket} {now : Timestamp}
    (he : some e ∈ h.slots) (hp : e.pending = true)
    (hdrop : ¬(p.allowRetransmission = true ∧
      (p.sequenceNumber = e.sequenceNumber ∨ h.Overruns e now))) :
    some e ∈ (h.put p now).slots := by
  unfold PacketHistory.put
  split
  next hstored =>
    rw [Bool.and_eq_true] at hstored
    obtain ⟨hne, ho⟩ := not_or.mp fun h => hdrop ⟨hstored.2, h⟩
    obtain ⟨n, hn⟩ := (hc.cull now).laid
    have hlen : (h.cull now).slots.length < 9600 := Slots.length_cull_lt _ _ _ _
    have hmem := mem_cull_of_not_overruns he hp ho
    exact hn.mem_insert_of_ne (by omega) hmem (Ne.symm hne)
  next => exact he

/-- A request for a packet changes its entry only if that is not pending yet. -/
theorem mem_resend (he : some e ∈ h.slots) (hp : e.pending = true) (s : SequenceNumber)
    (now : Timestamp) (f : Encapsulation) : some e ∈ (h.resend s now f).1.slots := by
  unfold resend
  split
  next => exact he
  next a ha =>
    split
    next => exact he
    next hgate =>
      split
      next => exact he
      next =>
        refine Slots.mem_update_of_ne _ he fun hf => hgate ?_
        have hae : a = e := Option.some.inj ((find?_eq_some_iff.mp ha).2.symm.trans hf)
        rw [hae, hp, Bool.true_or]

theorem Consistent.mem_markSent (hc : h.Consistent) {s : SequenceNumber} (now : Timestamp)
    (he : some e ∈ h.slots) (hne : s ≠ e.sequenceNumber) : some e ∈ (h.markSent s now).slots := by
  unfold PacketHistory.markSent
  split
  next =>
    obtain ⟨n, hn⟩ := hc.laid
    exact Slots.mem_update_of_ne _ he fun hf => hne (hn.sequenceNumber_of_find? hf).symm
  next => exact he

/-- An acknowledgement passes over pending entries. -/
theorem mem_acknowledgeOne (he : some e ∈ h.slots) (hp : e.pending = true)
    (s : SequenceNumber) : some e ∈ (h.acknowledgeOne s).slots := by
  unfold acknowledgeOne
  split
  next a ha =>
    split
    next => exact he
    next hpa =>
      have hpos : 0 ≤ h.slots.position s := (Slots.bounds_of_entryAt ha).1
      refine Slots.mem_removeAt_of_ne hpos he fun hf => hpa ?_
      have hae : a = e := Option.some.inj (ha.symm.trans hf)
      rw [hae, hp]
  next => exact he

theorem mem_acknowledge (he : some e ∈ h.slots) (hp : e.pending = true)
    (arrived : List SequenceNumber) : some e ∈ (h.acknowledge arrived).slots := by
  unfold acknowledge
  induction arrived generalizing h with
  | nil => exact he
  | cons s rest ih => exact ih (mem_acknowledgeOne he hp s)

/-- Padding does not pick a pending entry. -/
theorem mem_pad (he : some e ∈ h.slots) (hp : e.pending = true) (now : Timestamp)
    (f : Encapsulation) : some e ∈ (h.pad now f).1.slots := by
  have hlast : some e ∈ (h.padWithLast now f).1.slots := by
    unfold padWithLast
    split
    next => exact he
    next a ha =>
      split
      next => exact he
      next hpa =>
        split
        next => exact he
        next =>
          refine Slots.mem_updateLast_of_ne _ he fun hf => hpa ?_
          have hae : a = e := Option.some.inj (ha.symm.trans hf)
          rw [hae, hp]
  unfold pad
  split
  next =>
    split
    next => exact he
    next => exact hlast
  next => exact he

/-- A pending entry stays as it is, unless the operation may drop it or reports its packet
sent. -/
theorem Consistent.mem_step (hc : h.Consistent) {o : Operation} {r : Option RtpPacket}
    (he : some e ∈ h.slots) (hp : e.pending = true)
    (hsent : o.reportsSent e.sequenceNumber = false) (hdrop : ¬h.MayDrop e o)
    (hs : h.step o = .ok (h', r)) : some e ∈ h'.slots := by
  cases o with
  | configure mode n => exact absurd trivial hdrop
  | clear => exact absurd trivial hdrop
  | setRtt rtt now => exact mem_setRtt he hp hdrop (step_setRtt_eq_ok hs).1
  | put p now =>
      cases hs
      exact hc.mem_put_of_pending he hp hdrop
  | resend s now f =>
      rw [PacketHistory.step, Except.ok.injEq] at hs
      rw [show h' = (h.resend s now f).1 by rw [hs]]
      exact mem_resend he hp s now f
  | markSent s now =>
      cases hs
      exact hc.mem_markSent now he (of_decide_eq_false hsent)
  | acknowledge arrived =>
      cases hs
      exact mem_acknowledge he hp arrived
  | pad now f =>
      rw [PacketHistory.step, Except.ok.injEq] at hs
      rw [show h' = (h.pad now f).1 by rw [hs]]
      exact mem_pad he hp now f

/-! ### Runs -/

/-- No operation of a run may drop the entry where it happens. -/
def Undropped (h : PacketHistory) (e : Entry) : List Operation → Prop
  | [] => True
  | o :: rest => ¬h.MayDrop e o ∧
      match h.step o with
      | .ok (h', _) => h'.Undropped e rest
      | .error _ => True

instance decidableUndropped : (h : PacketHistory) → (e : Entry) → (ops : List Operation) →
    Decidable (h.Undropped e ops)
  | _, _, [] => inferInstanceAs (Decidable True)
  | h, e, o :: rest =>
    have : Decidable (match h.step o with
        | .ok (h', _) => h'.Undropped e rest
        | .error _ => True) :=
      match h.step o with
      | .ok (h', _) => decidableUndropped h' e rest
      | .error _ => inferInstanceAs (Decidable True)
    inferInstanceAs (Decidable (_ ∧ _))

theorem Consistent.mem_run (hc : h.Consistent) {ops : List Operation}
    {handed : List (Option RtpPacket)} (he : some e ∈ h.slots) (hp : e.pending = true)
    (hsent : ∀ o ∈ ops, o.reportsSent e.sequenceNumber = false) (hkeep : h.Undropped e ops)
    (hr : h.run ops = .ok (h', handed)) : some e ∈ h'.slots := by
  induction ops generalizing h handed with
  | nil =>
      rw [PacketHistory.run, Except.ok.injEq, Prod.mk.injEq] at hr
      rw [← hr.1]
      exact he
  | cons o rest ih =>
      obtain ⟨h₁, r, later, hs, hrest, -⟩ := run_cons_eq_ok hr
      rw [Undropped, hs] at hkeep
      have he₁ := hc.mem_step he hp (hsent o List.mem_cons_self) hkeep.1 hs
      exact ih (hc.step hs) he₁ (fun o' ho' => hsent o' (List.mem_cons_of_mem o ho')) hkeep.2 hrest

/-- A history that stores an entry is enabled. -/
theorem Consistent.isEnabled_of_mem (hc : h.Consistent) (he : some e ∈ h.slots) :
    h.isEnabled = true := by
  rw [isEnabled_iff]
  intro hm
  rw [(hc.inert hm).1] at he
  cases he

/-- A stored entry is found under its number, as long as the slots span no more than half the
circle. -/
theorem Consistent.find?_of_mem (hc : h.Consistent) (hl : h.slots.length ≤ 0x8000)
    (he : some e ∈ h.slots) : h.find? e.sequenceNumber = some e := by
  obtain ⟨n, hn⟩ := hc.laid
  obtain ⟨k, hk⟩ := (Slots.mem_iff_entryOf n).mp he
  exact find?_eq_some_iff.mpr
    ⟨hc.isEnabled_of_mem he, (hn.find?_eq_some_iff hl).mpr ⟨k, (hn.numbered k e hk).symm, hk⟩⟩

/-- The packet that a request hands out is the one stored under its number, and its entry is
pending from then on. -/
theorem Consistent.find?_resend (hc : h.Consistent) {s : SequenceNumber} {now : Timestamp}
    {f : Encapsulation} {q : RtpPacket} (hq : (h.resend s now f).2 = some q) :
    ∃ d, f d.packet = some q ∧ d.pending = true ∧ (h.resend s now f).1.find? s = some d := by
  obtain ⟨n, hn⟩ := hc.laid
  cases hd : h.find? s with
  | none =>
      simp only [PacketHistory.resend, hd] at hq
      cases hq
  | some d =>
      obtain ⟨hf, hp, hrest⟩ := (resend_eq_some_of_find? hd).mp hq
      obtain ⟨hen, hfind⟩ := find?_eq_some_iff.mp hd
      have hstate : (h.resend s now f).1 =
          { h with slots := h.slots.update s ({ · with pending := true }) } := by
        simp [PacketHistory.resend, hd, hp, hrest, hf]
      refine ⟨{ d with pending := true }, hf, rfl, ?_⟩
      rw [hstate]
      exact find?_eq_some_iff.mpr ⟨hen, hn.find?_update hfind fun _ => rfl⟩

/-- **A pending packet is not lost.**  Once a request for `s` has been answered, the entry of `s`
is stored and pending, and after any operations that do not report `s` sent it is still stored
just as it was, unless one of them dropped all packets, stored a packet with the number `s`, or
culled the entry while at least `Retention.maxSlots` slots were left.  So no acknowledgement, no
passing of time, no round trip and no configured size takes it away.  It is also found under
`s`, as long as the slots span no more than half the circle of numbers. -/
theorem pending_until_sent (hr : h.Reachable) {s : SequenceNumber} {now : Timestamp}
    {f : Encapsulation} {q : RtpPacket} (hq : (h.resend s now f).2 = some q) :
    ∃ e, (h.resend s now f).1.find? s = some e ∧ f e.packet = some q ∧ e.pending = true ∧
      ∀ (later : List Operation) (h' : PacketHistory) (handed : List (Option RtpPacket)),
        (h.resend s now f).1.run later = .ok (h', handed) →
          (∀ o ∈ later, o.reportsSent s = false) → (h.resend s now f).1.Undropped e later →
            some e ∈ h'.slots ∧ (h'.slots.length ≤ 0x8000 → h'.find? s = some e) := by
  obtain ⟨e, hf, hp, he⟩ := hr.consistent.find?_resend hq
  have hc : (h.resend s now f).1.Consistent := hr.consistent.resend s now f
  obtain ⟨n, hn⟩ := hc.laid
  have hfind := (find?_eq_some_iff.mp he).2
  have hs : e.sequenceNumber = s := hn.sequenceNumber_of_find? hfind
  refine ⟨e, he, hf, hp, ?_⟩
  intro later h' handed hrun hsent hkeep
  rw [← hs] at hsent ⊢
  have hmem := hc.mem_run (Slots.mem_of_find? hfind) hp hsent hkeep hrun
  have hc' : h'.Consistent := run_induction (fun _ _ _ _ hc hs => hc.step hs) hc hrun
  exact ⟨hmem, fun hl => hc'.find?_of_mem hl hmem⟩

/-- A history that is to keep a single packet keeps the pending one through its acknowledgement, a
shorter round trip, the storing of another packet minutes later, padding, and another request. -/
theorem pending_until_sent_through_culling :
    let packet (s : SequenceNumber) : RtpPacket :=
      { sequenceNumber := s, allowRetransmission := true }
    let h : PacketHistory := ((empty .lastPacket).configure .storeAndCull 1).put (packet 5) 0
    let later : List Operation :=
      [.acknowledge [5], .setRtt (.ofMillis 10) (.ofSeconds 100), .put (packet 6) (.ofSeconds 200),
        .pad (.ofSeconds 300) some, .resend 5 (.ofSeconds 400) some]
    h.Reachable ∧ (h.resend 5 (.ofMillis 1) some).2 = some (packet 5) ∧
      ∃ (h' : PacketHistory) (handed : List (Option RtpPacket)) (e : Entry),
        (h.resend 5 (.ofMillis 1) some).1.run later = .ok (h', handed) ∧
          (∀ o ∈ later, o.reportsSent 5 = false) ∧
          (h.resend 5 (.ofMillis 1) some).1.Undropped e later ∧
          e.packet = packet 5 ∧ e.pending = true ∧ some e ∈ h'.slots ∧ h'.find? 5 = some e := by
  intro packet h later
  have hr : h.Reachable :=
    ⟨.lastPacket, [.configure .storeAndCull 1, .put (packet 5) 0], [none, none], rfl⟩
  have hq : (h.resend 5 (.ofMillis 1) some).2 = some (packet 5) := by decide
  obtain ⟨h', handed, hrun, hl⟩ : ∃ h' handed,
      (h.resend 5 (.ofMillis 1) some).1.run later = .ok (h', handed) ∧
        h'.slots.length ≤ 0x8000 := by
    refine ⟨{ h with
      rtt := some (.ofMillis 10)
      slots := [some { Entry.fresh (packet 5) 0 with pending := true },
        some ((Entry.fresh (packet 6) (.ofSeconds 200)).resent (.ofSeconds 300))] },
      [none, none, none, some (packet 6), none], by decide, by decide⟩
  obtain ⟨e, he, hpacket, hp, hlater⟩ := pending_until_sent hr hq
  have hentry : { Entry.fresh (packet 5) 0 with pending := true } = e := by
    have hfind : (h.resend 5 (.ofMillis 1) some).1.find? 5 =
        some { Entry.fresh (packet 5) 0 with pending := true } := by decide
    exact Option.some.inj (hfind.symm.trans he)
  have hsent : ∀ o ∈ later, o.reportsSent 5 = false := by decide
  have hkeep : (h.resend 5 (.ofMillis 1) some).1.Undropped e later := by
    rw [← hentry]
    decide
  obtain ⟨hmem, hfound⟩ := hlater later h' handed hrun hsent hkeep
  exact ⟨hr, hq, h', handed, e, hrun, hsent, hkeep, Option.some.inj hpacket, hp, hmem, hfound hl⟩

end PacketHistory

end MediaSender
