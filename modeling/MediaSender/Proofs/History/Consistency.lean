import MediaSender.History.Run
import MediaSender.Proofs.History.Layout

/-! # Consistent histories

A history is `Reachable` if a run of operations on a new one ends in it.

* **Invariant.** `Consistent` holds of a new history and every operation keeps it
  (`Consistent.step`), so it holds of every reachable one (`Reachable.consistent`).
* **Numbers.** An insertion may come from half the circle before the first slot or after it, and
  the culling before it leaves fewer slots than `Retention.maxSlots`.  So the slots always span
  less than a circle, and no number is stored twice.
* **Reading.** `WellFormed` says what this means for the list of slots, and every reachable
  history is well-formed (`Reachable.wellFormed`). -/

namespace MediaSender.PacketHistory

/-! ### Runs -/

/-- A state in which a run from a new history ends. -/
def Reachable (h : PacketHistory) : Prop :=
  ∃ (m : PaddingMode) (ops : List Operation) (handed : List (Option RtpPacket)),
    (empty m).run ops = .ok (h, handed)

theorem run_cons_eq_ok {h h' : PacketHistory} {o : Operation} {ops : List Operation}
    {handed : List (Option RtpPacket)} (e : h.run (o :: ops) = .ok (h', handed)) :
    ∃ h₁ r later, h.step o = .ok (h₁, r) ∧ h₁.run ops = .ok (h', later) ∧ handed = r :: later := by
  rw [run] at e
  cases hs : h.step o with
  | error x => rw [hs] at e; cases e
  | ok p =>
      obtain ⟨h₁, r⟩ := p
      rw [hs] at e
      cases hr : h₁.run ops with
      | error x => simp [bind, Except.bind, hr] at e
      | ok q =>
          obtain ⟨h₂, later⟩ := q
          simp only [bind, Except.bind, hr, pure, Except.pure, Except.ok.injEq, Prod.mk.injEq] at e
          exact ⟨h₁, r, later, rfl, by rw [hr, e.1], e.2.symm⟩

/-- A run after one operation. -/
theorem run_cons {h h₁ h' : PacketHistory} {o : Operation} {r : Option RtpPacket}
    {ops : List Operation} {handed : List (Option RtpPacket)} (hs : h.step o = .ok (h₁, r))
    (hr : h₁.run ops = .ok (h', handed)) : h.run (o :: ops) = .ok (h', r :: handed) := by
  simp [run, hs, hr, bind, Except.bind, pure, Except.pure]

/-- What every step keeps, a run keeps. -/
theorem run_induction {P : PacketHistory → Prop}
    (hstep : ∀ h o h' r, P h → h.step o = .ok (h', r) → P h') {h h' : PacketHistory}
    {ops : List Operation} {handed : List (Option RtpPacket)} (h0 : P h)
    (hr : h.run ops = .ok (h', handed)) : P h' := by
  induction ops generalizing h handed with
  | nil =>
      rw [run, Except.ok.injEq, Prod.mk.injEq] at hr
      rw [← hr.1]
      exact h0
  | cons o ops ih =>
      obtain ⟨h₁, r, later, hs, hr', -⟩ := run_cons_eq_ok hr
      exact ih (hstep h o h₁ r h0 hs) hr'

/-- A run and one operation more. -/
theorem run_concat {h h' h'' : PacketHistory} {o : Operation} {r : Option RtpPacket}
    {ops : List Operation} {handed : List (Option RtpPacket)} (hr : h.run ops = .ok (h', handed))
    (hs : h'.step o = .ok (h'', r)) : h.run (ops ++ [o]) = .ok (h'', handed ++ [r]) := by
  induction ops generalizing h handed with
  | nil =>
      rw [run, Except.ok.injEq, Prod.mk.injEq] at hr
      obtain ⟨rfl, rfl⟩ := hr
      simp [run, hs, bind, Except.bind, pure, Except.pure]
  | cons o' ops ih =>
      obtain ⟨h₁, r', later, hs', hr', rfl⟩ := run_cons_eq_ok hr
      simp [run, hs', ih hr', bind, Except.bind, pure, Except.pure]

theorem Reachable.step {h h' : PacketHistory} (hr : h.Reachable) {o : Operation}
    {r : Option RtpPacket} (hs : h.step o = .ok (h', r)) : h'.Reachable := by
  obtain ⟨m, ops, handed, hrun⟩ := hr
  exact ⟨m, ops ++ [o], handed ++ [r], run_concat hrun hs⟩

/-- What holds of new histories and what every step keeps holds of every reachable history. -/
theorem Reachable.induction {P : PacketHistory → Prop} (h0 : ∀ m, P (empty m))
    (hstep : ∀ h o h' r, P h → h.step o = .ok (h', r) → P h') {h : PacketHistory}
    (hr : h.Reachable) : P h := by
  obtain ⟨m, ops, handed, hrun⟩ := hr
  exact run_induction hstep (h0 m) hrun

/-! ### The invariant -/

/-- The slots are laid and span less than a circle, the configured size is below the limit, and a
disabled history holds nothing. -/
structure Consistent (h : PacketHistory) : Prop where
  laid : ∃ n, Slots.Laid n h.slots
  short : h.slots.length < 0x10000
  capacity : h.numberToStore ≤ Retention.maxSlots
  inert : h.mode = .disabled → h.slots = [] ∧ h.large.packet = none

theorem consistent_empty (m : PaddingMode) : (empty m).Consistent where
  laid := ⟨0, Slots.laid_nil 0⟩
  short := (by decide : 0 < 0x10000)
  capacity := Nat.zero_le _
  inert _ := ⟨rfl, rfl⟩

theorem isEnabled_iff {h : PacketHistory} : h.isEnabled = true ↔ h.mode ≠ .disabled := by
  simp [isEnabled]

section consistent

variable {h : PacketHistory}

/-- A change of the slots alone that lays no more of them keeps the history consistent. -/
theorem Consistent.of_slots (hc : h.Consistent) {slots : Slots} (hl : ∃ n, Slots.Laid n slots)
    (hlen : slots.length ≤ h.slots.length) : ({ h with slots } : PacketHistory).Consistent where
  laid := hl
  short := Nat.lt_of_le_of_lt hlen hc.short
  capacity := hc.capacity
  inert hm := by
    have hz := (hc.inert hm).1
    rw [hz] at hlen
    exact ⟨List.length_eq_zero_iff.mp (Nat.le_zero.mp hlen), (hc.inert hm).2⟩

theorem Consistent.clear (hc : h.Consistent) : h.clear.Consistent where
  laid := ⟨0, Slots.laid_nil 0⟩
  short := (by decide : 0 < 0x10000)
  capacity := hc.capacity
  inert _ := ⟨rfl, rfl⟩

theorem Consistent.configure (mode : StorageMode) (n : Nat) :
    (h.configure mode n).Consistent where
  laid := ⟨0, Slots.laid_nil 0⟩
  short := (by decide : 0 < 0x10000)
  capacity := Nat.min_le_right _ _
  inert _ := ⟨rfl, rfl⟩

theorem Consistent.cull (hc : h.Consistent) (now : Timestamp) : (h.cull now).Consistent := by
  obtain ⟨n, hn⟩ := hc.laid
  obtain ⟨n', hnn', hlen, hn', -⟩ := hn.cull h.numberToStore (Retention.duration h.rtt) now
  refine hc.of_slots ⟨n', hn'⟩ ?_
  omega

theorem Consistent.setRtt (hc : h.Consistent) {rtt : TimeDelta} {now : Timestamp}
    {h' : PacketHistory} (e : h.setRtt rtt now = .ok h') : h'.Consistent := by
  have hc' : ({ h with rtt := some rtt } : PacketHistory).Consistent :=
    ⟨hc.laid, hc.short, hc.capacity, hc.inert⟩
  unfold PacketHistory.setRtt at e
  split at e
  next => cases e
  next =>
    rw [Except.ok.injEq] at e
    rw [← e]
    split
    next => exact hc'.cull now
    next => exact hc'

/-- In an enabled history the packet is inserted after the culling, which leaves fewer slots than
half the circle. -/
theorem Consistent.put (hc : h.Consistent) (p : RtpPacket) (now : Timestamp) :
    (h.put p now).Consistent := by
  unfold PacketHistory.put
  split
  next hp =>
    rw [Bool.and_eq_true, isEnabled_iff] at hp
    obtain ⟨n, hn⟩ := (hc.cull now).laid
    have hshort : (h.cull now).slots.length < 9600 := Slots.length_cull_lt _ _ _ _
    have hlen := (h.cull now).slots.length_insert_le (Entry.fresh p now)
    refine ⟨?_, ?_, hc.capacity, fun hm => absurd hm hp.1⟩
    · obtain ⟨_, n', hi⟩ := hn.exists_inserted (by omega) (Entry.fresh p now)
      exact ⟨n', hi.laid⟩
    · show ((h.cull now).slots.insert (Entry.fresh p now)).length < 0x10000
      omega
  next => exact hc

theorem Consistent.update (hc : h.Consistent) (s : SequenceNumber) {f : Entry → Entry}
    (hf : ∀ e, (f e).sequenceNumber = e.sequenceNumber) :
    ({ h with slots := h.slots.update s f } : PacketHistory).Consistent := by
  obtain ⟨n, hn⟩ := hc.laid
  have hlen := h.slots.length_update s f
  exact hc.of_slots ⟨n, hn.update s hf⟩ (Nat.le_of_eq hlen)

theorem Consistent.updateLast (hc : h.Consistent) {f : Entry → Entry}
    (hf : ∀ e, (f e).sequenceNumber = e.sequenceNumber) :
    ({ h with slots := h.slots.updateLast f } : PacketHistory).Consistent := by
  obtain ⟨n, hn⟩ := hc.laid
  have hlen := h.slots.length_updateLast f
  exact hc.of_slots ⟨n, hn.updateLast hf⟩ (Nat.le_of_eq hlen)

theorem Consistent.resend (hc : h.Consistent) (s : SequenceNumber) (now : Timestamp)
    (f : Encapsulation) : (h.resend s now f).1.Consistent := by
  unfold PacketHistory.resend
  split
  next => exact hc
  next =>
    split
    next => exact hc
    next =>
      split
      next => exact hc
      next => exact hc.update s fun _ => rfl

theorem Consistent.markSent (hc : h.Consistent) (s : SequenceNumber) (now : Timestamp) :
    (h.markSent s now).Consistent := by
  unfold PacketHistory.markSent
  split
  next => exact hc.update s fun _ => rfl
  next => exact hc

theorem Consistent.acknowledgeOne (hc : h.Consistent) (s : SequenceNumber) :
    (h.acknowledgeOne s).Consistent := by
  obtain ⟨n, hn⟩ := hc.laid
  unfold PacketHistory.acknowledgeOne
  split
  next e he =>
    split
    next => exact hc
    next =>
      rw [Slots.find?_eq_entryOf n] at he
      obtain ⟨n', hnn', hlen, hn', -⟩ := hn.removeAt (Slots.bounds_of_entryOf he).1
      have hp : n + h.slots.position s - n = h.slots.position s := by omega
      rw [hp] at hlen hn'
      exact hc.of_slots ⟨n', hn'⟩ (by omega)
  next => exact hc

theorem Consistent.acknowledge (hc : h.Consistent) (arrived : List SequenceNumber) :
    (h.acknowledge arrived).Consistent := by
  unfold PacketHistory.acknowledge
  induction arrived generalizing h with
  | nil => exact hc
  | cons s rest ih => exact ih (hc.acknowledgeOne s)

theorem Consistent.pad (hc : h.Consistent) (now : Timestamp) (f : Encapsulation) :
    (h.pad now f).1.Consistent := by
  have hlast : (h.padWithLast now f).1.Consistent := by
    unfold PacketHistory.padWithLast
    split
    next => exact hc
    next =>
      split
      next => exact hc
      next =>
        split
        next => exact hc
        next => exact hc.updateLast fun _ => rfl
  unfold PacketHistory.pad
  split
  next =>
    split
    next => exact hc
    next => exact hlast
  next => exact hc

end consistent

theorem step_setRtt_eq_ok {h h' : PacketHistory} {rtt : TimeDelta} {now : Timestamp}
    {r : Option RtpPacket} (e : h.step (.setRtt rtt now) = .ok (h', r)) :
    h.setRtt rtt now = .ok h' ∧ r = none := by
  have e' : (h.setRtt rtt now).map (·, (none : Option RtpPacket)) = .ok (h', r) := e
  cases hs : h.setRtt rtt now with
  | error x => rw [hs] at e'; cases e'
  | ok h₁ => rw [hs] at e'; cases e'; exact ⟨rfl, rfl⟩

theorem Consistent.step {h h' : PacketHistory} (hc : h.Consistent) {o : Operation}
    {r : Option RtpPacket} (e : h.step o = .ok (h', r)) : h'.Consistent := by
  cases o with
  | setRtt rtt now => exact hc.setRtt (step_setRtt_eq_ok e).1
  | configure mode n => cases e; exact Consistent.configure mode n
  | put p now => cases e; exact hc.put p now
  | resend s now f =>
      rw [PacketHistory.step, Except.ok.injEq] at e
      rw [show h' = (h.resend s now f).1 by rw [e]]
      exact hc.resend s now f
  | markSent s now => cases e; exact hc.markSent s now
  | acknowledge arrived => cases e; exact hc.acknowledge arrived
  | pad now f =>
      rw [PacketHistory.step, Except.ok.injEq] at e
      rw [show h' = (h.pad now f).1 by rw [e]]
      exact hc.pad now f
  | clear => cases e; exact hc.clear

theorem Reachable.consistent {h : PacketHistory} (hr : h.Reachable) : h.Consistent :=
  hr.induction consistent_empty fun _ _ _ _ hc e => hc.step e

/-! ### What consistency says of the slots -/

theorem Consistent.ends {h : PacketHistory} (hc : h.Consistent) :
    h.slots = [] ∨
      ∃ a b, h.slots.head? = some (some a) ∧ h.slots.getLast? = some (some b) := by
  obtain ⟨n, hn⟩ := hc.laid
  by_cases hne : h.slots = []
  · exact .inl hne
  · obtain ⟨a, rest, ha⟩ := hn.tidy.exists_cons hne
    obtain ⟨b, hb⟩ := hn.tidy.getLast?_join hne
    exact .inr ⟨a, b, by rw [ha]; rfl, hb⟩

theorem entryOf_of_getElem? (n : Int) {slots : Slots} {i : Nat} {e : Entry}
    (h : slots[i]? = some (some e)) : slots.entryOf n (n + i) = some e := by
  rw [Slots.entryOf_add, Slots.entryAt_natCast, h]
  rfl

theorem Consistent.numbered {h : PacketHistory} (hc : h.Consistent) {first : Entry}
    {rest : Slots} (hf : h.slots = some first :: rest) {i : Nat} {e : Entry}
    (hi : h.slots[i]? = some (some e)) :
    e.sequenceNumber = first.sequenceNumber + UInt16.ofNat i := by
  obtain ⟨n, hn⟩ := hc.laid
  have h0 : h.slots[0]? = some (some first) := by rw [hf]; rfl
  have e0 := hn.numbered _ _ (entryOf_of_getElem? n h0)
  have e1 := hn.numbered _ _ (entryOf_of_getElem? n hi)
  rw [e0, e1, ← UInt16.toNat_inj, UInt16.toNat_add]
  have h0' := SequenceNumber.toNat_wrap (n + (0 : Nat))
  have h1' := SequenceNumber.toNat_wrap (n + i)
  have h2' : (UInt16.ofNat i).toNat = i % 0x10000 := UInt16.toNat_ofNat'
  simp only [Nat.reducePow]
  omega

theorem Consistent.distinct {h : PacketHistory} (hc : h.Consistent) {i j : Nat} {a b : Entry}
    (ha : h.slots[i]? = some (some a)) (hb : h.slots[j]? = some (some b))
    (e : a.sequenceNumber = b.sequenceNumber) : i = j := by
  obtain ⟨n, hn⟩ := hc.laid
  have hij := hn.eq_of_sequenceNumber_eq (Nat.le_of_lt hc.short) (entryOf_of_getElem? n ha)
    (entryOf_of_getElem? n hb) e
  omega

/-- What a reader of the slots may rely on. -/
structure WellFormed (h : PacketHistory) : Prop where
  /-- There are no slots, or the first and the last one are occupied. -/
  ends : h.slots = [] ∨
    ∃ a b, h.slots.head? = some (some a) ∧ h.slots.getLast? = some (some b)
  /-- Slot `i` holds the packet whose number is `i` after the first one, modulo `2 ^ 16`. -/
  numbered : ∀ first rest, h.slots = some first :: rest →
    ∀ (i : Nat) (e : Entry), h.slots[i]? = some (some e) →
      e.sequenceNumber = first.sequenceNumber + UInt16.ofNat i
  /-- No number is stored twice. -/
  distinct : ∀ (i j : Nat) (a b : Entry), h.slots[i]? = some (some a) →
    h.slots[j]? = some (some b) → a.sequenceNumber = b.sequenceNumber → i = j
  /-- The configured size is within the limit. -/
  capacity : h.numberToStore ≤ Retention.maxSlots
  /-- A disabled history holds no packet and no packet for padding. -/
  inert : h.mode = .disabled → h.slots = [] ∧ h.large.packet = none

/-- **Every reachable history is well-formed**, whatever the order and the distance of the
sequence numbers and whatever the times. -/
theorem Reachable.wellFormed {h : PacketHistory} (hr : h.Reachable) : h.WellFormed where
  ends := hr.consistent.ends
  numbered _ _ hf _ _ hi := hr.consistent.numbered hf hi
  distinct _ _ _ _ ha hb e := hr.consistent.distinct ha hb e
  capacity := hr.consistent.capacity
  inert := hr.consistent.inert

/-- A run that stores numbers on both sides of the wrap, the later one first, and then replaces
the front. -/
theorem wellFormed_across_wrap :
    ∃ h : PacketHistory,
      h.slots.map (Option.map Entry.sequenceNumber) = [some 0xffff, none, some 1] ∧
        h.Reachable ∧ h.WellFormed := by
  have hr : Reachable
      { mode := .store
        numberToStore := 10
        slots :=
          [some (Entry.fresh { sequenceNumber := 0xffff, allowRetransmission := true } 0), none,
            some (Entry.fresh { sequenceNumber := 1, allowRetransmission := true } 0)] } :=
    ⟨.lastPacket,
      [.configure .store 10, .put { sequenceNumber := 1, allowRetransmission := true } 0,
        .put { sequenceNumber := 0xffff, allowRetransmission := true } 0,
        .put { sequenceNumber := 0xffff, allowRetransmission := true } 0],
      [none, none, none, none], rfl⟩
  exact ⟨_, rfl, hr, Reachable.wellFormed hr⟩

end MediaSender.PacketHistory
