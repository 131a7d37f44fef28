import MediaSender.Proofs.History.Consistency
import MediaSender.Proofs.History.Reading

/-! # Entries before and after an operation

Where an entry that is stored after an operation comes from.

* **Removal and culling** leave entries that were there before (`mem_of_mem_removeAt`,
  `mem_of_mem_cull`).
* **Insertion** leaves the new entry and those with other numbers (`Laid.mem_insert`).
* **Changes** leave the image of the one entry they are about and those with other numbers
  (`Laid.mem_update`, `Laid.mem_updateLast`).
* **Padding.** A history that pads with large packets has one as soon as anything is stored
  (`Reachable.supplied`), so it never falls back on the last packet. -/

namespace MediaSender

open SequenceNumber (wrap)

namespace Slots

variable {n : Int} {slots : Slots} {d : Entry}

theorem mem_iff_entryAt : some d ∈ slots ↔ ∃ i, slots.entryAt i = some d := by
  rw [List.mem_iff_getElem?]
  constructor
  · rintro ⟨i, hi⟩
    exact ⟨i, by rw [entryAt_natCast, hi, Option.join_some]⟩
  · rintro ⟨i, hi⟩
    have hb := bounds_of_entryAt hi
    rw [entryAt_of_nonneg hb.1, Option.join_eq_some_iff] at hi
    exact ⟨i.toNat, hi⟩

theorem mem_iff_entryOf (n : Int) : some d ∈ slots ↔ ∃ k, slots.entryOf n k = some d := by
  rw [mem_iff_entryAt]
  constructor
  · rintro ⟨i, hi⟩
    exact ⟨n + i, by rw [entryOf_add, hi]⟩
  · rintro ⟨k, hk⟩
    exact ⟨k - n, hk⟩

theorem mem_of_find? {s : SequenceNumber} (h : slots.find? s = some d) : some d ∈ slots :=
  mem_iff_entryAt.mpr ⟨_, h⟩

/-! ### Fewer entries -/

theorem mem_of_mem_cull {numberToStore : Nat} {δ : TimeDelta} {now : Timestamp}
    (h : some d ∈ slots.cull numberToStore δ now) : some d ∈ slots :=
  (slots.cull_suffix numberToStore δ now).subset h

theorem mem_of_mem_removeAt {i : Int} (h : some d ∈ slots.removeAt i) : some d ∈ slots := by
  obtain ⟨m, -, hat⟩ := exists_entryAt_trim (slots.set i.toNat none)
  obtain ⟨j, hj⟩ := mem_iff_entryAt.mp h
  have hset : some d ∈ slots.set i.toNat none := by
    refine mem_iff_entryAt.mpr ⟨j + m, ?_⟩
    rw [← hat, Int.add_sub_cancel]
    exact hj
  rcases List.mem_or_eq_of_mem_set hset with hd | hd
  · exact hd
  · cases hd

/-! ### One entry more, or changed -/

/-- After an insertion every other entry was there before, under another number. -/
theorem Laid.mem_insert (h : Laid n slots) (hl : slots.length ≤ 0x8000) {e : Entry}
    (hd : some d ∈ slots.insert e) :
    d = e ∨ some d ∈ slots ∧ d.sequenceNumber ≠ e.sequenceNumber := by
  obtain ⟨k, n', hi⟩ := h.exists_inserted hl e
  obtain ⟨j, hj⟩ := (mem_iff_entryOf n').mp hd
  rw [hi.entryOf_eq] at hj
  split at hj
  next => exact .inl (Option.some.inj hj).symm
  next hjk =>
    refine .inr ⟨(mem_iff_entryOf n).mpr ⟨j, hj⟩, fun hs => hjk ?_⟩
    rw [h.numbered j d hj] at hs
    rw [hi.place (ne_nil_of_entryOf hj)]
    exact (h.wrap_eq_iff hl hj).mp hs

/-- After a change of the entry of `s` every other entry was there before, under another number if
there is one of `s`. -/
theorem Laid.mem_update (h : Laid n slots) (hl : slots.length ≤ 0x10000) {s : SequenceNumber}
    {f : Entry → Entry} (hd : some d ∈ slots.update s f) :
    (∃ e, slots.find? s = some e ∧ d = f e) ∨
      some d ∈ slots ∧ ∀ e, slots.find? s = some e → d.sequenceNumber ≠ s := by
  obtain ⟨j, hj⟩ := (mem_iff_entryOf n).mp hd
  rw [entryOf_update] at hj
  split at hj
  next hjs =>
    obtain ⟨e, he, hde⟩ := Option.map_eq_some_iff.mp hj
    rw [hjs, ← find?_eq_entryOf] at he
    exact .inl ⟨e, he, hde.symm⟩
  next hjs =>
    refine .inr ⟨(mem_iff_entryOf n).mpr ⟨j, hj⟩, fun e he hs => hjs ?_⟩
    have hes := h.sequenceNumber_of_find? he
    rw [find?_eq_entryOf n] at he
    exact h.eq_of_sequenceNumber_eq hl hj he (hs.trans hes.symm)

/-- After a change of the last entry every other entry was there before, under another number. -/
theorem Laid.mem_updateLast (h : Laid n slots) (hl : slots.length ≤ 0x10000) {e : Entry}
    (he : slots.getLast?.join = some e) {f : Entry → Entry} (hd : some d ∈ slots.updateLast f) :
    d = f e ∨ some d ∈ slots ∧ d.sequenceNumber ≠ e.sequenceNumber := by
  have hlast : slots.entryOf n (n + (slots.length - 1)) = some e := by
    rw [entryOf_add, entryAt_last, he]
  obtain ⟨j, hj⟩ := (mem_iff_entryOf n).mp hd
  rw [entryOf_updateLast] at hj
  split at hj
  next hje =>
    rw [hje, hlast] at hj
    exact .inl (Option.some.inj hj).symm
  next hje =>
    refine .inr ⟨(mem_iff_entryOf n).mpr ⟨j, hj⟩, fun hs => hje ?_⟩
    exact h.eq_of_sequenceNumber_eq hl hj hlast hs

end Slots

namespace PacketHistory

variable {h : PacketHistory} {d : Entry}

theorem find?_eq_some_iff {s : SequenceNumber} :
    h.find? s = some d ↔ h.isEnabled = true ∧ h.slots.find? s = some d := by
  unfold find?
  split
  next he => simp [he]
  next he => simp [he]

theorem mem_of_mem_acknowledgeOne {s : SequenceNumber}
    (hd : some d ∈ (h.acknowledgeOne s).slots) : some d ∈ h.slots := by
  unfold acknowledgeOne at hd
  split at hd
  next =>
    split at hd
    next => exact hd
    next => exact Slots.mem_of_mem_removeAt hd
  next => exact hd

theorem mem_of_mem_acknowledge {arrived : List SequenceNumber}
    (hd : some d ∈ (h.acknowledge arrived).slots) : some d ∈ h.slots := by
  induction arrived generalizing h with
  | nil => exact hd
  | cons s rest ih => exact mem_of_mem_acknowledgeOne (ih hd)

/-- An acknowledgement changes nothing but the slots. -/
theorem acknowledge_eq_withSlots (h : PacketHistory) (arrived : List SequenceNumber) :
    h.acknowledge arrived = { h with slots := (h.acknowledge arrived).slots } := by
  unfold acknowledge
  induction arrived generalizing h with
  | nil => rfl
  | cons s rest ih =>
      have hone : h.acknowledgeOne s = { h with slots := (h.acknowledgeOne s).slots } := by
        unfold acknowledgeOne
        split
        next => split <;> rfl
        next => rfl
      rw [List.foldl_cons, ih, hone]

/-- After a packet has been stored every other entry was there before, under another number. -/
theorem Consistent.mem_put (hc : h.Consistent) {p : RtpPacket} {now : Timestamp}
    (hp : (h.isEnabled && p.allowRetransmission) = true) (hd : some d ∈ (h.put p now).slots) :
    d = Entry.fresh p now ∨ some d ∈ h.slots ∧ d.sequenceNumber ≠ p.sequenceNumber := by
  rw [PacketHistory.put, if_pos hp] at hd
  obtain ⟨n, hn⟩ := (hc.cull now).laid
  have hlen : (h.cull now).slots.length < 9600 := Slots.length_cull_lt _ _ _ _
  exact (hn.mem_insert (by omega) hd).imp_right fun ⟨hm, hne⟩ => ⟨Slots.mem_of_mem_cull hm, hne⟩

/-! ### The packet for padding -/

theorem isSome_observe (l : LargePacket) (p : RtpPacket) :
    (l.observe p).packet.isSome = true := by
  cases hl : l.packet with
  | none =>
      have hgap : l.afterGap p = true := by rw [LargePacket.afterGap, hl]
      simp [LargePacket.observe, hgap]
  | some kept =>
      unfold LargePacket.observe
      dsimp only
      rw [hl, apply_ite Option.isSome, Option.isSome_some, Option.isSome_some, ite_self]

/-- If the history pads with large packets and stores anything, it has a packet for padding. -/
def Supplied (h : PacketHistory) : Prop :=
  h.paddingMode = .recentLargePacket → h.slots ≠ [] → h.large.packet.isSome = true

/-- Fewer entries, or changed ones, are no reason for another packet. -/
theorem Supplied.of_slots (hs : h.Supplied) {slots : Slots}
    (hl : slots.length ≤ h.slots.length) : ({ h with slots } : PacketHistory).Supplied := by
  intro hm hne
  have hlen : 0 < slots.length := List.length_pos_iff.mpr hne
  exact hs hm (List.length_pos_iff.mp (by omega))

/-- Padding with large packets goes by the packet for padding alone and changes nothing. -/
theorem Supplied.pad_of_large (hs : h.Supplied) (hc : h.Consistent)
    (hm : h.paddingMode = .recentLargePacket) (now : Timestamp) (f : Encapsulation) :
    h.pad now f = (h, h.large.packet.bind f) := by
  unfold PacketHistory.pad
  rw [hm]
  cases hl : h.large.packet with
  | some p =>
      have he : h.isEnabled = true := by
        rw [isEnabled_iff]
        intro hd
        rw [(hc.inert hd).2] at hl
        cases hl
      rw [if_pos he]
      rfl
  | none =>
      -- There is a packet for padding unless nothing is stored.
      have hnil : h.slots = [] := by
        by_contra hne
        have hp := hs hm hne
        rw [hl] at hp
        cases hp
      simp [PacketHistory.padWithLast, hnil]

theorem length_cull_le (h : PacketHistory) (now : Timestamp) :
    (h.cull now).slots.length ≤ h.slots.length :=
  (h.slots.cull_suffix _ _ _).length_le

theorem Supplied.setRtt (hs : h.Supplied) {rtt : TimeDelta} {now : Timestamp}
    {h' : PacketHistory} (e : h.setRtt rtt now = .ok h') : h'.Supplied := by
  have hs' : ({ h with rtt := some rtt } : PacketHistory).Supplied := hs
  unfold PacketHistory.setRtt at e
  split at e
  next => cases e
  next =>
    rw [Except.ok.injEq] at e
    rw [← e]
    split
    next => exact hs'.of_slots (length_cull_le _ now)
    next => exact hs'

theorem Supplied.put (hs : h.Supplied) (p : RtpPacket) (now : Timestamp) :
    (h.put p now).Supplied := by
  unfold PacketHistory.put
  split
  next =>
    intro hm _
    have hm' : h.paddingMode = .recentLargePacket := hm
    show (if h.paddingMode = .recentLargePacket then h.large.observe p else h.large).packet.isSome
    rw [if_pos hm']
    exact isSome_observe h.large p
  next => exact hs

theorem Supplied.resend (hs : h.Supplied) (s : SequenceNumber) (now : Timestamp)
    (f : Encapsulation) : (h.resend s now f).1.Supplied := by
  unfold PacketHistory.resend
  split
  next => exact hs
  next =>
    split
    next => exact hs
    next =>
      split
      next => exact hs
      next => exact hs.of_slots (Nat.le_of_eq (Slots.length_update _ _ _))

theorem Supplied.markSent (hs : h.Supplied) (s : SequenceNumber) (now : Timestamp) :
    (h.markSent s now).Supplied := by
  unfold PacketHistory.markSent
  split
  next => exact hs.of_slots (Nat.le_of_eq (Slots.length_update _ _ _))
  next => exact hs

theorem Supplied.acknowledge (hs : h.Supplied) (arrived : List SequenceNumber) :
    (h.acknowledge arrived).Supplied := by
  unfold PacketHistory.acknowledge
  induction arrived generalizing h with
  | nil => exact hs
  | cons s rest ih =>
      refine ih (h := h.acknowledgeOne s) ?_
      unfold acknowledgeOne
      split
      next =>
        split
        next => exact hs
        next =>
          intro hm hne
          refine hs hm ?_
          rintro h0
          refine hne ?_
          show h.slots.removeAt _ = []
          rw [h0]
          rfl
      next => exact hs

theorem Supplied.pad (hs : h.Supplied) (now : Timestamp) (f : Encapsulation) :
    (h.pad now f).1.Supplied := by
  have hlast : (h.padWithLast now f).1.Supplied := by
    unfold PacketHistory.padWithLast
    split
    next => exact hs
    next =>
      split
      next => exact hs
      next =>
        split
        next => exact hs
        next => exact hs.of_slots (Nat.le_of_eq (Slots.length_updateLast _ _))
  unfold PacketHistory.pad
  split
  next =>
    split
    next => exact hs
    next => exact hlast
  next => exact hs

theorem Supplied.step (hs : h.Supplied) {o : Operation} {h' : PacketHistory}
    {r : Option RtpPacket} (e : h.step o = .ok (h', r)) : h'.Supplied := by
  cases o with
  | setRtt rtt now => exact hs.setRtt (step_setRtt_eq_ok e).1
  | configure mode n => cases e; exact fun _ hne => absurd rfl hne
  | put p now => cases e; exact hs.put p now
  | resend s now f =>
      rw [PacketHistory.step, Except.ok.injEq] at e
      rw [show h' = (h.resend s now f).1 by rw [e]]
      exact hs.resend s now f
  | markSent s now => cases e; exact hs.markSent s now
  | acknowledge arrived => cases e; exact hs.acknowledge arrived
  | pad now f =>
      rw [PacketHistory.step, Except.ok.injEq] at e
      rw [show h' = (h.pad now f).1 by rw [e]]
      exact hs.pad now f
  | clear => cases e; exact fun _ hne => absurd rfl hne

theorem Reachable.supplied (hr : h.Reachable) : h.Supplied :=
  hr.induction (fun _ _ hne => absurd rfl hne) fun _ _ _ _ hs e => hs.step e

end PacketHistory

end MediaSender
