import MediaSender.Proofs.History.Capacity

/-! # Storing a packet

An insertion takes the entry with the number of the new one out, if there is one, and then places
the new entry where its number belongs among what is left.  Taking an entry out may move the first
slot or leave no slots at all, so the position of the number is computed anew.

* **Effect.** Whatever that position is, in front of the slots, among them or behind them, the
  insertion adds one entry to the map from unwrapped numbers (`Slots.Inserted`).  The first slot
  afterwards belongs to the new entry or was among the old ones (`Slots.Inserted.front`).
* **Look-up.** So the new entry is found under its number (`Slots.Inserted.find?_eq`), and the
  others keep their order (`Slots.Inserted.filter_other`).
* **Reach.** A kept entry is found as well, unless the packet went in front of it by half the circle
  or more (`Slots.Inserted.find?_other_iff`). -/

namespace MediaSender

open SequenceNumber (wrap)

/-- On the way up from `n` a number is newer up to half the circle, and there if it is the larger
one. -/
theorem SequenceNumber.isNewer_wrap_iff {m n : Int} (h₁ : n < m) (h₂ : m - n < 0x10000) :
    isNewer (wrap m) (wrap n) = true ↔ m - n < 0x8000 ∨ m - n = 0x8000 ∧ wrap n < wrap m := by
  have h := toNat_sub_wrap m n
  have h0 : wrap m - wrap n = 0 ↔ (wrap m - wrap n).toNat = 0 := UInt16.toNat_inj.symm
  have h8 : wrap m - wrap n = halfCircle ↔ (wrap m - wrap n).toNat = 0x8000 :=
    UInt16.toNat_inj.symm
  have hlt : wrap m - wrap n < halfCircle ↔ (wrap m - wrap n).toNat < 0x8000 :=
    UInt16.lt_iff_toNat_lt
  unfold isNewer
  split
  next heq =>
    rw [h8] at heq
    have hmn : m - n = 0x8000 := by omega
    simp [hmn]
  next hne =>
    rw [h8] at hne
    have hmn : m - n ≠ 0x8000 := by omega
    simp only [decide_eq_true_eq, ne_eq, h0, hlt, hmn, false_and, or_false]
    omega

namespace Slots

theorem entries_eq_map_numberedFrom (n : Int) (slots : Slots) :
    slots.entries = (slots.numberedFrom n).map Prod.snd := by
  induction slots generalizing n with
  | nil => rfl
  | cons slot rest ih => cases slot <;> simp [entries, numberedFrom, ← ih]

section inserted

variable {n n' k j : Int} {slots : Slots} {d e : Entry}

theorem Inserted.entryOf_self (hi : Inserted n slots e k n') :
    (slots.insert e).entryOf n' k = some e := by rw [hi.entryOf_eq, if_pos rfl]

/-- The first slot belongs to the new entry, or to an old one before it. -/
theorem Inserted.front (hi : Inserted n slots e k n') :
    n' = k ∨ slots ≠ [] ∧ n ≤ n' ∧ n' < k := by
  have hb := bounds_of_entryOf hi.entryOf_self
  obtain ⟨a, -, ha, -⟩ := hi.laid.exists_ends (ne_nil_of_entryOf hi.entryOf_self)
  rw [hi.entryOf_eq] at ha
  split at ha
  next heq => exact .inl heq
  next hne => exact .inr ⟨ne_nil_of_entryOf ha, (bounds_of_entryOf ha).1, by omega⟩

theorem Inserted.position_eq (hi : Inserted n slots e k n') (h : Laid n slots) :
    (slots.insert e).position e.sequenceNumber = k - n' := by
  rw [hi.laid.position_eq (ne_nil_of_entryOf hi.entryOf_self), hi.number]
  obtain rfl | ⟨hne, hfirst, hlt⟩ := hi.front
  · exact SequenceNumber.offset_wrap (by omega) (by omega)
  · have hplace := hi.place hne
    have hbounds := slots.position_bounds e.sequenceNumber
    by_cases hsame : n' = n
    · -- at half the circle the offset is known from the slots before
      rw [hsame, ← hi.number, ← h.position_eq hne]
      omega
    · exact SequenceNumber.offset_wrap (by omega) (by omega)

/-- The new entry is found under its number. -/
theorem Inserted.find?_eq (hi : Inserted n slots e k n') (h : Laid n slots) :
    (slots.insert e).find? e.sequenceNumber = some e := by
  rw [find?_eq_entryOf n', hi.position_eq h, ← hi.entryOf_self]
  congr 1
  omega

/-- The entries with other numbers are the same as before, in the same order. -/
theorem Inserted.filter_other (hi : Inserted n slots e k n') (h : Laid n slots) :
    (slots.insert e).entries.filter (fun d => decide (d.sequenceNumber ≠ e.sequenceNumber)) =
      slots.entries.filter fun d => decide (d.sequenceNumber ≠ e.sequenceNumber) := by
  rw [entries_eq_map_numberedFrom n', entries_eq_map_numberedFrom n, List.filter_map,
    List.filter_map]
  congr 1
  refine Numbered.eq_of_mem_iff ((sorted_numberedFrom _ _).filter _)
    ((sorted_numberedFrom _ _).filter _) ?_
  rintro ⟨j, d⟩
  rw [List.mem_filter, List.mem_filter, mem_numberedFrom, mem_numberedFrom, hi.entryOf_eq]
  split
  next hj =>
    -- an entry under `k`, the new one as well as an old one, has the number of `e`
    have hold : slots.entryOf n j = some d → d.sequenceNumber = e.sequenceNumber := by
      intro hd
      rw [h.numbered j d hd, hj, hi.number]
    simp only [Option.some.injEq, Function.comp_apply, decide_eq_true_eq]
    constructor
    · rintro ⟨rfl, hne⟩
      exact absurd rfl hne
    · rintro ⟨hd, hne⟩
      exact absurd (hold hd) hne
  next => rfl

/-- No other entry has the number of the new one. -/
theorem Inserted.filter_self (hi : Inserted n slots e k n') (h : Laid n slots)
    (hl : slots.length ≤ 0x8000) :
    (slots.insert e).entries.filter (fun d => decide (d.sequenceNumber = e.sequenceNumber)) =
      [e] := by
  have hsingle : [e] = [(k, e)].map Prod.snd := rfl
  rw [hsingle, entries_eq_map_numberedFrom n', List.filter_map]
  congr 1
  refine Numbered.eq_of_mem_iff ((sorted_numberedFrom _ _).filter _)
    (List.pairwise_singleton _ _) ?_
  rintro ⟨j, d⟩
  rw [List.mem_filter, mem_numberedFrom, hi.entryOf_eq, List.mem_singleton, Prod.mk.injEq]
  split
  next hj =>
    simp only [Option.some.injEq, Function.comp_apply, decide_eq_true_eq]
    constructor
    · rintro ⟨rfl, -⟩
      exact ⟨hj, rfl⟩
    · rintro ⟨-, rfl⟩
      exact ⟨rfl, rfl⟩
  next hj =>
    simp only [Function.comp_apply, decide_eq_true_eq]
    constructor
    · rintro ⟨hd, hnumber⟩
      have hjk := (h.wrap_eq_iff hl hd).mp ((h.numbered j d hd).symm.trans hnumber)
      exact absurd (hjk.trans (hi.place (ne_nil_of_entryOf hd)).symm) hj
    · rintro ⟨hjk, -⟩
      exact absurd hjk hj

/-- An entry is found under its number if that is what the look-up reaches at all. -/
theorem Laid.find?_eq_some_iff_isSome (h : Laid n slots) (hl : slots.length ≤ 0x10000)
    (hd : slots.entryOf n j = some d) :
    slots.find? d.sequenceNumber = some d ↔ (slots.find? d.sequenceNumber).isSome = true := by
  constructor
  · intro hfind
    rw [hfind]
    rfl
  · intro hsome
    obtain ⟨d', hd'⟩ := Option.isSome_iff_exists.mp hsome
    have hnumber := h.sequenceNumber_of_find? hd'
    rw [hd']
    rw [find?_eq_entryOf n] at hd'
    have hsame := h.eq_of_sequenceNumber_eq hl hd' hd hnumber
    rw [← hd', ← hd, hsame]

/-- A kept entry is found under its number, unless the new one went in front of the slots and the
kept one is not newer than that. -/
theorem Inserted.find?_other_iff (hi : Inserted n slots e k n') (hl : slots.length < 0x8000)
    (hd : some d ∈ slots) (hne : d.sequenceNumber ≠ e.sequenceNumber) (h : Laid n slots) :
    (slots.insert e).find? d.sequenceNumber = some d ↔
      0 ≤ slots.position e.sequenceNumber ∨
        d.sequenceNumber.isNewer e.sequenceNumber = true := by
  obtain ⟨j, hj⟩ := (mem_iff_entryOf n).mp hd
  have hslots := ne_nil_of_entryOf hj
  have hplace := hi.place hslots
  have hold := bounds_of_entryOf hj
  have hjk := hi.ne_of_number_ne h hj hne
  have hnew : (slots.insert e).entryOf n' j = some d := by rw [hi.entryOf_eq, if_neg hjk, hj]
  have hlen := slots.length_insert_le e
  have hbounds := bounds_of_entryOf hnew
  rw [hi.laid.find?_eq_some_iff_isSome (by omega) hnew,
    hi.laid.find?_isSome_iff (by omega) hnew]
  obtain rfl | ⟨-, hfirst, hlt⟩ := hi.front
  · rw [h.numbered j d hj, hi.number, SequenceNumber.isNewer_wrap_iff (by omega) (by omega),
      ← hi.number]
    constructor
    · exact .inr
    · rintro (hpos | hnewer)
      · left
        omega
      · exact hnewer
  · -- the front of the slots did not move back
    refine iff_of_true ?_ ?_
    · left
      omega
    · left
      omega

end inserted

end Slots

namespace PacketHistory

/-- **What is put is got.**  In an enabled history a packet that may be sent again is found under
its number, whatever was stored before and wherever its number lies, and its entry is that of a
first transmission.  It is the only one with its number, and all others that the culling before it
kept are stored as they were, in the same order; each is found under its number unless the packet
went in front of it by half the circle or more. -/
theorem Reachable.put_stores {h : PacketHistory} (hr : h.Reachable) (he : h.isEnabled = true)
    {p : RtpPacket} (hp : p.allowRetransmission = true) (t : Timestamp) :
    (h.put p t).contains p.sequenceNumber = true ∧
      (h.put p t).find? p.sequenceNumber =
        some { packet := p, sentAt := t, lastTransmission := t, pending := false
               timesRetransmitted := 0 } ∧
      ((h.put p t).slots.entries.filter fun d => d.sequenceNumber = p.sequenceNumber) =
        [{ packet := p, sentAt := t, lastTransmission := t, pending := false
           timesRetransmitted := 0 }] ∧
      ((h.put p t).slots.entries.filter fun d => d.sequenceNumber ≠ p.sequenceNumber) =
        ((h.cull t).slots.entries.filter fun d => d.sequenceNumber ≠ p.sequenceNumber) ∧
      ∀ d, some d ∈ (h.cull t).slots → d.sequenceNumber ≠ p.sequenceNumber →
        some d ∈ (h.put p t).slots ∧
          ((h.put p t).find? d.sequenceNumber = some d ↔
            0 ≤ (h.cull t).slots.position p.sequenceNumber ∨
              d.sequenceNumber.isNewer p.sequenceNumber = true) := by
  have hput := put_of_stores (h := h) (p := p) (by rw [he, hp]; rfl) t
  obtain ⟨n, hn⟩ := (hr.consistent.cull t).laid
  have hlen : (h.cull t).slots.length < 9600 := Slots.length_cull_lt _ _ _ _
  obtain ⟨k, n', hi⟩ := hn.exists_inserted (by omega) (Entry.fresh p t)
  have hslots : (h.put p t).slots = (h.cull t).slots.insert (Entry.fresh p t) := by rw [hput]; rfl
  have hfind : ∀ s, (h.put p t).find? s = ((h.cull t).slots.insert (Entry.fresh p t)).find? s := by
    intro s
    rw [hput]
    exact if_pos he
  have hfound : (h.put p t).find? p.sequenceNumber = some (Entry.fresh p t) := by
    rw [hfind]
    exact hi.find?_eq hn
  refine ⟨by rw [contains, hfound]; rfl, hfound, ?_, ?_, ?_⟩
  · rw [hslots]
    exact hi.filter_self hn (by omega)
  · rw [hslots]
    exact hi.filter_other hn
  · intro d hd hne
    rw [hslots, hfind]
    exact ⟨hn.mem_insert_of_ne (by omega) hd hne, hi.find?_other_iff (by omega) hd hne hn⟩

/-- A pending packet in front of another one is replaced, and is not pending any more. -/
theorem put_stores_in_place_of_pending :
    ∃ h : PacketHistory, h.Reachable ∧ h.isEnabled = true ∧
      (h.find? 0).map Entry.pending = some true ∧
      (h.put (packetNumbered 0) (.ofMillis 20)).find? 0 =
        some { packet := packetNumbered 0, sentAt := .ofMillis 20
               lastTransmission := .ofMillis 20, pending := false, timesRetransmitted := 0 } ∧
      ((h.put (packetNumbered 0) (.ofMillis 20)).slots.entries.filter fun d =>
        d.sequenceNumber ≠ 0) = [.fresh (packetNumbered 1) 0] := by
  let h : PacketHistory :=
    { mode := .storeAndCull
      numberToStore := 10
      slots := [some { Entry.fresh (packetNumbered 0) 0 with pending := true },
        some (.fresh (packetNumbered 1) 0)] }
  have hr : h.Reachable :=
    ⟨.lastPacket,
      [.configure .storeAndCull 10, .put (packetNumbered 0) 0, .put (packetNumbered 1) 0,
        .resend 0 (.ofMillis 10) some],
      [none, none, none, some (packetNumbered 0)], rfl⟩
  have hculled : (h.cull (.ofMillis 20)).slots.entries =
      [{ Entry.fresh (packetNumbered 0) 0 with pending := true },
        .fresh (packetNumbered 1) 0] := rfl
  obtain ⟨-, hfind, -, hothers, -⟩ := hr.put_stores rfl (p := packetNumbered 0) rfl (.ofMillis 20)
  rw [hculled] at hothers
  exact ⟨h, hr, rfl, rfl, hfind, hothers⟩

end PacketHistory

end MediaSender
