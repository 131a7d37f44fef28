import Mathlib.Order.Bounds.Basic
import MediaSender.Proofs.History.Lookup

/-! # The size of a history

A packet is stored after a culling pass that leaves fewer slots than `Retention.maxSlots`.  Storing
adds one entry at most, but as many slots as its number is away from the slots that are left.

* **Passes.** `culled?` is what the culling pass of an operation leaves, and `afterCulling` what
  the operation does then (`step_of_culled`).  An operation without such a pass adds neither slots
  nor entries (`noLarger_step`).
* **Entries.** So there are never more than `Retention.maxSlots` entries
  (`Reachable.size_le_and_length_slots_lt`).
* **Slots.** The slots exceed that number if the stored packet lies too far from the others
  (`Laid.maxSlots_lt_length_insert_iff`), by half the circle of numbers at most.  So a run that does
  not do this keeps the limit (`Reachable.length_slots_run_le`).
* **Filled histories.** Both bounds are attained, by a history whose packets are all pending
  (`filled`). -/

namespace MediaSender

open SequenceNumber (wrap)

namespace Slots

variable {n : Int} {slots : Slots}

/-! ### Counting entries -/

theorem dropTrailing_sublist (slots : Slots) : List.Sublist slots.dropTrailing slots := by
  induction slots with
  | nil => exact List.Sublist.refl _
  | cons slot rest ih =>
      rw [dropTrailing]
      split
      next =>
        split
        next => exact List.nil_sublist _
        next => exact (List.nil_sublist rest).cons_cons slot
      next => exact ih.cons_cons slot

theorem trim_sublist (slots : Slots) : List.Sublist slots.trim slots :=
  (dropTrailing_sublist _).trans (List.dropWhile_sublist _)

theorem countP_removeAt_le (slots : Slots) (i : Int) :
    (slots.removeAt i).countP Option.isSome ≤ slots.countP Option.isSome := by
  refine (trim_sublist _).countP_le.trans ?_
  by_cases hi : i.toNat < slots.length
  · rw [List.countP_set hi]
    simp
  · rw [List.set_eq_of_length_le (Nat.le_of_not_lt hi)]

theorem countP_place_le (slots : Slots) (i : Int) (e : Entry) :
    (slots.place i e).countP Option.isSome ≤ slots.countP Option.isSome + 1 := by
  have hgap : ∀ m : Nat, (List.replicate m (none : Option Entry)).countP Option.isSome = 0 := by
    intro m
    simp [List.countP_replicate]
  unfold place
  split
  next =>
    rw [List.countP_cons_of_pos Option.isSome_some, List.countP_append, hgap, Nat.zero_add]
  next =>
    split
    next =>
      rw [List.countP_append, List.countP_append, hgap, Nat.zero_add]
      exact Nat.le_refl _
    next hl =>
      rw [List.countP_set (Nat.lt_of_not_le hl), if_pos Option.isSome_some]
      omega

theorem countP_insert_le (slots : Slots) (e : Entry) :
    (slots.insert e).countP Option.isSome ≤ slots.countP Option.isSome + 1 := by
  rw [insert_eq]
  refine (countP_place_le ..).trans (Nat.add_le_add_right ?_ 1)
  unfold vacated
  split
  next => exact countP_removeAt_le ..
  next => exact Nat.le_refl _

theorem countP_modify (slots : Slots) (i : Nat) (f : Entry → Entry) :
    (slots.modify i (Option.map f)).countP Option.isSome = slots.countP Option.isSome := by
  induction slots generalizing i with
  | nil => simp
  | cons slot rest ih => cases i <;> simp [List.countP_cons, ih]

theorem countP_update (slots : Slots) (s : SequenceNumber) (f : Entry → Entry) :
    (slots.update s f).countP Option.isSome = slots.countP Option.isSome := by
  unfold update
  split
  next => rfl
  next => exact countP_modify ..

theorem length_removeAt_le (slots : Slots) (i : Int) :
    (slots.removeAt i).length ≤ slots.length := by
  have h := (trim_sublist (slots.set i.toNat none)).length_le
  rwa [List.length_set] at h

/-! ### Slots after an insertion -/

/-- Replacing an entry adds no slots. -/
theorem Laid.length_insert_le_of_found (h : Laid n slots) (hl : slots.length ≤ 0x8000) {e : Entry}
    (hf : (slots.find? e.sequenceNumber).isSome = true) :
    (slots.insert e).length ≤ slots.length := by
  obtain ⟨d, hd⟩ := Option.isSome_iff_exists.mp hf
  rw [find?_eq_entryOf n] at hd
  have hb := bounds_of_entryOf hd
  obtain ⟨m, hnm, hlen, hm, -⟩ := h.removeAt hb.1
  have hp : n + slots.position e.sequenceNumber - n = slots.position e.sequenceNumber := by omega
  have hv : slots.vacated e.sequenceNumber =
      slots.removeAt (slots.position e.sequenceNumber) := if_pos hf
  rw [hp, ← hv] at hlen hm
  have hplace := (slots.vacated e.sequenceNumber).length_place
    ((slots.vacated e.sequenceNumber).position e.sequenceNumber) e
  rw [← insert_eq] at hplace
  by_cases hnil : slots.vacated e.sequenceNumber = []
  · rw [hnil, position_nil, List.length_nil] at hplace
    omega
  · -- The number keeps its place, which lies among the old slots.
    have hw := h.wrap_add_position (ne_nil_of_entryOf hd) e.sequenceNumber
    have hlength := List.length_pos_iff.mpr hnil
    have hpos := hm.position_eq hnil e.sequenceNumber
    rw [← hw, SequenceNumber.offset_wrap (by omega) (by omega), hw] at hpos
    omega

/-- Whether a packet with the number `s` lies so far from the slots that they exceed the limit if
it is stored. -/
def Overreaches (slots : Slots) (s : SequenceNumber) : Prop :=
  (Retention.maxSlots : Int) ≤ slots.position s ∨
    slots.position s < (slots.length : Int) - Retention.maxSlots

/-- After an insertion there are more slots than the limit exactly if the number overreaches. -/
theorem Laid.maxSlots_lt_length_insert_iff (h : Laid n slots)
    (hl : slots.length < Retention.maxSlots) (e : Entry) :
    Retention.maxSlots < (slots.insert e).length ↔ slots.Overreaches e.sequenceNumber := by
  have hmax : Retention.maxSlots = 9600 := rfl
  unfold Overreaches
  by_cases hf : (slots.find? e.sequenceNumber).isSome = true
  · have hlen := h.length_insert_le_of_found (by omega) hf
    obtain ⟨d, hd⟩ := Option.isSome_iff_exists.mp hf
    have hb := bounds_of_entryAt hd
    omega
  · have hv : slots.vacated e.sequenceNumber = slots := if_neg hf
    have hplace := slots.length_place (slots.position e.sequenceNumber) e
    have hinsert : slots.insert e = slots.place (slots.position e.sequenceNumber) e := by
      rw [insert_eq, hv]
    rw [hinsert]
    omega

end Slots

namespace PacketHistory

variable {h h' c : PacketHistory} {o : Operation} {r : Option RtpPacket}

/-! ### Culling passes -/

/-- Store a packet, sent at `now`, in a history that was culled for it. -/
def store (c : PacketHistory) (p : RtpPacket) (now : Timestamp) : PacketHistory :=
  { c with
    slots := c.slots.insert (Entry.fresh p now)
    large := if c.paddingMode = .recentLargePacket then c.large.observe p else c.large }

/-- The history that the culling pass of an operation leaves, if it has one. -/
def culled? (h : PacketHistory) : Operation → Option PacketHistory
  | .put p now => if h.isEnabled && p.allowRetransmission then some (h.cull now) else none
  | .setRtt rtt now =>
    if h.isEnabled && decide (¬rtt < 0) then
      some (({ h with rtt := some rtt } : PacketHistory).cull now)
    else none
  | _ => none

/-- What an operation makes of the history that its culling pass leaves. -/
def afterCulling (c : PacketHistory) : Operation → PacketHistory
  | .put p now => c.store p now
  | _ => c

theorem put_of_stores {p : RtpPacket} (hp : (h.isEnabled && p.allowRetransmission) = true)
    (now : Timestamp) : h.put p now = (h.cull now).store p now := if_pos hp

theorem culled?_cases (hc : h.culled? o = some c) :
    (∃ p now, o = .put p now ∧ (h.isEnabled && p.allowRetransmission) = true ∧ c = h.cull now) ∨
      ∃ rtt now, o = .setRtt rtt now ∧ h.isEnabled = true ∧ ¬rtt < 0 ∧
        c = ({ h with rtt := some rtt } : PacketHistory).cull now := by
  unfold culled? at hc
  split at hc
  next p now =>
    split at hc
    next hp => exact .inl ⟨p, now, rfl, hp, (Option.some.inj hc).symm⟩
    next => cases hc
  next rtt now =>
    split at hc
    next hr =>
      rw [Bool.and_eq_true, decide_eq_true_eq] at hr
      exact .inr ⟨rtt, now, rfl, hr.1, hr.2, (Option.some.inj hc).symm⟩
    next => cases hc
  next => cases hc

/-- An operation with a culling pass goes on from what that leaves. -/
theorem step_of_culled (hc : h.culled? o = some c) : h.step o = .ok (c.afterCulling o, none) := by
  obtain ⟨p, now, rfl, hp, rfl⟩ | ⟨rtt, now, rfl, he, hr, rfl⟩ := culled?_cases hc
  · rw [step, put_of_stores hp]
    rfl
  · rw [step, setRtt, if_neg hr]
    simp only [Except.map]
    rw [if_pos (by exact he)]
    rfl

theorem Consistent.culled (hh : h.Consistent) (hc : h.culled? o = some c) : c.Consistent := by
  obtain ⟨p, now, -, -, rfl⟩ | ⟨rtt, now, -, -, -, rfl⟩ := culled?_cases hc
  · exact hh.cull now
  · have hrtt : ({ h with rtt := some rtt } : PacketHistory).Consistent :=
      ⟨hh.laid, hh.short, hh.capacity, hh.inert⟩
    exact hrtt.cull now

/-- A culling pass leaves fewer slots than the limit. -/
theorem length_slots_culled_lt (hc : h.culled? o = some c) :
    c.slots.length < Retention.maxSlots := by
  obtain ⟨p, now, -, -, rfl⟩ | ⟨rtt, now, -, -, -, rfl⟩ := culled?_cases hc
  · exact Slots.length_cull_lt ..
  · exact Slots.length_cull_lt ..

theorem size_le_length_slots (h : PacketHistory) : h.size ≤ h.slots.length :=
  List.countP_le_length

/-- A culling pass leaves fewer entries than the limit, pending or not. -/
theorem size_culled_lt (hc : h.culled? o = some c) : c.size < Retention.maxSlots :=
  Nat.lt_of_le_of_lt c.size_le_length_slots (length_slots_culled_lt hc)

theorem size_store_le (c : PacketHistory) (p : RtpPacket) (now : Timestamp) :
    (c.store p now).size ≤ c.size + 1 := Slots.countP_insert_le ..

theorem length_slots_store_le (c : PacketHistory) (p : RtpPacket) (now : Timestamp) :
    (c.store p now).slots.length ≤ max c.slots.length 1 + 0x8000 := Slots.length_insert_le ..

/-- After its culling pass an operation adds one entry at most, and slots for half the circle of
numbers at most. -/
theorem afterCulling_le (c : PacketHistory) (o : Operation) :
    (c.afterCulling o).size ≤ c.size + 1 ∧
      (c.afterCulling o).slots.length ≤ max c.slots.length 1 + 0x8000 := by
  unfold afterCulling
  split
  next p now => exact ⟨c.size_store_le p now, c.length_slots_store_le p now⟩
  next => omega

/-! ### Operations without a culling pass -/

/-- `h'` has no more slots and no more entries than `h`. -/
structure NoLarger (h' h : PacketHistory) : Prop where
  slots : h'.slots.length ≤ h.slots.length := by exact Nat.le_refl _
  size : h'.size ≤ h.size := by exact Nat.le_refl _

theorem NoLarger.trans {h₁ h₂ h₃ : PacketHistory} (h₁₂ : NoLarger h₁ h₂) (h₂₃ : NoLarger h₂ h₃) :
    NoLarger h₁ h₃ := ⟨h₁₂.slots.trans h₂₃.slots, h₁₂.size.trans h₂₃.size⟩

theorem noLarger_update (h : PacketHistory) (s : SequenceNumber) (f : Entry → Entry) :
    NoLarger { h with slots := h.slots.update s f } h where
  slots := Nat.le_of_eq (Slots.length_update ..)
  size := Nat.le_of_eq (Slots.countP_update ..)

theorem noLarger_resend (h : PacketHistory) (s : SequenceNumber) (now : Timestamp)
    (f : Encapsulation) : NoLarger (h.resend s now f).1 h := by
  unfold resend
  split
  next => exact {}
  next =>
    split
    next => exact {}
    next =>
      split
      next => exact {}
      next => exact h.noLarger_update s _

theorem noLarger_markSent (h : PacketHistory) (s : SequenceNumber) (now : Timestamp) :
    NoLarger (h.markSent s now) h := by
  unfold markSent
  split
  next => exact h.noLarger_update s _
  next => exact {}

theorem noLarger_acknowledgeOne (h : PacketHistory) (s : SequenceNumber) :
    NoLarger (h.acknowledgeOne s) h := by
  unfold acknowledgeOne
  split
  next =>
    split
    next => exact {}
    next => exact ⟨Slots.length_removeAt_le .., Slots.countP_removeAt_le ..⟩
  next => exact {}

theorem noLarger_acknowledge (h : PacketHistory) (arrived : List SequenceNumber) :
    NoLarger (h.acknowledge arrived) h := by
  unfold acknowledge
  induction arrived generalizing h with
  | nil => exact {}
  | cons s rest ih => exact (ih _).trans (h.noLarger_acknowledgeOne s)

theorem noLarger_pad (h : PacketHistory) (now : Timestamp) (f : Encapsulation) :
    NoLarger (h.pad now f).1 h := by
  have hlast : NoLarger (h.padWithLast now f).1 h := by
    unfold padWithLast
    split
    next => exact {}
    next =>
      split
      next => exact {}
      next =>
        split
        next => exact {}
        next =>
          exact ⟨Nat.le_of_eq (Slots.length_updateLast ..), Nat.le_of_eq (Slots.countP_modify ..)⟩
  unfold pad
  split
  next =>
    split
    next => exact {}
    next => exact hlast
  next => exact {}

/-- Without a culling pass an operation adds neither slots nor entries. -/
theorem noLarger_step (hc : h.culled? o = none) (hs : h.step o = .ok (h', r)) :
    NoLarger h' h := by
  cases o with
  | configure mode n =>
      cases hs
      exact ⟨Nat.zero_le _, Nat.zero_le _⟩
  | clear =>
      cases hs
      exact ⟨Nat.zero_le _, Nat.zero_le _⟩
  | put p now =>
      cases hs
      have hp : (h.isEnabled && p.allowRetransmission) = false := by simpa [culled?] using hc
      rw [put, hp, if_neg Bool.false_ne_true]
      exact {}
  | setRtt rtt now =>
      have hset := (step_setRtt_eq_ok hs).1
      have hr : h.isEnabled = true → rtt < 0 := by simpa [culled?] using hc
      unfold setRtt at hset
      split at hset
      next => cases hset
      next hnonneg =>
        have he : ({ h with rtt := some rtt } : PacketHistory).isEnabled = false :=
          Bool.eq_false_iff.mpr fun he => hnonneg (hr he)
        rw [Except.ok.injEq, he, if_neg Bool.false_ne_true] at hset
        rw [← hset]
        exact {}
  | resend s now f =>
      rw [PacketHistory.step, Except.ok.injEq] at hs
      rw [show h' = (h.resend s now f).1 by rw [hs]]
      exact h.noLarger_resend s now f
  | markSent s now =>
      cases hs
      exact h.noLarger_markSent s now
  | acknowledge arrived =>
      cases hs
      exact h.noLarger_acknowledge arrived
  | pad now f =>
      rw [PacketHistory.step, Except.ok.injEq] at hs
      rw [show h' = (h.pad now f).1 by rw [hs]]
      exact h.noLarger_pad now f

/-! ### Bounds -/

/-- The two bounds hold of a new history and are kept by every operation. -/
theorem Reachable.size_le_and_length_slots_lt (hr : h.Reachable) :
    h.size ≤ Retention.maxSlots ∧ h.slots.length < Retention.maxSlots + 0x8000 := by
  have hpos : 0 < Retention.maxSlots + 0x8000 := by decide
  refine hr.induction (P := fun h => h.size ≤ Retention.maxSlots ∧
    h.slots.length < Retention.maxSlots + 0x8000) (fun _ => ⟨Nat.zero_le _, hpos⟩) ?_
  intro h o h' r hh hs
  cases hc : h.culled? o with
  | none =>
      have hle := noLarger_step hc hs
      exact ⟨hle.size.trans hh.1, hle.slots.trans_lt hh.2⟩
  | some c =>
      rw [step_of_culled hc, Except.ok.injEq, Prod.mk.injEq] at hs
      rw [← hs.1]
      have hmax : Retention.maxSlots = 9600 := rfl
      have hsize := size_culled_lt hc
      have hlength := length_slots_culled_lt hc
      have hle := c.afterCulling_le o
      omega

/-- In a culled history an operation leaves more slots than the limit exactly if it stores a packet
that overreaches. -/
theorem Consistent.maxSlots_lt_length_afterCulling_iff (hc : c.Consistent)
    (hl : c.slots.length < Retention.maxSlots) (o : Operation) :
    Retention.maxSlots < (c.afterCulling o).slots.length ↔
      ∃ p now, o = .put p now ∧ c.slots.Overreaches p.sequenceNumber := by
  obtain ⟨n, hn⟩ := hc.laid
  unfold afterCulling
  split
  next p now =>
    have hiff := hn.maxSlots_lt_length_insert_iff hl (Entry.fresh p now)
    refine hiff.trans ⟨fun ho => ⟨p, now, rfl, ho⟩, ?_⟩
    rintro ⟨p', now', e, ho⟩
    cases e
    exact ho
  next hput =>
    refine iff_of_false (by omega) ?_
    rintro ⟨p, now, rfl, -⟩
    exact hput p now rfl

/-- The operation stores a packet whose number overreaches from the slots that its culling pass
leaves. -/
def Stretches (h : PacketHistory) (o : Operation) : Prop :=
  ∃ c p now, h.culled? o = some c ∧ o = .put p now ∧ c.slots.Overreaches p.sequenceNumber

/-- A history within the limit stays so exactly if the operation does not stretch it. -/
theorem Reachable.length_slots_step_le_iff (hr : h.Reachable)
    (hl : h.slots.length ≤ Retention.maxSlots) (hs : h.step o = .ok (h', r)) :
    h'.slots.length ≤ Retention.maxSlots ↔ ¬h.Stretches o := by
  cases hc : h.culled? o with
  | none =>
      refine iff_of_true ((noLarger_step hc hs).slots.trans hl) ?_
      rintro ⟨c, p, now, hculled, -⟩
      rw [hc] at hculled
      cases hculled
  | some c =>
      have hiff := (hr.consistent.culled hc).maxSlots_lt_length_afterCulling_iff
        (length_slots_culled_lt hc) o
      rw [step_of_culled hc, Except.ok.injEq, Prod.mk.injEq] at hs
      rw [← hs.1, ← not_lt, hiff]
      refine not_congr ⟨fun ⟨p, now, ho, hover⟩ => ⟨c, p, now, hc, ho, hover⟩, ?_⟩
      rintro ⟨c', p, now, hculled, ho, hover⟩
      rw [hc, Option.some.injEq] at hculled
      rw [← hculled] at hover
      exact ⟨p, now, ho, hover⟩

/-- A run that no operation stretches stays within the limit. -/
theorem Reachable.length_slots_run_le {ops : List Operation} {handed : List (Option RtpPacket)}
    (hr : h.Reachable) (hl : h.slots.length ≤ Retention.maxSlots)
    (hnever : ∀ before o later h₁ handed₁, ops = before ++ o :: later →
      h.run before = .ok (h₁, handed₁) → ¬h₁.Stretches o)
    (hrun : h.run ops = .ok (h', handed)) : h'.slots.length ≤ Retention.maxSlots := by
  induction ops generalizing h handed with
  | nil =>
      rw [run, Except.ok.injEq, Prod.mk.injEq] at hrun
      rw [← hrun.1]
      exact hl
  | cons o rest ih =>
      obtain ⟨h₁, r, later, hs, hrest, -⟩ := run_cons_eq_ok hrun
      have hl₁ := (hr.length_slots_step_le_iff hl hs).mpr (hnever [] o rest h [] rfl rfl)
      refine ih (hr.step hs) hl₁ ?_ hrest
      intro before o' later' h₂ handed₂ hsplit hbefore
      exact hnever (o :: before) o' later' h₂ _ (by rw [hsplit]; rfl) (run_cons hs hbefore)

/-! ### Filled histories -/

/-- The entry of packet `s`, sent at the epoch and handed out for retransmission. -/
def pendingEntry (s : SequenceNumber) : Entry :=
  { Entry.fresh (packetNumbered s) 0 with pending := true }

/-- The slots of `k` such packets with consecutive numbers from `s` on. -/
def pendingSlots (s : SequenceNumber) (k : Nat) : Slots :=
  (List.range k).map fun i => some (pendingEntry (s + UInt16.ofNat i))

/-- A history that has stored these packets and handed out each of them. -/
def filled (s : SequenceNumber) : Nat → PacketHistory
  | 0 => (empty .lastPacket).configure .storeAndCull 10
  | k + 1 =>
    (((filled s k).put (packetNumbered (s + UInt16.ofNat k)) 0).resend
      (s + UInt16.ofNat k) 0 some).1

theorem reachable_filled (s : SequenceNumber) (k : Nat) : (filled s k).Reachable := by
  induction k with
  | zero => exact ⟨.lastPacket, [.configure .storeAndCull 10], [none], rfl⟩
  | succ k ih =>
      have hput : ((filled s k).put (packetNumbered (s + UInt16.ofNat k)) 0).Reachable :=
        ih.step (o := .put _ 0) rfl
      exact hput.step (o := .resend _ 0 some) rfl

section filled

variable (s : SequenceNumber) {k : Nat}

theorem length_pendingSlots : (pendingSlots s k).length = k := by simp [pendingSlots]

theorem size_pendingSlots : (pendingSlots s k).countP Option.isSome = k := by
  rw [List.countP_eq_length.mpr, length_pendingSlots]
  intro slot hslot
  obtain ⟨i, -, rfl⟩ := List.mem_map.mp hslot
  rfl

theorem pending_of_mem_pendingSlots {s : SequenceNumber} {e : Entry}
    (he : some e ∈ pendingSlots s k) : e.pending = true := by
  obtain ⟨i, -, hi⟩ := List.mem_map.mp he
  rw [← Option.some.inj hi]
  rfl

theorem pendingSlots_succ :
    pendingSlots s (k + 1) = pendingSlots s k ++ [some (pendingEntry (s + UInt16.ofNat k))] := by
  rw [pendingSlots, List.range_succ, List.map_append]
  rfl

theorem pendingSlots_eq_cons (hk : 0 < k) :
    ∃ rest, pendingSlots s k = some (pendingEntry s) :: rest := by
  obtain ⟨j, rfl⟩ := Nat.exists_eq_add_of_lt hk
  refine ⟨((List.range (0 + j)).map (· + 1)).map fun i =>
    some (pendingEntry (s + UInt16.ofNat i)), ?_⟩
  rw [pendingSlots, List.range_succ_eq_map, List.map_cons]
  simp

/-- The next number comes right after the slots. -/
theorem position_pendingSlots (hk : k < 0x8000) :
    (pendingSlots s k).position (s + UInt16.ofNat k) = k := by
  by_cases h0 : k = 0
  · rw [h0]
    rfl
  · obtain ⟨rest, hrest⟩ := pendingSlots_eq_cons s (Nat.pos_of_ne_zero h0)
    rw [hrest]
    exact SequenceNumber.offset_add_ofNat s hk

/-- Pending packets are culled for the limit alone. -/
theorem cull_pendingSlots (hk : k < Retention.maxSlots) (numberToStore : Nat) (δ : TimeDelta)
    (now : Timestamp) : (pendingSlots s k).cull numberToStore δ now = pendingSlots s k := by
  by_cases h0 : k = 0
  · rw [h0]
    rfl
  · obtain ⟨rest, hrest⟩ := pendingSlots_eq_cons s (Nat.pos_of_ne_zero h0)
    have hlength : rest.length + 1 = k := by
      rw [← length_pendingSlots s (k := k), hrest, List.length_cons]
    rw [hrest, Slots.cull, if_neg]
    simp [Retention.givesUp, pendingEntry, hlength, hk]

theorem insert_pendingSlots (hk : k < 0x8000) {e : Entry}
    (he : e.sequenceNumber = s + UInt16.ofNat k) :
    (pendingSlots s k).insert e = pendingSlots s k ++ [some e] := by
  have hp := position_pendingSlots s hk
  have hl := length_pendingSlots s (k := k)
  have hv : (pendingSlots s k).vacated e.sequenceNumber = pendingSlots s k := by
    rw [Slots.vacated, if_neg]
    rw [Slots.find?, he, hp, Slots.entryAt_of_length_le (by omega)]
    exact Bool.false_ne_true
  rw [Slots.insert_eq, hv, he, hp, Slots.place, if_neg (by omega), if_pos (by omega), hl]
  simp

/-- The packet after the slots is found once it is stored, and can be marked. -/
theorem update_pendingSlots_concat (hk : k < 0x8000) {e : Entry}
    (he : e.sequenceNumber = s + UInt16.ofNat k) (f : Entry → Entry) :
    (pendingSlots s k ++ [some e]).find? (s + UInt16.ofNat k) = some e ∧
      (pendingSlots s k ++ [some e]).update (s + UInt16.ofNat k) f =
        pendingSlots s k ++ [some (f e)] := by
  have hl := length_pendingSlots s (k := k)
  have hp : (pendingSlots s k ++ [some e]).position (s + UInt16.ofNat k) = k := by
    by_cases h0 : k = 0
    · subst h0
      show (s + UInt16.ofNat 0).offset e.sequenceNumber = 0
      rw [he]
      exact (SequenceNumber.offset_eq_zero_iff _ _).mpr rfl
    · obtain ⟨rest, hrest⟩ := pendingSlots_eq_cons s (Nat.pos_of_ne_zero h0)
      rw [hrest]
      exact SequenceNumber.offset_add_ofNat s hk
  constructor
  · rw [Slots.find?, hp, Slots.entryAt_append, if_neg (by omega), Slots.entryAt_cons,
      if_pos (by omega)]
  · rw [Slots.update, hp, if_neg (by omega), Int.toNat_natCast, List.modify_eq_take_drop]
    simp [hl]

/-- A history is filled as far as the limit allows. -/
theorem filled_eq (hk : k ≤ Retention.maxSlots) :
    filled s k = { mode := .storeAndCull, numberToStore := 10, slots := pendingSlots s k } := by
  induction k with
  | zero => rfl
  | succ k ih =>
      have hmax : Retention.maxSlots = 9600 := rfl
      have hk' : k < 0x8000 := by omega
      let e := Entry.fresh (packetNumbered (s + UInt16.ofNat k)) 0
      have hput : (filled s k).put (packetNumbered (s + UInt16.ofNat k)) 0 =
          { mode := .storeAndCull, numberToStore := 10,
            slots := pendingSlots s k ++ [some e] } := by
        rw [ih (by omega), put_of_stores (by rfl), cull, cull_pendingSlots s (by omega), store,
          insert_pendingSlots s hk' (e := e) rfl]
        rfl
      obtain ⟨hfind, hupdate⟩ :=
        update_pendingSlots_concat s hk' (e := e) rfl ({ · with pending := true })
      have hpending : ({ e with pending := true } : Entry) =
          pendingEntry (s + UInt16.ofNat k) := rfl
      rw [hpending, ← pendingSlots_succ] at hupdate
      rw [filled, hput, ← hupdate]
      unfold resend find?
      rw [if_pos (by rfl)]
      simp only [hfind]
      rfl

theorem isEnabled_filled (hk : k ≤ Retention.maxSlots) : (filled s k).isEnabled = true := by
  rw [filled_eq s hk]
  rfl

/-- Up to the limit there is a history of so many packets, all of them pending. -/
theorem exists_all_pending (hk : k ≤ Retention.maxSlots) :
    ∃ h : PacketHistory, h.Reachable ∧ h.numberToStore = 10 ∧
      (∀ e ∈ h.slots.entries, e.pending = true) ∧ h.size = k ∧ h.isEnabled = true := by
  have heq := filled_eq 0 hk
  refine ⟨filled 0 k, reachable_filled 0 k, ?_, ?_, ?_, isEnabled_filled 0 hk⟩
  · rw [heq]
  · rw [heq]
    exact fun e he => pending_of_mem_pendingSlots (mem_entries.mp he)
  · rw [heq]
    exact size_pendingSlots 0

theorem slots_put_filled (hk : k < Retention.maxSlots) {p : RtpPacket}
    (hp : p.allowRetransmission = true) :
    ((filled s k).put p 0).slots = (pendingSlots s k).insert (.fresh p 0) := by
  have hstores : ((filled s k).isEnabled && p.allowRetransmission) = true := by
    rw [isEnabled_filled s (Nat.le_of_lt hk), hp, Bool.and_true]
  rw [put_of_stores hstores, filled_eq s (Nat.le_of_lt hk), cull, cull_pendingSlots s hk]
  rfl

end filled

/-- A history with the most slots there can be: one less than the limit are occupied, and a packet
is stored half the circle of numbers before them. -/
def overreached : PacketHistory := (filled 0x8000 9599).put (packetNumbered 0) 0

theorem reachable_overreached : overreached.Reachable :=
  (reachable_filled 0x8000 9599).step (o := .put (packetNumbered 0) 0) rfl

theorem length_slots_overreached : overreached.slots.length = Retention.maxSlots + 0x7fff := by
  have hp : (pendingSlots 0x8000 9599).position 0 = -0x8000 := by
    obtain ⟨rest, hrest⟩ := pendingSlots_eq_cons 0x8000 (by decide : 0 < 9599)
    rw [hrest]
    exact (by decide : (0 : SequenceNumber).offset 0x8000 = -0x8000)
  have hv : (pendingSlots 0x8000 9599).vacated 0 = pendingSlots 0x8000 9599 := by
    rw [Slots.vacated, if_neg]
    rw [Slots.find?, hp, Slots.entryAt_neg (by decide)]
    exact Bool.false_ne_true
  have hl := length_pendingSlots 0x8000 (k := 9599)
  have hplace := (pendingSlots 0x8000 9599).length_place (-0x8000) (.fresh (packetNumbered 0) 0)
  rw [overreached, slots_put_filled 0x8000 (by decide) rfl, Slots.insert_eq,
    show (Entry.fresh (packetNumbered 0) 0).sequenceNumber = 0 from rfl, hv, hp]
  have hmax : Retention.maxSlots = 9600 := rfl
  omega

/-! ### The most there can be -/

/-- **A history never holds more packets than its limit.**  In every reachable history, whatever
size was configured and whatever the order of the numbers and the times, there are at most
`Retention.maxSlots` packets.  A culling pass of an operation, from whose result the operation goes
on, leaves fewer than that, even if every packet is pending. -/
theorem size_le_maxSlots (hr : h.Reachable) :
    h.size ≤ Retention.maxSlots ∧
      ∀ o c, h.culled? o = some c →
        c.size < Retention.maxSlots ∧ h.step o = .ok (c.afterCulling o, none) :=
  ⟨hr.size_le_and_length_slots_lt.1, fun _ _ hc => ⟨size_culled_lt hc, step_of_culled hc⟩⟩

/-- A history that is to keep ten packets holds as many as the limit allows, all of them pending,
and culls before it stores the next. -/
theorem size_le_maxSlots_of_filled :
    ∃ h c : PacketHistory, h.Reachable ∧ h.numberToStore = 10 ∧
      (∀ e ∈ h.slots.entries, e.pending = true) ∧
      h.size = Retention.maxSlots ∧ h.size ≤ Retention.maxSlots ∧
      h.culled? (.put (packetNumbered 9600) 0) = some c ∧ c.size < Retention.maxSlots := by
  obtain ⟨h, hr, hnumber, hpending, hsize, hstores⟩ := exists_all_pending (Nat.le_refl _)
  have hc : h.culled? (.put (packetNumbered 9600) 0) = some (h.cull 0) := by
    rw [culled?, hstores]
    rfl
  obtain ⟨hle, hculled⟩ := size_le_maxSlots hr
  exact ⟨h, h.cull 0, hr, hnumber, hpending, hsize, hle, hc, (hculled _ _ hc).1⟩

/-- The largest number of slots in a reachable history is half the circle of numbers less one more
than the limit. -/
theorem isGreatest_length_slots :
    IsGreatest {k | ∃ h : PacketHistory, h.Reachable ∧ h.slots.length = k}
      (Retention.maxSlots + 0x7fff) := by
  constructor
  · exact ⟨overreached, reachable_overreached, length_slots_overreached⟩
  · rintro k ⟨h, hr, rfl⟩
    exact Nat.le_of_lt_succ hr.size_le_and_length_slots_lt.2

/-- **The slots exceed the limit exactly if a packet overreaches.**  The slots are within the limit
throughout a run on a new history exactly if no operation of the run stores a packet so far from the
slots that its culling pass leaves that together they span more than the limit.  In any case they
exceed it by less than half the circle of numbers. -/
theorem length_slots_le_maxSlots_iff (m : PaddingMode) (ops : List Operation) :
    ((∀ before later h handed, ops = before ++ later → (empty m).run before = .ok (h, handed) →
          h.slots.length ≤ Retention.maxSlots) ↔
        ∀ before o later h handed, ops = before ++ o :: later →
          (empty m).run before = .ok (h, handed) → ¬h.Stretches o) ∧
      ∀ h handed, (empty m).run ops = .ok (h, handed) →
        h.slots.length ≤ Retention.maxSlots + 0x7fff := by
  refine ⟨⟨?_, ?_⟩, ?_⟩
  · intro hall before o later h handed hsplit hrun hstretches
    have hl := hall before (o :: later) h handed hsplit hrun
    obtain ⟨c, p, now, hc, -⟩ := id hstretches
    have hs := step_of_culled hc
    have hl' := hall (before ++ [o]) later _ _ (by rw [hsplit, List.append_assoc]; rfl)
      (run_concat hrun hs)
    exact (Reachable.length_slots_step_le_iff ⟨m, before, handed, hrun⟩ hl hs).mp hl' hstretches
  · intro hnever before later h handed hsplit hrun
    refine Reachable.length_slots_run_le ⟨m, [], [], rfl⟩ (Nat.zero_le _) ?_ hrun
    intro before' o later' h₁ handed₁ hsplit' hrun'
    refine hnever before' o (later' ++ later) h₁ handed₁ ?_ hrun'
    rw [hsplit, hsplit', List.append_assoc]
    rfl
  · intro h handed hrun
    exact Nat.le_of_lt_succ (Reachable.size_le_and_length_slots_lt ⟨m, ops, handed, hrun⟩).2

/-- Two packets that are far apart need more slots than the limit. -/
theorem not_length_slots_le_maxSlots :
    ¬∀ h : PacketHistory, h.Reachable → h.slots.length ≤ Retention.maxSlots := by
  intro hall
  have hslots : (storing [0, 9600]).slots = some (.fresh (packetNumbered 0) 0) ::
      (List.replicate 9599 none ++ [some (.fresh (packetNumbered 9600) 0)]) := rfl
  have hle := hall _ (reachable_storing [0, 9600])
  rw [hslots, List.length_cons, List.length_append, List.length_replicate] at hle
  revert hle
  decide

end PacketHistory

end MediaSender
