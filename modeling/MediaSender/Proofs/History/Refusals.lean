import MediaSender.Proofs.History.Lookup

/-! # Refusals leave no trace

A request for a stored packet and a request for padding look at one entry, ask the encapsulation for
a packet made of it, and only then note what has happened.

* **Writes.** A change of the entry of a number, or of the last entry, writes one slot
  (`Slots.update_eq_set`, `Slots.updateLast_eq_set`); `Rewrites` says that nothing else of the
  history is different.
* **Reasons.** `RefusesResend` and `RefusesPadding` list why a request has no answer.
* **Requests.** A request is refused for one of these reasons and the history is the same, or it is
  answered and one entry is rewritten (`resend_cases`, `padWithLast_cases`).  A history that pads
  with large packets never changes when it is asked for padding (`Reachable.pad_of_large`). -/

namespace MediaSender

namespace Slots

variable {slots : Slots} {e : Entry}

theorem modify_eq_set {i : Nat} (h : slots[i]? = some (some e)) (f : Entry → Entry) :
    slots.modify i (Option.map f) = slots.set i (some (f e)) := by
  rw [List.modify_eq_set_getElem?, h]
  rfl

/-- A change of the entry of `s` writes the slot where `s` is looked up. -/
theorem update_eq_set {s : SequenceNumber} (h : slots.find? s = some e) (f : Entry → Entry) :
    ∃ i : Nat, slots[i]? = some (some e) ∧ slots.update s f = slots.set i (some (f e)) := by
  have hpos : 0 ≤ slots.position s := (bounds_of_entryAt h).1
  have hslot : slots[(slots.position s).toNat]? = some (some e) := by
    rw [find?, entryAt_of_nonneg hpos] at h
    exact Option.join_eq_some_iff.mp h
  refine ⟨_, hslot, ?_⟩
  rw [update, if_neg (by omega), modify_eq_set hslot]

theorem updateLast_eq_set (h : slots.getLast?.join = some e) (f : Entry → Entry) :
    slots[slots.length - 1]? = some (some e) ∧
      slots.updateLast f = slots.set (slots.length - 1) (some (f e)) := by
  have hslot : slots[slots.length - 1]? = some (some e) := by
    rw [← List.getLast?_eq_getElem?]
    exact Option.join_eq_some_iff.mp h
  exact ⟨hslot, modify_eq_set hslot f⟩

end Slots

namespace PacketHistory

/-- `h'` is `h`, but that slot `i` holds `e'` in place of `e`. -/
structure Rewrites (h : PacketHistory) (i : Nat) (e e' : Entry) (h' : PacketHistory) : Prop where
  slot : h.slots[i]? = some (some e)
  result : h' = { h with slots := h.slots.set i (some e') }

/-- Why a request for the packet `s` has no answer. -/
inductive RefusesResend (h : PacketHistory) (s : SequenceNumber) (now : Timestamp)
    (f : Encapsulation) : Prop where
  | disabled (he : h.isEnabled = false)
  | unknown (hs : h.slots.find? s = none)
  | pending (e : Entry) (hs : h.slots.find? s = some e) (hp : e.pending = true)
  | early (e : Entry) (hs : h.slots.find? s = some e) (hrest : e.rested h.rtt now = false)
  | declined (e : Entry) (hs : h.slots.find? s = some e) (hf : f e.packet = none)

/-- Why a request for padding has no answer. -/
inductive RefusesPadding (h : PacketHistory) (f : Encapsulation) : Prop where
  | disabled (he : h.isEnabled = false)
  | empty (hm : h.paddingMode = .lastPacket) (hs : h.slots = [])
  | pending (hm : h.paddingMode = .lastPacket) (e : Entry) (hs : h.slots.getLast? = some (some e))
      (hp : e.pending = true)
  | declined (hm : h.paddingMode = .lastPacket) (e : Entry)
      (hs : h.slots.getLast? = some (some e)) (hf : f e.packet = none)
  | noLarge (hm : h.paddingMode = .recentLargePacket) (hl : h.large.packet = none)
  | declinedLarge (hm : h.paddingMode = .recentLargePacket) (p : RtpPacket)
      (hl : h.large.packet = some p) (hf : f p = none)

variable {h : PacketHistory}

/-! ### Requests for a packet -/

section resend

variable (h) (s : SequenceNumber) (now : Timestamp) (f : Encapsulation)

theorem resend_cases :
    h.resend s now f = (h, none) ∧ h.RefusesResend s now f ∨
      ∃ i e q, h.find? s = some e ∧ e.pending = false ∧ e.rested h.rtt now = true ∧
        f e.packet = some q ∧ (h.resend s now f).2 = some q ∧
        h.Rewrites i e { e with pending := true } (h.resend s now f).1 := by
  unfold resend
  split
  next hs =>
    refine .inl ⟨rfl, ?_⟩
    cases he : h.isEnabled with
    | false => exact .disabled he
    | true => exact .unknown (by rwa [find?, if_pos he] at hs)
  next e hs =>
    have hfind := (find?_eq_some_iff.mp hs).2
    cases hp : e.pending with
    | true => exact .inl ⟨rfl, .pending e hfind hp⟩
    | false =>
        cases hrest : e.rested h.rtt now with
        | false => exact .inl ⟨rfl, .early e hfind hrest⟩
        | true =>
            cases hf : f e.packet with
            | none => exact .inl ⟨rfl, .declined e hfind hf⟩
            | some q =>
                obtain ⟨i, hslot, hset⟩ := Slots.update_eq_set hfind ({ · with pending := true })
                refine .inr ⟨i, e, q, hs, hp, hrest, hf, rfl, hslot, ?_⟩
                rw [← hset]
                rfl

/-- A request has no answer exactly for one of the reasons. -/
theorem resend_eq_none_iff : (h.resend s now f).2 = none ↔ h.RefusesResend s now f := by
  obtain ⟨heq, hrefuses⟩ | ⟨i, e, q, hs, hp, hrest, hf, hq, -⟩ := h.resend_cases s now f
  · rw [heq]
    exact iff_of_true rfl hrefuses
  · obtain ⟨he, hfind⟩ := find?_eq_some_iff.mp hs
    rw [hq]
    refine iff_of_false (by simp) fun hrefuses => ?_
    -- every reason says of the entry of `s` what it is not
    cases hrefuses <;> simp_all

theorem resend_of_none (hq : (h.resend s now f).2 = none) : (h.resend s now f).1 = h := by
  obtain ⟨heq, -⟩ | ⟨i, e, q, -, -, -, -, hq', -⟩ := h.resend_cases s now f
  · rw [heq]
  · rw [hq] at hq'
    cases hq'

end resend

/-! ### Requests for padding -/

section padding

variable (h) (now : Timestamp) (f : Encapsulation)

theorem padWithLast_cases :
    h.padWithLast now f = (h, none) ∧
        (h.slots.getLast?.join = none ∨
          ∃ e, h.slots.getLast? = some (some e) ∧ (e.pending = true ∨ f e.packet = none)) ∨
      ∃ e q, e.pending = false ∧ f e.packet = some q ∧ (h.padWithLast now f).2 = some q ∧
        h.Rewrites (h.slots.length - 1) e (e.resent now) (h.padWithLast now f).1 := by
  unfold padWithLast
  split
  next hs => exact .inl ⟨rfl, .inl hs⟩
  next e hs =>
    have hlast := Option.join_eq_some_iff.mp hs
    cases hp : e.pending with
    | true => exact .inl ⟨rfl, .inr ⟨e, hlast, .inl hp⟩⟩
    | false =>
        cases hf : f e.packet with
        | none => exact .inl ⟨rfl, .inr ⟨e, hlast, .inr hf⟩⟩
        | some q =>
            obtain ⟨hslot, hset⟩ := Slots.updateLast_eq_set hs (·.resent now)
            refine .inr ⟨e, q, hp, hf, rfl, hslot, ?_⟩
            rw [← hset]
            rfl

end padding

section reachable

variable (hr : h.Reachable)
include hr

theorem Reachable.pad_of_large (hm : h.paddingMode = .recentLargePacket) (now : Timestamp)
    (f : Encapsulation) : h.pad now f = (h, h.large.packet.bind f) :=
  hr.supplied.pad_of_large hr.consistent hm now f

/-- A reachable history that pads with the last packet has one, unless nothing is stored. -/
theorem Reachable.eq_nil_of_getLast? (hl : h.slots.getLast?.join = none) : h.slots = [] := by
  obtain hnil | ⟨a, b, -, hb⟩ := hr.consistent.ends
  · exact hnil
  · rw [hb] at hl
    cases hl

theorem Reachable.pad_cases (now : Timestamp) (f : Encapsulation) :
    h.pad now f = (h, none) ∧ h.RefusesPadding f ∨
      (∃ p q, h.paddingMode = .recentLargePacket ∧ h.large.packet = some p ∧ f p = some q ∧
        h.pad now f = (h, some q)) ∨
      ∃ e q, h.paddingMode = .lastPacket ∧ e.pending = false ∧ f e.packet = some q ∧
        (h.pad now f).2 = some q ∧
        h.Rewrites (h.slots.length - 1) e (e.resent now) (h.pad now f).1 := by
  cases hm : h.paddingMode with
  | recentLargePacket =>
      rw [hr.pad_of_large hm]
      cases hl : h.large.packet with
      | none => exact .inl ⟨rfl, .noLarge hm hl⟩
      | some p =>
          cases hf : f p with
          | none => exact .inl ⟨by rw [Option.bind_some, hf], .declinedLarge hm p hl hf⟩
          | some q => exact .inr (.inl ⟨p, q, rfl, rfl, hf, by rw [Option.bind_some, hf]⟩)
  | lastPacket =>
      cases he : h.isEnabled with
      | false =>
          refine .inl ⟨?_, .disabled he⟩
          rw [pad, if_neg (by simp [he])]
      | true =>
          have hpad : h.pad now f = h.padWithLast now f := by rw [pad, if_pos he, hm]
          rw [hpad]
          obtain ⟨heq, hempty | ⟨e, hlast, hp | hf⟩⟩ | ⟨e, q, hp, hf, hq, hw⟩ :=
            h.padWithLast_cases now f
          · exact .inl ⟨heq, .empty hm (hr.eq_nil_of_getLast? hempty)⟩
          · exact .inl ⟨heq, .pending hm e hlast hp⟩
          · exact .inl ⟨heq, .declined hm e hlast hf⟩
          · exact .inr (.inr ⟨e, q, rfl, hp, hf, hq, hw⟩)

/-- A request for padding has no answer exactly for one of the reasons. -/
theorem Reachable.pad_eq_none_iff (now : Timestamp) (f : Encapsulation) :
    (h.pad now f).2 = none ↔ h.RefusesPadding f := by
  obtain ⟨heq, hrefuses⟩ | ⟨p, q, hm, hl, hf, heq⟩ | ⟨e, q, hm, hp, hf, hq, hw⟩ :=
    hr.pad_cases now f
  · rw [heq]
    exact iff_of_true rfl hrefuses
  · rw [heq]
    refine iff_of_false (by simp) fun hrefuses => ?_
    have he : h.isEnabled = true := by
      rw [isEnabled_iff]
      intro hd
      rw [(hr.consistent.inert hd).2] at hl
      cases hl
    cases hrefuses <;> simp_all
  · rw [hq]
    refine iff_of_false (by simp) fun hrefuses => ?_
    have hslot := hw.slot
    have he := hr.consistent.isEnabled_of_mem (List.mem_of_getElem? hslot)
    rw [← List.getLast?_eq_getElem?] at hslot
    cases hrefuses <;> simp_all

end reachable

/-- **Refusals leave no trace.**  A request for a packet or for padding that has no answer leaves
the history as it was; the reasons for that are those listed.  An answered request for `s` sets the
pending flag of the entry stored under `s`, and an answered request for padding notes one more
transmission of the last entry, which is not pending, or changes nothing, as always if the history
pads with large packets. -/
theorem Reachable.refusals_leave_no_trace (hr : h.Reachable) (s : SequenceNumber)
    (now : Timestamp) (f : Encapsulation) :
    ((h.resend s now f).2 = none ↔ h.RefusesResend s now f) ∧
      ((h.resend s now f).2 = none → (h.resend s now f).1 = h) ∧
      (∀ q, (h.resend s now f).2 = some q →
        ∃ i e, h.find? s = some e ∧ e.sequenceNumber = s ∧ e.pending = false ∧
          f e.packet = some q ∧
          h.Rewrites i e { e with pending := true } (h.resend s now f).1) ∧
      ((h.pad now f).2 = none ↔ h.RefusesPadding f) ∧
      ((h.pad now f).2 = none → (h.pad now f).1 = h) ∧
      ∀ q, (h.pad now f).2 = some q →
        (h.paddingMode = .recentLargePacket ∧ (h.pad now f).1 = h) ∨
          h.paddingMode = .lastPacket ∧
            ∃ e, e.pending = false ∧ f e.packet = some q ∧
              h.Rewrites (h.slots.length - 1) e
                { e with
                  lastTransmission := now
                  timesRetransmitted := e.timesRetransmitted + 1 }
                (h.pad now f).1 := by
  refine ⟨h.resend_eq_none_iff s now f, h.resend_of_none s now f, ?_, hr.pad_eq_none_iff now f,
    ?_, ?_⟩
  · intro q hq
    obtain ⟨heq, -⟩ | ⟨i, e, q', hs, hp, -, hf, hq', hw⟩ := h.resend_cases s now f
    · rw [heq] at hq
      cases hq
    · obtain ⟨n, hn⟩ := hr.consistent.laid
      have hnumber := hn.sequenceNumber_of_find? (find?_eq_some_iff.mp hs).2
      rw [hq', Option.some.injEq] at hq
      exact ⟨i, e, hs, hnumber, hp, by rw [hf, hq], hw⟩
  · intro hq
    obtain ⟨heq, -⟩ | ⟨p, q, -, -, -, heq⟩ | ⟨e, q, -, -, -, hq', -⟩ := hr.pad_cases now f
    · rw [heq]
    · rw [heq]
    · rw [hq] at hq'
      cases hq'
  · intro q hq
    obtain ⟨heq, -⟩ | ⟨p, q', hm, -, -, heq⟩ | ⟨e, q', hm, hp, hf, hq', hw⟩ := hr.pad_cases now f
    · rw [heq] at hq
      cases hq
    · exact .inl ⟨hm, by rw [heq]⟩
    · rw [hq', Option.some.injEq] at hq
      exact .inr ⟨hm, e, hp, by rw [hf, hq], hw⟩

/-- Half a round trip after packet 5 was resent it is refused, while packet 7, two numbers later, is
handed out or goes out as padding. -/
theorem refusals_leave_no_trace_of_early :
    ∃ h : PacketHistory, h.Reachable ∧
      h.slots.map (Option.map Entry.sequenceNumber) = [some 5, none, some 7] ∧
      h.RefusesResend 5 (.ofMillis 70) some ∧ (h.resend 5 (.ofMillis 70) some).1 = h ∧
      (∃ i e, h.find? 7 = some e ∧ e.pending = false ∧
        h.Rewrites i e { e with pending := true } (h.resend 7 (.ofMillis 70) some).1) ∧
      ∃ e, e.pending = false ∧ e.packet = packetNumbered 7 ∧
        h.Rewrites 2 e { e with lastTransmission := .ofMillis 70, timesRetransmitted := 1 }
          (h.pad (.ofMillis 70) some).1 := by
  let h : PacketHistory :=
    { mode := .storeAndCull
      numberToStore := 10
      rtt := some (.ofMillis 100)
      slots := [some ((Entry.fresh (packetNumbered 5) 0).resent (.ofMillis 20)), none,
        some (.fresh (packetNumbered 7) 0)] }
  have hr : h.Reachable :=
    ⟨.lastPacket,
      [.configure .storeAndCull 10, .setRtt (.ofMillis 100) 0, .put (packetNumbered 5) 0,
        .put (packetNumbered 7) 0, .resend 5 (.ofMillis 10) some, .markSent 5 (.ofMillis 20)],
      [none, none, none, none, some (packetNumbered 5), none], rfl⟩
  obtain ⟨hreason, hsame, -⟩ := hr.refusals_leave_no_trace 5 (.ofMillis 70) some
  obtain ⟨-, -, hresend, -, -, hpad⟩ := hr.refusals_leave_no_trace 7 (.ofMillis 70) some
  obtain ⟨i, e, hfind, -, hpending, -, hflag⟩ := hresend (packetNumbered 7) (by decide)
  obtain ⟨hm, -⟩ | ⟨-, d, hd, hpacket, hnoted⟩ := hpad (packetNumbered 7) (by decide)
  · cases hm
  · have hentry : d = .fresh (packetNumbered 7) 0 := by
      have hslot : h.slots[2]? = some (some d) := hnoted.slot
      cases hslot
      rfl
    subst hentry
    exact ⟨h, hr, rfl, hreason.mp (by decide), hsame (by decide), ⟨i, e, hfind, hpending, hflag⟩,
      _, hd, Option.some.inj hpacket, hnoted⟩

end PacketHistory

end MediaSender
