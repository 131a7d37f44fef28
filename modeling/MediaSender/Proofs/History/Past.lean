import MediaSender.Proofs.History.Entries

/-! # What a run has done to a packet

The past of a run is the list of its moments, the latest first.  A moment is an operation with the
history that it met and the packet that it handed out.

* **Moments.** For each sequence number a moment may store a packet under it, hand it out for
  retransmission, or transmit it again: as a retransmission that is reported sent while the packet
  is stored, or as padding.
* **Runs.** What every step keeps, with its moment added to the past, a run keeps
  (`past_induction`).
* **Life.** What counts for a stored packet is what happened since it was stored (`Past.life`).
* **Accounts.** An entry `Follows` the past if its packet, its pending flag and its last
  transmission are those that the past tells for its number.  A moment that does nothing under
  that number keeps this (`Follows.spared`), and for each kind that does there is a lemma on the
  entry it leaves. -/

namespace MediaSender.PacketHistory

/-- An operation of a run, with the history that it met and the packet that it handed out. -/
structure Moment where
  before : PacketHistory
  operation : Operation
  handed : Option RtpPacket

namespace Moment

/-- The packet that is stored under `s`. -/
def stored? (x : Moment) (s : SequenceNumber) : Option RtpPacket :=
  match x.operation with
  | .put p _ =>
    if (x.before.isEnabled && p.allowRetransmission) = true ∧ p.sequenceNumber = s then some p
    else none
  | _ => none

/-- Whether the packet `s` is handed out for retransmission. -/
def handsOut (x : Moment) (s : SequenceNumber) : Bool :=
  match x.operation with
  | .resend s' _ _ => decide (s' = s) && x.handed.isSome
  | _ => false

/-- When a retransmission of `s` is reported sent, while a packet is stored under `s`. -/
def sent? (x : Moment) (s : SequenceNumber) : Option Timestamp :=
  match x.operation with
  | .markSent s' now => if s' = s ∧ x.before.contains s = true then some now else none
  | _ => none

/-- The number of the last stored packet. -/
def lastNumber? (x : Moment) : Option SequenceNumber :=
  x.before.slots.getLast?.join.map Entry.sequenceNumber

/-- When the packet `s` goes out as padding, picked because it is the last one. -/
def padded? (x : Moment) (s : SequenceNumber) : Option Timestamp :=
  match x.operation with
  | .pad now _ =>
    if x.before.paddingMode = .lastPacket ∧ x.handed.isSome = true ∧ x.lastNumber? = some s then
      some now
    else none
  | _ => none

/-- When the packet `s` is transmitted again, as a retransmission or as padding. -/
def transmitted? (x : Moment) (s : SequenceNumber) : Option Timestamp :=
  (x.sent? s).or (x.padded? s)

/-- The round trip that is set. -/
def roundTrip? (x : Moment) : Option TimeDelta :=
  match x.operation with
  | .setRtt rtt _ => some rtt
  | _ => none

/-- Whether nothing happens to the packet `s`, but that it may be removed. -/
structure Spares (x : Moment) (s : SequenceNumber) : Prop where
  stored : x.stored? s = none := by rfl
  handsOut : x.handsOut s = false := by rfl
  sent : x.sent? s = none := by rfl
  padded : x.padded? s = none := by rfl

theorem stored?_of_handsOut {x : Moment} {s : SequenceNumber} (h : x.handsOut s = true) :
    x.stored? s = none := by
  unfold handsOut at h
  unfold stored?
  split at h
  next ho => rw [ho]
  next => cases h

theorem sent?_of_handsOut {x : Moment} {s : SequenceNumber} (h : x.handsOut s = true) :
    x.sent? s = none := by
  unfold handsOut at h
  unfold sent?
  split at h
  next ho => rw [ho]
  next => cases h

end Moment

/-- What has happened in a run, the latest first. -/
abbrev Past := List Moment

namespace Past

/-- The packet stored last under `s`. -/
def packet? (t : Past) (s : SequenceNumber) : Option RtpPacket := t.findSome? (·.stored? s)

/-- What has happened since a packet was last stored under `s`. -/
def life (t : Past) (s : SequenceNumber) : Past := t.takeWhile fun x => (x.stored? s).isNone

/-- Whether the packet `s` was handed out since it was stored or last reported sent. -/
def isOutstanding (t : Past) (s : SequenceNumber) : Bool :=
  ((t.life s).takeWhile fun x => (x.sent? s).isNone).any (·.handsOut s)

/-- When the packet `s` was last transmitted again since it was stored. -/
def lastTransmission? (t : Past) (s : SequenceNumber) : Option Timestamp :=
  (t.life s).findSome? (·.transmitted? s)

/-- The round trip set last. -/
def roundTrip? (t : Past) : Option TimeDelta := t.findSome? (·.roundTrip?)

section cons

variable (x : Moment) (t : Past) (s : SequenceNumber)

theorem packet?_cons : packet? (x :: t) s = (x.stored? s).or (t.packet? s) := by
  rw [packet?, List.findSome?_cons]
  cases x.stored? s <;> rfl

theorem life_cons : life (x :: t) s = if (x.stored? s).isNone then x :: t.life s else [] :=
  List.takeWhile_cons

theorem isOutstanding_cons :
    isOutstanding (x :: t) s =
      ((x.stored? s).isNone && (x.sent? s).isNone && (x.handsOut s || t.isOutstanding s)) := by
  rw [isOutstanding, life_cons]
  cases x.stored? s with
  | some p => rfl
  | none =>
      rw [if_pos Option.isNone_none, List.takeWhile_cons]
      cases x.sent? s with
      | some now => rfl
      | none => rfl

theorem lastTransmission?_cons :
    lastTransmission? (x :: t) s =
      if (x.stored? s).isNone then (x.transmitted? s).or (t.lastTransmission? s) else none := by
  rw [lastTransmission?, life_cons]
  split
  next =>
    rw [List.findSome?_cons]
    cases x.transmitted? s <;> rfl
  next => rfl

theorem roundTrip?_cons : roundTrip? (x :: t) = x.roundTrip?.or t.roundTrip? := by
  rw [roundTrip?, List.findSome?_cons]
  cases x.roundTrip? <;> rfl

end cons

/-! ### Since an earlier moment -/

section since

variable {t : Past} {s : SequenceNumber} {later earlier : Past} {x : Moment}

/-- Nothing was stored under `s` since a moment that it survived. -/
theorem life_append (hl : ∀ y ∈ later, y.stored? s = none) (hx : x.stored? s = none) :
    life (later ++ x :: earlier) s = later ++ x :: life earlier s := by
  have h : ∀ y ∈ later, (y.stored? s).isNone = true := fun y hy => by rw [hl y hy]; rfl
  rw [life, List.takeWhile_append_of_pos h]
  show later ++ life (x :: earlier) s = _
  rw [life_cons, hx, if_pos Option.isNone_none]

/-- If the packet is no longer outstanding, it was reported sent after it was handed out. -/
theorem exists_sent_of_handsOut (hl : ∀ y ∈ later, y.stored? s = none)
    (hx : x.handsOut s = true) (ho : isOutstanding (later ++ x :: earlier) s = false) :
    ∃ y ∈ later, ∃ now, y.sent? s = some now := by
  by_contra hno
  have hsent : ∀ y ∈ later, (y.sent? s).isNone = true := by
    intro y hy
    cases hs : y.sent? s with
    | none => rfl
    | some now => exact absurd ⟨y, hy, now, hs⟩ hno
  rw [isOutstanding, life_append hl (Moment.stored?_of_handsOut hx),
    List.takeWhile_append_of_pos hsent, List.takeWhile_cons, Moment.sent?_of_handsOut hx,
    if_pos Option.isNone_none, List.any_append, List.any_cons, hx, Bool.true_or, Bool.or_true]
    at ho
  cases ho

/-- A transmission since the packet was handed out is among those that count. -/
theorem lastTransmission?_append (hl : ∀ y ∈ later, y.stored? s = none)
    (hx : x.stored? s = none) {last : Timestamp}
    (h : List.findSome? (·.transmitted? s) later = some last) :
    lastTransmission? (later ++ x :: earlier) s = some last := by
  rw [lastTransmission?, life_append hl hx, List.findSome?_append, h]
  rfl

end since

end Past

/-- The past of a run that goes on with `ops`, when `t` has happened already; it ends at an
operation that fails. -/
def past (t : Past) (h : PacketHistory) : List Operation → Past
  | [] => t
  | o :: rest =>
    match h.step o with
    | .ok (h', handed) => past (⟨h, o, handed⟩ :: t) h' rest
    | .error _ => t

/-- What every step keeps, as it adds its moment to the past, a run keeps. -/
theorem past_induction {P : Past → PacketHistory → Prop}
    (hstep : ∀ t h o h' r, P t h → h.step o = .ok (h', r) → P (⟨h, o, r⟩ :: t) h') {t : Past}
    {h h' : PacketHistory} {ops : List Operation} {handed : List (Option RtpPacket)} (h0 : P t h)
    (hr : h.run ops = .ok (h', handed)) : P (past t h ops) h' := by
  induction ops generalizing t h handed with
  | nil =>
      rw [PacketHistory.run, Except.ok.injEq, Prod.mk.injEq] at hr
      rw [past, ← hr.1]
      exact h0
  | cons o rest ih =>
      obtain ⟨h₁, r, later, hs, hrest, -⟩ := run_cons_eq_ok hr
      rw [past, hs]
      exact ih (hstep t h o h₁ r h0 hs) hrest

end PacketHistory

/-! ### Entries and the past -/

open PacketHistory (Moment Past)

namespace Entry

/-- When the entry was last transmitted again. -/
def lastResent? (e : Entry) : Option Timestamp :=
  if e.timesRetransmitted = 0 then none else some e.lastTransmission

theorem rested_iff (e : Entry) (rtt : Option TimeDelta) (now : Timestamp) :
    e.rested rtt now = true ↔
      ∀ r, rtt = some r → ∀ last, e.lastResent? = some last → r ≤ now - last := by
  unfold rested lastResent?
  cases rtt with
  | none => simp
  | some r => by_cases h : e.timesRetransmitted = 0 <;> simp [h]

/-- The entry is what the past tells of its number. -/
structure Follows (e : Entry) (t : Past) : Prop where
  packet : t.packet? e.sequenceNumber = some e.packet
  pending : t.isOutstanding e.sequenceNumber = e.pending
  transmission : t.lastTransmission? e.sequenceNumber = e.lastResent?

section follows

variable {e : Entry} {t : Past} {x : Moment}

/-- A moment that does nothing under the number of the entry changes nothing. -/
theorem Follows.spared (h : e.Follows t) (hx : x.Spares e.sequenceNumber) :
    e.Follows (x :: t) where
  packet := by rw [Past.packet?_cons, hx.stored, h.packet]; rfl
  pending := by
    rw [Past.isOutstanding_cons, hx.stored, hx.sent, hx.handsOut, h.pending]
    rfl
  transmission := by
    rw [Past.lastTransmission?_cons, hx.stored, Moment.transmitted?, hx.sent, hx.padded,
      h.transmission]
    rfl

theorem follows_fresh {p : RtpPacket} {now : Timestamp}
    (hx : x.stored? p.sequenceNumber = some p) : (Entry.fresh p now).Follows (x :: t) where
  packet := by
    show Past.packet? (x :: t) p.sequenceNumber = some p
    rw [Past.packet?_cons, hx]
    rfl
  pending := by
    show Past.isOutstanding (x :: t) p.sequenceNumber = false
    rw [Past.isOutstanding_cons, hx]
    rfl
  transmission := by
    show Past.lastTransmission? (x :: t) p.sequenceNumber = none
    rw [Past.lastTransmission?_cons, hx]
    rfl

/-- The entry of a packet that was handed out is pending from then on. -/
theorem Follows.handedOut (h : e.Follows t) (b : PacketHistory) (now : Timestamp)
    (f : Encapsulation) (q : RtpPacket) :
    ({ e with pending := true } : Entry).Follows
      (⟨b, .resend e.sequenceNumber now f, some q⟩ :: t) := by
  have hx :
      Moment.handsOut ⟨b, .resend e.sequenceNumber now f, some q⟩ e.sequenceNumber = true := by
    simp [Moment.handsOut]
  have hst := Moment.stored?_of_handsOut hx
  have hse := Moment.sent?_of_handsOut hx
  constructor
  · show Past.packet? _ e.sequenceNumber = some e.packet
    rw [Past.packet?_cons, hst, h.packet]
    rfl
  · show Past.isOutstanding _ e.sequenceNumber = true
    rw [Past.isOutstanding_cons, hst, hse, hx]
    rfl
  · show Past.lastTransmission? _ e.sequenceNumber = e.lastResent?
    rw [Past.lastTransmission?_cons, hst, Moment.transmitted?, hse, h.transmission]
    rfl

/-- The entry of a packet that is reported sent, while it is stored, is no longer pending. -/
theorem Follows.reportedSent (h : e.Follows t) {b : PacketHistory}
    (hb : b.contains e.sequenceNumber = true) (now : Timestamp) (r : Option RtpPacket) :
    ({ e.resent now with pending := false } : Entry).Follows
      (⟨b, .markSent e.sequenceNumber now, r⟩ :: t) := by
  have hse : Moment.sent? ⟨b, .markSent e.sequenceNumber now, r⟩ e.sequenceNumber = some now := by
    simp [Moment.sent?, hb]
  have hst : Moment.stored? ⟨b, .markSent e.sequenceNumber now, r⟩ e.sequenceNumber = none := rfl
  constructor
  · show Past.packet? _ e.sequenceNumber = some e.packet
    rw [Past.packet?_cons, hst, h.packet]
    rfl
  · show Past.isOutstanding _ e.sequenceNumber = false
    rw [Past.isOutstanding_cons, hse, Option.isNone_some, Bool.and_false, Bool.false_and]
  · show Past.lastTransmission? _ e.sequenceNumber = some now
    rw [Past.lastTransmission?_cons, hst, Moment.transmitted?, hse]
    rfl

/-- The entry of a packet that went out as padding, because it was the last one. -/
theorem Follows.padded (h : e.Follows t) {b : PacketHistory} (hm : b.paddingMode = .lastPacket)
    (hl : b.slots.getLast?.join = some e) (now : Timestamp) (f : Encapsulation) (q : RtpPacket) :
    (e.resent now).Follows (⟨b, .pad now f, some q⟩ :: t) := by
  have hpa : Moment.padded? ⟨b, .pad now f, some q⟩ e.sequenceNumber = some now := by
    simp [Moment.padded?, Moment.lastNumber?, hm, hl]
  have hst : Moment.stored? ⟨b, .pad now f, some q⟩ e.sequenceNumber = none := rfl
  have hse : Moment.sent? ⟨b, .pad now f, some q⟩ e.sequenceNumber = none := rfl
  constructor
  · show Past.packet? _ e.sequenceNumber = some e.packet
    rw [Past.packet?_cons, hst, h.packet]
    rfl
  · show Past.isOutstanding _ e.sequenceNumber = e.pending
    rw [Past.isOutstanding_cons, hst, hse, h.pending]
    rfl
  · show Past.lastTransmission? _ e.sequenceNumber = some now
    rw [Past.lastTransmission?_cons, hst, Moment.transmitted?, hse, hpa]
    rfl

end follows

end Entry

end MediaSender
