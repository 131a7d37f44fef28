import MediaSender.Proofs.Quantity
import MediaSender.Proofs.History.Culling

/-! # Longer retention keeps more

A report of the round trip culls under a retention time that grows with the round trip.

* **Monotonicity.** What is given up under one retention time and at one time is given up under a
  shorter one and later (`Retention.givesUp_mono`).  Culling stops at the first entry that is not
  given up, so the later or shorter cull leaves a suffix of what the other one leaves
  (`Slots.cull_suffix_cull`).
* **Absorption.** Of two such culls, one after the other, the one that gives up more decides,
  whether it comes second (`Slots.cull_cull_of_le`) or first (`Slots.cull_cull_eq_self`).
* **Reports.** So of the reports on a history the one with the shortest round trip and the latest
  time decides, if one has both (`PacketHistory.setRtt_absorbs`). -/

namespace MediaSender

namespace Retention

theorem duration_mono {r r' : TimeDelta} (h : r ≤ r') : duration (some r) ≤ duration (some r') := by
  have htimes := Quantity.times_le_times (by decide : 0 < roundTrips) h
  exact max_le (le_trans htimes (le_max_left _ _))
    (le_max_right _ _)

/-- What is given up is given up later as well, and under a shorter retention time. -/
theorem givesUp_mono {numberToStore : Nat} {δ δ' : TimeDelta} {now now' : Timestamp}
    (hδ : δ' ≤ δ) (hnow : now ≤ now') {n : Nat} {e : Entry}
    (h : givesUp numberToStore δ now n e = true) : givesUp numberToStore δ' now' n e = true := by
  have passed : ∀ {a b : TimeDelta}, a ≤ b → e.sentAt + b ≤ now → e.sentAt + a ≤ now' := by
    intro a b hab hb
    have hsum : e.sentAt.sinceEpoch + a ≤ e.sentAt.sinceEpoch + b := Quantity.add_le_add_left _ hab
    exact le_trans hsum (le_trans hb hnow)
  rw [givesUp_iff] at h ⊢
  obtain hfull | ⟨hpending, hold, hspare⟩ := h
  · exact .inl hfull
  · refine .inr ⟨hpending, passed hδ hold, ?_⟩
    obtain hmany | hvery := hspare
    · exact .inl hmany
    · exact .inr (passed (Quantity.times_le_times (by decide) hδ) hvery)

end Retention

namespace Slots

/-! ### Two culls -/

section two

variable {δ δ' : TimeDelta} {now now' : Timestamp}

/-- The cull that gives up more leaves a suffix of what the other one leaves. -/
theorem cull_suffix_cull (numberToStore : Nat) (hδ : δ' ≤ δ) (hnow : now ≤ now') (slots : Slots) :
    slots.cull numberToStore δ' now' <:+ slots.cull numberToStore δ now := by
  induction slots with
  | nil => exact List.suffix_refl _
  | cons slot rest ih =>
      cases slot with
      | none => exact ih
      | some e =>
          by_cases hgone : Retention.givesUp numberToStore δ now (rest.length + 1) e = true
          · rw [cull_cons_of_givesUp hgone,
              cull_cons_of_givesUp (Retention.givesUp_mono hδ hnow hgone)]
            exact ih
          · rw [cull_cons_of_not_givesUp hgone]
            exact cull_suffix _ _ _ _

/-- A cull that gives up less makes no difference before one that gives up more. -/
theorem cull_cull_of_le (numberToStore : Nat) (hδ : δ' ≤ δ) (hnow : now ≤ now') (slots : Slots) :
    cull numberToStore δ' now' (slots.cull numberToStore δ now) =
      slots.cull numberToStore δ' now' := by
  induction slots with
  | nil => rfl
  | cons slot rest ih =>
      cases slot with
      | none => exact ih
      | some e =>
          by_cases hgone : Retention.givesUp numberToStore δ now (rest.length + 1) e = true
          · rw [cull_cons_of_givesUp hgone,
              cull_cons_of_givesUp (Retention.givesUp_mono hδ hnow hgone), ih]
          · rw [cull_cons_of_not_givesUp hgone]

/-- A cull that gives up less makes no difference after one that gives up more. -/
theorem cull_cull_eq_self (numberToStore : Nat) (hδ : δ' ≤ δ) (hnow : now ≤ now')
    (slots : Slots) :
    cull numberToStore δ now (slots.cull numberToStore δ' now') =
      slots.cull numberToStore δ' now' := by
  induction slots with
  | nil => rfl
  | cons slot rest ih =>
      cases slot with
      | none => exact ih
      | some e =>
          by_cases hgone : Retention.givesUp numberToStore δ' now' (rest.length + 1) e = true
          · rw [cull_cons_of_givesUp hgone, ih]
          · rw [cull_cons_of_not_givesUp hgone]
            exact cull_cons_of_not_givesUp (mt (Retention.givesUp_mono hδ hnow) hgone)

end two

end Slots

namespace PacketHistory

/-! ### Reports -/

/-- The history after a report of the round trip `rtt` at `now`. -/
def reported (h : PacketHistory) (rtt : TimeDelta) (now : Timestamp) : PacketHistory :=
  { h with
    rtt := some rtt
    slots :=
      if h.isEnabled then h.slots.cull h.numberToStore (Retention.duration (some rtt)) now
      else h.slots }

@[simp] theorem isEnabled_reported (h : PacketHistory) (rtt : TimeDelta) (now : Timestamp) :
    (h.reported rtt now).isEnabled = h.isEnabled := rfl

@[simp] theorem numberToStore_reported (h : PacketHistory) (rtt : TimeDelta) (now : Timestamp) :
    (h.reported rtt now).numberToStore = h.numberToStore := rfl

theorem slots_reported (h : PacketHistory) (rtt : TimeDelta) (now : Timestamp) :
    (h.reported rtt now).slots =
      if h.isEnabled then h.slots.cull h.numberToStore (Retention.duration (some rtt)) now
      else h.slots := rfl

theorem setRtt_of_nonneg (h : PacketHistory) {rtt : TimeDelta} (hrtt : 0 ≤ rtt)
    (now : Timestamp) : h.setRtt rtt now = .ok (h.reported rtt now) := by
  rw [setRtt, if_neg (not_lt.mpr hrtt), reported]
  cases he : h.isEnabled <;> simp_all [isEnabled, cull]

section reports

variable {r r' : TimeDelta} {t t' : Timestamp}

theorem reported_suffix (h : PacketHistory) (hr : r ≤ r') (ht : t' ≤ t) :
    (h.reported r t).slots <:+ (h.reported r' t').slots := by
  rw [slots_reported, slots_reported]
  split
  next => exact Slots.cull_suffix_cull _ (Retention.duration_mono hr) ht _
  next => exact List.suffix_refl _

theorem slots_reported_reported (h : PacketHistory) (hr : r ≤ r') (ht : t' ≤ t) :
    ((h.reported r' t').reported r t).slots = (h.reported r t).slots := by
  simp only [slots_reported, isEnabled_reported, numberToStore_reported]
  split
  next => exact Slots.cull_cull_of_le _ (Retention.duration_mono hr) ht _
  next => rfl

/-- Of two reports the second one leaves its round trip, so only the slots are to be compared. -/
theorem reported_reported_of_slots {h : PacketHistory} {u : Timestamp}
    (hslots : ((h.reported r' t').reported r t).slots = (h.reported r u).slots) :
    (h.reported r' t').reported r t = h.reported r u := by
  unfold reported at hslots ⊢
  simp only at hslots ⊢
  rw [hslots]

/-- A report makes no difference before one that gives up more. -/
theorem reported_reported (h : PacketHistory) (hr : r ≤ r') (ht : t' ≤ t) :
    (h.reported r' t').reported r t = h.reported r t :=
  reported_reported_of_slots (h.slots_reported_reported hr ht)

/-- A report that gives up less keeps the slots that one which gives up more has left. -/
theorem slots_reported_of_settled {h : PacketHistory} (hr : r ≤ r') (ht : t' ≤ t)
    (hs : h.slots = (h.reported r t).slots) : (h.reported r' t').slots = h.slots := by
  rw [slots_reported] at hs ⊢
  split at hs
  next he =>
    rw [if_pos he, hs]
    exact Slots.cull_cull_eq_self _ (Retention.duration_mono hr) ht _
  next he => rw [if_neg he]

theorem reported_reported_self (h : PacketHistory) (ht : t' ≤ t) :
    (h.reported r t).reported r t' = h.reported r t := by
  have hr := le_refl r
  have hsettled := (h.slots_reported_reported hr (Int.le_refl t.raw)).symm
  exact reported_reported_of_slots (slots_reported_of_settled hr ht hsettled)

/-- A report of the round trip that is known already makes no difference to a later cull. -/
theorem cull_reported {h : PacketHistory} (hrtt : h.rtt = some r) (he : h.isEnabled = true)
    (ht : t' ≤ t) : (h.reported r t').cull t = h.cull t := by
  have hslots := Slots.cull_cull_of_le h.numberToStore
    (le_refl (Retention.duration (some r))) ht h.slots
  simp only [cull, reported, he, if_true, hrtt, hslots]

theorem put_reported {h : PacketHistory} (hrtt : h.rtt = some r) (he : h.isEnabled = true)
    (ht : t' ≤ t) {p : RtpPacket} (hp : p.allowRetransmission = true) :
    (h.reported r t').put p t = h.put p t := by
  simp only [put, isEnabled_reported, he, hp, Bool.and_self, if_true, cull_reported hrtt he ht]

theorem step_setRtt (h : PacketHistory) (hr : 0 ≤ r) (t : Timestamp) :
    h.step (.setRtt r t) = .ok (h.reported r t, none) := by
  rw [step, h.setRtt_of_nonneg hr]
  rfl

/-- Reports that give up no more than `r` at `t` leave it to that report what goes, and nothing else
goes if it is one of them. -/
theorem exists_run_reports (h0 : 0 ≤ r) (h : PacketHistory) (reports : List (TimeDelta × Timestamp))
    (hall : ∀ x ∈ reports, r ≤ x.1 ∧ x.2 ≤ t) :
    ∃ h' handed, h.run (reports.map fun x => .setRtt x.1 x.2) = .ok (h', handed) ∧
      h'.reported r t = h.reported r t ∧
      ((r, t) ∈ reports ∨ h.slots = (h.reported r t).slots →
        h'.slots = (h.reported r t).slots) := by
  induction reports generalizing h with
  | nil => exact ⟨h, [], rfl, rfl, fun hor => hor.resolve_left List.not_mem_nil⟩
  | cons x rest ih =>
      obtain ⟨hx, hrest⟩ := List.forall_mem_cons.mp hall
      have hnext := h.reported_reported hx.1 hx.2
      obtain ⟨h', handed, hrun, hreported, hsettled⟩ := ih (h.reported x.1 x.2) hrest
      rw [hnext] at hreported hsettled
      refine ⟨h', none :: handed, run_cons (h.step_setRtt (le_trans h0 hx.1) x.2) hrun,
        hreported, ?_⟩
      rintro (hmem | hslots)
      · obtain rfl | hmem := List.mem_cons.mp hmem
        · exact hsettled (.inr rfl)
        · exact hsettled (.inl hmem)
      · apply hsettled
        right
        rw [slots_reported_of_settled hx.1 hx.2 hslots, hslots]

end reports

/-- **Longer retention keeps more, and the strictest report decides.**  A report of a longer round
trip or at an earlier time keeps whatever one of a shorter round trip or at a later time keeps.
Among reports of round trips of at least `r₁` at times up to `t₂`, in any order, the report of `r₁`
at `t₂` decides alone what is left; and a report of the round trip that is known already makes no
difference to a later cull or insertion. -/
theorem setRtt_absorbs (h : PacketHistory) {r₁ r₂ : TimeDelta} {t₁ t₂ : Timestamp} (h0 : 0 ≤ r₁)
    (hr : r₁ ≤ r₂) (ht : t₁ ≤ t₂) :
    ∃ a b c, h.setRtt r₁ t₁ = .ok a ∧ h.setRtt r₂ t₁ = .ok b ∧ h.setRtt r₁ t₂ = .ok c ∧
      a.slots <:+ b.slots ∧ c.slots <:+ a.slots ∧
      a.setRtt r₁ t₂ = .ok c ∧ c.setRtt r₁ t₁ = .ok c ∧
      (∀ reports : List (TimeDelta × Timestamp), (r₁, t₂) ∈ reports →
        (∀ x ∈ reports, r₁ ≤ x.1 ∧ x.2 ≤ t₂) →
        ∃ h' handed, h.run (reports.map fun x => .setRtt x.1 x.2) = .ok (h', handed) ∧
          h'.slots = c.slots) ∧
      (h.isEnabled = true → h.rtt = some r₁ → a.cull t₂ = h.cull t₂ ∧
        ∀ p : RtpPacket, p.allowRetransmission = true → a.put p t₂ = h.put p t₂) := by
  refine ⟨_, _, _, h.setRtt_of_nonneg h0 t₁, h.setRtt_of_nonneg (le_trans h0 hr) t₁,
    h.setRtt_of_nonneg h0 t₂, h.reported_suffix hr (Int.le_refl t₁.raw),
    h.reported_suffix (le_refl r₁) ht, ?_, ?_, ?_, ?_⟩
  · rw [setRtt_of_nonneg _ h0, h.reported_reported (le_refl r₁) ht]
  · rw [setRtt_of_nonneg _ h0, h.reported_reported_self ht]
  · intro reports hmem hall
    obtain ⟨h', handed, hrun, -, hslots⟩ := h.exists_run_reports h0 reports hall
    exact ⟨h', handed, hrun, hslots (.inl hmem)⟩
  · intro he hrtt
    exact ⟨cull_reported hrtt he ht, fun p hp => put_reported hrtt he ht hp⟩

/-- Of two packets sent a second apart a report of a short round trip drops the older one.  Reports
before and after it, of a round trip without end or at an earlier time, change nothing. -/
theorem setRtt_absorbs_of_two :
    ∃ h c : PacketHistory, h.Reachable ∧ h.isEnabled = true ∧
      h.slots.map (Option.map Entry.sequenceNumber) = [some 0, some 1] ∧
      h.setRtt 0 (.ofSeconds 3) = .ok c ∧
      c.slots.map (Option.map Entry.sequenceNumber) = [some 1] ∧
      ∃ h' handed,
        h.run [.setRtt .plusInfinity 0, .setRtt 0 (.ofSeconds 3), .setRtt 0 0] =
            .ok (h', handed) ∧
          h'.slots = c.slots := by
  let h : PacketHistory :=
    { mode := .storeAndCull
      numberToStore := 4
      slots :=
        [some (.fresh (packetNumbered 0) 0), some (.fresh (packetNumbered 1) (.ofSeconds 1))] }
  have hr : h.Reachable :=
    ⟨.lastPacket,
      [.configure .storeAndCull 4, .put (packetNumbered 0) 0,
        .put (packetNumbered 1) (.ofSeconds 1)],
      [none, none, none], rfl⟩
  have h0 : (0 : TimeDelta) ≤ 0 := by decide
  have hrtt : (0 : TimeDelta) ≤ .plusInfinity := by decide
  have ht : (0 : Timestamp) ≤ .ofSeconds 3 := by decide
  obtain ⟨-, -, c, -, -, hc, -, -, -, -, hreports, -⟩ := h.setRtt_absorbs h0 hrtt ht
  refine ⟨h, c, hr, rfl, rfl, hc, ?_, ?_⟩
  · rw [← Except.ok.inj hc]
    rfl
  · exact hreports [(.plusInfinity, 0), (0, .ofSeconds 3), (0, 0)] (by decide) (by decide)

end PacketHistory

end MediaSender
