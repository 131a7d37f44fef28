import MediaSender.Proofs.History.Reading

/-! # The history refines the ledger

* **Reading.** A history is read as the ledger that has the same settings and the entries of its
  slots (`PacketHistory.ledger`).  It `Represents` that ledger while its slots are laid and span at
  most half a circle.
* **Step.** An operation that fits turns a history that represents a ledger into one that
  represents the ledger after the operation, and both hand out the same packet
  (`Represents.step`).
* **Run.** So history and ledger give the same answers along every fitting run
  (`answers_eq_ledger_answers`). -/

namespace MediaSender

open SequenceNumber (wrap)

namespace PacketHistory

/-- The history as a ledger, the first slot belonging to the number `n`. -/
def ledger (n : Int) (h : PacketHistory) : Ledger where
  paddingMode := h.paddingMode
  mode := h.mode
  numberToStore := h.numberToStore
  rtt := h.rtt
  entries := h.slots.numberedFrom n
  large := h.large

/-- The slots of `h` are those of the ledger `l`, and span at most half a circle. -/
def Represents (h : PacketHistory) (l : Ledger) : Prop :=
  ∃ n, Slots.Laid n h.slots ∧ h.slots.length ≤ 0x8000 ∧ l = h.ledger n

theorem represents_empty (m : PaddingMode) : (empty m).Represents (Ledger.empty m) :=
  ⟨0, Slots.laid_nil 0, Nat.zero_le _, rfl⟩

section represents

variable {h : PacketHistory} {l : Ledger}

/-! ### Settings -/

theorem Represents.isEnabled (hr : h.Represents l) : l.isEnabled = h.isEnabled := by
  obtain ⟨n, -, -, rfl⟩ := hr
  rfl

theorem Represents.rtt (hr : h.Represents l) : l.rtt = h.rtt := by
  obtain ⟨n, -, -, rfl⟩ := hr
  rfl

theorem Represents.paddingMode (hr : h.Represents l) : l.paddingMode = h.paddingMode := by
  obtain ⟨n, -, -, rfl⟩ := hr
  rfl

theorem Represents.large (hr : h.Represents l) : l.large = h.large := by
  obtain ⟨n, -, -, rfl⟩ := hr
  rfl

theorem Represents.withRtt (hr : h.Represents l) (rtt : TimeDelta) :
    ({ h with rtt := some rtt } : PacketHistory).Represents { l with rtt := some rtt } := by
  obtain ⟨n, hn, hl, rfl⟩ := hr
  exact ⟨n, hn, hl, rfl⟩

theorem Represents.withLarge (hr : h.Represents l) (large : LargePacket) :
    ({ h with large } : PacketHistory).Represents { l with large } := by
  obtain ⟨n, hn, hl, rfl⟩ := hr
  exact ⟨n, hn, hl, rfl⟩

/-! ### Answers -/

theorem Represents.find? (hr : h.Represents l) (s : SequenceNumber) : l.find? s = h.find? s := by
  obtain ⟨n, hn, hl, rfl⟩ := hr
  have e : (h.ledger n).isEnabled = h.isEnabled := rfl
  rw [Ledger.find?, PacketHistory.find?, e]
  congr 1
  exact hn.find?_numberedFrom hl s

theorem Represents.contains (hr : h.Represents l) : l.contains = h.contains := by
  funext s
  rw [Ledger.contains, PacketHistory.contains, hr.find?]

theorem Represents.size (hr : h.Represents l) : l.size = h.size := by
  obtain ⟨n, -, -, rfl⟩ := hr
  exact Slots.length_numberedFrom n h.slots

theorem Represents.isEmpty (hr : h.Represents l) : l.isEmpty = h.isEmpty := by
  obtain ⟨n, -, -, rfl⟩ := hr
  exact Slots.isEmpty_numberedFrom n h.slots

/-! ### Operations -/

theorem Represents.clear (hr : h.Represents l) : h.clear.Represents l.clear := by
  obtain ⟨n, -, -, rfl⟩ := hr
  exact ⟨n, Slots.laid_nil n, Nat.zero_le _, rfl⟩

theorem Represents.configure (hr : h.Represents l) (mode : StorageMode) (k : Nat) :
    (h.configure mode k).Represents (l.configure mode k) := by
  obtain ⟨n, -, -, rfl⟩ := hr
  exact ⟨n, Slots.laid_nil n, Nat.zero_le _, rfl⟩

theorem Represents.cull (hr : h.Represents l) (now : Timestamp) :
    (h.cull now).Represents (l.cull now) := by
  obtain ⟨n, hn, hl, rfl⟩ := hr
  obtain ⟨n', hnn', hlen, hn', -⟩ := hn.cull h.numberToStore (Retention.duration h.rtt) now
  refine ⟨n', hn', ?_, ?_⟩
  · show (h.slots.cull h.numberToStore (Retention.duration h.rtt) now).length ≤ 0x8000
    omega
  · have hlast : h.slots.getLast? ≠ some none := by
      intro h0
      have hne : h.slots ≠ [] := by
        rintro hnil
        rw [hnil] at h0
        cases h0
      obtain ⟨e, he⟩ := hn.tidy.getLast?_join hne
      rw [he] at h0
      cases h0
    have e := Slots.numberedFrom_cull h.numberToStore (Retention.duration h.rtt) now hlast hlen
    simp only [PacketHistory.ledger, Ledger.cull, PacketHistory.cull, e]

theorem Represents.setRtt (hr : h.Represents l) (rtt : TimeDelta) (now : Timestamp) :
    (∃ h' l', h.setRtt rtt now = .ok h' ∧ l.setRtt rtt now = .ok l' ∧ h'.Represents l') ∨
      ∃ x, h.setRtt rtt now = .error x ∧ l.setRtt rtt now = .error x := by
  unfold PacketHistory.setRtt Ledger.setRtt
  by_cases hneg : rtt < 0
  · rw [if_pos hneg, if_pos hneg]
    exact .inr ⟨_, rfl, rfl⟩
  · rw [if_neg hneg, if_neg hneg]
    refine .inl ⟨_, _, rfl, rfl, ?_⟩
    rw [(hr.withRtt rtt).isEnabled]
    split
    next => exact (hr.withRtt rtt).cull now
    next => exact hr.withRtt rtt

theorem mem_numbers_ledger {n k : Int} :
    k ∈ (h.ledger n).numbers ↔ ∃ e, h.slots.entryOf n k = some e := by
  rw [Ledger.numbers, List.mem_map]
  constructor
  · rintro ⟨⟨j, e⟩, hx, rfl⟩
    exact ⟨e, Slots.mem_numberedFrom.mp hx⟩
  · rintro ⟨e, he⟩
    exact ⟨(k, e), Slots.mem_numberedFrom.mpr he, rfl⟩

/-- A packet that fits after the culling has the position that its unwrapped number says, and the
slots with it still span at most half a circle. -/
theorem Represents.insert (hr : h.Represents l) {k : Int} {e : Entry}
    (hk : wrap k = e.sequenceNumber)
    (hspan : ∀ i ∈ k :: l.numbers, ∀ j ∈ k :: l.numbers, j - i < 0x8000) :
    ({ h with slots := h.slots.insert e } : PacketHistory).Represents
      { l with entries := l.entries.insert k e } := by
  obtain ⟨n, hn, hl, rfl⟩ := hr
  have hpos : h.slots ≠ [] → k = n + h.slots.position (wrap k) := by
    intro hne
    obtain ⟨a, -, ha, -⟩ := hn.exists_ends hne
    have hmem : n ∈ k :: (h.ledger n).numbers :=
      List.mem_cons_of_mem _ (mem_numbers_ledger.mpr ⟨a, ha⟩)
    have h₁ := hspan _ hmem _ List.mem_cons_self
    have h₂ := hspan _ List.mem_cons_self _ hmem
    rw [hn.position_eq hne, SequenceNumber.offset_wrap h₁ h₂]
    omega
  obtain ⟨n', hn', hof⟩ := hn.insert hl hk.symm hpos
  refine ⟨n', hn', hn'.length_le fun i j a b ha hb => ?_, ?_⟩
  · have hin : ∀ i a, (h.slots.insert e).entryOf n' i = some a → i ∈ k :: (h.ledger n).numbers := by
      intro i a ha
      rw [hof] at ha
      split at ha
      next hi => rw [hi]; exact List.mem_cons_self
      next => exact List.mem_cons_of_mem _ (mem_numbers_ledger.mpr ⟨a, ha⟩)
    exact hspan i (hin i a ha) j (hin j b hb)
  · simp only [PacketHistory.ledger, Slots.Laid.numberedFrom_insert hof]

theorem numbers_cull_subset (l : Ledger) (now : Timestamp) : (l.cull now).numbers ⊆ l.numbers := by
  have hsub : ∀ (m : Nat) (δ : TimeDelta) (xs : Numbered), xs.cull m δ now ⊆ xs := by
    intro m δ xs
    induction xs with
    | nil => exact List.Subset.refl _
    | cons x rest ih =>
        rw [Numbered.cull]
        split
        next => exact List.Subset.trans ih (List.subset_cons_self _ _)
        next => exact List.Subset.refl _
  exact List.map_subset _ (hsub _ _ _)

theorem Represents.put (hr : h.Represents l) {k : Int} {p : RtpPacket} {now : Timestamp}
    (hf : l.Fits k (.put p now)) : (h.put p now).Represents (l.put k p now) := by
  obtain ⟨hk, hspan⟩ := hf
  unfold PacketHistory.put Ledger.put
  rw [hr.isEnabled]
  split
  next =>
    have hsub := numbers_cull_subset l now
    have hins := (hr.cull now).insert (e := Entry.fresh p now) hk fun i hi j hj =>
      hspan i (List.cons_subset_cons k hsub hi) j (List.cons_subset_cons k hsub hj)
    have hlarge :
        (if (l.cull now).paddingMode = .recentLargePacket then (l.cull now).large.observe p
          else (l.cull now).large) =
        if (h.cull now).paddingMode = .recentLargePacket then (h.cull now).large.observe p
        else (h.cull now).large := by
      rw [(hr.cull now).paddingMode, (hr.cull now).large]
    dsimp only
    rw [hlarge]
    exact hins.withLarge _
  next => exact hr

theorem Represents.update (hr : h.Represents l) (s : SequenceNumber) {f : Entry → Entry}
    (hf : ∀ e, (f e).sequenceNumber = e.sequenceNumber) :
    ({ h with slots := h.slots.update s f } : PacketHistory).Represents
      { l with entries := l.entries.update s f } := by
  obtain ⟨n, hn, hl, rfl⟩ := hr
  refine ⟨n, hn.update s hf, ?_, ?_⟩
  · rw [Slots.length_update]
    exact hl
  · simp only [ledger, hn.numberedFrom_update hl]

theorem Represents.resend (hr : h.Represents l) (s : SequenceNumber) (now : Timestamp)
    (f : Encapsulation) :
    (h.resend s now f).1.Represents (l.resend s now f).1 ∧
      (h.resend s now f).2 = (l.resend s now f).2 := by
  unfold PacketHistory.resend Ledger.resend
  rw [hr.find?]
  cases h.find? s with
  | none => exact ⟨hr, rfl⟩
  | some e =>
      have hrested : e.rested l.rtt now = e.rested h.rtt now := by rw [hr.rtt]
      dsimp only
      rw [hrested]
      split
      next => exact ⟨hr, rfl⟩
      next =>
        cases f e.packet with
        | none => exact ⟨hr, rfl⟩
        | some q => exact ⟨hr.update s (f := ({ · with pending := true })) fun _ => rfl, rfl⟩

theorem Represents.markSent (hr : h.Represents l) (s : SequenceNumber) (now : Timestamp) :
    (h.markSent s now).Represents (l.markSent s now) := by
  unfold PacketHistory.markSent Ledger.markSent
  rw [hr.isEnabled]
  split
  next => exact hr.update s fun _ => rfl
  next => exact hr

theorem acknowledge_cons (xs : Numbered) (s : SequenceNumber) (arrived : List SequenceNumber) :
    xs.acknowledge (s :: arrived) = (xs.acknowledge [s]).acknowledge arrived := by
  unfold Numbered.acknowledge
  rw [List.filter_filter]
  congr 1
  funext x
  cases x.2.pending <;> simp [Bool.and_comm]

theorem acknowledge_nil (xs : Numbered) : xs.acknowledge [] = xs := by
  simp [Numbered.acknowledge]

/-- Acknowledging one number takes its entry out of the list, if it is there and not pending. -/
theorem Represents.acknowledgeOne (hr : h.Represents l) (s : SequenceNumber) :
    (h.acknowledgeOne s).Represents { l with entries := l.entries.acknowledge [s] } := by
  obtain ⟨n, hn, hl, rfl⟩ := hr
  have hkeep : (∀ k e, h.slots.entryOf n k = some e → wrap k = s → e.pending = true) →
      h.Represents { h.ledger n with entries := (h.ledger n).entries.acknowledge [s] } := by
    intro hp
    refine ⟨n, hn, hl, ?_⟩
    have e : (h.slots.numberedFrom n).acknowledge [s] = h.slots.numberedFrom n := by
      refine List.filter_eq_self.mpr fun x hx => ?_
      by_cases hs : wrap x.1 = s
      · simp [hp x.1 x.2 (Slots.mem_numberedFrom.mp hx) hs]
      · simp [hs]
    simp only [ledger, e]
  unfold PacketHistory.acknowledgeOne
  split
  next e he =>
    obtain ⟨k, hk, hke⟩ := (hn.find?_eq_some_iff hl).mp he
    have honly : ∀ j d, h.slots.entryOf n j = some d → wrap j = s → j = k := by
      intro j d hd hj
      rw [(hn.wrap_eq_iff hl hd).mp hj, (hn.wrap_eq_iff hl hke).mp hk]
    split
    next hp =>
      refine hkeep fun j d hd hj => ?_
      rw [honly j d hd hj, hke] at hd
      cases hd
      exact hp
    next hp =>
      obtain ⟨n', hnn', hlen, hn', hof⟩ := hn.removeAt (Slots.bounds_of_entryOf hke).1
      have hpos : k - n = h.slots.position s := by
        rw [(hn.wrap_eq_iff hl hke).mp hk]
        omega
      rw [hpos] at hlen hn' hof
      refine ⟨n', hn', by show (h.slots.removeAt (h.slots.position s)).length ≤ _; omega, ?_⟩
      have e : (h.slots.numberedFrom n).acknowledge [s] =
          (h.slots.removeAt (h.slots.position s)).numberedFrom n' := by
        rw [Slots.numberedFrom_removeAt hof]
        refine List.filter_congr fun x hx => ?_
        have hx' := Slots.mem_numberedFrom.mp hx
        by_cases hs : wrap x.1 = s
        · have hxk := honly _ _ hx' hs
          have hxe : x.2 = e := by
            rw [hxk, hke] at hx'
            exact (Option.some.inj hx').symm
          simp [hxk, hk, hxe, hp]
        · have hxk : x.1 ≠ k := fun h0 => hs (h0 ▸ hk)
          simp [hxk, hs]
      simp only [ledger, e]
  next he =>
    refine hkeep fun k e hke hk => ?_
    rw [(hn.find?_eq_some_iff hl).mpr ⟨k, hk, hke⟩] at he
    cases he

theorem Represents.acknowledge (hr : h.Represents l) (arrived : List SequenceNumber) :
    (h.acknowledge arrived).Represents (l.acknowledge arrived) := by
  induction arrived generalizing h l with
  | nil =>
      rw [Ledger.acknowledge, acknowledge_nil]
      exact hr
  | cons s rest ih =>
      have := ih (hr.acknowledgeOne s)
      rw [Ledger.acknowledge, ← acknowledge_cons] at this
      exact this

theorem Represents.padWithLast (hr : h.Represents l) (now : Timestamp) (f : Encapsulation) :
    (h.padWithLast now f).1.Represents (l.padWithLast now f).1 ∧
      (h.padWithLast now f).2 = (l.padWithLast now f).2 := by
  have hr' := hr
  obtain ⟨n, hn, hl, rfl⟩ := hr
  unfold PacketHistory.padWithLast Ledger.padWithLast
  by_cases hne : h.slots = []
  · have e : (h.ledger n).entries = [] := by
      rw [ledger, hne]
      rfl
    rw [hne, e]
    exact ⟨hr', rfl⟩
  · obtain ⟨e, he⟩ := hn.tidy.getLast?_join hne
    have hlast : (h.ledger n).entries.getLast? = some (n + (h.slots.length - 1), e) :=
      Slots.getLast?_numberedFrom he
    rw [he, hlast]
    dsimp only [Option.join_some]
    split
    next => exact ⟨hr', rfl⟩
    next =>
      cases f e.packet with
      | none => exact ⟨hr', rfl⟩
      | some q =>
          refine ⟨⟨n, hn.updateLast fun _ => rfl, ?_, ?_⟩, rfl⟩
          · show (h.slots.updateLast _).length ≤ _
            rw [Slots.length_updateLast]
            exact hl
          · simp only [ledger, hn.tidy.numberedFrom_updateLast]

theorem Represents.pad (hr : h.Represents l) (now : Timestamp) (f : Encapsulation) :
    (h.pad now f).1.Represents (l.pad now f).1 ∧ (h.pad now f).2 = (l.pad now f).2 := by
  unfold PacketHistory.pad Ledger.pad
  rw [hr.isEnabled, hr.paddingMode, hr.large]
  split
  next =>
    cases h.paddingMode with
    | lastPacket => exact hr.padWithLast now f
    | recentLargePacket =>
        cases h.large.packet with
        | none => exact hr.padWithLast now f
        | some p => exact ⟨hr, rfl⟩
  next => exact ⟨hr, rfl⟩

/-! ### Steps and runs -/

/-- An operation that fits succeeds on both or fails on both, with the same packet or error. -/
theorem Represents.step (hr : h.Represents l) {k : Int} {o : Operation} (hf : l.Fits k o) :
    (∃ h' l' r, h.step o = .ok (h', r) ∧ l.step k o = .ok (l', r) ∧ h'.Represents l') ∨
      ∃ x, h.step o = .error x ∧ l.step k o = .error x := by
  cases o with
  | configure mode n => exact .inl ⟨_, _, _, rfl, rfl, hr.configure mode n⟩
  | setRtt rtt now =>
      rcases hr.setRtt rtt now with ⟨h', l', eh, el, hr'⟩ | ⟨x, eh, el⟩
      · exact .inl ⟨h', l', none, by rw [PacketHistory.step, eh]; rfl,
          by rw [Ledger.step, el]; rfl, hr'⟩
      · exact .inr ⟨x, by rw [PacketHistory.step, eh]; rfl, by rw [Ledger.step, el]; rfl⟩
  | put p now => exact .inl ⟨_, _, _, rfl, rfl, hr.put hf⟩
  | resend s now f =>
      obtain ⟨hr', e⟩ := hr.resend s now f
      exact .inl ⟨(h.resend s now f).1, (l.resend s now f).1, (l.resend s now f).2,
        by rw [← e]; rfl, rfl, hr'⟩
  | markSent s now => exact .inl ⟨_, _, _, rfl, rfl, hr.markSent s now⟩
  | acknowledge arrived => exact .inl ⟨_, _, _, rfl, rfl, hr.acknowledge arrived⟩
  | pad now f =>
      obtain ⟨hr', e⟩ := hr.pad now f
      exact .inl ⟨(h.pad now f).1, (l.pad now f).1, (l.pad now f).2, by rw [← e]; rfl, rfl, hr'⟩
  | clear => exact .inl ⟨_, _, _, rfl, rfl, hr.clear⟩

theorem Represents.answers (hr : h.Represents l) {ops : List (Int × Operation)}
    (hf : l.Fitting ops) : h.answers (ops.map Prod.snd) = l.answers ops := by
  induction ops generalizing h l with
  | nil => rfl
  | cons x rest ih =>
      obtain ⟨k, o⟩ := x
      rw [List.map_cons, PacketHistory.answers, Ledger.answers]
      obtain ⟨hfit, hrest⟩ := hf
      rcases hr.step hfit with ⟨h', l', r, eh, el, hr'⟩ | ⟨e, eh, el⟩
      · rw [el] at hrest
        rw [eh, el]
        show (do let later ← h'.answers (rest.map Prod.snd); _) =
          (do let later ← l'.answers rest; _)
        rw [ih hr' hrest, hr'.contains, hr'.size, hr'.isEmpty]
      · rw [eh, el]
        rfl

end represents

/-- **The history refines the ledger.**  Along every run in which the numbers in use and that of a
packet to be stored always lie less than half a circle apart, whatever their order, a new history
gives the answers of a new ledger. -/
theorem answers_eq_ledger_answers (m : PaddingMode) (ops : List (Int × Operation))
    (hf : (Ledger.empty m).Fitting ops) :
    (empty m).answers (ops.map Prod.snd) = (Ledger.empty m).answers ops :=
  (represents_empty m).answers hf

/-- A run across the wrap, stored out of order, with a number stored twice, resent, acknowledged
and padded. -/
theorem answers_eq_ledger_answers_across_wrap :
    let p (s : SequenceNumber) : RtpPacket := { sequenceNumber := s, allowRetransmission := true }
    let ops : List (Int × Operation) :=
      [(0, .configure .store 10), (0x10001, .put (p 1) 0), (0xfffe, .put (p 0xfffe) 0),
        (0x10000, .put (p 0) 0), (0xfffe, .put (p 0xfffe) 0), (0, .resend 0 0 some),
        (0, .acknowledge [1, 0, 0xfffe]), (0, .pad 0 some), (0, .markSent 0 0), (0, .pad 0 some)]
    (Ledger.empty .lastPacket).Fitting ops ∧
      (empty .lastPacket).answers (ops.map Prod.snd) = (Ledger.empty .lastPacket).answers ops := by
  intro p ops
  have hf : (Ledger.empty .lastPacket).Fitting ops := by decide
  exact ⟨hf, answers_eq_ledger_answers .lastPacket ops hf⟩

end PacketHistory

end MediaSender
