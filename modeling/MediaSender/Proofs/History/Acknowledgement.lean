import MediaSender.Proofs.History.Refinement
import MediaSender.Proofs.History.Storing

/-! # Acknowledgements commute

An acknowledgement takes entries out one by one.  After each the empty slots at both ends go, so
the first slot may move, and the next number is looked up from another slot than the last one.

* **Slots.** Laid slots are known from their entries and the numbers of these
  (`Slots.Laid.eq_of_numberedFrom_eq`), so two histories that represent one ledger are the same
  (`Represents.unique`).
* **Ledger.** A ledger keeps what is pending or not listed, and only asks whether a number is
  listed (`Ledger.acknowledge_congr`).
* **History.** So among at most half a circle of slots it makes no difference in which order and
  how often numbers are listed, and over how many calls (`Represents.foldl_acknowledge_eq`). -/

namespace MediaSender

open SequenceNumber (wrap)

/-! ### Slots and their entries -/

namespace Slots

theorem ext_entryAt {slots slots' : Slots} (hl : slots.length = slots'.length)
    (h : ∀ i, slots.entryAt i = slots'.entryAt i) : slots = slots' := by
  refine List.ext_getElem hl fun i hi hi' => ?_
  have hat := h i
  rw [entryAt_natCast, entryAt_natCast, List.getElem?_eq_getElem hi,
    List.getElem?_eq_getElem hi'] at hat
  simpa using hat

section laid

variable {n n' : Int} {slots slots' : Slots}

theorem entryOf_eq_of_numberedFrom_eq (e : slots.numberedFrom n = slots'.numberedFrom n')
    (k : Int) : slots.entryOf n k = slots'.entryOf n' k := by
  apply Option.ext
  intro d
  rw [← mem_numberedFrom, ← mem_numberedFrom, e]

/-- Slots that hold entries under the numbers of others reach at least as far at both ends. -/
theorem Laid.bounds_of_entryOf_eq (h : Laid n slots) (hne : slots ≠ [])
    (e : ∀ k, slots.entryOf n k = slots'.entryOf n' k) :
    n' ≤ n ∧ n + slots.length ≤ n' + slots'.length := by
  obtain ⟨a, b, ha, hb⟩ := h.exists_ends hne
  rw [e] at ha hb
  have hfirst := bounds_of_entryOf ha
  have hlast := bounds_of_entryOf hb
  omega

/-- Laid slots are known from their entries: these say where the slots begin and end, and every
slot between that holds no entry is a gap. -/
theorem Laid.eq_of_numberedFrom_eq (h : Laid n slots) (h' : Laid n' slots')
    (e : slots.numberedFrom n = slots'.numberedFrom n') : slots = slots' := by
  have hof := entryOf_eq_of_numberedFrom_eq e
  by_cases hne : slots = []
  · subst hne
    by_contra hne'
    obtain ⟨a, -, ha, -⟩ := h'.exists_ends (Ne.symm hne')
    rw [← hof, entryOf, entryAt_nil] at ha
    cases ha
  · obtain ⟨a, -, ha, -⟩ := h.exists_ends hne
    have hne' : slots' ≠ [] := ne_nil_of_entryOf (n := n') (by rw [← hof, ha])
    have hin := h.bounds_of_entryOf_eq hne hof
    have hout := h'.bounds_of_entryOf_eq hne' fun k => (hof k).symm
    have hn : n = n' := by omega
    subst hn
    refine ext_entryAt (by omega) fun i => ?_
    rw [← entryOf_add n, ← entryOf_add n, hof]

end laid

end Slots

/-! ### Ledgers -/

namespace Ledger

/-- Which numbers are listed is all that counts. -/
theorem acknowledge_congr (l : Ledger) {arrived arrived' : List SequenceNumber}
    (e : ∀ s, s ∈ arrived' ↔ s ∈ arrived) : l.acknowledge arrived' = l.acknowledge arrived := by
  have hcontains : ∀ s, arrived'.contains s = arrived.contains s := by
    intro s
    rw [Bool.eq_iff_iff, List.contains_iff_mem, List.contains_iff_mem, e]
  simp only [acknowledge, Numbered.acknowledge, hcontains]

end Ledger

/-! ### Histories -/

namespace PacketHistory

section represents

variable {h h' : PacketHistory} {l : Ledger}

/-- A ledger is represented by one history only. -/
theorem Represents.unique (hr : h.Represents l) (hr' : h'.Represents l) : h = h' := by
  obtain ⟨n, hn, -, rfl⟩ := hr
  obtain ⟨n', hn', -, e⟩ := hr'
  unfold ledger at e
  injection e with hpadding hmode hnumber hrtt hentries hlarge
  have hslots := hn.eq_of_numberedFrom_eq hn' hentries
  cases h
  cases h'
  simp_all

theorem foldl_acknowledge (h : PacketHistory) (calls : List (List SequenceNumber)) :
    calls.foldl acknowledge h = h.acknowledge calls.flatten := by
  rw [acknowledge, List.foldl_flatten]
  rfl

/-- Calls that together list the same numbers leave the same history. -/
theorem Represents.foldl_acknowledge_eq (hr : h.Represents l) {arrived : List SequenceNumber}
    {calls : List (List SequenceNumber)} (e : ∀ s, s ∈ calls.flatten ↔ s ∈ arrived) :
    calls.foldl PacketHistory.acknowledge h = h.acknowledge arrived := by
  rw [foldl_acknowledge]
  have hcalls := hr.acknowledge calls.flatten
  rw [l.acknowledge_congr e] at hcalls
  exact hcalls.unique (hr.acknowledge arrived)

/-- A history has the entries of the ledger that it represents. -/
theorem Represents.entries (hr : h.Represents l) : h.slots.entries = l.entries.map Prod.snd := by
  obtain ⟨n, -, -, rfl⟩ := hr
  exact Slots.entries_eq_map_numberedFrom n h.slots

theorem Represents.sequenceNumber_eq (hr : h.Represents l) {x : Int × Entry}
    (hx : x ∈ l.entries) : x.2.sequenceNumber = wrap x.1 := by
  obtain ⟨n, hn, -, rfl⟩ := hr
  exact hn.numbered _ _ (Slots.mem_numberedFrom.mp hx)

/-- What is pending or not listed stays, in the same order. -/
theorem Represents.entries_acknowledge (hr : h.Represents l) (arrived : List SequenceNumber) :
    (h.acknowledge arrived).slots.entries =
      h.slots.entries.filter fun e => e.pending || !arrived.contains e.sequenceNumber := by
  rw [(hr.acknowledge arrived).entries, hr.entries, List.filter_map]
  congr 1
  refine List.filter_congr fun x hx => ?_
  rw [Function.comp_apply, hr.sequenceNumber_eq hx]

end represents

/-- Among at most half a circle of slots, a packet is found exactly if it is stored. -/
theorem Consistent.find?_eq_some_iff_mem {h : PacketHistory} (hc : h.Consistent)
    (hl : h.slots.length ≤ 0x8000) {s : SequenceNumber} {e : Entry} :
    h.find? s = some e ↔ e ∈ h.slots.entries ∧ e.sequenceNumber = s := by
  obtain ⟨n, hn⟩ := hc.laid
  rw [mem_entries]
  constructor
  · intro hf
    obtain ⟨-, hfind⟩ := find?_eq_some_iff.mp hf
    exact ⟨Slots.mem_of_find? hfind, hn.sequenceNumber_of_find? hfind⟩
  · rintro ⟨he, rfl⟩
    exact hc.find?_of_mem hl he

/-- **Acknowledgements commute.**  In a reachable history of at most half a circle of slots the
acknowledgement of any numbers takes away the packets with these numbers that are not pending, and
nothing else: the other entries stay as they were, in the same order, and are found under their
numbers.  Any calls that together list the same numbers, in whatever order and however often, leave
the same history. -/
theorem Reachable.acknowledge_commutes {h : PacketHistory} (hr : h.Reachable)
    (hl : h.slots.length ≤ 0x8000) (arrived : List SequenceNumber) :
    (h.acknowledge arrived).slots.entries =
        (h.slots.entries.filter fun e => e.pending || !arrived.contains e.sequenceNumber) ∧
      h.acknowledge arrived = { h with slots := (h.acknowledge arrived).slots } ∧
      (∀ s e, (h.acknowledge arrived).find? s = some e ↔
        h.find? s = some e ∧ (e.pending = true ∨ s ∉ arrived)) ∧
      (∀ e ∈ (h.acknowledge arrived).slots.entries,
        (h.acknowledge arrived).find? e.sequenceNumber = some e) ∧
      (∀ arrived' : List SequenceNumber, arrived'.Perm arrived →
        h.acknowledge arrived' = h.acknowledge arrived) ∧
      h.acknowledge (arrived ++ arrived) = h.acknowledge arrived ∧
      (h.acknowledge arrived).acknowledge arrived = h.acknowledge arrived ∧
      ∀ calls : List (List SequenceNumber), (∀ s, s ∈ calls.flatten ↔ s ∈ arrived) →
        calls.foldl acknowledge h = h.acknowledge arrived := by
  obtain ⟨n, hn⟩ := hr.consistent.laid
  have hledger : h.Represents (h.ledger n) := ⟨n, hn, hl, rfl⟩
  have hentries := hledger.entries_acknowledge arrived
  have hc := hr.consistent.acknowledge arrived
  have hshort : (h.acknowledge arrived).slots.length ≤ 0x8000 :=
    (h.noLarger_acknowledge arrived).slots.trans hl
  have hcalls : ∀ calls : List (List SequenceNumber), (∀ s, s ∈ calls.flatten ↔ s ∈ arrived) →
      calls.foldl acknowledge h = h.acknowledge arrived :=
    fun calls e => hledger.foldl_acknowledge_eq e
  refine ⟨hentries, h.acknowledge_eq_withSlots arrived, ?_, ?_, ?_, ?_, ?_, hcalls⟩
  · intro s e
    rw [hc.find?_eq_some_iff_mem hshort, hr.consistent.find?_eq_some_iff_mem hl, hentries,
      List.mem_filter]
    constructor
    · rintro ⟨⟨he, hkept⟩, rfl⟩
      exact ⟨⟨he, rfl⟩, by simpa using hkept⟩
    · rintro ⟨⟨he, rfl⟩, hkept⟩
      exact ⟨⟨he, by simpa using hkept⟩, rfl⟩
  · intro e he
    exact (hc.find?_eq_some_iff_mem hshort).mpr ⟨he, rfl⟩
  · intro arrived' hperm
    exact hcalls [arrived'] (by simp [hperm.mem_iff])
  · exact hcalls [arrived ++ arrived] (by simp)
  · exact hcalls [arrived, arrived] (by simp)

/-- Of four packets across the wrap the second is pending.  The first, the second and the last are
acknowledged, in two calls and in another order, with a number twice and with one that was never
stored: the second and the third stay, and both ends move. -/
theorem acknowledge_commutes_across_wrap :
    ∃ h : PacketHistory, h.Reachable ∧
      h.slots.map (Option.map Entry.sequenceNumber) =
        [some 0xfffe, none, some 0, some 1, none, some 3] ∧
      (h.acknowledge [3, 0, 0xfffe]).slots.map (Option.map Entry.sequenceNumber) =
        [some 0, some 1] ∧
      [[0, 0xfffe, 0], [3]].foldl acknowledge h = h.acknowledge [3, 0, 0xfffe] ∧
      ((h.acknowledge [3, 0, 0xfffe]).find? 0).map Entry.pending = some true := by
  let h : PacketHistory :=
    { mode := .storeAndCull
      numberToStore := 10
      slots := [some (.fresh (packetNumbered 0xfffe) 0), none,
        some { Entry.fresh (packetNumbered 0) 0 with pending := true },
        some (.fresh (packetNumbered 1) 0), none, some (.fresh (packetNumbered 3) 0)] }
  have hr : h.Reachable :=
    ⟨.lastPacket,
      [.configure .storeAndCull 10, .put (packetNumbered 0xfffe) 0, .put (packetNumbered 0) 0,
        .put (packetNumbered 1) 0, .put (packetNumbered 3) 0, .resend 0 0 some],
      [none, none, none, none, none, some (packetNumbered 0)], rfl⟩
  obtain ⟨-, -, hfind, -, -, -, -, hcalls⟩ := hr.acknowledge_commutes (by decide) [3, 0, 0xfffe]
  have hpending := (hfind 0 { Entry.fresh (packetNumbered 0) 0 with pending := true }).mpr
    ⟨rfl, .inl rfl⟩
  have hlisted : ∀ s : SequenceNumber, s ∈ [[0, 0xfffe, 0], [3]].flatten ↔ s ∈ [3, 0, 0xfffe] := by
    grind
  exact ⟨h, hr, rfl, rfl, hcalls _ hlisted, by rw [hpending]; rfl⟩

end PacketHistory

end MediaSender
