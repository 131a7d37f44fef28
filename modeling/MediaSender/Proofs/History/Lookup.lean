import MediaSender.Proofs.History.Pending

/-! # Which stored packets are found

A look-up goes from the first slot by the shorter way round the circle of numbers, so it cannot
reach a slot more than half the circle away.

* **Reach.** An entry is found under its number if and only if its slot is less than half the
  circle after the first one, or exactly half of it and its number is the larger one
  (`Laid.find?_isSome_iff`).
* **Slots.** So all entries are found if and only if the last one is, which is a matter of the
  number of slots (`Slots.WithinReach`, `Laid.forall_find?_iff`).
* **Counting.** No number is stored twice, so the numbers under which a packet is found are as many
  as the entries that are found (`Consistent.length_found`).
* **Refutation.** Three packets stored one after the other, the third one half a circle before the
  second, leave one that is counted and not found. -/

namespace MediaSender

open SequenceNumber (wrap)

namespace SequenceNumber

/-- All sequence numbers. -/
def all : List SequenceNumber := (List.range 0x10000).map UInt16.ofNat

theorem mem_all (s : SequenceNumber) : s ∈ all := by
  refine List.mem_map.mpr ⟨s.toNat, List.mem_range.mpr s.toNat_lt_size, ?_⟩
  exact UInt16.ofNat_toNat

theorem nodup_all : all.Nodup := by
  refine List.Nodup.map_on ?_ List.nodup_range
  intro a ha b hb h
  have ha' := UInt16.toNat_ofNat_of_lt' (List.mem_range.mp ha)
  have hb' := UInt16.toNat_ofNat_of_lt' (List.mem_range.mp hb)
  rw [← ha', ← hb', h]

end SequenceNumber

namespace Slots

/-- The last slot can be reached from the first one: it is less than half the circle after it, or
exactly half of it and its number is the larger one. -/
def WithinReach (slots : Slots) : Prop :=
  slots.length ≤ 0x8000 ∨
    slots.length = 0x8001 ∧ ∃ first last, slots.head? = some (some first) ∧
      slots.getLast? = some (some last) ∧ first.sequenceNumber < last.sequenceNumber

/-- Of two or more slots with both ends occupied, the ends and the number of slots decide. -/
theorem withinReach_cons_concat_iff (a b : Entry) (between : Slots) :
    WithinReach (some a :: (between ++ [some b])) ↔
      between.length + 2 ≤ 0x8000 ∨
        between.length + 2 = 0x8001 ∧ a.sequenceNumber < b.sequenceNumber := by
  have hlast : (some a :: (between ++ [some b])).getLast? = some (some b) := by
    rw [← List.cons_append, List.getLast?_concat]
  have hlength : (some a :: (between ++ [some b])).length = between.length + 2 := by simp
  simp only [WithinReach, hlength, hlast, List.head?_cons, Option.some.injEq]
  constructor
  · rintro (hshort | ⟨hhalf, first, last, rfl, rfl, hlt⟩)
    · exact .inl hshort
    · exact .inr ⟨hhalf, hlt⟩
  · rintro (hshort | ⟨hhalf, hlt⟩)
    · exact .inl hshort
    · exact .inr ⟨hhalf, a, b, rfl, rfl, hlt⟩

section reach

variable {n : Int} {slots : Slots} {k : Int} {e : Entry}

/-- An entry is found if and only if its slot is in reach of the first one. -/
theorem Laid.find?_isSome_iff (h : Laid n slots) (hl : slots.length ≤ 0x10000)
    (hk : slots.entryOf n k = some e) :
    (slots.find? e.sequenceNumber).isSome = true ↔
      k - n < 0x8000 ∨ k - n = 0x8000 ∧ wrap n < wrap k := by
  have hb := bounds_of_entryOf hk
  have he := h.numbered k e hk
  rw [← SequenceNumber.offset_wrap_eq_iff hb.1 (by omega),
    ← h.position_eq (ne_nil_of_entryOf hk), he, Option.isSome_iff_exists]
  constructor
  · rintro ⟨d, hd⟩
    rw [find?_eq_entryOf n] at hd
    -- what is found has the same number, and no number is stored twice
    have hdk := h.numbered _ _ hd
    rw [h.wrap_add_position (ne_nil_of_entryOf hk)] at hdk
    have := h.eq_of_sequenceNumber_eq hl hd hk (hdk.trans he.symm)
    omega
  · intro hp
    refine ⟨e, ?_⟩
    rw [find?_eq_entryOf n, hp, ← hk]
    congr 1
    omega

theorem Laid.exists_first_last (h : Laid n slots) (hne : slots ≠ []) :
    ∃ first last, slots.head? = some (some first) ∧ slots.getLast? = some (some last) ∧
      first.sequenceNumber = wrap n ∧ last.sequenceNumber = wrap (n + (slots.length - 1)) := by
  obtain ⟨first, rest, hfirst⟩ := h.tidy.exists_cons hne
  obtain ⟨last, hlast⟩ := h.tidy.getLast?_join hne
  refine ⟨first, last, by rw [hfirst]; rfl, hlast, ?_, ?_⟩
  · apply h.numbered n
    rw [entryOf, Int.sub_self, entryAt_zero, hfirst]
    rfl
  · apply h.numbered
    rw [entryOf_add, entryAt_last, hlast]
    rfl

/-- All entries are found if the last one is. -/
theorem Laid.forall_find?_iff (h : Laid n slots) (hl : slots.length ≤ 0x10000) :
    (∀ k e, slots.entryOf n k = some e → (slots.find? e.sequenceNumber).isSome = true) ↔
      slots.WithinReach := by
  by_cases hne : slots = []
  · rw [hne]
    refine iff_of_true ?_ (.inl (Nat.zero_le _))
    intro k e hk
    exact absurd rfl (ne_nil_of_entryOf hk)
  have hpos := List.length_pos_iff.mpr hne
  obtain ⟨first, last, hhead, hlast, hfirst, hnumber⟩ := h.exists_first_last hne
  constructor
  · intro hall
    obtain ⟨-, e, -, he⟩ := h.exists_ends hne
    obtain hnear | ⟨hhalf, hlt⟩ := (h.find?_isSome_iff hl he).mp (hall _ e he)
    · left
      omega
    · right
      rw [← hfirst, ← hnumber] at hlt
      exact ⟨by omega, first, last, hhead, hlast, hlt⟩
  · intro hreach k e hk
    have hb := bounds_of_entryOf hk
    rw [h.find?_isSome_iff hl hk]
    obtain hnear | ⟨hhalf, first', last', hhead', hlast', hlt⟩ := hreach
    · left
      omega
    · rw [hhead] at hhead'
      rw [hlast] at hlast'
      cases hhead'
      cases hlast'
      rw [hfirst, hnumber] at hlt
      by_cases hk' : k - n < 0x8000
      · exact .inl hk'
      · have hkl : k = n + (slots.length - 1) := by omega
        right
        rw [hkl]
        exact ⟨by omega, hlt⟩

end reach

end Slots

namespace PacketHistory

/-- The numbers under which a packet is found. -/
def found (h : PacketHistory) : List SequenceNumber := SequenceNumber.all.filter h.contains

/-- The entries that are found under their numbers. -/
def reached (h : PacketHistory) : List Entry :=
  h.slots.entries.filter fun e => h.contains e.sequenceNumber

section counting

variable {h : PacketHistory}

theorem mem_entries {slots : Slots} {e : Entry} : e ∈ slots.entries ↔ some e ∈ slots := by
  simp [Slots.entries]

theorem size_eq_length_entries (h : PacketHistory) : h.size = h.slots.entries.length := by
  unfold size Slots.entries
  rw [List.length_filterMap_eq_countP]
  rfl

theorem Consistent.nodup_entries (hc : h.Consistent) :
    (h.slots.entries.map Entry.sequenceNumber).Nodup := by
  unfold List.Nodup Slots.entries
  rw [List.pairwise_map, List.pairwise_filterMap, List.pairwise_iff_getElem]
  intro i j hi hj hij a ha b hb hab
  have hia : h.slots[i]? = some (some a) := by
    rw [List.getElem?_eq_getElem hi]
    exact congrArg some ha
  have hjb : h.slots[j]? = some (some b) := by
    rw [List.getElem?_eq_getElem hj]
    exact congrArg some hb
  have := hc.distinct hia hjb hab
  omega

theorem nodup_found (h : PacketHistory) : h.found.Nodup := SequenceNumber.nodup_all.filter _

theorem mem_found {s : SequenceNumber} : s ∈ h.found ↔ h.contains s = true := by
  simp [found, SequenceNumber.mem_all]

/-- The numbers under which a packet is found are those of the entries that are found. -/
theorem Consistent.found_perm (hc : h.Consistent) :
    h.found.Perm (h.reached.map Entry.sequenceNumber) := by
  have hnodup : (h.reached.map Entry.sequenceNumber).Nodup :=
    hc.nodup_entries.sublist (List.filter_sublist.map _)
  rw [List.perm_ext_iff_of_nodup h.nodup_found hnodup]
  intro s
  rw [mem_found, List.mem_map]
  constructor
  · intro hs
    obtain ⟨e, he⟩ := Option.isSome_iff_exists.mp hs
    obtain ⟨-, hfind⟩ := find?_eq_some_iff.mp he
    obtain ⟨n, hn⟩ := hc.laid
    have hes : e.sequenceNumber = s := hn.sequenceNumber_of_find? hfind
    refine ⟨e, List.mem_filter.mpr ⟨mem_entries.mpr (Slots.mem_of_find? hfind), ?_⟩, hes⟩
    rw [hes]
    exact hs
  · rintro ⟨e, he, rfl⟩
    exact (List.mem_filter.mp he).2

theorem Consistent.length_found (hc : h.Consistent) : h.found.length = h.reached.length := by
  rw [hc.found_perm.length_eq, List.length_map]

theorem Consistent.forall_contains_iff (hc : h.Consistent) :
    (∀ e ∈ h.slots.entries, h.contains e.sequenceNumber = true) ↔ h.slots.WithinReach := by
  obtain ⟨n, hn⟩ := hc.laid
  rw [← hn.forall_find?_iff (Nat.le_of_lt hc.short)]
  constructor
  · intro hall k e hk
    have he := (Slots.mem_iff_entryOf n).mpr ⟨k, hk⟩
    have hfound := hall e (mem_entries.mpr he)
    rwa [contains, find?, if_pos (hc.isEnabled_of_mem he)] at hfound
  · intro hall e he
    have hmem := mem_entries.mp he
    obtain ⟨k, hk⟩ := (Slots.mem_iff_entryOf n).mp hmem
    rw [contains, find?, if_pos (hc.isEnabled_of_mem hmem)]
    exact hall k e hk

theorem Consistent.length_found_eq_size_iff (hc : h.Consistent) :
    h.found.length = h.size ↔ h.slots.WithinReach := by
  rw [hc.length_found, size_eq_length_entries, reached, ← List.countP_eq_length_filter,
    List.countP_eq_length, hc.forall_contains_iff]

end counting

/-- **All stored packets are found exactly as long as the last one is in reach.**  In every
reachable history at most as many numbers are found as packets are stored, and as many if and only
if the last slot is less than half the circle of numbers after the first one, or exactly half of it
with the larger number. -/
theorem length_found_eq_size_iff_withinReach {h : PacketHistory} (hr : h.Reachable) :
    h.found.length ≤ h.size ∧ (h.found.length = h.size ↔ h.slots.WithinReach) := by
  refine ⟨?_, hr.consistent.length_found_eq_size_iff⟩
  rw [hr.consistent.length_found, size_eq_length_entries]
  exact List.length_filter_le _ _

/-! ### Histories at the edge of reach -/

/-- A packet with the number `s` that may be sent again. -/
def packetNumbered (s : SequenceNumber) : RtpPacket :=
  { sequenceNumber := s, allowRetransmission := true }

/-- A history that has stored packets with these numbers one after the other, all sent at the
epoch. -/
def storing (numbers : List SequenceNumber) : PacketHistory :=
  numbers.foldl (fun h s => h.put (packetNumbered s) 0)
    ((empty .lastPacket).configure .storeAndCull 10)

theorem reachable_storing (numbers : List SequenceNumber) : (storing numbers).Reachable := by
  have hrun : ∀ h : PacketHistory,
      h.run (numbers.map fun s => .put (packetNumbered s) 0) =
        .ok (numbers.foldl (fun h s => h.put (packetNumbered s) 0) h,
          numbers.map fun _ => none) := by
    induction numbers with
    | nil => exact fun h => rfl
    | cons s rest ih =>
        intro h
        rw [List.map_cons, run, step]
        simp only [ih, bind, Except.bind]
        rfl
  refine ⟨.lastPacket,
    .configure .storeAndCull 10 :: numbers.map fun s => .put (packetNumbered s) 0,
    none :: numbers.map fun _ => none, ?_⟩
  rw [run, step]
  simp only [hrun, bind, Except.bind]
  rfl

/-- Of two packets exactly half the circle apart, the later one with the larger number, both are
found. -/
theorem length_found_eq_size_at_half_circle :
    (storing [0, 0x8000]).Reachable ∧
      (storing [0, 0x8000]).found.length = (storing [0, 0x8000]).size := by
  have hr := reachable_storing [0, 0x8000]
  have hslots : (storing [0, 0x8000]).slots = some (.fresh (packetNumbered 0) 0) ::
      (List.replicate 0x7fff none ++ [some (.fresh (packetNumbered 0x8000) 0)]) := rfl
  have hreach : (storing [0, 0x8000]).slots.WithinReach := by
    rw [hslots, Slots.withinReach_cons_concat_iff, List.length_replicate]
    exact .inr ⟨rfl, by decide⟩
  exact ⟨hr, (length_found_eq_size_iff_withinReach hr).2.mpr hreach⟩

/-- Three packets are stored, and the second one is half the circle after the third with the smaller
number: it is counted, but not found. -/
theorem not_length_found_eq_size :
    ¬∀ h : PacketHistory, h.Reachable → h.isEnabled = true → h.size = h.found.length := by
  intro hall
  have hr := reachable_storing [0, 1, 0x8001]
  have hslots : (storing [0, 1, 0x8001]).slots = some (.fresh (packetNumbered 0x8001) 0) ::
      (List.replicate 0x7ffe none ++
        [some (.fresh (packetNumbered 0) 0), some (.fresh (packetNumbered 1) 0)]) := rfl
  have hreach := hr.consistent.length_found_eq_size_iff.mp (hall _ hr rfl).symm
  rw [hslots, List.append_cons, Slots.withinReach_cons_concat_iff, List.length_append,
    List.length_replicate] at hreach
  revert hreach
  decide

end PacketHistory

end MediaSender
