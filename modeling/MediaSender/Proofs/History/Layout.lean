import MediaSender.Proofs.History.Slots
import MediaSender.Proofs.SequenceNumber

/-! # Entries by unwrapped number

Once the first slot has an unwrapped number, every slot has one, and the slots are a partial map
from unwrapped numbers to entries (`entryOf`).  Slots are `Laid` from `n` if their ends are
occupied and every entry lies in the slot of its own number.

* **Operations.** Each operation keeps the slots laid, from a number that it may move, and its
  effect on the map is what one expects of a map: insertion adds one entry, removal takes one
  away, culling takes away all before some number.
* **Look-up.** `find?` goes by the number modulo `2 ^ 16`.  What it finds has that number
  (`Laid.sequenceNumber_of_find?`), and among at most `2 ^ 15` slots it finds every entry
  (`Laid.find?_eq_some_iff`). -/

namespace MediaSender.Slots

open SequenceNumber (wrap)

/-- The entry with unwrapped number `k`, if the first slot belongs to the number `n`. -/
def entryOf (n : Int) (slots : Slots) (k : Int) : Option Entry := slots.entryAt (k - n)

/-- The ends are occupied, and every entry lies in the slot of its number, the first slot
belonging to the number `n`. -/
structure Laid (n : Int) (slots : Slots) : Prop where
  tidy : slots.Tidy
  numbered : ∀ k e, slots.entryOf n k = some e → e.sequenceNumber = wrap k

theorem laid_nil (n : Int) : Laid n [] where
  tidy := tidy_nil
  numbered k e h := by rw [entryOf, entryAt_nil] at h; cases h

theorem entryOf_add (n : Int) (slots : Slots) (i : Int) :
    slots.entryOf n (n + i) = slots.entryAt i := by
  unfold entryOf
  congr 1
  omega

theorem bounds_of_entryOf {n k : Int} {slots : Slots} {e : Entry}
    (h : slots.entryOf n k = some e) : n ≤ k ∧ k < n + slots.length := by
  have := bounds_of_entryAt h
  omega

/-! ### Addresses -/

theorem find?_eq_entryOf (n : Int) (slots : Slots) (s : SequenceNumber) :
    slots.find? s = slots.entryOf n (n + slots.position s) := (entryOf_add n slots _).symm

@[simp] theorem position_nil (s : SequenceNumber) : position [] s = 0 := rfl

theorem position_bounds (slots : Slots) (s : SequenceNumber) :
    -0x8000 ≤ slots.position s ∧ slots.position s ≤ 0x8000 := by
  unfold position
  split
  next => exact SequenceNumber.offset_bounds _ _
  next => decide

section laid

variable {n : Int} {slots : Slots}

theorem Laid.position_eq (h : Laid n slots) (hne : slots ≠ []) (s : SequenceNumber) :
    slots.position s = s.offset (wrap n) := by
  obtain ⟨e, rest, rfl⟩ := h.tidy.exists_cons hne
  have he : e.sequenceNumber = wrap n :=
    h.numbered n e (by rw [entryOf, Int.sub_self, entryAt_zero]; rfl)
  rw [← he]
  rfl

theorem Laid.wrap_add_position (h : Laid n slots) (hne : slots ≠ []) (s : SequenceNumber) :
    wrap (n + slots.position s) = s := by
  rw [h.position_eq hne, SequenceNumber.wrap_add_offset]

theorem ne_nil_of_entryOf {k : Int} {e : Entry} (h : slots.entryOf n k = some e) :
    slots ≠ [] := by
  rintro rfl
  rw [entryOf, entryAt_nil] at h
  cases h

theorem Laid.exists_ends (h : Laid n slots) (hne : slots ≠ []) :
    ∃ a b, slots.entryOf n n = some a ∧ slots.entryOf n (n + (slots.length - 1)) = some b := by
  obtain ⟨a, ha⟩ := Option.isSome_iff_exists.mp (h.tidy hne).1
  obtain ⟨b, hb⟩ := Option.isSome_iff_exists.mp (h.tidy hne).2
  exact ⟨a, b, by rw [entryOf, Int.sub_self, ha], by rw [entryOf_add, hb]⟩

/-- Slots whose entries lie less than `d` numbers apart are at most `d`. -/
theorem Laid.length_le (h : Laid n slots) {d : Nat}
    (hd : ∀ i j a b, slots.entryOf n i = some a → slots.entryOf n j = some b → j - i < d) :
    slots.length ≤ d := by
  by_cases hne : slots = []
  · rw [hne]
    exact Nat.zero_le _
  · obtain ⟨a, b, ha, hb⟩ := h.exists_ends hne
    have := hd _ _ _ _ ha hb
    omega

theorem Laid.sequenceNumber_of_find? (h : Laid n slots) {s : SequenceNumber} {e : Entry}
    (hf : slots.find? s = some e) : e.sequenceNumber = s := by
  rw [find?_eq_entryOf n] at hf
  rw [h.numbered _ _ hf, h.wrap_add_position (ne_nil_of_entryOf hf)]

/-- Among at most half a circle of slots, the position of a number is its distance from the
first one. -/
theorem Laid.position_wrap (h : Laid n slots) (hl : slots.length ≤ 0x8000) {k : Int} {e : Entry}
    (hk : slots.entryOf n k = some e) : slots.position (wrap k) = k - n := by
  have hb := bounds_of_entryOf hk
  rw [h.position_eq (ne_nil_of_entryOf hk), SequenceNumber.offset_wrap (by omega) (by omega)]

theorem Laid.find?_eq_some_iff (h : Laid n slots) (hl : slots.length ≤ 0x8000)
    {s : SequenceNumber} {e : Entry} :
    slots.find? s = some e ↔ ∃ k, wrap k = s ∧ slots.entryOf n k = some e := by
  constructor
  · intro hf
    rw [find?_eq_entryOf n] at hf
    exact ⟨_, h.wrap_add_position (ne_nil_of_entryOf hf) s, hf⟩
  · rintro ⟨k, rfl, hk⟩
    have e : n + slots.position (wrap k) = k := by
      rw [h.position_wrap hl hk]
      omega
    rw [find?_eq_entryOf n, e, hk]

/-- Slots that span no more than a circle hold no number twice. -/
theorem Laid.eq_of_sequenceNumber_eq (h : Laid n slots) (hl : slots.length ≤ 0x10000)
    {j k : Int} {a b : Entry} (ha : slots.entryOf n j = some a) (hb : slots.entryOf n k = some b)
    (e : a.sequenceNumber = b.sequenceNumber) : j = k := by
  have hj := bounds_of_entryOf ha
  have hk := bounds_of_entryOf hb
  rw [h.numbered _ _ ha, h.numbered _ _ hb] at e
  exact SequenceNumber.wrap_inj (by omega) (by omega) e

/-! ### Changing an entry -/

theorem entryOf_update (n : Int) (slots : Slots) (s : SequenceNumber) (f : Entry → Entry)
    (j : Int) :
    (slots.update s f).entryOf n j =
      if j = n + slots.position s then (slots.entryOf n j).map f else slots.entryOf n j := by
  unfold update entryOf
  split
  next hp =>
    split
    next hj =>
      rw [entryAt_neg (by omega)]
      rfl
    next => rfl
  next hp =>
    rw [entryAt_modify (by omega)]
    exact if_congr (by omega) rfl rfl

theorem length_update (slots : Slots) (s : SequenceNumber) (f : Entry → Entry) :
    (slots.update s f).length = slots.length := by
  unfold update
  split
  next => rfl
  next => rw [List.length_modify]

theorem entryOf_updateLast (n : Int) (slots : Slots) (f : Entry → Entry) (j : Int) :
    (slots.updateLast f).entryOf n j =
      if j = n + (slots.length - 1) then (slots.entryOf n j).map f else slots.entryOf n j := by
  unfold updateLast entryOf
  by_cases hl : slots.length = 0
  · rw [List.length_eq_zero_iff.mp hl]
    simp
  · have e : slots.length - 1 = ((slots.length : Int) - 1).toNat := by omega
    rw [e, entryAt_modify (by omega)]
    exact if_congr (by omega) rfl rfl

theorem length_updateLast (slots : Slots) (f : Entry → Entry) :
    (slots.updateLast f).length = slots.length := List.length_modify ..

/-- A change that keeps the sequence number of the entries, at some places, keeps the slots
laid. -/
theorem Laid.of_map (h : Laid n slots) {slots' : Slots} {f : Entry → Entry}
    (hf : ∀ e, (f e).sequenceNumber = e.sequenceNumber) (hl : slots'.length = slots.length)
    (P : Int → Prop) [DecidablePred P]
    (hm : ∀ j, slots'.entryOf n j =
      if P j then (slots.entryOf n j).map f else slots.entryOf n j) : Laid n slots' := by
  have hs : ∀ j, (slots'.entryOf n j).isSome = (slots.entryOf n j).isSome := by
    intro j
    rw [hm]
    split <;> simp
  have hat : ∀ i, (slots'.entryAt i).isSome = (slots.entryAt i).isSome := by
    intro i
    have hi := hs (n + i)
    rwa [entryOf_add, entryOf_add] at hi
  constructor
  · intro hne
    have hne' : slots ≠ [] := by
      intro h0
      rw [h0, List.length_nil, List.length_eq_zero_iff] at hl
      exact hne hl
    rw [hat, hat, hl]
    exact h.tidy hne'
  · intro k e hk
    rw [hm] at hk
    split at hk
    next =>
      obtain ⟨d, hd, rfl⟩ := Option.map_eq_some_iff.mp hk
      rw [hf, h.numbered k d hd]
    next => exact h.numbered k e hk

theorem Laid.update (h : Laid n slots) (s : SequenceNumber) {f : Entry → Entry}
    (hf : ∀ e, (f e).sequenceNumber = e.sequenceNumber) : Laid n (slots.update s f) :=
  h.of_map hf (length_update _ _ _) (fun j => j = n + slots.position s) (entryOf_update n slots s f)

theorem Laid.updateLast (h : Laid n slots) {f : Entry → Entry}
    (hf : ∀ e, (f e).sequenceNumber = e.sequenceNumber) : Laid n (slots.updateLast f) :=
  h.of_map hf (length_updateLast _ _) (fun j => j = n + (slots.length - 1))
    (entryOf_updateLast n slots f)

/-! ### Removing an entry -/

theorem Laid.removeAt (h : Laid n slots) {k : Int} (hk : n ≤ k) :
    ∃ n', n ≤ n' ∧ n' + (slots.removeAt (k - n)).length ≤ n + slots.length ∧
      Laid n' (slots.removeAt (k - n)) ∧
      ∀ j, (slots.removeAt (k - n)).entryOf n' j = if j = k then none else slots.entryOf n j := by
  obtain ⟨d, hd, hat⟩ := exists_entryAt_removeAt slots (i := k - n) (by omega)
  have hof : ∀ j, (slots.removeAt (k - n)).entryOf (n + d) j =
      if j = k then none else slots.entryOf n j := by
    intro j
    have e : j - (n + d) = j - n - d := by omega
    rw [entryOf, e, hat]
    exact if_congr (by omega) rfl rfl
  refine ⟨n + d, by omega, by omega, ⟨tidy_removeAt _ _, fun j e hj => ?_⟩, hof⟩
  rw [hof] at hj
  split at hj
  next => cases hj
  next => exact h.numbered j e hj

/-! ### Inserting an entry -/

theorem Laid.place (h : Laid n slots) {k : Int} {e : Entry} (hk : e.sequenceNumber = wrap k)
    (h0 : slots = [] → k = n) :
    Laid (min k n) (slots.place (k - n) e) ∧
      ∀ j, (slots.place (k - n) e).entryOf (min k n) j =
        if j = k then some e else slots.entryOf n j := by
  have hof : ∀ j, (slots.place (k - n) e).entryOf (min k n) j =
      if j = k then some e else slots.entryOf n j := by
    intro j
    have e1 : j - min k n = j - n - min (k - n) 0 := by omega
    rw [entryOf, e1, entryAt_place]
    exact if_congr (by omega) rfl rfl
  refine ⟨⟨h.tidy.place e fun h1 => by rw [h0 h1, Int.sub_self], fun j d hj => ?_⟩, hof⟩
  rw [hof] at hj
  split at hj
  next hjk =>
    cases hj
    rw [hk, hjk]
  next => exact h.numbered j d hj

/-- The slots without the entry of `s`. -/
def vacated (slots : Slots) (s : SequenceNumber) : Slots :=
  if (slots.find? s).isSome then slots.removeAt (slots.position s) else slots

theorem insert_eq (slots : Slots) (e : Entry) :
    slots.insert e = (slots.vacated e.sequenceNumber).place
      ((slots.vacated e.sequenceNumber).position e.sequenceNumber) e := rfl

/-- Taking the entry of `s` out moves the first slot, but not the place where `s` belongs. -/
theorem Laid.vacated (h : Laid n slots) (hl : slots.length ≤ 0x8000) {k : Int}
    (hk : slots ≠ [] → k = n + slots.position (wrap k)) :
    ∃ m, Laid m (slots.vacated (wrap k)) ∧ (slots.vacated (wrap k)).length ≤ slots.length ∧
      (slots.vacated (wrap k)).position (wrap k) = k - m ∧
      (slots.vacated (wrap k) = [] → k = m) ∧
      ∀ j, j ≠ k → (slots.vacated (wrap k)).entryOf m j = slots.entryOf n j := by
  -- Without slots any number may be that of the first one, so `k` is.
  by_cases hnil : slots.vacated (wrap k) = []
  · rw [hnil]
    refine ⟨k, laid_nil k, by simp, by simp, fun _ => rfl, fun j hj => ?_⟩
    rw [entryOf, entryAt_nil]
    unfold Slots.vacated at hnil
    split at hnil
    next hf =>
      obtain ⟨d, hd⟩ := Option.isSome_iff_exists.mp hf
      rw [find?_eq_entryOf n] at hd
      have hkn := hk (ne_nil_of_entryOf hd)
      rw [← hkn] at hd
      have hp : slots.position (wrap k) = k - n := by omega
      rw [hp] at hnil
      obtain ⟨m, -, -, -, hm⟩ := h.removeAt (bounds_of_entryOf hd).1
      have := hm j
      rw [hnil, if_neg hj, entryOf, entryAt_nil] at this
      exact this
    next =>
      rw [hnil, entryOf, entryAt_nil]
  · unfold Slots.vacated at hnil ⊢
    split
    next hf =>
      rw [if_pos hf] at hnil
      obtain ⟨d, hd⟩ := Option.isSome_iff_exists.mp hf
      rw [find?_eq_entryOf n] at hd
      have hkn := hk (ne_nil_of_entryOf hd)
      rw [← hkn] at hd
      have hb := bounds_of_entryOf hd
      have hp : slots.position (wrap k) = k - n := by omega
      rw [hp] at hnil ⊢
      obtain ⟨m, hnm, hlen, hm, hof⟩ := h.removeAt hb.1
      have hpos := List.length_pos_iff.mpr hnil
      refine ⟨m, hm, by omega, ?_, fun h0 => absurd h0 hnil, fun j hj => ?_⟩
      · rw [hm.position_eq hnil, SequenceNumber.offset_wrap (by omega) (by omega)]
      · rw [hof, if_neg hj]
    next hf =>
      rw [if_neg hf] at hnil
      have hkn := hk hnil
      exact ⟨n, h, Nat.le_refl _, by omega, fun h0 => absurd h0 hnil, fun _ _ => rfl⟩

/-- Insertion adds one entry to the map, and replaces the one that had its number. -/
theorem Laid.insert (h : Laid n slots) (hl : slots.length ≤ 0x8000) {k : Int} {e : Entry}
    (he : e.sequenceNumber = wrap k) (hk : slots ≠ [] → k = n + slots.position (wrap k)) :
    ∃ n', Laid n' (slots.insert e) ∧
      ∀ j, (slots.insert e).entryOf n' j = if j = k then some e else slots.entryOf n j := by
  obtain ⟨m, hm, -, hp, h0, hof⟩ := h.vacated hl hk
  obtain ⟨hlaid, hplace⟩ := hm.place he h0
  rw [insert_eq, he, hp]
  refine ⟨_, hlaid, fun j => ?_⟩
  rw [hplace]
  by_cases hj : j = k
  · rw [if_pos hj, if_pos hj]
  · rw [if_neg hj, if_neg hj, hof j hj]

/-- An insertion into slots from `n` puts `e` under the unwrapped number `k`, and leaves slots from
`n'`. -/
structure Inserted (n : Int) (slots : Slots) (e : Entry) (k n' : Int) : Prop where
  number : e.sequenceNumber = wrap k
  place : slots ≠ [] → k = n + slots.position e.sequenceNumber
  laid : Laid n' (slots.insert e)
  entryOf_eq : ∀ j,
    (slots.insert e).entryOf n' j = if j = k then some e else slots.entryOf n j

theorem Laid.exists_inserted (h : Laid n slots) (hl : slots.length ≤ 0x8000) (e : Entry) :
    ∃ k n', Inserted n slots e k n' := by
  obtain ⟨k, hk, hplace⟩ : ∃ k, e.sequenceNumber = wrap k ∧
      (slots ≠ [] → k = n + slots.position e.sequenceNumber) := by
    by_cases hne : slots = []
    · exact ⟨e.sequenceNumber.toNat, by simp, fun h0 => absurd hne h0⟩
    · exact ⟨_, (h.wrap_add_position hne e.sequenceNumber).symm, fun _ => rfl⟩
  obtain ⟨n', hlaid, hof⟩ := h.insert hl hk (by rwa [← hk])
  exact ⟨k, n', hk, hplace, hlaid, hof⟩

/-- An entry with another number than the new one lies in another place. -/
theorem Inserted.ne_of_number_ne {n' k j : Int} {d e : Entry} (hi : Inserted n slots e k n')
    (h : Laid n slots) (hd : slots.entryOf n j = some d)
    (hne : d.sequenceNumber ≠ e.sequenceNumber) : j ≠ k := by
  rintro rfl
  exact hne ((h.numbered j d hd).trans hi.number.symm)

theorem length_insert_le (slots : Slots) (e : Entry) :
    (slots.insert e).length ≤ max slots.length 1 + 0x8000 := by
  have hv : (slots.vacated e.sequenceNumber).length ≤ slots.length := by
    unfold Slots.vacated
    split
    next hf =>
      have hp : 0 ≤ slots.position e.sequenceNumber := by
        by_contra hp
        rw [find?, entryAt_neg (by omega)] at hf
        cases hf
      obtain ⟨d, hd, -⟩ := slots.exists_entryAt_removeAt hp
      omega
    next => exact Nat.le_refl _
  have hb := (slots.vacated e.sequenceNumber).position_bounds e.sequenceNumber
  have hlen := (slots.vacated e.sequenceNumber).length_place
    ((slots.vacated e.sequenceNumber).position e.sequenceNumber) e
  rw [← insert_eq] at hlen
  omega

/-! ### Culling -/

/-- Culling moves the first slot and takes away the entries before it. -/
theorem Laid.cull (h : Laid n slots) (numberToStore : Nat) (δ : TimeDelta) (now : Timestamp) :
    ∃ n', n ≤ n' ∧ n' + (slots.cull numberToStore δ now).length = n + slots.length ∧
      Laid n' (slots.cull numberToStore δ now) ∧
      ∀ j, (slots.cull numberToStore δ now).entryOf n' j =
        if j < n' then none else slots.entryOf n j := by
  obtain ⟨d, hd, hat⟩ := slots.exists_entryAt_cull numberToStore δ now
  have hof : ∀ j, (slots.cull numberToStore δ now).entryOf (n + d) j =
      if j < n + d then none else slots.entryOf n j := by
    intro j
    have e : j - (n + d) = j - n - d := by omega
    rw [entryOf, e, hat]
    exact if_congr (by omega) rfl rfl
  refine ⟨n + d, by omega, by omega, ⟨h.tidy.cull _ _ _, fun j e hj => ?_⟩, hof⟩
  rw [hof] at hj
  split at hj
  next => cases hj
  next => exact h.numbered j e hj

end laid

end MediaSender.Slots
