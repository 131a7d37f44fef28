import Mathlib.Data.Int.Order.Basic
import MediaSender.History.Culling

/-! # Entries by slot

What each operation on the slots does to the entries, read slot by slot.

* **Shift.** An operation that drops `d` slots at the front, or puts some there, moves every entry
  by as many slots, and so the entry that was in slot `j` is found in slot `j - d` afterwards.
* **Occupied ends.** `Tidy` slots are empty or begin and end with an entry; it is what makes the
  number of slots the distance from the oldest to the newest entry. -/

namespace MediaSender

theorem Retention.givesUp_of_maxSlots_le {numberToStore : Nat} {δ : TimeDelta} {now : Timestamp}
    {n : Nat} {e : Entry} (h : maxSlots ≤ n) : givesUp numberToStore δ now n e = true := by
  simp [givesUp, h]

namespace Slots

/-! ### Lists of slots -/

@[simp] theorem entryAt_nil (i : Int) : entryAt [] i = none := by simp [entryAt]

theorem entryAt_neg {slots : Slots} {i : Int} (h : i < 0) : slots.entryAt i = none := by
  simp [entryAt, h]

theorem entryAt_of_nonneg {slots : Slots} {i : Int} (h : 0 ≤ i) :
    slots.entryAt i = (slots[i.toNat]?).join := by
  rw [entryAt, if_neg (by omega)]

theorem entryAt_natCast (slots : Slots) (i : Nat) : slots.entryAt i = (slots[i]?).join := by
  rw [entryAt_of_nonneg (by omega), Int.toNat_natCast]

theorem entryAt_of_length_le {slots : Slots} {i : Int} (h : (slots.length : Int) ≤ i) :
    slots.entryAt i = none := by
  rw [entryAt_of_nonneg (by omega), List.getElem?_eq_none (by omega), Option.join_none]

theorem bounds_of_entryAt {slots : Slots} {i : Int} {e : Entry} (h : slots.entryAt i = some e) :
    0 ≤ i ∧ i < slots.length := by
  constructor
  · by_contra hi
    rw [entryAt_neg (by omega)] at h
    cases h
  · by_contra hi
    rw [entryAt_of_length_le (by omega)] at h
    cases h

theorem entryAt_cons (slot : Option Entry) (rest : Slots) (i : Int) :
    entryAt (slot :: rest) i = if i = 0 then slot else rest.entryAt (i - 1) := by
  rcases lt_trichotomy i 0 with hi | rfl | hi
  · rw [entryAt_neg hi, if_neg (by omega), entryAt_neg (by omega)]
  · simp [entryAt]
  · obtain ⟨k, rfl⟩ : ∃ k : Nat, i = k + 1 := ⟨(i - 1).toNat, by omega⟩
    have e : (k : Int) + 1 = ((k + 1 : Nat) : Int) := by omega
    rw [if_neg (by omega), Int.add_sub_cancel, e, entryAt_natCast, entryAt_natCast,
      List.getElem?_cons_succ]

theorem entryAt_append (a b : Slots) (i : Int) :
    entryAt (a ++ b) i = if i < a.length then a.entryAt i else b.entryAt (i - a.length) := by
  induction a generalizing i with
  | nil =>
      by_cases h : i < 0
      · simp [entryAt_neg h]
      · simp [h]
  | cons slot a ih =>
      rw [List.cons_append, entryAt_cons, entryAt_cons, ih, List.length_cons]
      by_cases h0 : i = 0
      · rw [if_pos h0, if_pos h0, if_pos (by omega)]
      · rw [if_neg h0, if_neg h0]
        by_cases hi : i < (a.length + 1 : Nat)
        · rw [if_pos (by omega), if_pos hi]
        · rw [if_neg (by omega), if_neg hi]
          congr 1
          omega

@[simp] theorem entryAt_replicate_none (m : Nat) (i : Int) :
    entryAt (List.replicate m none) i = none := by
  induction m generalizing i with
  | zero => simp
  | succ m ih => rw [List.replicate_succ, entryAt_cons, ih, ite_self]

theorem entryAt_set {slots : Slots} {i : Int} (hi : 0 ≤ i) (slot : Option Entry) (j : Int) :
    entryAt (slots.set i.toNat slot) j =
      if j = i ∧ i < slots.length then slot else slots.entryAt j := by
  rcases lt_or_ge j 0 with hj | hj
  · rw [entryAt_neg hj, entryAt_neg hj, if_neg (by omega)]
  · rw [entryAt_of_nonneg hj, entryAt_of_nonneg hj, List.getElem?_set]
    by_cases h : j = i
    · subst h
      by_cases hl : j < slots.length
      · rw [if_pos rfl, if_pos (by omega), if_pos ⟨rfl, hl⟩]
        rfl
      · rw [if_pos rfl, if_neg (by omega), if_neg (by omega),
          List.getElem?_eq_none (by omega)]
    · rw [if_neg (by omega), if_neg (by omega)]

theorem entryAt_modify {slots : Slots} {i : Int} (hi : 0 ≤ i) (f : Entry → Entry) (j : Int) :
    entryAt (slots.modify i.toNat (Option.map f)) j =
      if j = i then (slots.entryAt j).map f else slots.entryAt j := by
  rcases lt_or_ge j 0 with hj | hj
  · rw [entryAt_neg hj, entryAt_neg hj, if_neg (by omega)]
  · rw [entryAt_of_nonneg hj, entryAt_of_nonneg hj, List.getElem?_modify]
    by_cases h : j = i
    · subst h
      rw [if_pos rfl]
      cases slots[j.toNat]? with
      | none => simp
      | some slot => simp
    · rw [if_neg h]
      cases slots[j.toNat]? with
      | none => rfl
      | some slot => simp [show i.toNat ≠ j.toNat by omega]

/-! ### Occupied ends -/

/-- There are no slots, or the first and the last one hold entries. -/
def Tidy (slots : Slots) : Prop :=
  slots ≠ [] → (slots.entryAt 0).isSome ∧ (slots.entryAt (slots.length - 1)).isSome

theorem tidy_nil : Tidy [] := fun h => absurd rfl h

theorem entryAt_zero (slots : Slots) : slots.entryAt 0 = slots.head?.join := by
  cases slots with
  | nil => rfl
  | cons slot rest => rw [entryAt_cons, if_pos rfl]; rfl

theorem entryAt_last (slots : Slots) :
    slots.entryAt (slots.length - 1) = slots.getLast?.join := by
  rcases List.eq_nil_or_concat slots with rfl | ⟨init, slot, rfl⟩
  · simp
  · rw [List.concat_eq_append, List.getLast?_concat, entryAt_append, List.length_append,
      if_neg (by simp), entryAt_cons, if_pos (by simp)]
    rfl

theorem Tidy.getLast?_join {slots : Slots} (ht : slots.Tidy) (h : slots ≠ []) :
    ∃ e, slots.getLast? = some (some e) := by
  obtain ⟨e, he⟩ := Option.isSome_iff_exists.mp (ht h).2
  rw [entryAt_last, Option.join_eq_some_iff] at he
  exact ⟨e, he⟩

theorem Tidy.exists_cons {slots : Slots} (ht : slots.Tidy) (h : slots ≠ []) :
    ∃ e rest, slots = some e :: rest := by
  obtain ⟨e, he⟩ := Option.isSome_iff_exists.mp (ht h).1
  cases slots with
  | nil => exact absurd rfl h
  | cons slot rest =>
      rw [entryAt_cons, if_pos rfl] at he
      exact ⟨e, rest, by rw [he]⟩

/-! ### Trimming -/

theorem entryAt_dropTrailing (slots : Slots) (i : Int) :
    slots.dropTrailing.entryAt i = slots.entryAt i := by
  induction slots generalizing i with
  | nil => rfl
  | cons slot rest ih =>
      rw [entryAt_cons, ← ih, dropTrailing]
      split
      next h =>
        rw [h, entryAt_nil]
        cases slot with
        | none => simp
        | some e => rw [if_neg (by simp), entryAt_cons, entryAt_nil]
      next => rw [entryAt_cons]

theorem length_dropTrailing_le (slots : Slots) : slots.dropTrailing.length ≤ slots.length := by
  induction slots with
  | nil => exact Nat.le_refl 0
  | cons slot rest ih =>
      rw [dropTrailing]
      split
      next => cases slot <;> simp
      next => simpa using ih

theorem isSome_entryAt_last_dropTrailing (slots : Slots) (h : slots.dropTrailing ≠ []) :
    (slots.dropTrailing.entryAt (slots.dropTrailing.length - 1)).isSome := by
  induction slots with
  | nil => exact absurd rfl h
  | cons slot rest ih =>
      rw [dropTrailing] at h ⊢
      split at h
      next =>
        cases slot with
        | none => exact absurd rfl h
        | some e => rfl
      next hne =>
        have hrest : (dropTrailing rest).length ≠ 0 := fun h0 => hne (List.length_eq_zero_iff.mp h0)
        rw [entryAt_cons, List.length_cons, if_neg (by omega)]
        have e : (((dropTrailing rest).length + 1 : Nat) : Int) - 1 - 1 =
            (dropTrailing rest).length - 1 := by omega
        rw [e]
        exact ih hne

theorem exists_entryAt_dropLeading (slots : Slots) :
    ∃ d : Nat, d + (slots.dropWhile Option.isNone).length = slots.length ∧
      ∀ j, entryAt (slots.dropWhile Option.isNone) (j - d) = slots.entryAt j := by
  induction slots with
  | nil => exact ⟨0, rfl, fun j => by simp⟩
  | cons slot rest ih =>
      cases slot with
      | none =>
          obtain ⟨d, hd, h⟩ := ih
          rw [List.dropWhile_cons_of_pos rfl]
          refine ⟨d + 1, by rw [List.length_cons]; omega, fun j => ?_⟩
          have e : j - ((d + 1 : Nat) : Int) = j - 1 - d := by omega
          rw [e, h, entryAt_cons]
          split
          next h0 => rw [entryAt_neg (by omega)]
          next => rfl
      | some e =>
          rw [List.dropWhile_cons_of_neg (by simp)]
          exact ⟨0, by omega, fun j => by simp⟩

theorem exists_entryAt_trim (slots : Slots) :
    ∃ d : Nat, d + slots.trim.length ≤ slots.length ∧
      ∀ j, slots.trim.entryAt (j - d) = slots.entryAt j := by
  obtain ⟨d, hd, h⟩ := slots.exists_entryAt_dropLeading
  refine ⟨d, ?_, fun j => ?_⟩
  · have := length_dropTrailing_le (slots.dropWhile Option.isNone)
    unfold trim
    omega
  · rw [trim, entryAt_dropTrailing, h]

theorem tidy_trim (slots : Slots) : slots.trim.Tidy := by
  intro hne
  refine ⟨?_, isSome_entryAt_last_dropTrailing _ hne⟩
  rw [trim, entryAt_dropTrailing, entryAt_zero]
  cases hd : slots.dropWhile Option.isNone with
  | nil => rw [trim, hd] at hne; exact absurd rfl hne
  | cons slot rest =>
      have := List.head?_dropWhile_not Option.isNone slots
      rw [hd] at this
      cases slot with
      | none => simp at this
      | some e => rfl

/-! ### Removal and placement -/

theorem tidy_removeAt (slots : Slots) (i : Int) : (slots.removeAt i).Tidy := tidy_trim _

theorem exists_entryAt_removeAt (slots : Slots) {i : Int} (hi : 0 ≤ i) :
    ∃ d : Nat, d + (slots.removeAt i).length ≤ slots.length ∧
      ∀ j, (slots.removeAt i).entryAt (j - d) = if j = i then none else slots.entryAt j := by
  obtain ⟨d, hd, h⟩ := exists_entryAt_trim (slots.set i.toNat none)
  rw [List.length_set] at hd
  refine ⟨d, hd, fun j => ?_⟩
  rw [removeAt, h, entryAt_set hi]
  by_cases hj : j = i
  · subst hj
    rw [if_pos rfl, ite_eq_left_iff]
    exact fun hl => entryAt_of_length_le (by omega)
  · rw [if_neg (fun h => hj h.1), if_neg hj]

theorem length_place (slots : Slots) (i : Int) (e : Entry) :
    ((slots.place i e).length : Int) = max (slots.length : Int) (i + 1) - min i 0 := by
  unfold place
  split
  next => simp; omega
  next =>
    split
    next => simp; omega
    next => simp; omega

theorem entryAt_place (slots : Slots) (i : Int) (e : Entry) (j : Int) :
    (slots.place i e).entryAt (j - min i 0) = if j = i then some e else slots.entryAt j := by
  unfold place
  split
  next hi =>
    rw [entryAt_cons, entryAt_append, entryAt_replicate_none, List.length_replicate]
    by_cases hj : j = i
    · rw [if_pos (by omega), if_pos hj]
    · rw [if_neg (by omega), if_neg hj]
      split
      next => rw [entryAt_neg (by omega)]
      next => congr 1; omega
  next hi =>
    rw [min_eq_right (by omega), Int.sub_zero]
    split
    next hl =>
      rw [entryAt_append, entryAt_append, entryAt_replicate_none, entryAt_cons, entryAt_nil,
        List.length_replicate]
      by_cases hj : j = i
      · rw [if_pos hj, if_neg (by omega), if_neg (by omega), if_pos (by omega)]
      · rw [if_neg hj]
        split
        next => rfl
        next hj' =>
          have hne : j - slots.length - ((i.toNat - slots.length : Nat) : Int) ≠ 0 := by omega
          rw [entryAt_of_length_le (by omega), if_neg hne, ite_self]
    next hl =>
      rw [entryAt_set (by omega)]
      by_cases hj : j = i
      · rw [if_pos ⟨hj, by omega⟩, if_pos hj]
      · rw [if_neg (fun h => hj h.1), if_neg hj]

/-- Among tidy slots every place leaves them tidy; without slots only the first one does. -/
theorem Tidy.place {slots : Slots} (ht : slots.Tidy) {i : Int} (e : Entry)
    (hi : slots = [] → i = 0) : (slots.place i e).Tidy := by
  intro _
  have hat := slots.entryAt_place i e
  have hempty : slots.length = 0 → i = 0 := fun h => hi (List.length_eq_zero_iff.mp h)
  have hne : slots.length ≠ 0 → slots ≠ [] := fun h h' => h (by rw [h']; rfl)
  constructor
  · have h := hat (min i 0)
    rw [Int.sub_self] at h
    rw [h]
    split
    next => rfl
    next h0 =>
      have h1 : min i 0 = 0 := by omega
      rw [h1]
      exact (ht (hne (by omega))).1
  · have h := hat (max (slots.length : Int) (i + 1) - 1)
    have e1 : max (slots.length : Int) (i + 1) - 1 - min i 0 = (slots.place i e).length - 1 := by
      rw [length_place]
      omega
    rw [← e1, h]
    split
    next => rfl
    next h0 =>
      have h1 : max (slots.length : Int) (i + 1) - 1 = slots.length - 1 := by omega
      rw [h1]
      exact (ht (hne (by omega))).2

/-! ### Culling -/

theorem exists_entryAt_cull (numberToStore : Nat) (δ : TimeDelta) (now : Timestamp)
    (slots : Slots) :
    ∃ d : Nat, d + (slots.cull numberToStore δ now).length = slots.length ∧
      ∀ j, (slots.cull numberToStore δ now).entryAt (j - d) =
        if j < d then none else slots.entryAt j := by
  obtain ⟨front, h⟩ := slots.cull_suffix numberToStore δ now
  refine ⟨front.length, by rw [← h, List.length_append, h], fun j => ?_⟩
  split
  next hj => exact entryAt_neg (by omega)
  next hj => rw [← h, entryAt_append, if_neg hj, h]

theorem length_cull_lt (numberToStore : Nat) (δ : TimeDelta) (now : Timestamp) (slots : Slots) :
    (slots.cull numberToStore δ now).length < Retention.maxSlots := by
  induction slots with
  | nil => exact (by decide : 0 < Retention.maxSlots)
  | cons slot rest ih =>
      cases slot with
      | none => exact ih
      | some e =>
          rw [cull]
          split
          next => exact ih
          next h =>
            rw [List.length_cons]
            by_contra hl
            exact h (Retention.givesUp_of_maxSlots_le (Nat.le_of_not_lt hl))

theorem isSome_entryAt_zero_cull (numberToStore : Nat) (δ : TimeDelta) (now : Timestamp)
    (slots : Slots) (h : slots.cull numberToStore δ now ≠ []) :
    ((slots.cull numberToStore δ now).entryAt 0).isSome := by
  induction slots with
  | nil => exact absurd rfl h
  | cons slot rest ih =>
      cases slot with
      | none => exact ih h
      | some e =>
          by_cases hg : Retention.givesUp numberToStore δ now (rest.length + 1) e
          · rw [cull, if_pos hg] at h ⊢
            exact ih h
          · rw [cull, if_neg hg]
            rfl

theorem Tidy.cull {slots : Slots} (ht : slots.Tidy) (numberToStore : Nat) (δ : TimeDelta)
    (now : Timestamp) : (slots.cull numberToStore δ now).Tidy := by
  intro hne
  refine ⟨isSome_entryAt_zero_cull _ _ _ _ hne, ?_⟩
  obtain ⟨d, hd, h⟩ := slots.exists_entryAt_cull numberToStore δ now
  have hpos := List.length_pos_iff.mpr hne
  have e : ((slots.cull numberToStore δ now).length : Int) - 1 = slots.length - 1 - d := by omega
  rw [e, h, if_neg (by omega)]
  have hslots : slots ≠ [] := by
    intro h0
    have hl : slots.length = 0 := List.length_eq_zero_iff.mpr h0
    omega
  exact (ht hslots).2

end Slots

end MediaSender
