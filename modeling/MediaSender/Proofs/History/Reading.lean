import Mathlib.Data.List.Sort
import MediaSender.Proofs.History.Layout
import MediaSender.Proofs.History.Ledger

/-! # Slots as sorted lists

Reading off the occupied slots with their unwrapped numbers gives a list of entries in increasing
order (`Slots.numberedFrom`).

* **Same entries.** A sorted list is determined by its members (`Slots.eq_numberedFrom`), so an
  operation on slots is compared with one on lists by its effect on single numbers.
* **Operations.** Reading turns culling, insertion, removal and changes of entries on slots into
  the operations of `Numbered`.  Where a sequence number is looked up, the slots must span at most
  half a circle. -/

namespace MediaSender

open SequenceNumber (wrap)

/-! ### Sorted lists of entries -/

namespace Numbered

/-- The numbers increase. -/
def Sorted (l : Numbered) : Prop := l.Pairwise fun x y => x.1 < y.1

theorem eq_of_mem_iff {l l' : Numbered} (h : l.Sorted) (h' : l'.Sorted)
    (hm : ∀ x, x ∈ l ↔ x ∈ l') : l = l' := by
  have : Std.Irrefl fun x y : Int × Entry => x.1 < y.1 := ⟨fun x => lt_irrefl x.1⟩
  have : Std.Antisymm fun x y : Int × Entry => x.1 < y.1 :=
    ⟨fun _ _ hxy hyx => absurd hxy (lt_asymm hyx)⟩
  exact List.Pairwise.eq_of_mem_iff h h' hm

theorem mem_insert {k : Int} {e : Entry} {l : Numbered} (hs : l.Sorted) (x : Int × Entry) :
    x ∈ l.insert k e ↔ x = (k, e) ∨ (x ∈ l ∧ x.1 ≠ k) := by
  induction l with
  | nil => simp [insert]
  | cons y rest ih =>
      obtain ⟨hy, hrest⟩ := List.pairwise_cons.mp hs
      have hgt : ∀ z ∈ rest, k ≤ y.1 → z.1 ≠ k := fun z hz hk => by
        have := hy z hz
        omega
      rw [insert]
      split
      next hlt =>
        have hyk : y.1 ≠ k := by omega
        simp only [List.mem_cons]
        constructor
        · rintro (rfl | rfl | hx)
          · exact .inl rfl
          · exact .inr ⟨.inl rfl, hyk⟩
          · exact .inr ⟨.inr hx, hgt x hx (by omega)⟩
        · rintro (rfl | ⟨rfl | hx, -⟩)
          · exact .inl rfl
          · exact .inr (.inl rfl)
          · exact .inr (.inr hx)
      next hlt =>
        split
        next heq =>
          simp only [List.mem_cons]
          constructor
          · rintro (rfl | hx)
            · exact .inl rfl
            · exact .inr ⟨.inr hx, hgt x hx (by omega)⟩
          · rintro (rfl | ⟨rfl | hx, hne⟩)
            · exact .inl rfl
            · exact absurd heq.symm hne
            · exact .inr hx
        next hne =>
          rw [List.mem_cons, ih hrest, List.mem_cons]
          constructor
          · rintro (rfl | rfl | ⟨hx, hk⟩)
            · exact .inr ⟨.inl rfl, fun h => hne h.symm⟩
            · exact .inl rfl
            · exact .inr ⟨.inr hx, hk⟩
          · rintro (rfl | ⟨rfl | hx, hk⟩)
            · exact .inr (.inl rfl)
            · exact .inl rfl
            · exact .inr (.inr ⟨hx, hk⟩)

theorem Sorted.insert {k : Int} {e : Entry} {l : Numbered} (hs : l.Sorted) :
    (l.insert k e).Sorted := by
  induction l with
  | nil => exact List.pairwise_singleton _ _
  | cons y rest ih =>
      obtain ⟨hy, hrest⟩ := List.pairwise_cons.mp hs
      rw [Numbered.insert]
      split
      next hlt =>
        refine List.pairwise_cons.mpr ⟨fun z hz => ?_, hs⟩
        rcases List.mem_cons.mp hz with rfl | hz
        · exact hlt
        · exact hlt.trans (hy z hz)
      next hlt =>
        split
        next heq => exact List.pairwise_cons.mpr ⟨fun z hz => heq ▸ hy z hz, hrest⟩
        next hne =>
          refine List.pairwise_cons.mpr ⟨fun z hz => ?_, ih hrest⟩
          rcases (mem_insert hrest z).mp hz with rfl | ⟨hz, -⟩
          · show y.1 < k
            omega
          · exact hy z hz

theorem Sorted.update {l : Numbered} (hs : l.Sorted) (s : SequenceNumber) (f : Entry → Entry) :
    (l.update s f).Sorted := by
  refine List.pairwise_map.mpr (hs.imp fun {x y} hxy => ?_)
  split <;> split <;> exact hxy

theorem mem_update {l : Numbered} {s : SequenceNumber} {f : Entry → Entry} {k : Int} {e : Entry} :
    (k, e) ∈ l.update s f ↔ ∃ d, (k, d) ∈ l ∧ e = if wrap k = s then f d else d := by
  unfold update
  rw [List.mem_map]
  constructor
  · rintro ⟨⟨j, d⟩, hx, he⟩
    split at he
    next hj =>
      cases he
      exact ⟨d, hx, by rw [if_pos hj]⟩
    next hj =>
      cases he
      exact ⟨e, hx, by rw [if_neg hj]⟩
  · rintro ⟨d, hd, rfl⟩
    refine ⟨(k, d), hd, ?_⟩
    split <;> rfl

end Numbered

/-! ### Reading the slots -/

namespace Slots

/-- The entries with their unwrapped numbers, the first slot belonging to the number `n`. -/
def numberedFrom (n : Int) : Slots → Numbered
  | [] => []
  | none :: rest => numberedFrom (n + 1) rest
  | some e :: rest => (n, e) :: numberedFrom (n + 1) rest

theorem entryOf_cons (n : Int) (slot : Option Entry) (rest : Slots) (k : Int) :
    entryOf n (slot :: rest) k = if k = n then slot else entryOf (n + 1) rest k := by
  unfold entryOf
  rw [entryAt_cons]
  by_cases hk : k = n
  · rw [if_pos (by omega), if_pos hk]
  · rw [if_neg (by omega), if_neg hk]
    congr 1
    omega

theorem entryOf_succ_self (n : Int) (rest : Slots) : entryOf (n + 1) rest n = none :=
  entryAt_neg (by omega)

theorem mem_numberedFrom {n : Int} {slots : Slots} {k : Int} {e : Entry} :
    (k, e) ∈ slots.numberedFrom n ↔ slots.entryOf n k = some e := by
  induction slots generalizing n with
  | nil => simp [numberedFrom, entryOf]
  | cons slot rest ih =>
      rw [entryOf_cons]
      cases slot with
      | none =>
          rw [numberedFrom, ih]
          split
          next hk => rw [hk, entryOf_succ_self]
          next => rfl
      | some d =>
          rw [numberedFrom, List.mem_cons, ih, Prod.mk.injEq]
          split
          next hk =>
            rw [hk, entryOf_succ_self]
            simp [eq_comm]
          next hk => simp [hk]

theorem sorted_numberedFrom (n : Int) (slots : Slots) : (slots.numberedFrom n).Sorted := by
  induction slots generalizing n with
  | nil => exact List.Pairwise.nil
  | cons slot rest ih =>
      cases slot with
      | none => exact ih _
      | some e =>
          refine List.pairwise_cons.mpr ⟨fun x hx => ?_, ih _⟩
          have hb := bounds_of_entryOf (mem_numberedFrom.mp hx)
          show n < x.1
          omega

/-- A sorted list with the entries of the slots is what is read from the slots. -/
theorem eq_numberedFrom {n : Int} {slots : Slots} {l : Numbered} (hs : l.Sorted)
    (hm : ∀ k e, (k, e) ∈ l ↔ slots.entryOf n k = some e) : l = slots.numberedFrom n :=
  Numbered.eq_of_mem_iff hs (sorted_numberedFrom n slots) fun _ =>
    (hm _ _).trans mem_numberedFrom.symm

theorem numberedFrom_append (n : Int) (a b : Slots) :
    numberedFrom n (a ++ b) = numberedFrom n a ++ numberedFrom (n + a.length) b := by
  induction a generalizing n with
  | nil => simp [numberedFrom]
  | cons slot a ih =>
      have e : n + 1 + (a.length : Int) = n + (a.length + 1) := by omega
      cases slot <;> simp [numberedFrom, ih, e]

theorem length_numberedFrom (n : Int) (slots : Slots) :
    (slots.numberedFrom n).length = slots.countP Option.isSome := by
  induction slots generalizing n with
  | nil => rfl
  | cons slot rest ih => cases slot <;> simp [numberedFrom, ih]

theorem isEmpty_numberedFrom (n : Int) (slots : Slots) :
    (slots.numberedFrom n).isEmpty = slots.all Option.isNone := by
  induction slots generalizing n with
  | nil => rfl
  | cons slot rest ih => cases slot <;> simp [numberedFrom, ih]

/-- With an occupied last slot, the last number is that of the last slot. -/
theorem getLast?_numberedFrom {n : Int} {slots : Slots} {e : Entry}
    (h : slots.getLast? = some (some e)) :
    (slots.numberedFrom n).getLast? = some (n + (slots.length - 1), e) := by
  obtain ⟨init, rfl⟩ := List.getLast?_eq_some_iff.mp h
  rw [numberedFrom_append, numberedFrom, numberedFrom, List.getLast?_concat, List.length_append]
  congr 2
  simp

theorem span_numberedFrom_cons {n : Int} {e : Entry} {rest : Slots}
    (h : (some e :: rest : Slots).getLast? ≠ some none) :
    (numberedFrom n (some e :: rest)).span = rest.length + 1 := by
  obtain ⟨d, hd⟩ : ∃ d, (some e :: rest : Slots).getLast? = some (some d) := by
    cases hl : (some e :: rest : Slots).getLast? with
    | none => simp at hl
    | some slot =>
        cases slot with
        | none => exact absurd hl h
        | some d => exact ⟨d, rfl⟩
  have hlast := getLast?_numberedFrom (n := n) hd
  have hhead : (numberedFrom n (some e :: rest)).head? = some (n, e) := rfl
  unfold Numbered.span
  rw [hhead, hlast]
  simp only [List.length_cons]
  omega

/-! ### Operations on slots and lists -/

theorem numberedFrom_cull (numberToStore : Nat) (δ : TimeDelta) (now : Timestamp) {n n' : Int}
    {slots : Slots} (hl : slots.getLast? ≠ some none)
    (hn : n' + (slots.cull numberToStore δ now).length = n + slots.length) :
    (slots.cull numberToStore δ now).numberedFrom n' =
      (slots.numberedFrom n).cull numberToStore δ now := by
  induction slots generalizing n with
  | nil => rfl
  | cons slot rest ih =>
      have hrest : rest.getLast? ≠ some none := by
        intro h0
        rw [List.getLast?_cons, h0] at hl
        exact hl rfl
      rw [List.length_cons] at hn
      cases slot with
      | none =>
          rw [cull] at hn ⊢
          exact ih hrest (by omega)
      | some e =>
          have hspan := span_numberedFrom_cons (n := n) hl
          rw [numberedFrom] at hspan
          rw [numberedFrom, Numbered.cull, hspan]
          by_cases hg : Retention.givesUp numberToStore δ now (rest.length + 1) e
          · rw [cull, if_pos hg] at hn ⊢
            rw [if_pos hg]
            exact ih hrest (by omega)
          · rw [cull, if_neg hg, List.length_cons] at hn
            have e1 : n' = n := by omega
            rw [cull, if_neg hg, if_neg hg, e1, numberedFrom]

theorem Tidy.numberedFrom_updateLast {slots : Slots} (ht : slots.Tidy) (n : Int)
    (f : Entry → Entry) :
    (slots.updateLast f).numberedFrom n = (slots.numberedFrom n).updateLast f := by
  by_cases hne : slots = []
  · subst hne
    rfl
  · obtain ⟨e, he⟩ := ht.getLast?_join hne
    obtain ⟨init, rfl⟩ := List.getLast?_eq_some_iff.mp he
    have hu : updateLast (init ++ [some e]) f = init ++ [some (f e)] := by
      rw [updateLast, List.modify_eq_take_cons_drop (by simp)]
      simp
    rw [hu, numberedFrom_append, numberedFrom_append]
    simp [numberedFrom, Numbered.updateLast]

section laid

variable {n : Int} {slots : Slots}

/-- Among at most half a circle of slots, an entry has the number `s` exactly if it lies where
`s` is looked up. -/
theorem Laid.wrap_eq_iff (h : Laid n slots) (hl : slots.length ≤ 0x8000) {k : Int} {e : Entry}
    (hk : slots.entryOf n k = some e) {s : SequenceNumber} :
    wrap k = s ↔ k = n + slots.position s := by
  constructor
  · rintro rfl
    rw [h.position_wrap hl hk]
    omega
  · rintro rfl
    exact h.wrap_add_position (ne_nil_of_entryOf hk) s

theorem Laid.find?_numberedFrom (h : Laid n slots) (hl : slots.length ≤ 0x8000)
    (s : SequenceNumber) : (slots.numberedFrom n).find? s = slots.find? s := by
  have hto : ∀ {e}, (slots.numberedFrom n).find? s = some e → slots.find? s = some e := by
    intro e he
    obtain ⟨⟨k, d⟩, hx, rfl⟩ := Option.map_eq_some_iff.mp he
    have hk : wrap k = s := by simpa using List.find?_some hx
    exact (h.find?_eq_some_iff hl).mpr
      ⟨k, hk, mem_numberedFrom.mp (List.mem_of_find?_eq_some hx)⟩
  cases hs : slots.find? s with
  | some e =>
      obtain ⟨k, hk, he⟩ := (h.find?_eq_some_iff hl).mp hs
      cases hf : (slots.numberedFrom n).find? s with
      | some d => rw [← hto hf, hs]
      | none =>
          rw [Numbered.find?, Option.map_eq_none_iff, List.find?_eq_none] at hf
          exact absurd (by simpa using hk) (hf _ (mem_numberedFrom.mpr he))
  | none =>
      cases hf : (slots.numberedFrom n).find? s with
      | some d => rw [hto hf] at hs; cases hs
      | none => rfl

theorem Laid.numberedFrom_update (h : Laid n slots) (hl : slots.length ≤ 0x8000)
    (s : SequenceNumber) (f : Entry → Entry) :
    (slots.update s f).numberedFrom n = (slots.numberedFrom n).update s f := by
  refine (eq_numberedFrom ((sorted_numberedFrom n slots).update s f) fun k e => ?_).symm
  rw [Numbered.mem_update, entryOf_update]
  constructor
  · rintro ⟨d, hd, rfl⟩
    rw [mem_numberedFrom] at hd
    rw [hd]
    by_cases hk : wrap k = s
    · rw [if_pos hk, if_pos ((h.wrap_eq_iff hl hd).mp hk)]
      rfl
    · rw [if_neg hk, if_neg fun h0 => hk ((h.wrap_eq_iff hl hd).mpr h0)]
  · intro he
    split at he
    next hk =>
      obtain ⟨d, hd, rfl⟩ := Option.map_eq_some_iff.mp he
      exact ⟨d, mem_numberedFrom.mpr hd, by rw [if_pos ((h.wrap_eq_iff hl hd).mpr hk)]⟩
    next hk =>
      exact ⟨e, mem_numberedFrom.mpr he, by rw [if_neg fun h0 => hk ((h.wrap_eq_iff hl he).mp h0)]⟩

theorem Laid.numberedFrom_insert {n' k : Int} {e : Entry}
    (hof : ∀ j, (slots.insert e).entryOf n' j = if j = k then some e else slots.entryOf n j) :
    (slots.insert e).numberedFrom n' = (slots.numberedFrom n).insert k e := by
  refine (eq_numberedFrom (sorted_numberedFrom n slots).insert fun j d => ?_).symm
  rw [Numbered.mem_insert (sorted_numberedFrom n slots), mem_numberedFrom, hof, Prod.mk.injEq]
  split
  next hj => simp [hj, eq_comm]
  next hj => simp [hj]

theorem numberedFrom_removeAt {n' k : Int} {i : Int}
    (hof : ∀ j, (slots.removeAt i).entryOf n' j = if j = k then none else slots.entryOf n j) :
    (slots.removeAt i).numberedFrom n' =
      (slots.numberedFrom n).filter fun x => decide (x.1 ≠ k) := by
  refine (eq_numberedFrom ((sorted_numberedFrom n slots).filter _) fun j d => ?_).symm
  rw [List.mem_filter, mem_numberedFrom, hof]
  split
  next hj => simp [hj]
  next hj => simp [hj]

end laid

end Slots

end MediaSender
