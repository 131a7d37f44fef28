import MediaSender.Proofs.Epoch.Timestamps
import MediaSender.Proofs.History.Entries

/-! # Stored packets on another clock

The slots of a packet history whose entries have their times told by another clock.

* **Slots.** Numbers, gaps and order have nothing to do with time, so each operation on the slots
  moves past `Slots.rebase`.
* **Culling.** Entries go when a time has passed since they were sent.  It is not negative, so the
  sum can only be too late to be represented, and then the exact one has not passed either
  (`Slots.Rebasable.cull_rebase`).
* **Times.** Every operation leaves times that have timestamps on the other clock, if those it finds
  and those it is given have (`Slots.Rebasable`). -/

namespace MediaSender

variable {k : Int}

/-- The packet with its capture time told by the other clock. -/
def RtpPacket.rebase (k : Int) (p : RtpPacket) : RtpPacket :=
  { p with captureTime := p.captureTime.rebase k }

/-! ### Entries and slots -/

namespace Entry

/-- The entry with its times told by the other clock. -/
def rebase (k : Int) (e : Entry) : Entry :=
  { e with
    packet := e.packet.rebase k
    sentAt := e.sentAt.rebase k
    lastTransmission := e.lastTransmission.rebase k }

/-- The times of the entry have timestamps on the other clock. -/
structure Rebasable (k : Int) (e : Entry) : Prop where
  captureTime : e.packet.captureTime.Rebasable k
  sentAt : e.sentAt.Rebasable k
  lastTransmission : e.lastTransmission.Rebasable k

variable {e : Entry} {now : Timestamp}

theorem Rebasable.rested_rebase (he : e.Rebasable k) (rtt : Option TimeDelta)
    (hnow : now.Rebasable k) : (e.rebase k).rested rtt (now.rebase k) = e.rested rtt now := by
  have hsince := he.lastTransmission.rebase_sub_rebase hnow
  unfold rested
  cases rtt with
  | none => rfl
  | some r =>
      show (_ || decide (r ≤ now.rebase k - e.lastTransmission.rebase k)) = _
      rw [hsince]
      rfl

theorem Rebasable.givesUp_rebase (he : e.Rebasable k) (hnow : now.Rebasable k) {δ : TimeDelta}
    (hδ : 0 ≤ δ) (numberToStore n : Nat) :
    Retention.givesUp numberToStore δ (now.rebase k) n (e.rebase k) =
      Retention.givesUp numberToStore δ now n e := by
  have hlong : 0 ≤ δ.times Retention.delayFactor := Quantity.times_nonneg hδ (by decide)
  have hold := he.sentAt.rebase_add_le_rebase hnow hδ
  have hveryOld := he.sentAt.rebase_add_le_rebase hnow hlong
  unfold Retention.givesUp
  show (_ || (!e.pending && decide (e.sentAt.rebase k + δ ≤ now.rebase k) &&
    (_ || decide (e.sentAt.rebase k + δ.times Retention.delayFactor ≤ now.rebase k)))) = _
  rw [decide_eq_decide.mpr hold, decide_eq_decide.mpr hveryOld]

end Entry

namespace Slots

/-- The slots with the times of their entries told by the other clock. -/
def rebase (k : Int) (slots : Slots) : Slots := slots.map (Option.map (·.rebase k))

/-- The times of the entries have timestamps on the other clock. -/
def Rebasable (k : Int) (slots : Slots) : Prop := ∀ e, some e ∈ slots → e.Rebasable k

theorem position_rebase (slots : Slots) (s : SequenceNumber) :
    (slots.rebase k).position s = slots.position s := by
  cases slots with
  | nil => rfl
  | cons slot rest => cases slot <;> rfl

theorem entryAt_rebase (slots : Slots) (i : Int) :
    (slots.rebase k).entryAt i = (slots.entryAt i).map (·.rebase k) := by
  unfold entryAt rebase
  split
  next => rfl
  next =>
    rw [List.getElem?_map]
    cases slots[i.toNat]? with
    | none => rfl
    | some slot => cases slot <;> rfl

theorem find?_rebase (slots : Slots) (s : SequenceNumber) :
    (slots.rebase k).find? s = (slots.find? s).map (·.rebase k) := by
  unfold find?
  rw [position_rebase, entryAt_rebase]

theorem dropTrailing_rebase (slots : Slots) :
    (slots.rebase k).dropTrailing = slots.dropTrailing.rebase k := by
  induction slots with
  | nil => rfl
  | cons slot rest ih =>
      have hcons : rebase k (slot :: rest) = slot.map (·.rebase k) :: rebase k rest := rfl
      rw [hcons, dropTrailing, dropTrailing, ih]
      cases dropTrailing rest with
      | nil => cases slot <;> rfl
      | cons _ _ => rfl

theorem isNone_comp_rebase :
    Option.isNone ∘ Option.map (·.rebase k) = (Option.isNone : Option Entry → Bool) := by
  funext slot
  cases slot <;> rfl

theorem trim_rebase (slots : Slots) : (slots.rebase k).trim = slots.trim.rebase k := by
  have hleading : (slots.rebase k).dropWhile Option.isNone =
      rebase k (slots.dropWhile Option.isNone) := by
    unfold rebase
    rw [List.dropWhile_map, isNone_comp_rebase]
  unfold trim
  rw [hleading, dropTrailing_rebase]

theorem removeAt_rebase (slots : Slots) (i : Int) :
    (slots.rebase k).removeAt i = (slots.removeAt i).rebase k := by
  have hset : (slots.rebase k).set i.toNat none = rebase k (slots.set i.toNat none) := by
    unfold rebase
    rw [List.map_set]
    rfl
  unfold removeAt
  rw [hset, trim_rebase]

section change

variable {f g : Entry → Entry} (hfg : ∀ e, g (e.rebase k) = (f e).rebase k)

include hfg

theorem modify_rebase (slots : Slots) (i : Nat) :
    (slots.rebase k).modify i (Option.map g) = rebase k (slots.modify i (Option.map f)) := by
  have hslot : ∀ slot : Option Entry, (slot.map (·.rebase k)).map g =
      (slot.map f).map (·.rebase k) := by
    intro slot
    cases slot with
    | none => rfl
    | some e => exact congrArg some (hfg e)
  unfold rebase
  induction slots generalizing i with
  | nil => cases i <;> rfl
  | cons slot rest ih =>
      cases i with
      | zero => exact congrArg (· :: _) (hslot slot)
      | succ i => exact congrArg (_ :: ·) (ih i)

theorem update_rebase (slots : Slots) (s : SequenceNumber) :
    (slots.rebase k).update s g = (slots.update s f).rebase k := by
  unfold update
  rw [position_rebase, modify_rebase hfg]
  split <;> rfl

theorem updateLast_rebase (slots : Slots) :
    (slots.rebase k).updateLast g = (slots.updateLast f).rebase k := by
  have hlength : (slots.rebase k).length = slots.length := List.length_map _
  unfold updateLast
  rw [hlength, modify_rebase hfg]

end change

theorem place_rebase (slots : Slots) (i : Int) (e : Entry) :
    (slots.rebase k).place i (e.rebase k) = (slots.place i e).rebase k := by
  have hlength : (slots.rebase k).length = slots.length := List.length_map _
  have hgap : ∀ n, rebase k (List.replicate n none) = List.replicate n none := by
    intro n
    unfold rebase
    rw [List.map_replicate]
    rfl
  have hcons : ∀ l, rebase k (some e :: l) = some (e.rebase k) :: rebase k l := fun _ => rfl
  have happend : ∀ a b : Slots, rebase k (a ++ b) = a.rebase k ++ b.rebase k :=
    fun _ _ => List.map_append
  unfold place
  rw [hlength]
  split
  next => rw [hcons, happend, hgap]
  next =>
    split
    next =>
      rw [happend, happend, hgap]
      rfl
    next =>
      unfold rebase
      rw [List.map_set]
      rfl

theorem insert_rebase (slots : Slots) (e : Entry) :
    (slots.rebase k).insert (e.rebase k) = (slots.insert e).rebase k := by
  have hnumber : (e.rebase k).sequenceNumber = e.sequenceNumber := rfl
  have hvacated : (slots.rebase k).vacated e.sequenceNumber =
      (slots.vacated e.sequenceNumber).rebase k := by
    unfold vacated
    rw [find?_rebase, Option.isSome_map, position_rebase, removeAt_rebase]
    split <;> rfl
  rw [insert_eq, insert_eq, hnumber, hvacated, position_rebase, place_rebase]

section rebasable

variable {slots : Slots} {now : Timestamp}

/-- Culling gives up the same entries on both clocks. -/
theorem Rebasable.cull_rebase (hs : slots.Rebasable k) (hnow : now.Rebasable k) {δ : TimeDelta}
    (hδ : 0 ≤ δ) (numberToStore : Nat) :
    (slots.rebase k).cull numberToStore δ (now.rebase k) =
      rebase k (slots.cull numberToStore δ now) := by
  induction slots with
  | nil => rfl
  | cons slot rest ih =>
      have hrest := ih fun e he => hs e (List.mem_cons_of_mem slot he)
      cases slot with
      | none => exact hrest
      | some e =>
          have hcons : rebase k (some e :: rest) = some (e.rebase k) :: rebase k rest := rfl
          have hlength : (rebase k rest).length = rest.length := List.length_map _
          have he := hs e List.mem_cons_self
          rw [hcons, cull, cull, hlength, he.givesUp_rebase hnow hδ, hrest]
          split <;> rfl

theorem Rebasable.modify (hs : slots.Rebasable k) {f : Entry → Entry}
    (hf : ∀ e, e.Rebasable k → (f e).Rebasable k) (i : Nat) :
    Rebasable k (slots.modify i (Option.map f)) := by
  intro e he
  obtain ⟨j, hj⟩ := List.mem_iff_getElem?.mp he
  rw [List.getElem?_modify] at hj
  obtain ⟨slot, hslot, hd⟩ := Option.map_eq_some_iff.mp hj
  have hmem : slot ∈ slots := List.mem_iff_getElem?.mpr ⟨j, hslot⟩
  split at hd
  next =>
    obtain ⟨d, hd', hfd⟩ := Option.map_eq_some_iff.mp hd
    rw [← hfd]
    exact hf d (hs d (hd' ▸ hmem))
  next => exact hs e (hd ▸ hmem)

theorem Rebasable.update (hs : slots.Rebasable k) {f : Entry → Entry}
    (hf : ∀ e, e.Rebasable k → (f e).Rebasable k) (s : SequenceNumber) :
    (slots.update s f).Rebasable k := by
  unfold Slots.update
  split
  next => exact hs
  next => exact hs.modify hf _

theorem Rebasable.place (hs : slots.Rebasable k) (i : Int) {e : Entry} (he : e.Rebasable k) :
    (slots.place i e).Rebasable k := by
  intro d hd
  unfold Slots.place at hd
  split at hd
  next =>
    simp only [List.mem_cons, List.mem_append, List.mem_replicate, Option.some.injEq, reduceCtorEq,
      and_false, false_or] at hd
    obtain rfl | hmem := hd
    · exact he
    · exact hs d hmem
  next =>
    split at hd
    next =>
      simp only [List.mem_append, List.mem_replicate, List.mem_singleton, Option.some.injEq,
        reduceCtorEq, and_false, false_or] at hd
      obtain hmem | rfl := hd
      · exact hs d hmem
      · exact he
    next =>
      obtain hmem | heq := List.mem_or_eq_of_mem_set hd
      · exact hs d hmem
      · rw [Option.some.inj heq]
        exact he

theorem Rebasable.insert (hs : slots.Rebasable k) {e : Entry} (he : e.Rebasable k) :
    (slots.insert e).Rebasable k := by
  have hvacated : (slots.vacated e.sequenceNumber).Rebasable k := by
    unfold vacated
    split
    next => exact fun d hd => hs d (mem_of_mem_removeAt hd)
    next => exact hs
  rw [insert_eq]
  exact hvacated.place _ he

end rebasable

end Slots

end MediaSender
