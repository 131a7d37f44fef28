import Mathlib.Computability.StateTransition
import MediaSender.Proofs.History.Lookup

/-! # What culling gives up

Culling is a recursion on the slots.  A sender runs it as a loop that looks at the front slot again
and again; here the loop is a transition function, and the two are compared.

* **Passes.** `Slots.cullPass` is one pass of the loop.  A removal goes through `Slots.removeAt`,
  which drops the gap behind the removed entry as well, so that the number of slots may fall by more
  than one.
* **Termination.** From slots with both ends occupied the loop ends, and leaves what `Slots.cull`
  leaves (`Slots.Tidy.eval_cullPass`).  Each pass with an entry in front removes it if and only if
  that is given up at the present number of slots (`Slots.cullPass_cons`).
* **Exactness.** So culling drops the slots before the first entry that is not given up
  (`Slots.CutAt`, `PacketHistory.Reachable.cull_exact`). -/

namespace MediaSender

/-- The reasons to give up the first of `n` slots: the slots are exhausted, or the entry does not
wait for a retransmission, is old enough, and is one too many or very old. -/
theorem Retention.givesUp_iff {numberToStore : Nat} {δ : TimeDelta} {now : Timestamp} {n : Nat}
    {e : Entry} :
    givesUp numberToStore δ now n e = true ↔
      maxSlots ≤ n ∨ e.pending = false ∧ e.sentAt + δ ≤ now ∧
        (numberToStore ≤ n ∨ e.sentAt + δ.times delayFactor ≤ now) := by
  simp [givesUp, and_assoc]

namespace Slots

variable {numberToStore : Nat} {δ : TimeDelta} {now : Timestamp} {slots : Slots}

theorem cull_cons_of_givesUp {e : Entry} {rest : Slots}
    (h : Retention.givesUp numberToStore δ now (rest.length + 1) e = true) :
    cull numberToStore δ now (some e :: rest) = rest.cull numberToStore δ now := if_pos h

theorem cull_cons_of_not_givesUp {e : Entry} {rest : Slots}
    (h : ¬Retention.givesUp numberToStore δ now (rest.length + 1) e = true) :
    cull numberToStore δ now (some e :: rest) = some e :: rest := if_neg h

/-! ### The loop -/

/-- One pass of the culling loop: the slots that it leaves, or nothing if the loop ends. -/
def cullPass (numberToStore : Nat) (δ : TimeDelta) (now : Timestamp) : Slots → Option Slots
  | [] => none
  | front :: rest =>
    if Retention.maxSlots ≤ rest.length + 1 then some (removeAt (front :: rest) 0)
    else
      match front with
      | none => some rest
      | some e =>
        if e.pending then none
        else if now < e.sentAt + δ then none
        else if
          numberToStore ≤ rest.length + 1 ∨ e.sentAt + δ.times Retention.delayFactor ≤ now then
          some (removeAt (front :: rest) 0)
        else none

/-- A pass with an entry in front removes it if it is given up, and ends the loop if not. -/
theorem cullPass_cons (numberToStore : Nat) (δ : TimeDelta) (now : Timestamp) (e : Entry)
    (rest : Slots) :
    cullPass numberToStore δ now (some e :: rest) =
      if Retention.givesUp numberToStore δ now (rest.length + 1) e then
        some (removeAt (some e :: rest) 0)
      else none := by
  have hlt : now < e.sentAt + δ ↔ ¬e.sentAt + δ ≤ now := Int.not_le.symm
  by_cases hfull : Retention.maxSlots ≤ rest.length + 1
  · simp [cullPass, Retention.givesUp, hfull]
  · cases hp : e.pending with
    | true => simp [cullPass, Retention.givesUp, hfull, hp]
    | false =>
        by_cases hold : e.sentAt + δ ≤ now <;>
          simp [cullPass, Retention.givesUp, hfull, hp, hlt, hold]

theorem dropTrailing_of_getLast? {slots : Slots} {last : Entry}
    (hlast : slots.getLast? = some (some last)) : slots.dropTrailing = slots := by
  induction slots with
  | nil => rfl
  | cons slot rest ih =>
      cases rest with
      | nil =>
          simp at hlast
          simp [dropTrailing, hlast]
      | cons next rest =>
          rw [List.getLast?_cons_cons] at hlast
          rw [dropTrailing, ih hlast]

/-- Removing the first of slots with both ends occupied drops the gap behind it, and no more. -/
theorem Tidy.removeAt_zero {e : Entry} {rest : Slots} (ht : Tidy (some e :: rest)) :
    removeAt (some e :: rest) 0 = rest.dropWhile Option.isNone := by
  have htrim : removeAt (some e :: rest) 0 = dropTrailing (rest.dropWhile Option.isNone) := by
    simp [removeAt, trim]
  rw [htrim]
  cases hrest : rest.dropWhile Option.isNone with
  | nil => rfl
  | cons slot later =>
      obtain ⟨last, hlast⟩ := ht.getLast?_join (List.cons_ne_nil _ _)
      rw [← List.takeWhile_append_dropWhile (p := Option.isNone) (l := rest), hrest,
        ← List.cons_append, List.getLast?_append] at hlast
      have hlast' : (slot :: later).getLast? = some (some last) := by simpa using hlast
      exact dropTrailing_of_getLast? hlast'

/-- Empty slots in front make no difference. -/
theorem cull_dropLeading (numberToStore : Nat) (δ : TimeDelta) (now : Timestamp) (slots : Slots) :
    cull numberToStore δ now (slots.dropWhile Option.isNone) = slots.cull numberToStore δ now := by
  induction slots with
  | nil => rfl
  | cons slot rest ih => cases slot <;> simp [cull, ih]

theorem cullPass_cull (numberToStore : Nat) (δ : TimeDelta) (now : Timestamp) (slots : Slots) :
    cullPass numberToStore δ now (slots.cull numberToStore δ now) = none := by
  induction slots with
  | nil => rfl
  | cons slot rest ih =>
      cases slot with
      | none => exact ih
      | some e =>
          by_cases hgone : Retention.givesUp numberToStore δ now (rest.length + 1) e = true
          · rw [cull_cons_of_givesUp hgone, ih]
          · rw [cull_cons_of_not_givesUp hgone, cullPass_cons, if_neg hgone]

theorem Tidy.reaches_cull (ht : slots.Tidy) :
    StateTransition.Reaches (cullPass numberToStore δ now) slots
      (slots.cull numberToStore δ now) := by
  -- a pass leaves tidy slots again, and fewer of them
  induction hl : slots.length using Nat.strong_induction_on generalizing slots with
  | _ m ih =>
      by_cases hne : slots = []
      · subst hne
        exact .refl
      · obtain ⟨e, rest, rfl⟩ := ht.exists_cons hne
        by_cases hgone : Retention.givesUp numberToStore δ now (rest.length + 1) e = true
        · have hpass := cullPass_cons numberToStore δ now e rest
          rw [if_pos hgone] at hpass
          have hfewer := (rest.dropWhile_suffix Option.isNone).length_le
          rw [← ht.removeAt_zero] at hfewer
          refine .head hpass ?_
          rw [cull_cons_of_givesUp hgone, ← cull_dropLeading, ← ht.removeAt_zero]
          exact ih _ (by rw [← hl, List.length_cons]; omega) (tidy_removeAt _ 0) rfl
        · rw [cull_cons_of_not_givesUp hgone]
          exact .refl

/-- **The loop ends**, and leaves what culling leaves. -/
theorem Tidy.eval_cullPass (ht : slots.Tidy) :
    StateTransition.eval (cullPass numberToStore δ now) slots =
      Part.some (slots.cull numberToStore δ now) :=
  Part.eq_some_iff.mpr
    (StateTransition.mem_eval.mpr ⟨ht.reaches_cull, cullPass_cull numberToStore δ now slots⟩)

/-! ### What it drops -/

/-- The first `k` slots are dropped.  Each entry there is given up when its slot is the first one,
and the entry in slot `k`, if that exists, is not. -/
structure CutAt (numberToStore : Nat) (δ : TimeDelta) (now : Timestamp) (slots : Slots) (k : Nat) :
    Prop where
  le_length : k ≤ slots.length
  cull_eq : slots.cull numberToStore δ now = slots.drop k
  gone : ∀ i e, i < k → slots[i]? = some (some e) →
    Retention.givesUp numberToStore δ now (slots.length - i) e = true
  kept : k < slots.length → ∃ e, slots[k]? = some (some e) ∧
    ¬Retention.givesUp numberToStore δ now (slots.length - k) e = true

theorem CutAt.cons {k : Nat} (hcut : CutAt numberToStore δ now slots k) {slot : Option Entry}
    (hfront : ∀ e, slot = some e →
      Retention.givesUp numberToStore δ now (slots.length + 1) e = true) :
    CutAt numberToStore δ now (slot :: slots) (k + 1) where
  le_length := by simpa using hcut.le_length
  cull_eq := by
    rw [List.drop_succ_cons, ← hcut.cull_eq]
    cases slot with
    | none => rfl
    | some e => exact cull_cons_of_givesUp (hfront e rfl)
  gone i e hi he := by
    cases i with
    | zero => exact hfront e (by simpa using he)
    | succ i => simpa using hcut.gone i e (by omega) (by simpa using he)
  kept hk := by simpa using hcut.kept (by simpa using hk)

theorem exists_cutAt (numberToStore : Nat) (δ : TimeDelta) (now : Timestamp) (slots : Slots) :
    ∃ k, CutAt numberToStore δ now slots k := by
  induction slots with
  | nil => exact ⟨0, Nat.le_refl 0, rfl, by simp, by simp⟩
  | cons slot rest ih =>
      obtain ⟨k, hk⟩ := ih
      cases slot with
      | none => exact ⟨k + 1, hk.cons (by simp)⟩
      | some e =>
          by_cases hgone : Retention.givesUp numberToStore δ now (rest.length + 1) e = true
          · exact ⟨k + 1, hk.cons (by simpa using hgone)⟩
          · exact ⟨0, Nat.zero_le _, cull_cons_of_not_givesUp hgone, by simp,
              fun _ => ⟨e, rfl, hgone⟩⟩

end Slots

namespace PacketHistory

/-- **Culling is exact.**  The loop ends.  Of its passes, those with an entry in front remove it if
and only if it is given up at the number of slots then left, so what is dropped are the slots
before the first entry that is not. -/
theorem Reachable.cull_exact {h : PacketHistory} (hr : h.Reachable) (now : Timestamp) :
    let d : TimeDelta :=
      match h.rtt with
      | some r => max (r.times 3) (TimeDelta.ofSeconds 1)
      | none => TimeDelta.ofSeconds 1
    let Goes (n : Nat) (e : Entry) : Prop :=
      9600 ≤ n ∨
        e.pending = false ∧ e.sentAt + d ≤ now ∧
          (h.numberToStore ≤ n ∨ e.sentAt + d.times 3 ≤ now)
    (StateTransition.eval (Slots.cullPass h.numberToStore d now) h.slots =
        Part.some (h.cull now).slots ∧
      ∀ e rest,
        (Slots.cullPass h.numberToStore d now (some e :: rest) =
          some (Slots.removeAt (some e :: rest) 0) ↔ Goes (rest.length + 1) e) ∧
        (Slots.cullPass h.numberToStore d now (some e :: rest) = none ↔
          ¬Goes (rest.length + 1) e)) ∧
    (∃ k ≤ h.slots.length, h.cull now = { h with slots := h.slots.drop k } ∧
      (∀ i e, i < k → h.slots[i]? = some (some e) → Goes (h.slots.length - i) e) ∧
      (k < h.slots.length → ∃ e, h.slots[k]? = some (some e) ∧ ¬Goes (h.slots.length - k) e) ∧
      ∀ i e, i < k → h.slots[i]? = some (some e) → now < e.sentAt + d →
        9600 ≤ h.slots.length - i) ∧
    ∀ (i j : Nat) (a b : Entry), i < j → h.slots[i]? = some (some a) →
      h.slots[j]? = some (some b) → some a ∈ (h.cull now).slots → some b ∈ (h.cull now).slots := by
  intro d Goes
  have hd : Retention.duration h.rtt = d := rfl
  have hgoes : ∀ n e, Retention.givesUp h.numberToStore d now n e = true ↔ Goes n e :=
    fun n e => Retention.givesUp_iff
  obtain ⟨n, hn⟩ := hr.consistent.laid
  obtain ⟨k, hk⟩ := Slots.exists_cutAt h.numberToStore d now h.slots
  have hslots : (h.cull now).slots = h.slots.drop k := hk.cull_eq
  refine ⟨⟨hn.tidy.eval_cullPass, ?_⟩, ⟨k, hk.le_length, ?_, ?_, ?_, ?_⟩, ?_⟩
  · intro e rest
    rw [Slots.cullPass_cons, ← hgoes]
    by_cases hg : Retention.givesUp h.numberToStore d now (rest.length + 1) e = true <;> simp [hg]
  · rw [← hslots]
    rfl
  · intro i e hi he
    exact (hgoes _ e).mp (hk.gone i e hi he)
  · intro hlt
    obtain ⟨e, he, hstays⟩ := hk.kept hlt
    exact ⟨e, he, fun hg => hstays ((hgoes _ e).mpr hg)⟩
  · intro i e hi he hyoung
    obtain hfull | ⟨-, hold, -⟩ := (hgoes _ e).mp (hk.gone i e hi he)
    · exact hfull
    · exact absurd hold (Int.not_le.mpr hyoung)
  · intro i j a b hij ha hb hmem
    rw [hslots] at hmem ⊢
    -- no number is stored twice, so the entry that stayed is the one in slot `i`
    obtain ⟨m, hm⟩ := List.mem_iff_getElem?.mp hmem
    rw [List.getElem?_drop] at hm
    have hi : i = k + m := hr.consistent.distinct ha hm rfl
    apply List.mem_of_getElem? (i := j - k)
    rw [List.getElem?_drop, ← hb]
    congr 1
    omega

/-- Of three packets, the second two numbers after the first, the first one is one too many, and the
gap behind it goes with it; that makes room for the second one, which is old enough too. -/
theorem cull_exact_of_gap :
    ∃ h : PacketHistory, h.Reachable ∧ h.numberToStore = 4 ∧
      h.slots.map (Option.map Entry.sequenceNumber) = [some 0, none, some 2, some 3] ∧
      (h.cull (.ofMillis 1200)).slots.map (Option.map Entry.sequenceNumber) =
        [some 2, some 3] ∧
      StateTransition.eval (Slots.cullPass 4 (TimeDelta.ofSeconds 1) (.ofMillis 1200)) h.slots =
        Part.some (h.cull (.ofMillis 1200)).slots := by
  have hr : Reachable
      { mode := .storeAndCull
        numberToStore := 4
        slots :=
          [some (.fresh (packetNumbered 0) 0), none,
            some (.fresh (packetNumbered 2) (.ofMillis 100)),
            some (.fresh (packetNumbered 3) (.ofMillis 1000))] } :=
    ⟨.lastPacket,
      [.configure .storeAndCull 4, .put (packetNumbered 0) 0,
        .put (packetNumbered 2) (.ofMillis 100), .put (packetNumbered 3) (.ofMillis 1000)],
      [none, none, none, none], rfl⟩
  exact ⟨_, hr, rfl, rfl, rfl, (hr.cull_exact (.ofMillis 1200)).1.1⟩

end PacketHistory

end MediaSender
