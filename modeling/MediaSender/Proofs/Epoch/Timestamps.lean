import MediaSender.Proofs.Quantity
import MediaSender.Timestamp

/-! # Timestamps on another clock

A clock whose epoch lies `k` microseconds before that of another one shows `k` microseconds more.

* **Rebasing.** `Timestamp.rebase` is the timestamp of an instant on the other clock; the
  infinities, which are no instants, stay.
* **Range.** An instant near an end of the range may have no timestamp on the other clock.  The
  ones that have are `Timestamp.Rebasable`.
* **What is kept.** Order, equality and differences are the same on both clocks, and a time that is
  added may be added on either, unless one of the sums leaves the range (`rebase_add`).  A sum that
  is only compared may leave it upwards (`rebase_add_le_rebase`). -/

namespace MediaSender.Timestamp

/-- The same instant on a clock whose epoch lies `k` microseconds earlier. -/
def rebase (k : Int) (t : Timestamp) : Timestamp :=
  if t.isInfinite then t else .ofMicros (t.raw + k)

/-- The instant, if it is one, has a timestamp on the other clock. -/
def Rebasable (k : Int) (t : Timestamp) : Prop := t.isFinite = true → (t.rebase k).isFinite = true

instance (k : Int) (t : Timestamp) : Decidable (t.Rebasable k) :=
  inferInstanceAs (Decidable (_ → _))

/-- Adding a finite time to the instant does not leave the range. -/
def AddsExactly (t : Timestamp) (δ : TimeDelta) : Prop :=
  t.isFinite = true → δ.isFinite = true → (t + δ).isFinite = true

instance (t : Timestamp) (δ : TimeDelta) : Decidable (t.AddsExactly δ) :=
  inferInstanceAs (Decidable (_ → _ → _))

variable {k : Int} {s t : Timestamp} {δ : TimeDelta}

/-! ### The infinities -/

theorem rebasable_minusInfinity : minusInfinity.Rebasable k := by
  intro h
  cases h

theorem isFinite_iff :
    t.isFinite = true ↔ -0x8000000000000000 < t.raw ∧ t.raw < 0x7fffffffffffffff :=
  Quantity.isFinite_iff_lt

theorem raw_rebase :
    (t.rebase k).raw =
      if t.raw = 0x7fffffffffffffff ∨ t.raw = -0x8000000000000000 then t.raw
      else max (-0x8000000000000000) (min (t.raw + k) 0x7fffffffffffffff) := by
  have hinf : t.isInfinite = true ↔ t.raw = 0x7fffffffffffffff ∨ t.raw = -0x8000000000000000 :=
    Quantity.isInfinite_iff
  unfold rebase
  simp only [hinf, apply_ite Timestamp.raw]
  rfl

theorem rebase_of_not_isFinite (h : ¬t.isFinite = true) : t.rebase k = t := by
  cases hinf : t.isInfinite with
  | true => rw [rebase, if_pos hinf]
  | false =>
      have hf : t.isFinite = true := congrArg not hinf
      exact absurd hf h

/-- A timestamp is one of the infinities, or it has moved by `k` within the range. -/
theorem Rebasable.cases (h : t.Rebasable k) :
    t.raw = 0x7fffffffffffffff ∧ (t.rebase k).raw = 0x7fffffffffffffff ∨
      t.raw = -0x8000000000000000 ∧ (t.rebase k).raw = -0x8000000000000000 ∨
      (-0x8000000000000000 < t.raw ∧ t.raw < 0x7fffffffffffffff) ∧
        (-0x8000000000000000 < t.raw + k ∧ t.raw + k < 0x7fffffffffffffff) ∧
        (t.rebase k).raw = t.raw + k := by
  have hraw := raw_rebase (k := k) (t := t)
  by_cases hf : t.isFinite = true
  · have hf' := h hf
    rw [isFinite_iff] at hf hf'
    rw [if_neg (by omega)] at hraw
    omega
  · have hlower : -0x8000000000000000 ≤ t.raw := t.sinceEpoch.lower
    have hupper : t.raw < 0x8000000000000000 := t.sinceEpoch.upper
    rw [isFinite_iff] at hf
    rw [if_pos (by omega)] at hraw
    omega

/-! ### Order and differences -/

theorem isPlusInfinity_iff : t.isPlusInfinity = true ↔ t.raw = 0x7fffffffffffffff :=
  Quantity.isPlusInfinity_iff

theorem Rebasable.isPlusInfinity_rebase (h : t.Rebasable k) :
    (t.rebase k).isPlusInfinity = t.isPlusInfinity := by
  have hcases := h.cases
  rw [Bool.eq_iff_iff, isPlusInfinity_iff, isPlusInfinity_iff]
  omega

theorem Rebasable.isFinite_rebase (h : t.Rebasable k) : (t.rebase k).isFinite = t.isFinite := by
  have hcases := h.cases
  rw [Bool.eq_iff_iff, isFinite_iff, isFinite_iff]
  omega

theorem Rebasable.rebase_le_rebase (hs : s.Rebasable k) (ht : t.Rebasable k) :
    s.rebase k ≤ t.rebase k ↔ s ≤ t := by
  have hcases := hs.cases
  have hcases' := ht.cases
  rw [le_def, le_def]
  omega

theorem Rebasable.rebase_eq_rebase (hs : s.Rebasable k) (ht : t.Rebasable k) :
    s.rebase k = t.rebase k ↔ s = t := by
  have hcases := hs.cases
  have hcases' := ht.cases
  constructor
  · intro h
    have hraw := congrArg raw h
    exact Timestamp.ext (Quantity.ext (show s.raw = t.raw by omega))
  · intro h
    rw [h]

theorem Rebasable.compare_rebase (hs : s.Rebasable k) (ht : t.Rebasable k) :
    compare (s.rebase k) (t.rebase k) = compare s t := by
  have hcases := hs.cases
  have hcases' := ht.cases
  have hlt : (s.rebase k).raw < (t.rebase k).raw ↔ s.raw < t.raw := by omega
  have heq : (s.rebase k).raw = (t.rebase k).raw ↔ s.raw = t.raw := by omega
  show compareOfLessAndEq (s.rebase k).raw (t.rebase k).raw = compareOfLessAndEq s.raw t.raw
  simp only [compareOfLessAndEq, hlt, heq]

theorem raw_sub (t s : Timestamp) :
    (t - s).raw =
      if t.raw = 0x7fffffffffffffff ∨ s.raw = -0x8000000000000000 then 0x7fffffffffffffff
      else if t.raw = -0x8000000000000000 ∨ s.raw = 0x7fffffffffffffff then -0x8000000000000000
      else max (-0x8000000000000000) (min (t.raw - s.raw) 0x7fffffffffffffff) :=
  Quantity.raw_sub t.sinceEpoch s.sinceEpoch

/-- The time between two instants is the same on both clocks. -/
theorem Rebasable.rebase_sub_rebase (hs : s.Rebasable k) (ht : t.Rebasable k) :
    t.rebase k - s.rebase k = t - s := by
  have hcases := hs.cases
  have hcases' := ht.cases
  apply Quantity.ext
  rw [raw_sub, raw_sub]
  -- if both are instants the difference is cut off alike, for it is the same integer
  obtain h | h | h := hcases <;> obtain h' | h' | h' := hcases' <;> omega

/-! ### Sums -/

theorem raw_add (t : Timestamp) (δ : TimeDelta) :
    (t + δ).raw =
      if t.raw = 0x7fffffffffffffff ∨ δ.raw = 0x7fffffffffffffff then 0x7fffffffffffffff
      else if t.raw = -0x8000000000000000 ∨ δ.raw = -0x8000000000000000 then -0x8000000000000000
      else max (-0x8000000000000000) (min (t.raw + δ.raw) 0x7fffffffffffffff) :=
  Quantity.raw_add t.sinceEpoch δ

theorem raw_add_of_isFinite (ht : t.isFinite = true) (hδ : δ.isFinite = true)
    (h : (t + δ).isFinite = true) : (t + δ).raw = t.raw + δ.raw := by
  have hraw := raw_add t δ
  rw [isFinite_iff] at ht h
  rw [Quantity.isFinite_iff_lt] at hδ
  rw [if_neg (by omega), if_neg (by omega)] at hraw
  omega

/-- A sum with an infinite part is infinite. -/
theorem not_isFinite_add (h : ¬(t.isFinite = true ∧ δ.isFinite = true)) :
    ¬(t + δ).isFinite = true := by
  rw [isFinite_iff, Quantity.isFinite_iff_lt] at h
  have hlower : -0x8000000000000000 ≤ t.raw := t.sinceEpoch.lower
  have hupper : t.raw < 0x8000000000000000 := t.sinceEpoch.upper
  have hlower' := δ.lower
  have hupper' := δ.upper
  rw [isFinite_iff, raw_add]
  split
  next => omega
  next => rw [if_pos (by omega)]; omega

/-- A time that is added may be added on either clock. -/
theorem Rebasable.rebase_add (ht : t.Rebasable k) (h : t.AddsExactly δ)
    (hc : (t.rebase k).AddsExactly δ) :
    (t + δ).Rebasable k ∧ t.rebase k + δ = (t + δ).rebase k := by
  by_cases hfinite : t.isFinite = true ∧ δ.isFinite = true
  · have hsum := h hfinite.1 hfinite.2
    have hsum' := hc (ht hfinite.1) hfinite.2
    have hraw := raw_add_of_isFinite hfinite.1 hfinite.2 hsum
    have hraw' := raw_add_of_isFinite (ht hfinite.1) hfinite.2 hsum'
    have heq : t.rebase k + δ = (t + δ).rebase k := by
      have hcases := ht.cases
      have hf := hfinite.1
      rw [isFinite_iff] at hf hsum hsum'
      apply Timestamp.ext
      apply Quantity.ext
      show (t.rebase k + δ).raw = ((t + δ).rebase k).raw
      rw [raw_rebase, if_neg (by omega)]
      omega
    refine ⟨?_, heq⟩
    intro _
    rw [← heq]
    exact hsum'
  · have hinf := not_isFinite_add hfinite
    have heq : t.rebase k + δ = t + δ := by
      by_cases hf : t.isFinite = true
      · have hδ : ¬δ.isFinite = true := fun hδ => hfinite ⟨hf, hδ⟩
        have hlower := δ.lower
        have hupper := δ.upper
        have hcases := ht.cases
        rw [isFinite_iff] at hf
        rw [Quantity.isFinite_iff_lt] at hδ
        apply Timestamp.ext
        apply Quantity.ext
        show (t.rebase k + δ).raw = (t + δ).raw
        rw [raw_add, raw_add]
        split <;> split <;> omega
      · rw [rebase_of_not_isFinite hf]
    refine ⟨fun hf => absurd hf hinf, ?_⟩
    rw [heq, rebase_of_not_isFinite hinf]

/-- With a time that is not negative, a sum that is too late to be represented compares like the
exact one, so it may be compared on either clock. -/
theorem Rebasable.rebase_add_le_rebase (hs : s.Rebasable k) (ht : t.Rebasable k) (hδ : 0 ≤ δ) :
    s.rebase k + δ ≤ t.rebase k ↔ s + δ ≤ t := by
  have hcases := hs.cases
  have hcases' := ht.cases
  have hδ' : 0 ≤ δ.raw := hδ
  have hupper := δ.upper
  rw [le_def, le_def, raw_add, raw_add]
  -- a sum that is cut off on either clock is later than every instant, on both
  obtain h | h | h := hcases <;> obtain h' | h' | h' := hcases' <;> omega

end MediaSender.Timestamp
