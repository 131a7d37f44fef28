import MediaSender.SequenceNumber

/-! # Unwrapped sequence numbers

A stream counts its packets with integers, and a sequence number is such a count modulo `2 ^ 16`
(`wrap`).

* **Distance.** `offset` is the difference of the counts as long as they lie less than half the
  circle apart (`offset_wrap`); on the way up it is so still at exactly half the circle if the
  number is the larger one (`offset_wrap_eq_iff`).
* **Address.** Whatever the distance, going `offset` numbers on from `base` arrives at the number
  itself (`wrap_add_offset`).
* **Order.** A number is newer than another one if and only if its offset is positive
  (`isNewer_iff_offset_pos`), and the offset changes its sign with the direction (`offset_swap`).
  So the order of the numbers is that of the counts, and at half the circle it is still one
  (`order_agrees_with_counts`). -/

namespace MediaSender.SequenceNumber

/-- The sequence number of the packet with unwrapped number `n`. -/
def wrap (n : Int) : SequenceNumber := UInt16.ofInt n

theorem toNat_wrap (n : Int) : ((wrap n).toNat : Int) = n % 0x10000 := by
  have h : (n % 0x10000).toNat < UInt16.size := by
    show _ < 0x10000
    omega
  show ((UInt16.ofNat (n % 0x10000).toNat).toNat : Int) = _
  rw [UInt16.toNat_ofNat_of_lt' h]
  omega

theorem wrap_eq_iff {m n : Int} : wrap m = wrap n ↔ m % 0x10000 = n % 0x10000 := by
  rw [← UInt16.toNat_inj, ← toNat_wrap m, ← toNat_wrap n, Int.natCast_inj]

@[simp] theorem wrap_toNat (s : SequenceNumber) : wrap s.toNat = s := by
  have h := s.toNat_lt_size
  rw [← UInt16.toNat_inj]
  have e := toNat_wrap s.toNat
  simp only [UInt16.size] at h
  omega

/-- The numbers in a stretch of at most one circle are different. -/
theorem wrap_inj {m n : Int} (h₁ : m - n < 0x10000) (h₂ : n - m < 0x10000) (h : wrap m = wrap n) :
    m = n := by
  rw [wrap_eq_iff] at h
  omega

/-! ### Offsets -/

theorem toNat_sub_wrap (m n : Int) : ((wrap m - wrap n).toNat : Int) = (m - n) % 0x10000 := by
  have hm := toNat_wrap m
  have hn := toNat_wrap n
  have h := UInt16.toNat_sub (wrap m) (wrap n)
  simp only [Nat.reducePow] at h
  omega

theorem isNewer_iff (a b : SequenceNumber) :
    a.isNewer b = true ↔
      (a - b).toNat ≠ 0 ∧
        ((a - b).toNat < 0x8000 ∨ (a - b).toNat = 0x8000 ∧ b.toNat < a.toNat) := by
  have h0 : a - b = 0 ↔ (a - b).toNat = 0 := UInt16.toNat_inj.symm
  have h8 : a - b = halfCircle ↔ (a - b).toNat = 0x8000 := UInt16.toNat_inj.symm
  have hlt : a - b < halfCircle ↔ (a - b).toNat < 0x8000 := UInt16.lt_iff_toNat_lt
  have hba : b < a ↔ b.toNat < a.toNat := UInt16.lt_iff_toNat_lt
  unfold isNewer
  simp only [apply_ite (· = true), decide_eq_true_eq, ne_eq, h0, h8, hlt, hba]
  split <;> omega

theorem offset_eq (a b : SequenceNumber) :
    a.offset b = if (a - b).toNat < 0x8000 ∨ ((a - b).toNat = 0x8000 ∧ b.toNat < a.toNat) then
      ((a - b).toNat : Int) else (a - b).toNat - 0x10000 := by
  have h0 : a - b = 0 ↔ (a - b).toNat = 0 := UInt16.toNat_inj.symm
  unfold offset
  simp only [Bool.or_eq_true, decide_eq_true_eq, isNewer_iff, h0]
  congr 1
  rw [eq_iff_iff]
  omega

theorem offset_bounds (a b : SequenceNumber) : -0x8000 ≤ a.offset b ∧ a.offset b ≤ 0x8000 := by
  have h := (a - b).toNat_lt_size
  simp only [UInt16.size] at h
  rw [offset_eq]
  split <;> omega

theorem offset_wrap {m n : Int} (h₁ : m - n < 0x8000) (h₂ : n - m < 0x8000) :
    (wrap m).offset (wrap n) = m - n := by
  have h := toNat_sub_wrap m n
  rw [offset_eq]
  split <;> omega

theorem offset_add_ofNat (s : SequenceNumber) {k : Nat} (hk : k < 0x8000) :
    (s + UInt16.ofNat k).offset s = k := by
  have hw : s + UInt16.ofNat k = wrap (s.toNat + k) := by
    have h := toNat_wrap (s.toNat + k)
    rw [← UInt16.toNat_inj, UInt16.toNat_add, UInt16.toNat_ofNat']
    simp only [Nat.reducePow]
    omega
  have ho := offset_wrap (m := s.toNat + k) (n := s.toNat) (by omega) (by omega)
  rw [wrap_toNat] at ho
  rw [hw, ho]
  omega

/-- On the way up from `n`, the offset is the distance up to half the circle, and there if the
number is the larger one. -/
theorem offset_wrap_eq_iff {m n : Int} (h₁ : n ≤ m) (h₂ : m - n < 0x10000) :
    (wrap m).offset (wrap n) = m - n ↔
      m - n < 0x8000 ∨ m - n = 0x8000 ∧ wrap n < wrap m := by
  have h := toNat_sub_wrap m n
  rw [offset_eq, UInt16.lt_iff_toNat_lt]
  split <;> omega

theorem wrap_add_offset (n : Int) (s : SequenceNumber) : wrap (n + s.offset (wrap n)) = s := by
  have h := toNat_sub_wrap s.toNat n
  rw [wrap_toNat] at h
  have e : wrap (n + s.offset (wrap n)) = wrap s.toNat := by
    rw [wrap_eq_iff, offset_eq]
    split <;> omega
  rw [e, wrap_toNat]

/-! ### Order -/

theorem isNewer_iff_offset_pos (a b : SequenceNumber) : a.isNewer b = true ↔ 0 < a.offset b := by
  have h := (a - b).toNat_lt_size
  simp only [UInt16.size] at h
  rw [isNewer_iff, offset_eq]
  split <;> omega

/-- The way back is as long as the way there, also at half the circle. -/
theorem offset_swap (a b : SequenceNumber) : b.offset a = -a.offset b := by
  have hab := UInt16.toNat_sub a b
  have hba := UInt16.toNat_sub b a
  have ha := a.toNat_lt_size
  have hb := b.toNat_lt_size
  simp only [UInt16.size, Nat.reducePow] at hab hba ha hb
  rw [offset_eq, offset_eq]
  -- at half the circle just one of the two numbers is the larger one
  split <;> split <;> omega

theorem offset_emod (a b : SequenceNumber) :
    a.offset b % 0x10000 = ((a.toNat : Int) - b.toNat) % 0x10000 := by
  have hab := UInt16.toNat_sub a b
  have ha := a.toNat_lt_size
  have hb := b.toNat_lt_size
  simp only [UInt16.size, Nat.reducePow] at hab ha hb
  rw [offset_eq]
  split <;> omega

theorem offset_eq_zero_iff (a b : SequenceNumber) : a.offset b = 0 ↔ a = b := by
  have h := offset_emod a b
  have hbounds := offset_bounds a b
  have ha := a.toNat_lt_size
  have hb := b.toNat_lt_size
  simp only [UInt16.size] at ha hb
  rw [← UInt16.toNat_inj]
  omega

theorem isNewer_eq_false_iff (a b : SequenceNumber) :
    a.isNewer b = false ↔ a.offset b ≤ 0 := by
  rw [← Bool.not_eq_true, isNewer_iff_offset_pos, Int.not_lt]

theorem isNewer_wrap {m n : Int} (h₁ : m - n < 0x8000) (h₂ : n - m < 0x8000) :
    (wrap m).isNewer (wrap n) = true ↔ n < m := by
  rw [isNewer_iff_offset_pos, offset_wrap h₁ h₂, Int.sub_pos]

theorem latest_wrap {m n : Int} (h₁ : m - n < 0x8000) (h₂ : n - m < 0x8000) :
    latest (wrap m) (wrap n) = wrap (max m n) := by
  unfold latest
  split
  next h =>
    have hlt := (isNewer_wrap h₁ h₂).mp h
    rw [Int.max_eq_left (Int.le_of_lt hlt)]
  next h =>
    have hle := mt (isNewer_wrap h₁ h₂).mpr h
    rw [Int.max_eq_right (Int.not_lt.mp hle)]

/-- Of two sequence numbers one is newer, or the other one is, or they are the same. -/
theorem order_cases (a b : SequenceNumber) :
    (a.isNewer b = true ∧ b.isNewer a = false ∧ a ≠ b) ∨
      (a.isNewer b = false ∧ b.isNewer a = true ∧ a ≠ b) ∨
      (a.isNewer b = false ∧ b.isNewer a = false ∧ a = b) := by
  simp only [isNewer_iff_offset_pos, isNewer_eq_false_iff, offset_swap a b, ne_eq,
    ← offset_eq_zero_iff a b]
  omega

theorem latest_comm (a b : SequenceNumber) : latest a b = latest b a := by
  unfold latest
  obtain ⟨hab, hba, -⟩ | ⟨hab, hba, -⟩ | ⟨hab, hba, rfl⟩ := order_cases a b
  · simp [hab, hba]
  · simp [hab, hba]
  · rfl

/-- **The order of sequence numbers is that of the counts.**  For two counts that lie less than half
the circle apart, the number of the larger one is newer, the offset is their difference, and the
latest number is that of the larger one.  Of any two numbers, also half the circle apart, exactly
one is newer unless they are the same; the offset is their difference modulo the circle and changes
its sign with the direction; and the latest one does not depend on the direction. -/
theorem order_agrees_with_counts :
    (∀ x y : Int, (x - y).natAbs < 0x8000 →
      ((wrap x).isNewer (wrap y) = true ↔ y < x) ∧
        (wrap x).offset (wrap y) = x - y ∧
        latest (wrap x) (wrap y) = wrap (max x y)) ∧
      ∀ a b : SequenceNumber,
        ((a.isNewer b = true ∧ b.isNewer a = false ∧ a ≠ b) ∨
          (a.isNewer b = false ∧ b.isNewer a = true ∧ a ≠ b) ∨
          (a.isNewer b = false ∧ b.isNewer a = false ∧ a = b)) ∧
        b.offset a = -a.offset b ∧
        a.offset b % 0x10000 = ((a.toNat : Int) - b.toNat) % 0x10000 ∧
        latest a b = latest b a := by
  refine ⟨?_, fun a b => ⟨order_cases a b, offset_swap a b, offset_emod a b, latest_comm a b⟩⟩
  intro x y h
  have h₁ : x - y < 0x8000 := by omega
  have h₂ : y - x < 0x8000 := by omega
  exact ⟨isNewer_wrap h₁ h₂, offset_wrap h₁ h₂, latest_wrap h₁ h₂⟩

/-- Counts on both sides of a full circle, and numbers half the circle apart. -/
theorem order_agrees_with_counts_across_wrap :
    ((0x1ffff : Int) - 0x20002).natAbs < 0x8000 ∧
      wrap 0x1ffff = 0xffff ∧ wrap 0x20002 = 2 ∧
      isNewer 0xffff 2 = false ∧ offset 0xffff 2 = -3 ∧ latest 0xffff 2 = 2 ∧
      isNewer 0x8001 1 = true ∧ isNewer 1 0x8001 = false ∧
      offset 0x8001 1 = 0x8000 ∧ offset 1 0x8001 = -0x8000 := by
  have h : ((0x1ffff : Int) - 0x20002).natAbs < 0x8000 := by decide
  have hx : wrap 0x1ffff = 0xffff := by decide
  have hy : wrap 0x20002 = 2 := by decide
  obtain ⟨hnewer, hoffset, hlatest⟩ := order_agrees_with_counts.1 0x1ffff 0x20002 h
  obtain ⟨hcases, hswap, -, -⟩ := order_agrees_with_counts.2 0x8001 1
  have hhalf : isNewer 0x8001 1 = true ∧ offset 0x8001 1 = 0x8000 := by decide
  have hback : isNewer 1 0x8001 = false := by simpa [hhalf.1] using hcases
  rw [hx, hy] at hnewer hoffset hlatest
  rw [hhalf.2] at hswap
  refine ⟨h, hx, hy, ?_, hoffset, hlatest, hhalf.1, hback, hhalf.2, hswap⟩
  rw [← Bool.not_eq_true, hnewer]
  decide

end MediaSender.SequenceNumber
