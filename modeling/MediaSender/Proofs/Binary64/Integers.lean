import MediaSender.Proofs.Binary64.Order
import MediaSender.Proofs.Quantity
import MediaSender.Quantity.Scaling

/-! # Floats, integers and quantities

* **Reading.** The float of a natural number is the number, rounded (`atMost_ofNat`,
  `atLeast_ofNat`); small numbers go through a product with one.  Rounding keeps the order
  (`ofNat_mono`), so a share of a whole is at most one (`atMost_ofNat_div`).
* **Writing.** The integer nearest to a float keeps the bounds of the float that are integers
  (`nearest_le_of_atMost`, `le_nearest_of_atLeast`), and is on the grid itself unless it was kept in
  a range (`onGrid_nearest`).
* **Factors.** So a factor of at most one makes an amount no larger than a bound that it has already
  (`scale_le`), and a factor that is not negative keeps an amount from becoming negative
  (`scale_nonneg`). -/

namespace MediaSender.Binary64

open Float.Model Float.Model.UnpackedFloat

/-! ### Floats of integers -/

section reading

variable {m n : ℕ} {y : ℚ}

theorem parts_one : parts (Float.ofBits 0x3FF0000000000000) =
    .finite .positive (2 ^ 52) (-52) (by decide) := rfl

theorem value_one : value (parts (Float.ofBits 0x3FF0000000000000)) = 1 := by
  rw [parts_one, value_finite, signed]
  norm_num

theorem representable_one : Representable 1 := by
  refine ⟨⟨1, 0, by norm_num, by norm_num, by norm_num⟩, ?_⟩
  rw [abs_one, limit]
  exact one_lt_pow₀ (by norm_num) (by norm_num)

/-- A small number is converted as a word, and multiplied by one. -/
theorem ofNat_of_lt (h : n < 2 ^ 53) :
    Float.ofNat n = n.toUInt64.toFloat * Float.ofBits 0x3FF0000000000000 := by
  show Float.ofScientific n false 0 = _
  rw [Float.ofScientific, dif_pos ⟨h, by decide⟩]
  rfl

theorem parts_toFloat (h : n < 2 ^ 53) :
    parts n.toUInt64.toFloat =
      (Float.Model.pack (UnpackedFloat.normalize Format.binary64 n 0 .positive)).unpack := by
  have hn : n.toUInt64.toNat = n := by
    rw [Nat.toUInt64, UInt64.toNat_ofNat']
    omega
  show (Float.Model.pack
    (UnpackedFloat.normalize Format.binary64 n.toUInt64.toNat 0 .positive)).unpack = _
  rw [hn]

theorem parts_ofNat_of_le (h : 2 ^ 53 ≤ n) : parts (Float.ofNat n) =
    (Float.Model.pack (UnpackedFloat.ofScientific Format.binary64 n 0)).unpack := by
  show parts (Float.ofScientific n false 0) = _
  rw [Float.ofScientific, dif_neg (by omega)]
  rfl

/-- A large number is brought to 53 digits after the point, and multiplied by one. -/
theorem rounds_ofScientific (h : 2 ^ 53 ≤ n) :
    Rounds .positive n (UnpackedFloat.ofScientific Format.binary64 n 0) := by
  have hn : 0 < n := by omega
  have hlog : 52 ≤ (n <<< 53 * 10 ^ (0 : ℤ).toNat).log2 := by
    rw [Int.toNat_zero, pow_zero, mul_one]
    refine (Nat.le_log2 (by rw [Nat.shiftLeft_eq]; positivity)).mpr ?_
    rw [Nat.shiftLeft_eq]
    omega
  have hr : Rounds .positive (((n <<< 53 * 10 ^ (0 : ℤ).toNat : ℕ) : ℚ) * 2 ^ (-53 + 0 : ℤ))
      (roundWithAccuracy Format.binary64 (.positive * .positive) (n <<< 53 * 10 ^ (0 : ℤ).toNat)
        (-53 + 0) .exact) :=
    rounds_roundWithAccuracy (by exact rfl) (le_lastPlace_of_le_log2 hlog _)
  have hvalue : ((n <<< 53 * 10 ^ (0 : ℤ).toNat : ℕ) : ℚ) * 2 ^ (-53 + 0 : ℤ) = n := by
    rw [Int.toNat_zero, pow_zero, mul_one, Nat.shiftLeft_eq]
    push_cast
    rw [mul_assoc]
    norm_num
  rw [hvalue] at hr
  unfold UnpackedFloat.ofScientific
  rw [dif_neg hn.ne', if_neg (by norm_num), if_neg (by norm_num), if_pos le_rfl]
  exact hr

theorem roundsTo_toFloat (n : ℕ) :
    RoundsTo n (UnpackedFloat.normalize Format.binary64 n 0 .positive) := by
  have h := roundsTo_normalize n 0 .positive
  rwa [zpow_zero, mul_one, Int.cast_natCast] at h

theorem atMost_ofNat (hy : Representable y) (h : n ≤ y) : AtMost y (parts (Float.ofNat n)) := by
  obtain hlt | hge := lt_or_ge n (2 ^ 53)
  · have hr := roundsTo_toFloat n
    have hx : parts n.toUInt64.toFloat = _ := parts_toFloat hlt
    have hmost : AtMost y (parts n.toUInt64.toFloat) := by
      rw [hx]
      exact atMost_pack hr.canonical hy.2 (hr.atMost hy.1 h)
    have hleast : AtLeast 0 (parts n.toUInt64.toFloat) := by
      rw [hx]
      exact atLeast_pack hr.canonical representable_zero.2
        (hr.atLeast onGrid_zero (Nat.cast_nonneg n))
    rw [ofNat_of_lt hlt]
    exact atMost_mul hmost (atMost_of_signed rfl value_one.le) hleast zero_le_one hy
      (mul_one y).le
  · have hr := (rounds_ofScientific hge).roundsTo_positive (Nat.cast_pos.mpr (by omega))
    rw [parts_ofNat_of_le hge]
    exact atMost_pack hr.canonical hy.2 (hr.atMost hy.1 h)

theorem atLeast_ofNat (hy : Representable y) (hy₀ : 0 ≤ y) (h : y ≤ n) :
    AtLeast y (parts (Float.ofNat n)) := by
  obtain hlt | hge := lt_or_ge n (2 ^ 53)
  · have hr := roundsTo_toFloat n
    have hx : parts n.toUInt64.toFloat = _ := parts_toFloat hlt
    have hleast : AtLeast y (parts n.toUInt64.toFloat) := by
      rw [hx]
      exact atLeast_pack hr.canonical hy.2 (hr.atLeast hy.1 h)
    rw [ofNat_of_lt hlt]
    exact atLeast_mul hleast (atLeast_of_signed rfl value_one.ge) hy₀ zero_le_one hy
      (mul_one y).ge
  · have hr := (rounds_ofScientific hge).roundsTo_positive (Nat.cast_pos.mpr (by omega))
    rw [parts_ofNat_of_le hge]
    exact atLeast_pack hr.canonical hy.2 (hr.atLeast hy.1 h)

theorem unsigned_ofNat (n : ℕ) : Unsigned (parts (Float.ofNat n)) := by
  obtain hlt | hge := lt_or_ge n (2 ^ 53)
  · have hr := roundsTo_toFloat n
    have hx : Unsigned (parts n.toUInt64.toFloat) := by
      rw [parts_toFloat hlt]
      refine unsigned_pack hr.canonical ?_
      obtain rfl | hpos := n.eq_zero_or_pos
      · exact rfl
      · exact (hr.positive (Nat.cast_pos.mpr hpos)).unsigned
    rw [ofNat_of_lt hlt]
    exact unsigned_mul hx (show Unsigned (parts _) from rfl)
  · have hr := rounds_ofScientific hge
    rw [parts_ofNat_of_le hge]
    exact unsigned_pack hr.canonical hr.sign.unsigned

theorem representable_ofNat (h : n ≤ 2 ^ 53) : Representable n := by
  have hdyadic : Dyadic n := by
    obtain hlt | rfl := h.lt_or_eq
    · exact ⟨n, 0, hlt, by norm_num, by norm_num⟩
    · exact ⟨2 ^ 52, 1, by norm_num, by norm_num, by norm_num⟩
  have hle : (n : ℚ) ≤ 2 ^ 53 := by exact_mod_cast h
  rw [Representable, OnGrid, Nat.abs_cast]
  exact ⟨hdyadic, hle.trans_lt (pow_lt_pow_right₀ (by norm_num) (by norm_num))⟩

/-- The float of a large number is infinite, or it is the number rounded. -/
theorem parts_ofNat_cases (h : 2 ^ 53 ≤ n) :
    parts (Float.ofNat n) = .infinity .positive ∨
      Signed .positive (parts (Float.ofNat n)) ∧ 2 ^ 53 ≤ value (parts (Float.ofNat n)) ∧
        Rounds .positive n (parts (Float.ofNat n)) := by
  have hr := rounds_ofScientific h
  have hparts := parts_ofNat_of_le h
  obtain hback | ⟨s, v, hinf, hs, -⟩ := unpack_pack_cases hr.canonical
  · right
    rw [hparts, hback, value_of_signed hr.sign]
    have hgrid := (representable_ofNat (le_refl (2 ^ 53))).1
    rw [OnGrid, Nat.abs_cast] at hgrid
    have hge := hr.ge hgrid (by exact_mod_cast h)
    exact ⟨hr.sign, by exact_mod_cast hge, hr⟩
  · left
    rw [hparts, hinf]
    have hsign := hr.sign
    cases hu : UnpackedFloat.ofScientific Format.binary64 n 0 with
    | zero => rw [hu] at hs hsign; exact congrArg _ (hs.symm.trans hsign)
    | finite => rw [hu] at hs hsign; exact congrArg _ (hs.symm.trans hsign)
    | _ => rw [hu] at hs; exact hs.elim

/-- The floats of natural numbers are in their order: the larger one is infinite, or there is a
number between them. -/
theorem ofNat_mono (hn : 0 < n) (h : m ≤ n) :
    parts (Float.ofNat n) = .infinity .positive ∨
      ∃ q, 0 < q ∧ AtMost q (parts (Float.ofNat m)) ∧ AtLeast q (parts (Float.ofNat n)) := by
  obtain hlt | hge := lt_or_ge n (2 ^ 53)
  · have hrep := representable_ofNat hlt.le
    exact .inr ⟨n, by exact_mod_cast hn, atMost_ofNat hrep (by exact_mod_cast h),
      atLeast_ofNat hrep (Nat.cast_nonneg n) le_rfl⟩
  · obtain hinf | ⟨hs, hvalue, hr⟩ := parts_ofNat_cases hge
    · exact .inl hinf
    · have hrep := representable_value hs
      refine .inr ⟨_, lt_of_lt_of_le (by norm_num) hvalue, ?_, atLeast_of_signed hs le_rfl⟩
      obtain rfl | hmn := h.eq_or_lt
      · exact atMost_of_signed hs le_rfl
      · obtain hsmall | hlarge := lt_or_ge m (2 ^ 53)
        · have hm : (m : ℚ) < 2 ^ 53 := by exact_mod_cast hsmall
          exact atMost_ofNat hrep (hm.le.trans hvalue)
        · -- both are rounded in the same way, and rounding keeps the order
          have hr' := rounds_ofScientific hlarge
          rw [parts_ofNat_of_le hlarge]
          refine atMost_pack hr'.canonical hrep.2 (atMost_of_signed hr'.sign ?_)
          rw [value_of_signed hr'.sign, value_of_signed hs]
          exact hr'.mono hr (by exact_mod_cast hmn)

/-- A share of a whole is at most one. -/
theorem atMost_ofNat_div (hn : 0 < n) (h : m ≤ n) :
    AtMost 1 (parts (Float.ofNat m / Float.ofNat n)) := by
  obtain hinf | ⟨q, hq, hmost, hleast⟩ := ofNat_mono hn h
  · exact (atMost_div_infinity hinf).mono zero_le_one
  · exact atMost_div hmost hleast (unsigned_ofNat m).atLeast_zero hq representable_one
      (div_self hq.ne').le

end reading

/-! ### Integers of floats -/

section writing

variable {x : Float} {m : ℕ} {e n lo hi : ℤ}

/-- The nearest integer is off by a half at most. -/
theorem roundScaled_spec (m : ℕ) (e : ℤ) :
    (roundScaled m e : ℚ) ≤ m * 2 ^ e + 1 / 2 ∧ m * 2 ^ e - 1 / 2 < (roundScaled m e : ℚ) := by
  cases e with
  | ofNat k =>
      have hvalue : ((roundScaled m (.ofNat k) : ℕ) : ℚ) = m * 2 ^ (k : ℤ) := by
        rw [roundScaled, Nat.shiftLeft_eq, zpow_natCast]
        push_cast
        rfl
      rw [hvalue]
      constructor <;> simp only [Int.ofNat_eq_natCast] <;> linarith
  | negSucc k =>
      have hr : roundScaled m (.negSucc k) = (m + 2 ^ k) / 2 ^ (k + 1) := by
        rw [roundScaled, Nat.shiftRight_eq_div_pow, Nat.shiftLeft_eq, one_mul]
      have hpow : (0 : ℚ) < 2 ^ (k + 1) := by positivity
      have hvalue : (m : ℚ) * 2 ^ (Int.negSucc k) = m / 2 ^ (k + 1) := by
        rw [zpow_negSucc, div_eq_mul_inv]
      have hlower : roundScaled m (.negSucc k) * 2 ^ (k + 1) ≤ m + 2 ^ k := by
        rw [hr]
        exact Nat.div_mul_le_self _ _
      have hupper : m + 2 ^ k < (roundScaled m (.negSucc k) + 1) * 2 ^ (k + 1) := by
        rw [hr]
        exact Nat.lt_mul_of_div_lt (Nat.lt_succ_self _) (by positivity)
      have hlower' : (roundScaled m (.negSucc k) : ℚ) * 2 ^ (k + 1) ≤ m + 2 ^ k := by
        exact_mod_cast hlower
      have hupper' : (m : ℚ) + 2 ^ k < (roundScaled m (.negSucc k) + 1) * 2 ^ (k + 1) := by
        exact_mod_cast hupper
      have hhalf : (2 : ℚ) ^ k = 1 / 2 * 2 ^ (k + 1) := by ring
      rw [hvalue]
      constructor
      · rw [← sub_le_iff_le_add, le_div_iff₀ hpow]
        linarith
      · rw [sub_lt_iff_lt_add, div_lt_iff₀ hpow]
        linarith

/-- The nearest integer is no larger than an integer that bounds the float. -/
theorem nearest_le_of_atMost (h : AtMost n (parts x)) (hn : 0 ≤ n) (hlo : lo ≤ n) :
    nearest lo hi x ≤ n := by
  unfold nearest toIntWithin
  change AtMost n x.toModel.unpack at h
  cases hx : x.toModel.unpack with
  | notANumber => exact hn
  | zero => exact hn
  | infinity s =>
      rw [hx] at h
      obtain rfl : s = .negative := h
      exact hlo
  | finite s m e hm =>
      rw [hx] at h
      obtain ⟨hle, hlt⟩ := roundScaled_spec m e
      have hround : s.apply (roundScaled m e) ≤ n := by
        have hbound : signed s (m * 2 ^ e) ≤ n := h
        have hcast : ((s.apply (roundScaled m e) : ℤ) : ℚ) < n + 1 := by
          rw [signed_apply]
          cases s <;> simp only [signed] at hbound ⊢ <;> linarith
        exact Int.lt_add_one_iff.mp (by exact_mod_cast hcast)
      exact max_le hlo ((min_le_left _ _).trans hround)

/-- The nearest integer is no smaller than an integer that bounds the float. -/
theorem le_nearest_of_atLeast (h : AtLeast n (parts x)) (hn : n ≤ 0) (hhi : n ≤ hi) :
    n ≤ nearest lo hi x := by
  unfold nearest toIntWithin
  change AtLeast n x.toModel.unpack at h
  cases hx : x.toModel.unpack with
  | notANumber => exact hn
  | zero => exact hn
  | infinity s =>
      rw [hx] at h
      obtain rfl : s = .positive := h
      exact hhi
  | finite s m e hm =>
      rw [hx] at h
      obtain ⟨hle, hlt⟩ := roundScaled_spec m e
      have hround : n ≤ s.apply (roundScaled m e) := by
        have hbound : n ≤ signed s (m * 2 ^ e) := h
        have hcast : (n : ℚ) < (s.apply (roundScaled m e) : ℤ) + 1 := by
          rw [signed_apply]
          cases s <;> simp only [signed] at hbound ⊢ <;> linarith
        exact Int.lt_add_one_iff.mp (by exact_mod_cast hcast)
      exact (le_min hround hhi).trans (le_max_right _ _)

/-- The nearest integer of a number of the grid is on the grid. -/
theorem dyadic_roundScaled (hm : m < 2 ^ 53) (e : ℤ) : Dyadic (roundScaled m e) := by
  cases e with
  | ofNat k =>
      refine ⟨m, k, hm, by omega, ?_⟩
      rw [roundScaled, Nat.shiftLeft_eq, zpow_natCast]
      push_cast
      rfl
  | negSucc k =>
      refine ⟨roundScaled m (.negSucc k), 0, ?_, by norm_num, by rw [zpow_zero, mul_one]⟩
      have hle := (roundScaled_spec m (.negSucc k)).1
      have hsmall : (m : ℚ) * 2 ^ Int.negSucc k ≤ m / 2 := by
        rw [zpow_negSucc, ← div_eq_mul_inv]
        refine div_le_div_of_nonneg_left (Nat.cast_nonneg m) (by norm_num) ?_
        calc (2 : ℚ) = 2 ^ 1 := (pow_one 2).symm
          _ ≤ 2 ^ (k + 1) := pow_le_pow_right₀ (by norm_num) (by omega)
      have hm' : (m : ℚ) < 2 ^ 53 := by exact_mod_cast hm
      have hlt : (roundScaled m (.negSucc k) : ℚ) < 2 ^ 53 := by linarith
      exact_mod_cast hlt

/-- The nearest integer is on the grid, unless the range ends there. -/
theorem onGrid_nearest (lo hi : ℤ) (x : Float) :
    nearest lo hi x = lo ∨ nearest lo hi x = hi ∨ OnGrid (nearest lo hi x) := by
  have hcanonical := canonical_parts x
  unfold nearest toIntWithin
  change Canonical x.toModel.unpack at hcanonical
  have hzero : OnGrid ((0 : ℤ) : ℚ) := by
    rw [Int.cast_zero]
    exact onGrid_zero
  cases hx : x.toModel.unpack with
  | notANumber => exact .inr (.inr hzero)
  | zero => exact .inr (.inr hzero)
  | infinity s => cases s <;> simp
  | finite s m e hm =>
      rw [hx] at hcanonical
      obtain h | h | h : max lo (min (s.apply (roundScaled m e)) hi) = lo ∨
          max lo (min (s.apply (roundScaled m e)) hi) = hi ∨
          max lo (min (s.apply (roundScaled m e)) hi) = s.apply (roundScaled m e) := by omega
      · exact .inl h
      · exact .inr (.inl h)
      · refine .inr (.inr ?_)
        show OnGrid ((max lo (min (s.apply (roundScaled m e)) hi) : ℤ) : ℚ)
        rw [h, OnGrid, signed_apply]
        have habs : |signed s (roundScaled m e : ℚ)| = roundScaled m e := by
          cases s <;> simp [signed]
        rw [habs]
        exact dyadic_roundScaled hcanonical.1 e

end writing

end MediaSender.Binary64

/-! ### Quantities -/

namespace MediaSender.Quantity

open Binary64

variable {d : Dimension} {a b : Quantity d} {x : Float}

theorem rawFloat_eq (ha : 0 ≤ a) : a.rawFloat = Float.ofNat a.raw.toNat := by
  have ha' : 0 ≤ a.raw := ha
  have hraw : a.raw = (a.raw.toNat : ℤ) := (Int.toNat_of_nonneg ha').symm
  rw [rawFloat]
  conv_lhs => rw [hraw]
  rfl

theorem atMost_rawFloat {y : ℚ} (ha : 0 ≤ a) (hy : Representable y) (h : a.raw ≤ y) :
    AtMost y (parts a.rawFloat) := by
  have ha' : 0 ≤ a.raw := ha
  rw [rawFloat_eq ha]
  refine atMost_ofNat hy ?_
  rwa [← Int.cast_natCast, Int.toNat_of_nonneg ha']

theorem unsigned_rawFloat (ha : 0 ≤ a) : Unsigned (parts a.rawFloat) := by
  rw [rawFloat_eq ha]
  exact unsigned_ofNat _

theorem toFloat_eq (ha : 0 ≤ a) :
    a.toFloat = if a.isPlusInfinity then infinity else a.rawFloat := by
  have ha' : 0 ≤ a.raw := ha
  have hminus : a.isMinusInfinity = false := by
    rw [Bool.eq_false_iff, ne_eq, isMinusInfinity_iff]
    omega
  rw [toFloat, hminus]
  rfl

theorem unsigned_toFloat (ha : 0 ≤ a) : Unsigned (parts a.toFloat) := by
  rw [toFloat_eq ha]
  split
  next => exact rfl
  next => exact unsigned_rawFloat ha

/-- What is no more than an amount is at most once that amount. -/
theorem atMost_one_ratio (ha : 0 ≤ a) (hab : a ≤ b) (hb : 0 < b) :
    AtMost 1 (parts (a.ratio b)) := by
  have ha' : 0 ≤ a.raw := ha
  have hab' : a.raw ≤ b.raw := hab
  have hb' : 0 < b.raw := hb
  have hb₀ : 0 ≤ b := Int.le_of_lt hb'
  unfold ratio
  rw [toFloat_eq hb₀]
  split
  next => exact (atMost_div_infinity rfl).mono zero_le_one
  next hfinite =>
    rw [isPlusInfinity_iff] at hfinite
    have hupper := b.upper
    rw [toFloat_eq ha, if_neg (by rw [isPlusInfinity_iff]; omega), rawFloat_eq ha, rawFloat_eq hb₀]
    exact atMost_ofNat_div (by omega) (by omega)

theorem nonneg_ratio (ha : 0 ≤ a) (hb : 0 ≤ b) : AtLeast 0 (parts (a.ratio b)) :=
  nonneg_div (unsigned_toFloat ha).atLeast_zero (unsigned_toFloat hb)

theorem ofFloat_le (ha : 0 ≤ a) (h : AtMost a.raw (parts x)) : ofFloat x ≤ a := by
  rw [le_def, raw_ofFloat]
  exact nearest_le_of_atMost h ha a.lower

theorem ofFloat_nonneg (h : AtLeast 0 (parts x)) : 0 ≤ (ofFloat x : Quantity d) := by
  rw [le_def, raw_ofFloat]
  exact le_nearest_of_atLeast (by exact_mod_cast h) le_rfl (by norm_num)

/-- An amount that fits a word is in the range of floats. -/
theorem abs_raw_lt_limit (a : Quantity d) : |(a.raw : ℚ)| < limit := by
  have habs : |a.raw| ≤ 2 ^ 63 := by
    have hlower := a.lower
    have hupper := a.upper
    rw [abs_le]
    omega
  calc |(a.raw : ℚ)| ≤ 2 ^ 63 := by exact_mod_cast habs
    _ < limit := pow_lt_pow_right₀ (by norm_num) (by norm_num)

theorem representable_ofFloat (h : (ofFloat x : Quantity d).isFinite = true) :
    Representable (ofFloat x : Quantity d).raw := by
  refine ⟨?_, abs_raw_lt_limit _⟩
  rw [isFinite_iff, raw_ofFloat] at h
  rw [raw_ofFloat]
  exact ((onGrid_nearest _ _ x).resolve_left h.2).resolve_left h.1

theorem representable_raw (ha : 0 ≤ a) (h : a.raw ≤ 2 ^ 53) : Representable a.raw := by
  have ha' : 0 ≤ a.raw := ha
  have hcast : (a.raw : ℚ) = (a.raw.toNat : ℕ) := by
    rw [← Int.cast_natCast, Int.toNat_of_nonneg ha']
  rw [hcast]
  exact representable_ofNat (by omega)

theorem representable_max (ha : Representable a.raw) (hb : Representable b.raw) :
    Representable (max a b).raw := by
  rw [raw_max]
  obtain h | h := le_total a.raw b.raw
  · rwa [show max a.raw b.raw = b.raw by omega]
  · rwa [show max a.raw b.raw = a.raw by omega]

/-- What is scaled is finite, or an end of the range. -/
theorem representable_scale (h : (a.scale x).isFinite = true) :
    Representable (a.scale x).raw := by
  unfold scale at h ⊢
  split at h
  next hinf =>
    rw [if_pos hinf]
    split at h
    next hzero =>
      rw [if_pos hzero]
      exact_mod_cast representable_zero
    next =>
      unfold infinite at h
      split at h <;> exact absurd h Bool.false_ne_true
  next hfinite =>
    rw [if_neg hfinite]
    exact representable_ofFloat h

/-- What bounds of an amount and of a factor say of the product. -/
theorem scale_le_of_mul_le {y z : ℚ} (ha : 0 ≤ a) (hfinite : a.isInfinite = false)
    (hy : Representable y) (hay : a.raw ≤ y) (hx : AtMost z (parts x)) (hz : 0 ≤ z) (hb₀ : 0 ≤ b)
    (hb : Representable b.raw) (h : y * z ≤ b.raw) : a.scale x ≤ b := by
  rw [scale, hfinite, if_neg Bool.false_ne_true]
  exact ofFloat_le hb₀ (atMost_mul (atMost_rawFloat ha hy hay) hx
    (unsigned_rawFloat ha).atLeast_zero hz hb h)

/-- A factor that is not above one keeps an amount below what bounds it already. -/
theorem scale_le (ha : 0 ≤ a) (hab : a ≤ b) (hb : Representable b.raw)
    (hx : AtMost 1 (parts x)) : a.scale x ≤ b := by
  have ha' : 0 ≤ a.raw := ha
  have hab' : a.raw ≤ b.raw := hab
  cases hinf : a.isInfinite with
  | true =>
      rw [scale, hinf, if_pos rfl]
      rw [isInfinite_iff] at hinf
      split
      next => exact show 0 ≤ b.raw by omega
      next =>
        have hlower := b.lower
        unfold infinite
        split <;> rw [le_def] <;> simp only [raw_plusInfinity, raw_minusInfinity] <;> omega
  | false =>
      exact scale_le_of_mul_le ha hinf hb (by exact_mod_cast hab') hx zero_le_one
        (show 0 ≤ b.raw by omega) hb (mul_one _).le

/-- What is at least zero, not zero and a number is above zero. -/
theorem zero_lt_of_atLeast (h : AtLeast 0 (parts x)) (hzero : ¬(x == 0.0) = true)
    (hnan : ¬x.isNaN = true) : 0.0 < x := by
  rw [lt_iff]
  have hparts : x.toModel.unpack = parts x := rfl
  have hzero : ¬((parts x).compare (parts 0.0) == some .eq) = true := hzero
  have hnan : ¬(parts x).isNaN = true := hnan
  have h0 : parts 0.0 = .zero .positive := rfl
  rw [h0] at hzero ⊢
  cases hx : parts x with
  | notANumber => rw [hx] at hnan; exact absurd rfl hnan
  | zero s => rw [hx] at hzero; exact absurd rfl hzero
  | infinity s =>
      rw [hx] at h
      obtain rfl : s = .positive := h
      rfl
  | finite s m e hm =>
      rw [hx] at h
      obtain rfl := h.positive_of_finite
      rfl

/-- A factor that is not below zero leaves an amount on its side of zero. -/
theorem scale_nonneg (ha : 0 ≤ a) (hx : AtLeast 0 (parts x)) : 0 ≤ a.scale x := by
  have ha' : 0 ≤ a.raw := ha
  unfold scale
  split
  next h =>
    split
    next => exact le_refl 0
    next hx' =>
      rw [Bool.or_eq_true, not_or] at hx'
      have hpos := zero_lt_of_atLeast hx hx'.1 hx'.2
      have hinf : a.isPlusInfinity = true := by
        rw [isInfinite_iff] at h
        rw [isPlusInfinity_iff]
        omega
      rw [hinf, decide_eq_true hpos]
      exact show (0 : ℤ) ≤ 0x7fffffffffffffff by decide
  next => exact ofFloat_nonneg (nonneg_mul (unsigned_rawFloat ha).atLeast_zero hx)

end MediaSender.Quantity
