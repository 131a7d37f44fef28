import MediaSender.Proofs.Binary64.Operations

/-! # Floats in 64 bits

A float is kept in a word of 64 bits and taken apart for each operation.

* **Taking apart.** What a word stands for is canonical, and its exponent fits (`unpack_spec`).
* **Putting together.** A canonical float whose exponent fits comes back as it is
  (`unpack_pack`), and one whose exponent does not fit comes back as an infinity
  (`unpack_pack_of_overflow`). -/

namespace MediaSender.Binary64

open Float.Model Float.Model.UnpackedFloat

/-- The exponent of a finite number fits a word. -/
def Fits : UnpackedFloat → Prop
  | .finite _ _ e _ => e ≤ 971
  | _ => True

/-- The leading digit of a mantissa is not kept. -/
theorem toNat_append_mantissa (b : BitVec 52) : (1#1 ++ b).toNat = 2 ^ 52 + b.toNat := by
  rw [BitVec.toNat_append, ← Nat.shiftLeft_add_eq_or_of_lt b.isLt]
  rfl

theorem unpack_spec (x : Float.Model) : Canonical x.unpack ∧ Fits x.unpack := by
  have hm := (@unpackMantissa Format.binary64 x.toBits.toBitVec).isLt
  have he := (@unpackExponent Format.binary64 x.toBits.toBitVec).isLt
  unfold Float.Model.unpack UnpackedFloat.unpack
  dsimp only
  split
  next => split <;> exact ⟨trivial, trivial⟩
  next hmax =>
    have hmax : (@unpackExponent Format.binary64 x.toBits.toBitVec).toNat ≠ 2047 :=
      fun h => hmax (BitVec.eq_of_toNat_eq h)
    split
    next hzero =>
      split
      next => exact ⟨trivial, trivial⟩
      next =>
        rw [hzero]
        simp only [Canonical, Fits, Format.exponentBias]
        norm_num at hm ⊢
        omega
    next hzero =>
      have hzero : (@unpackExponent Format.binary64 x.toBits.toBitVec).toNat ≠ 0 :=
        fun h => hzero (BitVec.eq_of_toNat_eq h)
      simp only [Canonical, Fits, Format.exponentBias, toNat_append_mantissa]
      norm_num at hm he ⊢
      omega

/-! ### There and back -/

section roundtrip

variable {s : Sign} {m : ℕ} {e : ℤ} {u : UnpackedFloat}

/-- The parts of a number of full length. -/
theorem unpack_normal (s : Sign) {b : BitVec 11} {c : BitVec 52} (hmax : b ≠ -1#11)
    (hzero : b ≠ 0#11) :
    UnpackedFloat.unpack Format.binary64 (packComponents Format.binary64 s b c) =
      .finite s (2 ^ 52 + c.toNat) (b.toNat - 1075) (by positivity) := by
  unfold UnpackedFloat.unpack
  simp only [unpackMantissa_packComponents, unpackExponent_packComponents,
    unpackSign_packComponents, Sign.ofBitVec_toBitVec, hmax, hzero, if_false,
    toNat_append_mantissa]
  rfl

/-- The parts of a number with fewer digits. -/
theorem unpack_subnormal (s : Sign) {c : BitVec 52} (hc : c ≠ 0#52) :
    UnpackedFloat.unpack Format.binary64 (packComponents Format.binary64 s 0#11 c) =
      .finite s c.toNat (-1074) (by simpa [BitVec.toNat_pos, BitVec.pos_iff_ne_zero] using hc) := by
  unfold UnpackedFloat.unpack
  simp only [unpackMantissa_packComponents, unpackExponent_packComponents,
    unpackSign_packComponents, Sign.ofBitVec_toBitVec, hc]
  rfl

/-- A canonical float comes back from a word if its exponent fits. -/
theorem unpack_pack (hu : Canonical u) (hf : Fits u) : (Float.Model.pack u).unpack = u := by
  show UnpackedFloat.unpack Format.binary64 (UnpackedFloat.pack Format.binary64 u) = u
  cases u with
  | notANumber => rfl
  | infinity s => cases s <;> rfl
  | zero s => cases s <;> rfl
  | finite s m e hm =>
      obtain ⟨hlt, hmin, hdigits⟩ := hu
      have hmax : e ≤ 971 := hf
      have hbiased : (e + Format.binary64.exponentBias +
          Format.binary64.mantissaBitsWithoutImplicit).toNat = (e + 1075).toNat := by
        simp only [Format.exponentBias]
        norm_num
        omega
      simp only [UnpackedFloat.pack, hbiased, Format.mantissaBits]
      rw [if_neg (by norm_num; omega)]
      obtain hge | hsmall := le_or_gt (2 ^ 52) m
      · have hlog : m.log2 = 52 := (Nat.log2_eq_iff hm.ne').mpr ⟨hge, hlt⟩
        have hexponent : (BitVec.ofNat 11 (e + 1075).toNat).toNat = (e + 1075).toNat := by
          rw [BitVec.toNat_ofNat, Nat.mod_eq_of_lt (by omega)]
        have hmantissa : (BitVec.ofNat 52 m).toNat = m - 2 ^ 52 := by
          rw [BitVec.toNat_ofNat]
          omega
        rw [if_pos (by omega), unpack_normal]
        · simp only [hmantissa, hexponent, UnpackedFloat.finite.injEq]
          exact ⟨trivial, by omega, by omega⟩
        · intro h
          have := congrArg BitVec.toNat h
          rw [hexponent] at this
          have hones : (-1#11).toNat = 2047 := by decide
          omega
        · intro h
          have := congrArg BitVec.toNat h
          rw [hexponent] at this
          have hnone : (0#11).toNat = 0 := rfl
          omega
      · have hlog : m.log2 < 52 := (Nat.log2_lt hm.ne').mpr hsmall
        have hmantissa : (BitVec.ofNat 52 m).toNat = m := by
          rw [BitVec.toNat_ofNat, Nat.mod_eq_of_lt hsmall]
        rw [if_neg (by omega), unpack_subnormal]
        · simp only [hmantissa, UnpackedFloat.finite.injEq]
          exact ⟨trivial, trivial, by omega⟩
        · intro h
          have := congrArg BitVec.toNat h
          rw [hmantissa] at this
          have hnone : (0#52).toNat = 0 := rfl
          omega

/-- A number that is too large for a word comes back as an infinity. -/
theorem unpack_pack_of_overflow {hm : 0 < m} (h : 971 < e) :
    (Float.Model.pack (.finite s m e hm)).unpack = .infinity s := by
  have hbiased : 2 ^ Format.binary64.exponentBits ≤ (e + Format.binary64.exponentBias +
      Format.binary64.mantissaBitsWithoutImplicit).toNat + 1 := by
    simp only [Format.exponentBias]
    norm_num
    omega
  show UnpackedFloat.unpack Format.binary64
    (UnpackedFloat.pack Format.binary64 (.finite s m e hm)) = _
  simp only [UnpackedFloat.pack, hbiased, if_true]
  cases s <;> rfl

end roundtrip

end MediaSender.Binary64
