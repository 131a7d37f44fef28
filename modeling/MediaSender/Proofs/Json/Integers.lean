import MediaSender.Proofs.Json.Tokens

/-! # Integers in JSON

An integer is written in decimal digits without a zero in front (`proper_ofInt`), and read as itself
if it fits 64 bits, a negative one with its sign (`value?_ofInt`): its digits then fit the
significand, so none of them is cut (`significand_toDigits`). -/

namespace MediaSender.Json

section digits

variable {m n : Nat} {ds : List Char}

theorem head?_toDigits (h : n ≠ 0) : (Nat.toDigits 10 n).head? ≠ some '0' := by
  induction n using Nat.strongRecOn with
  | ind n ih =>
      by_cases hn : n < 10
      · rw [Nat.toDigits_of_lt_base hn]
        simpa using h
      · rw [Nat.toDigits_of_base_le (by decide) (by omega), List.head?_append_of_ne_nil]
        · exact ih (n / 10) (by omega) (by omega)
        · exact List.length_pos_iff.mp Nat.length_toDigits_pos

theorem le_ofDigitChars (m : Nat) (ds : List Char) : m ≤ Nat.ofDigitChars 10 ds m := by
  induction ds generalizing m with
  | nil => exact Nat.le_refl m
  | cons c ds ih =>
      rw [Nat.ofDigitChars_cons]
      have h := ih (10 * m + (c.toNat - '0'.toNat))
      omega

/-- Digits that fit the significand are all taken. -/
theorem significand_of_lt (h : Nat.ofDigitChars 10 ds m < 0x10000000000000000) :
    significand m ds = (Nat.ofDigitChars 10 ds m, []) := by
  induction ds generalizing m with
  | nil => rfl
  | cons c ds ih =>
      rw [Nat.ofDigitChars_cons] at h ⊢
      have hle := le_ofDigitChars (10 * m + (c.toNat - '0'.toNat)) ds
      rw [significand, Text.Decimal.digitValue, if_pos (by omega), ih h]

theorem significand_toDigits (h : n < 0x10000000000000000) :
    significand 0 (Nat.toDigits 10 n) = (n, []) := by
  have hn : Nat.ofDigitChars 10 (Nat.toDigits 10 n) 0 = n := Nat.ofDigitChars_ten_toDigits
  rw [significand_of_lt (by rw [hn]; exact h), hn]

end digits

namespace NumberText

theorem proper_ofInt (n : Int) : (ofInt n).Proper where
  whole := ⟨List.length_pos_iff.mp Nat.length_toDigits_pos,
    fun c hc => Nat.isDigit_of_mem_toDigits (by decide) (by decide) hc⟩
  leading h := by
    by_cases hn : n.natAbs = 0
    · rw [ofInt, hn]
      rfl
    · exact absurd h (head?_toDigits hn)
  fraction := rfl
  exponent _ _ h := by cases h

/-- An integer that fits 64 bits is read as itself. -/
theorem value?_ofInt {n : Int} (h₁ : -0x8000000000000000 ≤ n) (h₂ : n < 0x10000000000000000) :
    (ofInt n).value? = some (.integer n) := by
  have hs : significand 0 (ofInt n).whole = (n.natAbs, []) := significand_toDigits (by omega)
  have hplain : (ofInt n).hasFraction = false ∧ (ofInt n).exponent = none := ⟨rfl, rfl⟩
  rw [value?, hs]
  simp only [hplain, List.isEmpty_nil, Bool.not_false, Option.isNone_none, Bool.and_true, if_true]
  by_cases hn : n < 0
  · have hneg : (ofInt n).negative = true := decide_eq_true hn
    -- a negative integer is no minus zero, and the least of 64 bits still fits
    have hfit : ¬(n.natAbs = 0 ∨ 0x8000000000000000 < n.natAbs) := by omega
    have habs : -(n.natAbs : Int) = n := by omega
    rw [if_pos hneg, if_neg hfit, habs]
  · have hneg : (ofInt n).negative = false := decide_eq_false hn
    have habs : (n.natAbs : Int) = n := by omega
    rw [hneg, if_neg Bool.false_ne_true, habs]

end NumberText

/-- An integer within its bounds is read as itself. -/
theorem intWithin?_ofInt {n lo hi : Int} (h₁ : -0x8000000000000000 ≤ n)
    (h₂ : n < 0x10000000000000000) (hlo : lo ≤ n) (hhi : n ≤ hi) :
    (ofInt n).intWithin? lo hi = some n := by
  rw [ofInt, intWithin?, NumberText.value?_ofInt h₁ h₂]
  exact if_pos ⟨hlo, hhi⟩

end MediaSender.Json
