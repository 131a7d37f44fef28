import Mathlib.Data.List.Chain
import MediaSender.Json.Text
import MediaSender.Proofs.Lists

/-! # Tokens read back from their text

* **Numbers.** A number is `Proper` if its parts are digits where the grammar has digits, and is
  read back from its text if what follows does not continue it (`magnitude?_append`).
* **Strings.** Every character is read back from what is written for it, whether as itself or as
  an escape (`exists_part_charText`), and so is every string, also one that denotes no text
  (`token?_stringText`).
* **Lists.** A list of tokens is read back from its text if no number stands next to another
  (`tokens?_flatMap_text`): every other token starts with a character that continues no number. -/

namespace MediaSender.Json

/-! ### Numbers -/

/-- Whether a character would belong to the number in front of it. -/
def continuesNumber (c : Char) : Bool := c.isDigit || c == '.' || c == 'e' || c == 'E'

/-- The text does not continue a number in front of it. -/
def EndsNumber (cs : List Char) : Prop := ∀ c ∈ cs.head?, continuesNumber c = false

/-- One digit or more. -/
def IsDigits (cs : List Char) : Prop := cs ≠ [] ∧ ∀ c ∈ cs, c.isDigit = true

/-- The parts are those of a written number. -/
structure NumberText.Proper (n : NumberText) : Prop where
  whole : IsDigits n.whole
  /-- A zero in front stands alone. -/
  leading : n.whole.head? = some '0' → n.whole = ['0']
  fraction : if n.hasFraction then IsDigits n.fraction else n.fraction = []
  exponent : ∀ negative digits, n.exponent = some (negative, digits) → IsDigits digits

section numbers

variable {rest : List Char} {n : NumberText}

theorem EndsNumber.isDigit (hr : EndsNumber rest) : ∀ c ∈ rest.head?, c.isDigit = false := by
  intro c hc
  have h := hr c hc
  rw [continuesNumber] at h
  simp_all

/-- The text of a fraction. -/
def fractionText (n : NumberText) : List Char := if n.hasFraction then '.' :: n.fraction else []

/-- The text of an exponent. -/
def exponentText : Option (Bool × List Char) → List Char
  | none => []
  | some (negative, digits) => 'e' :: (if negative then '-' :: digits else digits)

theorem NumberText.text_eq (n : NumberText) :
    n.text = (if n.negative then ['-'] else []) ++
      (n.whole ++ (fractionText n ++ exponentText n.exponent)) := by
  rw [NumberText.text, fractionText]
  cases n.exponent <;> simp [exponentText]

theorem sign_of_isDigit {c : Char} (hc : c.isDigit = true) (cs : List Char) :
    Text.Decimal.sign (c :: cs) = (false, c :: cs) := by
  unfold Text.Decimal.sign
  split <;> simp_all

theorem exponent?_append (hn : n.Proper) (hr : EndsNumber rest) :
    exponent? (exponentText n.exponent ++ rest) = some (n.exponent, rest) := by
  cases he : n.exponent with
  | none =>
      cases rest with
      | nil => rfl
      | cons c cs =>
          have hc : continuesNumber c = false := hr c rfl
          have hne : (c == 'e' || c == 'E') = false := by
            simp only [continuesNumber, Bool.or_eq_false_iff] at hc
            simp [hc]
          simp [exponentText, exponent?, hne]
  | some p =>
      obtain ⟨negative, digits⟩ := p
      obtain ⟨hne, hd⟩ := hn.exponent negative digits he
      have hsign : Text.Decimal.sign ((if negative then '-' :: digits else digits) ++ rest) =
          (negative, digits ++ rest) := by
        cases negative with
        | true => rfl
        | false =>
            cases digits with
            | nil => exact absurd rfl hne
            | cons c cs => exact sign_of_isDigit (hd c List.mem_cons_self) _
      simp [exponentText, exponent?, hsign, List.takeWhile_append_eq hd hr.isDigit,
        List.dropWhile_append_eq hd hr.isDigit, hne]

theorem head?_exponentText_append (hr : EndsNumber rest) :
    ∀ c ∈ (exponentText n.exponent ++ rest).head?, c.isDigit = false ∧ c ≠ '.' := by
  cases n.exponent with
  | none =>
      intro c hc
      have h := hr c hc
      simp only [continuesNumber, Bool.or_eq_false_iff, beq_eq_false_iff_ne] at h
      exact ⟨h.1.1.1, h.1.1.2⟩
  | some p =>
      intro c hc
      obtain rfl : 'e' = c := by simpa [exponentText] using hc
      decide

theorem fraction?_append (hn : n.Proper) {cs : List Char}
    (hr : ∀ c ∈ cs.head?, c.isDigit = false ∧ c ≠ '.') :
    fraction? (fractionText n ++ cs) =
      some (if n.hasFraction then some n.fraction else none, cs) := by
  have hdigit : ∀ c ∈ cs.head?, c.isDigit = false := fun c hc => (hr c hc).1
  have hf := hn.fraction
  cases hh : n.hasFraction with
  | true =>
      rw [hh, if_pos rfl] at hf
      simp [fractionText, hh, fraction?, List.takeWhile_append_eq hf.2 hdigit,
        List.dropWhile_append_eq hf.2 hdigit, hf.1]
  | false =>
      cases cs with
      | nil => simp [fractionText, hh, fraction?]
      | cons c cs =>
          have hc : c ≠ '.' := (hr c rfl).2
          simp only [fractionText, hh, Bool.false_eq_true, if_false, List.nil_append]
          unfold fraction?
          split
          next h => simp_all
          next => rfl

/-- A number without its minus is read back if the text ends it. -/
theorem magnitude?_append (hn : n.Proper) (hr : EndsNumber rest) :
    magnitude? n.negative (n.whole ++ (fractionText n ++ exponentText n.exponent) ++ rest) =
      some (n, rest) := by
  have hexp := head?_exponentText_append (n := n) hr
  have hhead : ∀ c ∈ (fractionText n ++ (exponentText n.exponent ++ rest)).head?,
      c.isDigit = false := by
    intro c hc
    rw [fractionText] at hc
    split at hc
    · obtain rfl : '.' = c := by simpa using hc
      decide
    · exact (hexp c hc).1
  have hlead : (n.whole.isEmpty || n.whole.head? == some '0' && n.whole != ['0']) = false := by
    simpa [hn.whole.1] using hn.leading
  have hparts : ({ negative := n.negative, whole := n.whole,
                   fraction := (if n.hasFraction then some n.fraction else none).getD []
                   hasFraction := (if n.hasFraction then some n.fraction else none).isSome,
                   exponent := n.exponent } : NumberText) = n := by
    obtain ⟨negative, whole, fraction, hasFraction, exponent⟩ := n
    have hf := hn.fraction
    cases hasFraction <;> simp_all
  rw [List.append_assoc, List.append_assoc]
  unfold magnitude?
  simp only [List.takeWhile_append_eq hn.whole.2 hhead, List.dropWhile_append_eq hn.whole.2 hhead,
    hlead, fraction?_append hn hexp]
  rw [if_neg Bool.false_ne_true]
  simp only [Option.bind_eq_bind, Option.bind_some, exponent?_append hn hr, hparts]
  rfl

theorem token?_of_isDigit {c : Char} (hc : c.isDigit = true) (cs : List Char) :
    token? (c :: cs) = (magnitude? false (c :: cs)).map fun (n, rest) => (.number n, rest) := by
  unfold token?
  split <;> simp_all

/-- A number is read back if the text ends it. -/
theorem token?_number (hn : n.Proper) (hr : EndsNumber rest) :
    token? (n.text ++ rest) = some (.number n, rest) := by
  have h := magnitude?_append hn hr
  rw [NumberText.text_eq]
  cases hneg : n.negative with
  | true =>
      rw [hneg] at h
      simp only [if_true, List.cons_append, List.nil_append, token?, h]
      rfl
  | false =>
      rw [hneg] at h
      obtain ⟨c, cs, hw⟩ := List.exists_cons_of_ne_nil hn.whole.1
      have hc : c.isDigit = true := hn.whole.2 c (by simp [hw])
      rw [hw] at h ⊢
      simp only [Bool.false_eq_true, if_false, List.nil_append, List.cons_append] at h ⊢
      rw [token?_of_isDigit hc, h]
      rfl

end numbers

/-! ### Strings -/

section strings

theorem hexDigit?_hexDigit : ∀ n, n < 16 → hexDigit? (hexDigit n) = some n := by decide

/-- A part in front of what is read of the rest. -/
def addPart (part : StringPart) (p : List StringPart × List Char) : List StringPart × List Char :=
  (part :: p.1, p.2)

theorem stringParts?_escape {e c : Char} (he : escaped? e = some c) (cs : List Char) :
    stringParts? ('\\' :: e :: cs) = (stringParts? cs).map (addPart (.char c)) := by
  rw [stringParts?]
  · rw [he]
    cases stringParts? cs <;> rfl
  · rintro a b x d rest rfl -
    cases he

theorem stringParts?_unit {a b c d : Char} {n : Nat} (h : codeUnit? a b c d = some n)
    (cs : List Char) :
    stringParts? ('\\' :: 'u' :: a :: b :: c :: d :: cs) =
      (stringParts? cs).map (addPart (.unit n)) := by
  rw [stringParts?, h]
  cases stringParts? cs <;> rfl

theorem stringParts?_plain {c : Char} (hq : c ≠ '"') (hb : c ≠ '\\') (hc : ¬c.toNat < 0x20)
    (cs : List Char) : stringParts? (c :: cs) = (stringParts? cs).map (addPart (.char c)) := by
  rw [stringParts?]
  · rw [if_neg hc]
    rfl
  all_goals simp_all

theorem codeUnit?_hexDigit {n : Nat} (h : n < 0x20) :
    codeUnit? '0' '0' (hexDigit (n / 16)) (hexDigit (n % 16)) = some n := by
  have hzero : hexDigit? '0' = some 0 := by decide
  rw [codeUnit?, hzero, hexDigit?_hexDigit _ (by omega), hexDigit?_hexDigit _ (by omega)]
  simp only [Option.bind_eq_bind, Option.bind_some, Option.pure_def, Option.some.injEq]
  omega

theorem chars?_unit {n : Nat} (h : n < 0x20) (parts : List StringPart) :
    chars? (.unit n :: parts) = (chars? parts).map (Char.ofNat n :: ·) := by
  have hlead : isLeading n = false := by simp [isLeading]; omega
  have htrail : isTrailing n = false := by simp [isTrailing]; omega
  rw [chars?.eq_def]
  simp only [hlead, htrail, Bool.false_eq_true, if_false]

/-- A written character is read as one part, and that part is the character. -/
theorem exists_part_charText (c : Char) :
    ∃ part, (∀ cs, stringParts? (charText c ++ cs) = (stringParts? cs).map (addPart part)) ∧
      ∀ parts, chars? (part :: parts) = (chars? parts).map (c :: ·) := by
  unfold charText
  split
  case h_8 hq hb _ _ _ _ _ =>
    split
    next hc =>
      refine ⟨.unit c.toNat, fun cs => stringParts?_unit (codeUnit?_hexDigit hc) cs, ?_⟩
      intro parts
      rw [chars?_unit hc, Char.ofNat_toNat]
    next hc => exact ⟨.char c, fun cs => stringParts?_plain hq hb hc cs, fun parts => rfl⟩
  all_goals exact ⟨.char _, fun cs => stringParts?_escape rfl cs, fun parts => rfl⟩

theorem exists_parts_flatMap_charText (s rest : List Char) :
    ∃ parts, stringParts? (s.flatMap charText ++ '"' :: rest) = some (parts, rest) ∧
      chars? parts = some s := by
  induction s with
  | nil => exact ⟨[], by simp [stringParts?], rfl⟩
  | cons c s ih =>
      obtain ⟨parts, hparts, hs⟩ := ih
      obtain ⟨part, hpart, hc⟩ := exists_part_charText c
      refine ⟨part :: parts, ?_, by rw [hc, hs]; rfl⟩
      rw [List.flatMap_cons, List.append_assoc, hpart, hparts]
      rfl

/-- A string is read back, also one that denotes no text. -/
theorem token?_stringText (s : Option String) (rest : List Char) :
    token? (stringText s ++ rest) = some (.string s, rest) := by
  cases s with
  | none => rfl
  | some s =>
      obtain ⟨parts, hparts, hs⟩ := exists_parts_flatMap_charText s.toList rest
      have htext : stringText (some s) ++ rest =
          '"' :: (s.toList.flatMap charText ++ '"' :: rest) := by simp [stringText]
      rw [htext, token?, hparts]
      simp [hs]

end strings

/-! ### Lists -/

/-- A token is written as the grammar asks for. -/
def Token.Proper : Token → Prop
  | .number n => n.Proper
  | _ => True

/-- Whether a token is a number. -/
def Token.isNumber : Token → Bool
  | .number _ => true
  | _ => false

/-- No number stands next to another. -/
def Separated (ts : List Token) : Prop :=
  ts.IsChain fun t u => t.isNumber = false ∨ u.isNumber = false

section lists

variable {t : Token} {ts : List Token} {rest : List Char}

/-- The text of a token starts with no blank, and with nothing that continues a number if it is
none. -/
theorem exists_text_eq_cons (h : t.Proper) :
    ∃ c cs, t.text = c :: cs ∧ isBlank c = false ∧
      (t.isNumber = false → continuesNumber c = false) := by
  cases t with
  | number n =>
      obtain ⟨c, cs, hw⟩ := List.exists_cons_of_ne_nil h.whole.1
      have hc : c.isDigit = true := h.whole.2 c (by simp [hw])
      have hblank : isBlank c = false := by
        rw [isBlank]
        by_contra hb
        simp only [Bool.not_eq_false, Bool.or_eq_true, beq_iff_eq] at hb
        rcases hb with ((rfl | rfl) | rfl) | rfl <;> exact absurd hc (by decide)
      rw [Token.text, NumberText.text_eq, hw]
      cases n.negative with
      | true => exact ⟨'-', _, rfl, by decide, by simp [Token.isNumber]⟩
      | false => exact ⟨c, _, rfl, hblank, by simp [Token.isNumber]⟩
  | string s => cases s <;> exact ⟨'"', _, rfl, by decide, fun _ => by decide⟩
  | boolean b => cases b <;> exact ⟨_, _, rfl, by decide, fun _ => by decide⟩
  | _ => exact ⟨_, _, rfl, by decide, fun _ => by decide⟩

/-- A token is read back, a number if the text ends it. -/
theorem token?_text (h : t.Proper) (hr : t.isNumber = true → EndsNumber rest) :
    token? (t.text ++ rest) = some (t, rest) := by
  cases t with
  | number n => exact token?_number h (hr rfl)
  | string s => exact token?_stringText s rest
  | boolean b => cases b <;> rfl
  | _ => rfl

/-- What follows a number in a list does not continue it. -/
theorem Separated.endsNumber (hs : Separated (t :: ts)) (hp : ∀ u ∈ ts, u.Proper)
    (ht : t.isNumber = true) : EndsNumber (ts.flatMap Token.text) := by
  cases ts with
  | nil => simp [EndsNumber]
  | cons u ts =>
      obtain ⟨c, cs, hu, -, hc⟩ := exists_text_eq_cons (hp u List.mem_cons_self)
      have hnumber : u.isNumber = false := by
        have h := (List.isChain_cons_cons.mp hs).1
        simpa [ht] using h
      rw [List.flatMap_cons, hu]
      intro d hd
      obtain rfl : c = d := by simpa using hd
      exact hc hnumber

theorem tokensWithin?_flatMap_text (hp : ∀ t ∈ ts, t.Proper) (hs : Separated ts) {fuel : Nat}
    (hf : ts.length ≤ fuel) : tokensWithin? fuel (ts.flatMap Token.text) = some ts := by
  induction ts generalizing fuel with
  | nil => cases fuel <;> rfl
  | cons t ts ih =>
      rw [List.forall_mem_cons] at hp
      obtain ⟨fuel, rfl⟩ : ∃ k, fuel = k + 1 := ⟨fuel - 1, by simp at hf; omega⟩
      have hrest := ih hp.2 hs.tail (by simpa using hf)
      have hread := token?_text hp.1 (hs.endsNumber hp.2)
      obtain ⟨c, cs, ht, hblank, -⟩ := exists_text_eq_cons hp.1
      -- blanks in front of a token are dropped, and there are none
      have hdrop : (t.text ++ ts.flatMap Token.text).dropWhile isBlank =
          t.text ++ ts.flatMap Token.text := by
        rw [ht]
        exact List.dropWhile_cons_of_neg (by simp [hblank])
      rw [List.flatMap_cons, tokensWithin?, hdrop]
      split
      next h => simp [ht] at h
      next => simp [hread, hrest]

theorem length_le_length_text (hp : ∀ t ∈ ts, t.Proper) :
    ts.length ≤ (ts.flatMap Token.text).length := by
  induction ts with
  | nil => exact Nat.le_refl 0
  | cons t ts ih =>
      rw [List.forall_mem_cons] at hp
      obtain ⟨c, cs, ht, -⟩ := exists_text_eq_cons hp.1
      have h := ih hp.2
      rw [List.flatMap_cons, List.length_append, ht, List.length_cons, List.length_cons]
      omega

/-- Tokens are read back from their text. -/
theorem tokens?_flatMap_text (hp : ∀ t ∈ ts, t.Proper) (hs : Separated ts) :
    tokens? (ts.flatMap Token.text) = some ts :=
  tokensWithin?_flatMap_text hp hs (length_le_length_text hp)

end lists

end MediaSender.Json
