import MediaSender.Proofs.Json.Tokens

/-! # Values read back from their text

The proofs go by the three kinds of recursion in a value: over the value, over the further items of
an array, and over the further members of an object.

* **Tokens.** A value is read back from its tokens, with what stands behind it left over, if the
  fuel is at least the number of tokens (`value?_toTokens`).
* **Separation.** Behind a value stands a comma or a bracket, so no number stands next to another
  (`separated_toTokens`).
* **Text.** So a value whose numbers are proper is read back from its text (`ofText?_text`). -/

namespace MediaSender.Json

theorem exists_toTokens_eq_cons (j : Json) :
    ∃ t ts, j.toTokens = t :: ts ∧ t ≠ .closeArray ∧ t ≠ .closeObject := by
  cases j with
  | array items => cases items <;> exact ⟨.openArray, _, rfl, by decide, by decide⟩
  | object members =>
      cases members with
      | nil => exact ⟨.openObject, _, rfl, by decide, by decide⟩
      | cons m ms => exact ⟨.openObject, _, rfl, by decide, by decide⟩
  | null => exact ⟨_, _, rfl, by decide, by decide⟩
  | boolean b => exact ⟨_, _, rfl, by simp, by simp⟩
  | number n => exact ⟨_, _, rfl, by simp, by simp⟩
  | string s => exact ⟨_, _, rfl, by simp, by simp⟩

theorem exists_itemTokens_eq_cons (vs : List Json) :
    ∃ t ts, itemTokens vs = t :: ts ∧ t.isNumber = false := by
  cases vs <;> exact ⟨_, _, rfl, rfl⟩

theorem exists_memberTokens_eq_cons (ms : List (Option String × Json)) :
    ∃ t ts, memberTokens ms = t :: ts ∧ t.isNumber = false := by
  cases ms <;> exact ⟨_, _, rfl, rfl⟩

/-! ### Reading -/

theorem value?_openArray {fuel : Nat} {ts : List Token} (h : ∀ rest, ts ≠ .closeArray :: rest) :
    value? (fuel + 1) (.openArray :: ts) =
      (value? fuel ts).bind fun (v, ts) =>
        (items? fuel ts).map fun (vs, ts) => (.array (v :: vs), ts) := by
  rw [value?]
  · cases value? fuel ts <;> rfl
  · exact fun rest hr => h rest hr

theorem value?_openObject {fuel : Nat} {ts : List Token} (h : ∀ rest, ts ≠ .closeObject :: rest) :
    value? (fuel + 1) (.openObject :: ts) =
      (member? fuel ts).bind fun (m, ts) =>
        (members? fuel ts).map fun (ms, ts) => (.object (m :: ms), ts) := by
  rw [value?]
  · cases member? fuel ts <;> rfl
  · exact fun rest hr => h rest hr

mutual

/-- A value is read back from its tokens. -/
theorem value?_toTokens : ∀ (j : Json) (fuel : Nat) (rest : List Token),
    j.toTokens.length ≤ fuel → value? fuel (j.toTokens ++ rest) = some (j, rest)
  | .null, fuel + 1, rest, _ => rfl
  | .boolean b, fuel + 1, rest, _ => rfl
  | .number n, fuel + 1, rest, _ => rfl
  | .string s, fuel + 1, rest, _ => rfl
  | .array [], fuel + 1, rest, _ => rfl
  | .array (v :: vs), fuel + 1, rest, hf => by
    simp only [toTokens, List.length_cons, List.length_append] at hf
    obtain ⟨t, ts, hv, hne, -⟩ := exists_toTokens_eq_cons v
    have hopen : ∀ r, v.toTokens ++ (itemTokens vs ++ rest) ≠ .closeArray :: r := by
      intro r h
      rw [hv, List.cons_append, List.cons.injEq] at h
      exact hne h.1
    have hitems := items?_itemTokens vs fuel rest (by omega)
    rw [toTokens, List.cons_append, List.append_assoc, value?_openArray hopen,
      value?_toTokens v fuel _ (by omega)]
    simp only [Option.bind_some, hitems, Option.map_some]
  | .object [], fuel + 1, rest, _ => rfl
  | .object ((name, v) :: ms), fuel + 1, rest, hf => by
    simp only [toTokens, List.length_cons, List.length_append] at hf
    obtain ⟨fuel, rfl⟩ : ∃ k, fuel = k + 1 := ⟨fuel - 1, by omega⟩
    have hmembers := members?_memberTokens ms (fuel + 1) rest (by omega)
    rw [toTokens, List.cons_append, List.cons_append, List.cons_append, List.append_assoc,
      value?_openObject (by simp), member?, value?_toTokens v fuel _ (by omega)]
    simp only [Option.map_some, Option.bind_some, hmembers]
  | j, 0, rest, hf => by
    obtain ⟨t, ts, hj, -⟩ := exists_toTokens_eq_cons j
    simp [hj] at hf

theorem items?_itemTokens : ∀ (vs : List Json) (fuel : Nat) (rest : List Token),
    (itemTokens vs).length ≤ fuel → items? fuel (itemTokens vs ++ rest) = some (vs, rest)
  | [], fuel + 1, rest, _ => rfl
  | v :: vs, fuel + 1, rest, hf => by
    simp only [itemTokens, List.length_cons, List.length_append] at hf
    have hitems := items?_itemTokens vs fuel rest (by omega)
    rw [itemTokens, List.cons_append, List.append_assoc, items?,
      value?_toTokens v fuel _ (by omega)]
    simp only [hitems, Option.map_some]
  | vs, 0, rest, hf => by
    obtain ⟨t, ts, hvs, -⟩ := exists_itemTokens_eq_cons vs
    simp [hvs] at hf

theorem members?_memberTokens : ∀ (ms : List (Option String × Json)) (fuel : Nat)
    (rest : List Token), (memberTokens ms).length ≤ fuel →
      members? fuel (memberTokens ms ++ rest) = some (ms, rest)
  | [], fuel + 1, rest, _ => rfl
  | (name, v) :: ms, fuel + 1, rest, hf => by
    simp only [memberTokens, List.length_cons, List.length_append] at hf
    obtain ⟨fuel, rfl⟩ : ∃ k, fuel = k + 1 := ⟨fuel - 1, by omega⟩
    have hmembers := members?_memberTokens ms (fuel + 1) rest (by omega)
    rw [memberTokens, List.cons_append, List.cons_append, List.cons_append, List.append_assoc,
      members?, member?, value?_toTokens v fuel _ (by omega)]
    simp only [Option.map_some, hmembers]
  | ms, 0, rest, hf => by
    obtain ⟨t, ts, hms, -⟩ := exists_memberTokens_eq_cons ms
    simp [hms] at hf

end

theorem ofTokens?_toTokens (j : Json) : ofTokens? j.toTokens = some j := by
  have h := value?_toTokens j (j.toTokens.length + 1) [] (Nat.le_succ _)
  rw [List.append_nil] at h
  rw [ofTokens?, h]

/-! ### Separation -/

/-- A token that is no number may stand in front of any list. -/
theorem separated_cons {t : Token} {ts : List Token} (ht : t.isNumber = false)
    (hs : Separated ts) : Separated (t :: ts) :=
  List.isChain_cons.mpr ⟨fun _ _ => .inl ht, hs⟩

/-- Any token may stand in front of a list that starts with no number. -/
theorem separated_cons_of_head {t : Token} {ts : List Token}
    (hh : ∀ u ∈ ts.head?, u.isNumber = false) (hs : Separated ts) : Separated (t :: ts) :=
  List.isChain_cons.mpr ⟨fun u hu => .inr (hh u hu), hs⟩

theorem head?_itemTokens_append (vs : List Json) (rest : List Token) :
    ∀ t ∈ (itemTokens vs ++ rest).head?, t.isNumber = false := by
  obtain ⟨t, ts, hvs, ht⟩ := exists_itemTokens_eq_cons vs
  simpa [hvs] using ht

theorem head?_memberTokens_append (ms : List (Option String × Json)) (rest : List Token) :
    ∀ t ∈ (memberTokens ms ++ rest).head?, t.isNumber = false := by
  obtain ⟨t, ts, hms, ht⟩ := exists_memberTokens_eq_cons ms
  simpa [hms] using ht

mutual

theorem separated_toTokens_append : ∀ (j : Json) {rest : List Token},
    (∀ t ∈ rest.head?, t.isNumber = false) → Separated rest → Separated (j.toTokens ++ rest)
  | .null, rest, hh, hs => separated_cons_of_head hh hs
  | .boolean b, rest, hh, hs => separated_cons_of_head hh hs
  | .number n, rest, hh, hs => separated_cons_of_head hh hs
  | .string s, rest, hh, hs => separated_cons_of_head hh hs
  | .array [], rest, hh, hs => separated_cons rfl (separated_cons rfl hs)
  | .array (v :: vs), rest, hh, hs => by
    rw [toTokens, List.cons_append, List.append_assoc]
    have hitems := separated_itemTokens_append vs hs
    exact separated_cons rfl (separated_toTokens_append v (head?_itemTokens_append vs rest) hitems)
  | .object [], rest, hh, hs => separated_cons rfl (separated_cons rfl hs)
  | .object ((name, v) :: ms), rest, hh, hs => by
    rw [toTokens, List.cons_append, List.cons_append, List.cons_append, List.append_assoc]
    have hmembers := separated_memberTokens_append ms hs
    have hv := separated_toTokens_append v (head?_memberTokens_append ms rest) hmembers
    exact separated_cons rfl (separated_cons rfl (separated_cons rfl hv))

theorem separated_itemTokens_append : ∀ (vs : List Json) {rest : List Token},
    Separated rest → Separated (itemTokens vs ++ rest)
  | [], rest, hs => separated_cons rfl hs
  | v :: vs, rest, hs => by
    rw [itemTokens, List.cons_append, List.append_assoc]
    have hitems := separated_itemTokens_append vs hs
    exact separated_cons rfl (separated_toTokens_append v (head?_itemTokens_append vs rest) hitems)

theorem separated_memberTokens_append : ∀ (ms : List (Option String × Json)) {rest : List Token},
    Separated rest → Separated (memberTokens ms ++ rest)
  | [], rest, hs => separated_cons rfl hs
  | (name, v) :: ms, rest, hs => by
    rw [memberTokens, List.cons_append, List.cons_append, List.cons_append, List.append_assoc]
    have hmembers := separated_memberTokens_append ms hs
    have hv := separated_toTokens_append v (head?_memberTokens_append ms rest) hmembers
    exact separated_cons rfl (separated_cons rfl (separated_cons rfl hv))

end

theorem separated_toTokens (j : Json) : Separated j.toTokens := by
  have h : Separated (j.toTokens ++ []) :=
    separated_toTokens_append j (by simp) List.isChain_nil
  rwa [List.append_nil] at h

/-! ### Text -/

/-- A value is read back from its text, as its tokens and then as itself. -/
theorem tokens?_text (j : Json) (h : ∀ t ∈ j.toTokens, t.Proper) :
    tokens? j.text.toList = some j.toTokens := by
  rw [text, String.toList_ofList, tokens?_flatMap_text h j.separated_toTokens]

theorem ofText?_text (j : Json) (h : ∀ t ∈ j.toTokens, t.Proper) : ofText? j.text = some j := by
  rw [ofText?, tokens?_text j h, Option.bind_some, ofTokens?_toTokens]

end MediaSender.Json
