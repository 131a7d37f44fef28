import Mathlib.Data.List.Forall2

/-! # Lists

What the proofs use of lists in general, and the standard library does not have.

* **Fronts.** Taking from the front, and dropping from it, ends at the first element that fails the
  test (`takeWhile_append_eq`, `dropWhile_append_eq`); if all that passes the test is in front,
  dropping is filtering (`dropWhile_eq_filter_not`).
* **Entries.** A list with one more entry by index (`getElem?_concat_eq_some`), and a list made from
  another one, entry by entry (`mapM_eq_some_iff`).
* **Runs.** The systems here take inputs one after the other and may refuse one, which ends the run.
  A run is then the fold `List.foldlM` of the step over the inputs, and what every accepted step
  keeps, a run keeps (`foldlM_induction`). -/

namespace List

/-! ### Fronts -/

section fronts

variable {α : Type} {p : α → Bool} {l rest : List α}

theorem takeWhile_append_eq (hl : ∀ a ∈ l, p a = true) (hrest : ∀ a ∈ rest.head?, p a = false) :
    (l ++ rest).takeWhile p = l := by
  rw [takeWhile_append_of_pos hl]
  cases rest with
  | nil => rw [takeWhile_nil, append_nil]
  | cons a rest => rw [takeWhile_cons_of_neg (by simp [hrest a rfl]), append_nil]

theorem dropWhile_append_eq (hl : ∀ a ∈ l, p a = true) (hrest : ∀ a ∈ rest.head?, p a = false) :
    (l ++ rest).dropWhile p = rest := by
  rw [dropWhile_append_of_pos hl]
  cases rest with
  | nil => rfl
  | cons a rest => exact dropWhile_cons_of_neg (by simp [hrest a rfl])

/-- Nothing is dropped from an element on that fails the test. -/
theorem dropWhile_append_cons {a : α} (ha : p a = false) (l rest : List α) :
    (l ++ a :: rest).dropWhile p = l.dropWhile p ++ a :: rest := by
  rw [dropWhile_append, dropWhile_cons_of_neg (by simp [ha])]
  split
  next h => rw [isEmpty_iff.mp h, nil_append]
  next => rfl

/-- If what passes the test comes first, dropping it from the front drops all of it. -/
theorem dropWhile_eq_filter_not (h : l.Pairwise fun a b => p b = true → p a = true) :
    l.dropWhile p = l.filter fun a => !p a := by
  induction l with
  | nil => rfl
  | cons a rest ih =>
      rw [pairwise_cons] at h
      by_cases ha : p a = true
      · rw [dropWhile_cons_of_pos ha, filter_cons_of_neg (by simp [ha]), ih h.2]
      · have hrest : ∀ b ∈ rest, (!p b) = true := by
          intro b hb
          rw [Bool.not_eq_true', ← Bool.not_eq_true]
          exact fun hpb => ha (h.1 b hb hpb)
        rw [dropWhile_cons_of_neg ha, filter_cons_of_pos (by simp [ha]), filter_eq_self.mpr hrest]

end fronts

/-! ### Entries -/

section entries

variable {α β : Type}

theorem getElem?_concat_eq_some {l : List α} {i : Nat} {u v : α} :
    (l ++ [v])[i]? = some u ↔ l[i]? = some u ∨ i = l.length ∧ u = v := by
  rw [getElem?_append]
  split
  next hi => exact (or_iff_left fun h => Nat.ne_of_lt hi h.1).symm
  next hi =>
    rw [getElem?_eq_none (Nat.not_lt.mp hi), getElem?_singleton]
    have hsub : i - l.length = 0 ↔ i = l.length := by omega
    simp [hsub, eq_comm]

/-- A partial function has values at all entries of a list if it has one at each. -/
theorem mapM_eq_some_iff {f : α → Option β} {as : List α} {bs : List β} :
    as.mapM f = some bs ↔ Forall₂ (fun a b => f a = some b) as bs := by
  induction as generalizing bs with
  | nil => simp [eq_comm]
  | cons a as ih =>
      rw [mapM_cons, forall₂_cons_left_iff]
      simp [Option.bind_eq_some_iff, ih, @eq_comm _ bs]

end entries

/-! ### Runs -/

section runs

variable {ε σ ι : Type} {step : σ → ι → Except ε σ} {s s' : σ} {inputs : List ι}

theorem foldlM_cons_eq_ok {i : ι} (h : (i :: inputs).foldlM step s = .ok s') :
    ∃ s₁, step s i = .ok s₁ ∧ inputs.foldlM step s₁ = .ok s' := by
  rw [List.foldlM_cons] at h
  cases hs : step s i with
  | error x => rw [hs] at h; cases h
  | ok s₁ =>
      rw [hs] at h
      exact ⟨s₁, rfl, h⟩

/-- What every accepted step keeps, a run keeps. -/
theorem foldlM_induction {P : σ → Prop} (hstep : ∀ s i s', P s → step s i = .ok s' → P s')
    (h0 : P s) (h : inputs.foldlM step s = .ok s') : P s' := by
  induction inputs generalizing s with
  | nil =>
      have hs : s = s' := Except.ok.inj h
      rw [← hs]
      exact h0
  | cons i rest ih =>
      obtain ⟨s₁, hs, hr⟩ := foldlM_cons_eq_ok h
      exact ih (hstep s i s₁ h0 hs) hr

/-- A run and one accepted step more. -/
theorem foldlM_concat_eq_ok {s'' : σ} {i : ι} (h : inputs.foldlM step s = .ok s')
    (hs : step s' i = .ok s'') : (inputs ++ [i]).foldlM step s = .ok s'' := by
  rw [List.foldlM_append, h]
  show (step s' i >>= fun s₁ => Except.ok s₁) = .ok s''
  rw [hs]
  rfl

end runs

end List
