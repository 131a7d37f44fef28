/-! # Cutting a text at a separator

`splitOnce` cuts at the first separator, `pieces` at every one.  `splitOnce_eq_some_iff` says that
the cut falls at the first separator and loses nothing else. -/

namespace MediaSender.Text

/-- The text before the first `sep` and the text after it. -/
def splitOnce (sep : Char) : List Char → Option (List Char × List Char)
  | [] => none
  | c :: cs => if c = sep then some ([], cs) else (splitOnce sep cs).map fun p => (c :: p.1, p.2)

/-- The texts between the separators; a text without separators is one piece. -/
def pieces (sep : Char) : List Char → List (List Char)
  | [] => [[]]
  | c :: cs =>
    if c = sep then [] :: pieces sep cs
    else
      match pieces sep cs with
      | [] => [[c]]
      | p :: ps => (c :: p) :: ps

theorem splitOnce_eq_some_iff {sep : Char} {cs a b : List Char} :
    splitOnce sep cs = some (a, b) ↔ cs = a ++ sep :: b ∧ sep ∉ a := by
  induction cs generalizing a with
  | nil => simp [splitOnce]
  | cons c cs ih =>
    rw [splitOnce]
    split
    · rename_i h
      subst h
      constructor
      · intro h
        simp only [Option.some.injEq, Prod.mk.injEq] at h
        obtain ⟨rfl, rfl⟩ := h
        exact ⟨rfl, List.not_mem_nil⟩
      · rintro ⟨h, hn⟩
        cases a with
        | nil => simpa using h
        | cons x a =>
          simp only [List.cons_append, List.cons.injEq] at h
          exact absurd (h.1 ▸ List.mem_cons_self) hn
    · rename_i h
      constructor
      · intro he
        obtain ⟨⟨a', b'⟩, h₁, h₂⟩ := Option.map_eq_some_iff.1 he
        simp only [Prod.mk.injEq] at h₂
        obtain ⟨rfl, rfl⟩ := h₂
        obtain ⟨rfl, hn⟩ := ih.1 h₁
        exact ⟨rfl, by simp [hn, Ne.symm h]⟩
      · rintro ⟨he, hn⟩
        cases a with
        | nil =>
          simp only [List.nil_append, List.cons.injEq] at he
          exact absurd he.1 h
        | cons x a =>
          simp only [List.cons_append, List.cons.injEq] at he
          obtain ⟨rfl, rfl⟩ := he
          rw [ih.2 ⟨rfl, fun hm => hn (List.mem_cons_of_mem _ hm)⟩]
          rfl

theorem splitOnce_eq_none_iff {sep : Char} {cs : List Char} :
    splitOnce sep cs = none ↔ sep ∉ cs := by
  induction cs with
  | nil => simp [splitOnce]
  | cons c cs ih =>
    rw [splitOnce]
    split
    · rename_i h
      simp [h]
    · rename_i h
      simp [ih, Ne.symm h]

theorem length_of_splitOnce {sep : Char} {cs a b : List Char}
    (h : splitOnce sep cs = some (a, b)) : b.length < cs.length := by
  rw [(splitOnce_eq_some_iff.1 h).1]
  simp
  omega

end MediaSender.Text
