import Mathlib.Data.List.DropRight
import MediaSender.Proofs.Lists
import MediaSender.Trials.Basic

/-! # The entries of a trial group

The value of a group is a list of entries with commas between them, and an entry is a key and a
value with a colon between them.

* **Entries.** Every text is entries with commas between them, none of which has a comma
  (`exists_entries`), and it is cut into these (`pieces_intercalate`).
* **Blanks.** A colon is no blank, so the blanks at the ends of an entry are at the outer ends of
  its key and its value (`trim_append_cons`).
* **Reading.** An entry with a colon `Assigns` a value to a key, and is read as this pair
  (`Assigns.parameter?_trim`), and no other (`Assigns.unique`); one without a colon is not read
  (`parameter?_trim_of_not_mem`). -/

namespace MediaSender

namespace Text

/-- The text without the blanks at its ends. -/
def trimmed (s : String) : String := String.ofList (trim s.toList)

/-! ### Blanks -/

section blanks

variable {c : Char} {a b : List Char}

theorem trimEnd_trimEnd (a : List Char) : trimEnd (trimEnd a) = trimEnd a :=
  List.rdropWhile_idempotent isBlank a

theorem trimEnd_append_cons (hc : isBlank c = false) (a b : List Char) :
    trimEnd (a ++ c :: b) = a ++ c :: trimEnd b := by
  rw [trimEnd, List.reverse_append, List.reverse_cons, List.append_assoc, List.singleton_append,
    List.dropWhile_append_cons hc]
  simp [trimEnd]

theorem trimEnd_cons_of_isBlank (hc : isBlank c = true) (a : List Char) :
    trimEnd (c :: a) = if trimEnd a = [] then [] else c :: trimEnd a := by
  rw [trimEnd, List.reverse_cons, List.dropWhile_append]
  split <;> simp_all [trimEnd]

/-- The blanks at the two ends go in either order. -/
theorem dropWhile_trimEnd (a : List Char) :
    (trimEnd a).dropWhile isBlank = trimEnd (a.dropWhile isBlank) := by
  induction a with
  | nil => rfl
  | cons c a ih =>
      cases hc : isBlank c with
      | false =>
          have htrim : trimEnd (c :: a) = c :: trimEnd a := trimEnd_append_cons hc [] a
          rw [htrim, List.dropWhile_cons_of_neg (by simp [hc]),
            List.dropWhile_cons_of_neg (by simp [hc]), htrim]
      | true =>
          rw [trimEnd_cons_of_isBlank hc, List.dropWhile_cons_of_pos hc, ← ih]
          split
          next h => rw [h]
          next => rw [List.dropWhile_cons_of_pos hc]

theorem trim_dropWhile (a : List Char) : trim (a.dropWhile isBlank) = trim a := by
  rw [trim, List.dropWhile_idempotent, trim]

theorem trim_trimEnd (a : List Char) : trim (trimEnd a) = trim a := by
  rw [trim, dropWhile_trimEnd, trimEnd_trimEnd, trim]

/-- The blanks at the ends are on either side of a character that is none. -/
theorem trim_append_cons (hc : isBlank c = false) (a b : List Char) :
    trim (a ++ c :: b) = a.dropWhile isBlank ++ c :: trimEnd b := by
  rw [trim, List.dropWhile_append_cons hc, trimEnd_append_cons hc]

theorem mem_of_mem_trim (h : c ∈ trim a) : c ∈ a := by
  rw [trim, trimEnd, List.mem_reverse] at h
  have h' := (List.dropWhile_sublist _).subset h
  rw [List.mem_reverse] at h'
  exact (List.dropWhile_sublist _).subset h'

end blanks

/-! ### Commas -/

section commas

variable {sep : Char} {cs p : List Char} {es : List String}

theorem pieces_eq_splitOn (sep : Char) (cs : List Char) : pieces sep cs = cs.splitOn sep := by
  induction cs with
  | nil => simp [pieces]
  | cons c cs ih =>
      rw [pieces, List.splitOn_cons_eq_if_modifyHead, ih]
      by_cases hc : c = sep
      · simp [hc]
      · cases hs : cs.splitOn sep with
        | nil => exact absurd hs (List.splitOn_ne_nil _ _)
        | cons p ps => simp [hc]

theorem not_mem_of_mem_pieces (h : p ∈ pieces sep cs) : sep ∉ p := by
  induction cs generalizing p with
  | nil =>
      rw [pieces, List.mem_singleton] at h
      simp [h]
  | cons c cs ih =>
      rw [pieces] at h
      split at h
      next =>
        rcases List.mem_cons.mp h with rfl | h
        · exact List.not_mem_nil
        · exact ih h
      next hc =>
        split at h
        next =>
          rw [List.mem_singleton] at h
          simp [h, Ne.symm hc]
        next q qs hps =>
          rw [hps] at ih
          rcases List.mem_cons.mp h with rfl | h
          · simp [Ne.symm hc, ih List.mem_cons_self]
          · exact ih (List.mem_cons_of_mem _ h)

/-- A text is cut into the entries that it is made of. -/
theorem pieces_intercalate (hes : ∀ e ∈ es, ',' ∉ e.toList) (hne : es ≠ []) :
    pieces ',' (String.intercalate "," es).toList = es.map String.toList := by
  rw [pieces_eq_splitOn, String.toList_intercalate]
  apply List.splitOn_intercalate
  · simpa using hes
  · simpa using hne

/-- Every text is entries with commas between them. -/
theorem exists_entries (s : String) :
    ∃ es : List String, (∀ e ∈ es, ',' ∉ e.toList) ∧ s = String.intercalate "," es := by
  refine ⟨(pieces ',' s.toList).map String.ofList, ?_, ?_⟩
  · intro e he
    obtain ⟨p, hp, rfl⟩ := List.mem_map.mp he
    rw [String.toList_ofList]
    exact not_mem_of_mem_pieces hp
  · rw [← String.toList_inj, String.toList_intercalate, List.map_map]
    have hmap : String.toList ∘ String.ofList = id := by
      funext cs
      exact String.toList_ofList
    rw [hmap, List.map_id, pieces_eq_splitOn]
    exact (List.intercalate_splitOn ',').symm

end commas

end Text

/-! ### Reading an entry -/

namespace Trials

/-- The entry has a colon; `key` stands before the first one and `value` after it, blanks at the
ends of either aside. -/
def Assigns (entry key value : String) : Prop :=
  ∃ a b : String, entry = a ++ ":" ++ b ∧ ':' ∉ a.toList ∧ Text.trimmed a = key ∧
    Text.trimmed b = value

section entry

variable {entry key value : String}

theorem parameter?_trim_append {a : List Char} (ha : ':' ∉ a) (b : List Char) :
    parameter? (Text.trim (a ++ ':' :: b)) =
      .ok (String.ofList (Text.trim a), String.ofList (Text.trim b)) := by
  have hcut : Text.splitOnce ':' (a.dropWhile Text.isBlank ++ ':' :: Text.trimEnd b) =
      some (a.dropWhile Text.isBlank, Text.trimEnd b) :=
    Text.splitOnce_eq_some_iff.mpr ⟨rfl, fun h => ha ((List.dropWhile_sublist _).subset h)⟩
  rw [Text.trim_append_cons (by decide), parameter?, hcut]
  simp only [Text.trim_dropWhile, Text.trim_trimEnd]

/-- An entry without a colon is not read. -/
theorem parameter?_trim_of_not_mem {e : List Char} (he : ':' ∉ e) :
    parameter? (Text.trim e) = .error (.malformedParameter (String.ofList (Text.trim e))) := by
  rw [parameter?, Text.splitOnce_eq_none_iff.mpr fun h => he (Text.mem_of_mem_trim h)]

theorem exists_assigns (h : ':' ∈ entry.toList) : ∃ key value, Assigns entry key value := by
  cases hs : Text.splitOnce ':' entry.toList with
  | none => exact absurd h (Text.splitOnce_eq_none_iff.mp hs)
  | some p =>
      obtain ⟨he, ha⟩ := Text.splitOnce_eq_some_iff.mp hs
      refine ⟨_, _, String.ofList p.1, String.ofList p.2, ?_, by simpa using ha, rfl, rfl⟩
      simpa [← String.toList_inj] using he

theorem Assigns.parameter?_trim (h : Assigns entry key value) :
    parameter? (Text.trim entry.toList) = .ok (key, value) := by
  obtain ⟨a, b, rfl, ha, rfl, rfl⟩ := h
  have htext : (a ++ ":" ++ b).toList = a.toList ++ ':' :: b.toList := by simp
  rw [htext, parameter?_trim_append ha]
  rfl

theorem Assigns.unique {key' value' : String} (h : Assigns entry key value)
    (h' : Assigns entry key' value') : key = key' ∧ value = value' := by
  have heq := h.parameter?_trim.symm.trans h'.parameter?_trim
  rwa [Except.ok.injEq, Prod.mk.injEq] at heq

/-- What is assigned to stands before a colon. -/
theorem Assigns.mem (h : Assigns entry key value) : ':' ∈ entry.toList := by
  obtain ⟨a, b, rfl, -⟩ := h
  simp

end entry

end Trials

end MediaSender
