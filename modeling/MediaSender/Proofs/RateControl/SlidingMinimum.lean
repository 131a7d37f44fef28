import Mathlib.Order.MinMax
import Mathlib.Order.RelClasses
import MediaSender.Proofs.Guarded.Arithmetic
import MediaSender.Proofs.Lists
import MediaSender.RateControl.SlidingMinimum

/-! # The sliding minimum against the inserted values

The candidates are compared with the list of all values inserted so far.

* **Ends.** Candidates are in order of index and of value alike, so what an insertion drops at
  either end is what a filter drops (`candidates_insert`).
* **Invariant.** The candidates are those values of the window that are less than every later value
  (`Follows`), which an insertion keeps (`Follows.insert`).
* **Minimum.** For each value of the window there is a candidate, at its place or later, that is not
  greater (`Follows.exists_candidate`); so the first candidate is the minimum of the window
  (`Follows.minimum?_eq_some`).
* **Sequences.** From an empty window on, every sequence of values is followed (`Follows.foldl`),
  and as long as a 64-bit word can count the insertions none of them stops; so the minimum is what a
  scan of the latest values finds (`minimum_of_latest`). -/

namespace MediaSender.SlidingMinimum

variable {α : Type} [LT α]

/-! ### The ends -/

/-- Whether a candidate is older than another one, and less. -/
def Precedes (a b : Nat × α) : Prop := a.1 < b.1 ∧ a.2 < b.2

section candidates

variable [DecidableRel (LT.lt : α → α → Prop)] {w : SlidingMinimum α} {v : α} {c : Nat × α}

@[simp] theorem inserted_insert (w : SlidingMinimum α) (v : α) :
    (w.insert v).inserted = w.inserted + 1 := rfl

@[simp] theorem windowLength_insert (w : SlidingMinimum α) (v : α) :
    (w.insert v).windowLength = w.windowLength := rfl

/-- After an insertion the candidates are among the old ones and the new value. -/
theorem of_mem_candidates_insert (hc : c ∈ (w.insert v).candidates) :
    c ∈ w.candidates ∨ c.2 = v := by
  have h := (List.dropWhile_sublist _).mem hc
  rw [List.mem_append, List.mem_singleton] at h
  obtain hkept | hnew := h
  · left
    exact List.mem_reverse.mp ((List.dropWhile_sublist _).mem (List.mem_reverse.mp hkept))
  · right
    rw [hnew]

/-- The new value displaces the candidates that are not less, and the window leaves behind those
that are too old, wherever they are in the list. -/
theorem candidates_insert [IsTrans α (· < ·)] (hord : w.candidates.Pairwise Precedes)
    (hlt : ∀ c ∈ w.candidates, c.1 < w.inserted) (v : α) :
    (w.insert v).candidates =
      (w.candidates.filter (fun c => decide (c.2 < v)) ++ [(w.inserted, v)]).filter
        fun c => !decide (c.1 < w.inserted + 1 - w.windowLength) := by
  have hkept : (w.candidates.reverse.dropWhile fun c => !decide (c.2 < v)).reverse =
      w.candidates.filter fun c => decide (c.2 < v) := by
    rw [List.dropWhile_eq_filter_not, List.filter_reverse, List.reverse_reverse]
    · simp only [Bool.not_not]
    · rw [List.pairwise_reverse]
      refine hord.imp ?_
      intro a b hab hb
      rw [Bool.not_eq_true', decide_eq_false_iff_not] at hb ⊢
      exact fun hbv => hb (IsTrans.trans _ _ _ hab.2 hbv)
  show ((w.candidates.reverse.dropWhile fun c => !decide (c.2 < v)).reverse ++
      [(w.inserted, v)]).dropWhile _ = _
  rw [hkept, List.dropWhile_eq_filter_not]
  rw [List.pairwise_append]
  refine ⟨(hord.sublist List.filter_sublist).imp ?_, List.pairwise_singleton _ _, ?_⟩
  · intro a b hab hb
    rw [decide_eq_true_eq] at hb ⊢
    exact Nat.lt_trans hab.1 hb
  · intro a ha b hb hbound
    have hai := hlt a (List.mem_filter.mp ha).1
    rw [List.mem_singleton.mp hb, decide_eq_true_eq] at hbound
    rw [decide_eq_true_eq]
    exact Nat.lt_trans hai hbound

end candidates

omit [LT α] in
theorem mem_of_minimum?_eq_some {w : SlidingMinimum α} {m : α} (h : w.minimum? = some m) :
    ∃ c ∈ w.candidates, c.2 = m := by
  rw [minimum?, Option.map_eq_some_iff] at h
  obtain ⟨c, hc, hm⟩ := h
  exact ⟨c, List.mem_of_mem_head? hc, hm⟩

/-! ### The invariant -/

/-- The values that are still in the window after `l` was inserted, oldest first. -/
def window (w : SlidingMinimum α) (l : List α) : List α := l.drop (l.length - w.windowLength)

omit [LT α] in
theorem mem_window {w : SlidingMinimum α} {l : List α} {u : α} :
    u ∈ w.window l ↔ ∃ i, l[i]? = some u ∧ l.length ≤ i + w.windowLength := by
  rw [window, List.mem_iff_getElem?]
  simp only [List.getElem?_drop]
  constructor
  · rintro ⟨i, hi⟩
    exact ⟨l.length - w.windowLength + i, hi, by omega⟩
  · rintro ⟨i, hi, hrecent⟩
    refine ⟨i - (l.length - w.windowLength), ?_⟩
    rw [Nat.add_sub_cancel' (by omega)]
    exact hi

/-- The candidates are the values of the window of `l` that are less than every later value, each
with its place in `l`. -/
structure Follows (w : SlidingMinimum α) (l : List α) : Prop where
  windowLength_pos : 0 < w.windowLength
  inserted_eq : w.inserted = l.length
  ordered : w.candidates.Pairwise Precedes
  mem_iff : ∀ i v, (i, v) ∈ w.candidates ↔
    l[i]? = some v ∧ l.length ≤ i + w.windowLength ∧ ∀ j u, i < j → l[j]? = some u → v < u

theorem follows_ofLength (n : Nat) : (ofLength n : SlidingMinimum α).Follows [] where
  windowLength_pos := Nat.lt_of_lt_of_le Nat.one_pos (Nat.le_max_right n 1)
  inserted_eq := rfl
  ordered := List.Pairwise.nil
  mem_iff i v := by simp [ofLength]

namespace Follows

variable {w : SlidingMinimum α} {l : List α}

theorem lt_inserted (h : w.Follows l) : ∀ c ∈ w.candidates, c.1 < w.inserted := by
  rintro ⟨i, v⟩ hc
  obtain ⟨hi, -⟩ := (h.mem_iff i v).mp hc
  rw [h.inserted_eq]
  exact (List.getElem?_eq_some_iff.mp hi).1

theorem insert [DecidableRel (LT.lt : α → α → Prop)] [IsTrans α (· < ·)] (h : w.Follows l)
    (v : α) : (w.insert v).Follows (l ++ [v]) where
  windowLength_pos := h.windowLength_pos
  inserted_eq := by
    rw [inserted_insert, h.inserted_eq, List.length_append, List.length_singleton]
  ordered := by
    rw [candidates_insert h.ordered h.lt_inserted]
    refine List.Pairwise.sublist List.filter_sublist ?_
    rw [List.pairwise_append]
    refine ⟨h.ordered.sublist List.filter_sublist, List.pairwise_singleton _ _, ?_⟩
    intro a ha b hb
    rw [List.mem_filter, decide_eq_true_eq] at ha
    rw [List.mem_singleton.mp hb]
    exact ⟨h.lt_inserted a ha.1, ha.2⟩
  mem_iff i u := by
    have hpos := h.windowLength_pos
    rw [candidates_insert h.ordered h.lt_inserted, List.mem_filter, List.mem_append,
      List.mem_filter, List.mem_singleton, h.mem_iff, h.inserted_eq, windowLength_insert,
      List.length_append, List.length_singleton, List.getElem?_concat_eq_some, Prod.mk.injEq,
      decide_eq_true_eq, Bool.not_eq_true', decide_eq_false_iff_not]
    constructor
    · rintro ⟨⟨⟨hi, -, hlater⟩, huv⟩ | ⟨rfl, rfl⟩, hbound⟩
      · refine ⟨.inl hi, by omega, ?_⟩
        intro j x hij hx
        obtain hx | ⟨-, rfl⟩ := List.getElem?_concat_eq_some.mp hx
        · exact hlater j x hij hx
        · exact huv
      · refine ⟨.inr ⟨rfl, rfl⟩, by omega, ?_⟩
        intro j x hij hx
        have hj := (List.getElem?_eq_some_iff.mp hx).1
        rw [List.length_append, List.length_singleton] at hj
        omega
    · rintro ⟨hi | ⟨rfl, rfl⟩, hbound, hlater⟩
      · have hlen := (List.getElem?_eq_some_iff.mp hi).1
        refine ⟨.inl ⟨⟨hi, by omega, ?_⟩, ?_⟩, by omega⟩
        · exact fun j x hij hx => hlater j x hij (List.getElem?_concat_eq_some.mpr (.inl hx))
        · exact hlater l.length v hlen (List.getElem?_concat_eq_some.mpr (.inr ⟨rfl, rfl⟩))
      · exact ⟨.inr ⟨rfl, rfl⟩, by omega⟩

/-! ### The minimum -/

variable [IsStrictTotalOrder α (· < ·)]

/-- Each value of the window is not less than a candidate at its place or later. -/
theorem exists_candidate (h : w.Follows l) {i : Nat} {u : α} (hi : l[i]? = some u)
    (hw : l.length ≤ i + w.windowLength) : ∃ c ∈ w.candidates, i ≤ c.1 ∧ ¬u < c.2 := by
  by_cases hlater : ∀ j x, i < j → l[j]? = some x → u < x
  · exact ⟨(i, u), (h.mem_iff i u).mpr ⟨hi, hw, hlater⟩, Nat.le_refl i, irrefl u⟩
  · obtain ⟨j, x, hij, hj, hux⟩ : ∃ j x, i < j ∧ l[j]? = some x ∧ ¬u < x := by
      simpa only [not_forall, exists_prop] using hlater
    have hlen := (List.getElem?_eq_some_iff.mp hj).1
    obtain ⟨c, hc, hjc, hxc⟩ := h.exists_candidate hj (by omega)
    exact ⟨c, hc, by omega, IsOrderConnected.neg_trans hux hxc⟩
termination_by l.length - i

/-- The minimum is a value of the window, and no value of the window is less. -/
theorem minimum?_eq_some (h : w.Follows l) (hl : l ≠ []) :
    ∃ m ∈ w.window l, w.minimum? = some m ∧ ∀ u ∈ w.window l, ¬u < m := by
  have hpos := h.windowLength_pos
  have hlen := List.length_pos_iff.mpr hl
  obtain ⟨first, rest, hcands⟩ : ∃ first rest, w.candidates = first :: rest := by
    have hlast : l[l.length - 1]? = some (l[l.length - 1]) := List.getElem?_eq_getElem _
    obtain ⟨c, hc, -⟩ := h.exists_candidate hlast (by omega)
    exact List.exists_cons_of_ne_nil (List.ne_nil_of_mem hc)
  have hfirst : first ∈ w.candidates := by
    rw [hcands]
    exact List.mem_cons_self
  have hleast : ∀ c ∈ w.candidates, ¬c.2 < first.2 := by
    have hord := h.ordered
    rw [hcands, List.pairwise_cons] at hord
    intro c hc
    rw [hcands, List.mem_cons] at hc
    obtain rfl | hc := hc
    · exact irrefl c.2
    · exact asymm (hord.1 c hc).2
  obtain ⟨hplace, hrecent, -⟩ := (h.mem_iff first.1 first.2).mp hfirst
  refine ⟨first.2, mem_window.mpr ⟨first.1, hplace, hrecent⟩, by rw [minimum?, hcands]; rfl, ?_⟩
  intro u hu
  obtain ⟨i, hi, hrecent⟩ := mem_window.mp hu
  obtain ⟨c, hc, -, huc⟩ := h.exists_candidate hi hrecent
  exact IsOrderConnected.neg_trans huc (hleast c hc)

end Follows

/-! ### Sequences of insertions -/

section sequences

variable [DecidableRel (LT.lt : α → α → Prop)] {w : SlidingMinimum α} {l values : List α}

/-- A window that follows some values follows all that are inserted after them. -/
theorem Follows.foldl [IsTrans α (· < ·)] (h : w.Follows l) (values : List α) :
    (values.foldl SlidingMinimum.insert w).Follows (l ++ values) := by
  induction values generalizing w l with
  | nil =>
      rw [List.append_nil]
      exact h
  | cons v rest ih =>
      have hrest := ih (h.insert v)
      rw [List.append_assoc] at hrest
      exact hrest

@[simp] theorem windowLength_foldl_insert (w : SlidingMinimum α) (values : List α) :
    (values.foldl insert w).windowLength = w.windowLength := by
  induction values generalizing w with
  | nil => rfl
  | cons v rest ih => exact ih (w.insert v)

/-- The counter has room for fewer than `2 ^ 64` insertions. -/
theorem foldlM_guardedInsert (h : w.inserted + values.length < 0x10000000000000000) :
    values.foldlM guardedInsert w = .ok (values.foldl insert w) := by
  induction values generalizing w with
  | nil => rfl
  | cons v rest ih =>
      rw [List.length_cons] at h
      rw [List.foldlM_cons, guardedInsert_eq (by omega), Fault.ok_bind]
      apply ih
      rw [inserted_insert]
      omega

end sequences

end MediaSender.SlidingMinimum

namespace MediaSender.SlidingMinimum

variable {α : Type} [LinearOrder α]

/-- The minimum is what a scan of the window finds. -/
theorem Follows.minimum?_eq_min? {w : SlidingMinimum α} {l : List α} (h : w.Follows l) :
    w.minimum? = (w.window l).min? := by
  by_cases hl : l = []
  · subst hl
    have hnone : w.candidates = [] := by
      rw [List.eq_nil_iff_forall_not_mem]
      rintro ⟨i, v⟩ hc
      obtain ⟨hi, -⟩ := (h.mem_iff i v).mp hc
      cases hi
    rw [minimum?, hnone, window, List.drop_nil]
    rfl
  · obtain ⟨m, hm, hmin, hleast⟩ := h.minimum?_eq_some hl
    rw [hmin, eq_comm, List.min?_eq_some_iff]
    exact ⟨hm, fun u hu => not_lt.mp (hleast u hu)⟩

/-- **The minimum of the latest values.**  Let fewer than `2 ^ 64` values be inserted into a window
of length `n`.  None of the insertions stops; the minimum afterwards is that of the latest `n`
values, or of the latest one if `n` is zero, and there is none before the first; indices and values
of the candidates increase from the oldest on; and every candidate is one of the values in the
window, with the index of its insertion. -/
theorem minimum_of_latest (n : Nat) {l : List α} (hl : l.length < 0x10000000000000000) :
    ∃ w : SlidingMinimum α,
      l.foldlM guardedInsert (ofLength n) = .ok w ∧ l.foldl insert (ofLength n) = w ∧
        w.minimum? = (l.drop (l.length - max n 1)).min? ∧
        w.candidates.Pairwise Precedes ∧
        ∀ c ∈ w.candidates,
          l.length - max n 1 ≤ c.1 ∧ c.1 < l.length ∧ l[c.1]? = some c.2 := by
  have hroom : (ofLength n : SlidingMinimum α).inserted + l.length < 0x10000000000000000 := by
    show 0 + l.length < _
    omega
  have hfollows := (follows_ofLength (α := α) n).foldl l
  rw [List.nil_append] at hfollows
  have hlength : (l.foldl insert (ofLength n)).windowLength = max n 1 :=
    windowLength_foldl_insert _ l
  refine ⟨_, foldlM_guardedInsert hroom, rfl, ?_, hfollows.ordered, ?_⟩
  · rw [hfollows.minimum?_eq_min?, window, hlength]
  · rintro ⟨i, v⟩ hc
    obtain ⟨hi, hrecent, -⟩ := (hfollows.mem_iff i v).mp hc
    rw [hlength] at hrecent
    exact ⟨by omega, (List.getElem?_eq_some_iff.mp hi).1, hi⟩

/-- The first of four values leaves a window of three, and the second is displaced. -/
theorem minimum_of_latest_after_expiry :
    ([5, 7, 6, 9] : List Int).length < 0x10000000000000000 ∧
      ∃ w : SlidingMinimum Int,
        [5, 7, 6, 9].foldlM guardedInsert (ofLength 3) = .ok w ∧
          w.candidates = [(2, 6), (3, 9)] ∧ w.minimum? = some 6 ∧
          w.candidates.Pairwise Precedes ∧ ∀ c ∈ w.candidates, 1 ≤ c.1 ∧ c.1 < 4 := by
  have hl : ([5, 7, 6, 9] : List Int).length < 0x10000000000000000 := by decide
  obtain ⟨w, hguarded, hrun, hmin, hordered, hwindow⟩ := minimum_of_latest 3 hl
  have hcandidates : w.candidates = [(2, 6), (3, 9)] := by
    rw [← hrun]
    decide
  refine ⟨hl, w, hguarded, hcandidates, hmin.trans (by decide), hordered, ?_⟩
  intro c hc
  obtain ⟨hlower, hupper, -⟩ := hwindow c hc
  exact ⟨hlower, hupper⟩

end MediaSender.SlidingMinimum
