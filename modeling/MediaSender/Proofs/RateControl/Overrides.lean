import MediaSender.RateControl.Parameters
import MediaSender.Proofs.Trials.Entries

/-! # Parameters read entry by entry

The entries of the trial group are followed one after the other, from the defaults on.

* **Setting.** `set` succeeds if the key is that of a tunable and the text denotes a value of its
  kind, and then changes this tunable alone (`set_eq_ok_iff`).
* **Entries.** An entry `Overrides` one tunable, or it is `Unreadable` and changes nothing
  (`overrides_or_unreadable`), and never both (`Unreadable.not_overrides`).  Entries with different
  keys change different tunables, so their order does not matter (`heed_comm`).
* **Groups.** A tunable has the value of the last entry that overrides it
  (`get_foldl_heed_of_last`), or its default (`get_foldl_heed_of_none`). -/

namespace MediaSender.Parameters

open Trials (Assigns)

/-- The entry sets the tunable to the value. -/
def Overrides (entry : String) (t : Tunable) (v : t.kind.Value) : Prop :=
  ∃ value, Assigns entry t.key value ∧ t.kind.parse? value = some v

/-- Why an entry sets nothing. -/
inductive Unreadable (entry : String) : Prop where
  | malformed (h : ':' ∉ entry.toList)
  | unknown {key value : String} (h : Assigns entry key value) (hk : ∀ t : Tunable, t.key ≠ key)
  | unparsable {t : Tunable} {value : String} (h : Assigns entry t.key value)
      (hv : t.kind.parse? value = none)

/-- Follow one entry as it is written. -/
def heed (p : Parameters) (entry : String) : Parameters :=
  p.follow (Trials.parameter? (Text.trim entry.toList))

/-! ### Setting -/

section set

variable {p q : Parameters} {key value : String} {t : Tunable} {e : TrialError}

theorem ofKey?_eq_some_iff : Tunable.ofKey? key = some t ↔ t.key = key := by
  constructor
  · intro h
    simpa using List.find?_some h
  · rintro rfl
    exact Tunable.ofKey?_key t

theorem ofKey?_eq_none_iff : Tunable.ofKey? key = none ↔ ∀ t : Tunable, t.key ≠ key := by
  rw [← Option.not_isSome_iff_eq_none, Option.isSome_iff_exists]
  simp [ofKey?_eq_some_iff]

/-- Different tunables have different keys. -/
theorem eq_of_key_eq {u : Tunable} (h : u.key = t.key) : u = t := by
  have hu := ofKey?_eq_some_iff.mpr h
  rw [Tunable.ofKey?_key] at hu
  exact (Option.some.inj hu).symm

theorem set_of_parse {v : t.kind.Value} (hv : t.kind.parse? value = some v) :
    p.set t.key value = .ok (p.put t v) := by
  rw [set, Tunable.ofKey?_key]
  simp only [hv]

theorem set_of_unknown (hk : ∀ t : Tunable, t.key ≠ key) :
    p.set key value = .error (.unknownParameter key) := by
  rw [set, ofKey?_eq_none_iff.mpr hk]

theorem set_of_unparsable (hv : t.kind.parse? value = none) :
    p.set t.key value = .error (.invalidValue t.key value) := by
  rw [set, Tunable.ofKey?_key]
  simp only [hv]

/-- A key is known and the text denotes a value, or it is known and does not, or it is unknown. -/
theorem set_cases (key value : String) :
    (∃ (t : Tunable) (v : t.kind.Value), t.key = key ∧ t.kind.parse? value = some v) ∨
      (∃ t : Tunable, t.key = key ∧ t.kind.parse? value = none) ∨ ∀ t : Tunable, t.key ≠ key := by
  by_cases hk : ∃ t : Tunable, t.key = key
  · obtain ⟨t, ht⟩ := hk
    cases hv : t.kind.parse? value with
    | none => exact .inr (.inl ⟨t, ht, hv⟩)
    | some v => exact .inl ⟨t, v, ht, hv⟩
  · exact .inr (.inr (by simpa using hk))

theorem put_eq_iff {v : t.kind.Value} :
    p.put t v = q ↔ q.get t = v ∧ ∀ u, u ≠ t → q.get u = p.get u := by
  constructor
  · rintro rfl
    exact ⟨get_put_self p t v, fun u hu => get_put_of_ne p v hu⟩
  · rintro ⟨hself, hother⟩
    apply ext_get
    intro u
    by_cases hu : u = t
    · rw [hu, get_put_self, hself]
    · rw [get_put_of_ne p v hu, hother u hu]

/-- Success changes one tunable. -/
theorem set_eq_ok_iff : p.set key value = .ok q ↔
    ∃ (t : Tunable) (v : t.kind.Value), t.key = key ∧ t.kind.parse? value = some v ∧
      q.get t = v ∧ ∀ u, u ≠ t → q.get u = p.get u := by
  constructor
  · intro h
    obtain ⟨t, v, rfl, hv⟩ | ⟨t, rfl, hv⟩ | hk := set_cases key value
    · rw [set_of_parse hv, Except.ok.injEq] at h
      exact ⟨t, v, rfl, hv, put_eq_iff.mp h⟩
    · rw [set_of_unparsable hv] at h
      cases h
    · rw [set_of_unknown hk] at h
      cases h
  · rintro ⟨t, v, rfl, hv, hq⟩
    rw [set_of_parse hv, put_eq_iff.mpr hq]

/-- A key and a text change one tunable, or nothing. -/
theorem follow_cases (key value : String) :
    (∃ (t : Tunable) (v : t.kind.Value), t.key = key ∧
        ∀ p : Parameters, p.follow (.ok (key, value)) = p.put t v) ∨
      ∀ p : Parameters, p.follow (.ok (key, value)) = p := by
  obtain ⟨t, v, rfl, hv⟩ | ⟨t, rfl, hv⟩ | hk := set_cases key value
  · exact .inl ⟨t, v, rfl, fun p => by rw [follow, set_of_parse hv]; rfl⟩
  · exact .inr fun p => by rw [follow, set_of_unparsable hv]; rfl
  · exact .inr fun p => by rw [follow, set_of_unknown hk]; rfl

theorem put_comm (p : Parameters) {t u : Tunable} (v : t.kind.Value) (w : u.kind.Value)
    (h : t ≠ u) : (p.put t v).put u w = (p.put u w).put t v := by
  rw [put_eq_iff]
  refine ⟨by rw [get_put_of_ne _ _ h.symm, get_put_self], ?_⟩
  intro s hs
  by_cases hst : s = t
  · subst hst
    rw [get_put_self, get_put_self]
  · rw [get_put_of_ne _ _ hst, get_put_of_ne _ _ hs, get_put_of_ne _ _ hst]

/-- Different keys are set in either order. -/
theorem follow_comm (p : Parameters) {key key' : String} (value value' : String)
    (h : key ≠ key') :
    (p.follow (.ok (key, value))).follow (.ok (key', value')) =
      (p.follow (.ok (key', value'))).follow (.ok (key, value)) := by
  obtain ⟨t, v, rfl, ht⟩ | ht := follow_cases key value
  · obtain ⟨u, w, rfl, hu⟩ | hu := follow_cases key' value'
    · rw [ht, hu, hu, ht]
      exact put_comm p v w fun htu => h (by rw [htu])
    · rw [hu, hu]
  · rw [ht, ht]

end set

/-! ### Entries -/

section entries

variable {p : Parameters} {x y : String} {t : Tunable}

theorem overrides_or_unreadable (x : String) :
    (∃ t v, Overrides x t v) ∨ Unreadable x := by
  by_cases hmem : ':' ∈ x.toList
  · obtain ⟨key, value, hx⟩ := Trials.exists_assigns hmem
    obtain ⟨t, v, rfl, hv⟩ | ⟨t, rfl, hv⟩ | hk := set_cases key value
    · exact .inl ⟨t, v, value, hx, hv⟩
    · exact .inr (.unparsable hx hv)
    · exact .inr (.unknown hx hk)
  · exact .inr (.malformed hmem)

/-- No entry is both. -/
theorem Unreadable.not_overrides (hx : Unreadable x) (v : t.kind.Value) : ¬Overrides x t v := by
  rintro ⟨value, ha, hv⟩
  cases hx with
  | malformed h => exact h ha.mem
  | unknown h hk => exact hk t (ha.unique h).1
  | unparsable h hnone =>
      obtain ⟨hkey, rfl⟩ := ha.unique h
      obtain rfl := eq_of_key_eq hkey
      rw [hv] at hnone
      cases hnone

/-- An entry overrides one tunable at most. -/
theorem Overrides.not_of_ne {u : Tunable} {v : t.kind.Value} (hx : Overrides x t v) (h : u ≠ t)
    (w : u.kind.Value) : ¬Overrides x u w := by
  rintro ⟨value', hu, -⟩
  obtain ⟨value, ht, -⟩ := hx
  exact h (eq_of_key_eq (hu.unique ht).1)

theorem heed_of_assigns {key value : String} (hx : Assigns x key value) :
    p.heed x = p.follow (.ok (key, value)) := by
  rw [heed, hx.parameter?_trim]

theorem heed_of_overrides {v : t.kind.Value} (hx : Overrides x t v) : p.heed x = p.put t v := by
  obtain ⟨value, hx, hv⟩ := hx
  rw [heed_of_assigns hx, follow, set_of_parse hv]
  rfl

/-- An entry that cannot be read changes nothing. -/
theorem heed_of_unreadable (hx : Unreadable x) : p.heed x = p := by
  cases hx with
  | malformed h => rw [heed, Trials.parameter?_trim_of_not_mem h]; rfl
  | unknown h hk => rw [heed_of_assigns h, follow, set_of_unknown hk]; rfl
  | unparsable h hv => rw [heed_of_assigns h, follow, set_of_unparsable hv]; rfl

/-- An entry leaves the tunables alone that it does not override. -/
theorem get_heed_of_not (hx : ∀ v, ¬Overrides x t v) : (p.heed x).get t = p.get t := by
  obtain ⟨u, w, hu⟩ | hun := overrides_or_unreadable x
  · rw [heed_of_overrides hu]
    apply get_put_of_ne
    rintro rfl
    exact hx w hu
  · rw [heed_of_unreadable hun]

theorem heed_comm (p : Parameters) {key value key' value' : String} (hx : Assigns x key value)
    (hy : Assigns y key' value') (h : key ≠ key') : (p.heed x).heed y = (p.heed y).heed x := by
  rw [heed_of_assigns hx, heed_of_assigns hy, heed_of_assigns hy, heed_of_assigns hx]
  exact follow_comm p value value' h

end entries

/-! ### Groups -/

section groups

variable {p : Parameters} {es before after : List String} {x : String} {t : Tunable}

/-- A group is followed entry by entry. -/
theorem ofGroup_intercalate (hes : ∀ e ∈ es, ',' ∉ e.toList) :
    ofGroup (String.intercalate "," es) = es.foldl heed {} := by
  cases es with
  | nil => rfl
  | cons e rest =>
      -- blank entries are left out, and have no colon to follow
      have hblank : ∀ (p : Parameters) (x : String),
          (if !(Text.trim x.toList).isEmpty then
            p.follow (Trials.parameter? (Text.trim x.toList)) else p) = p.heed x := by
        intro p x
        cases hx : Text.trim x.toList with
        | nil => rw [heed, hx]; rfl
        | cons c cs => rw [heed, hx]; rfl
      rw [ofGroup, Trials.parameters, Text.pieces_intercalate hes (List.cons_ne_nil e rest),
        List.foldl_map, List.foldl_filter, List.foldl_map, List.foldl_map]
      simp only [hblank]

/-- A tunable that no entry overrides keeps its value. -/
theorem get_foldl_heed_of_none (hes : ∀ e ∈ es, ∀ v, ¬Overrides e t v) :
    (es.foldl heed p).get t = p.get t := by
  induction es generalizing p with
  | nil => rfl
  | cons e rest ih =>
      rw [List.forall_mem_cons] at hes
      rw [List.foldl_cons, ih hes.2, get_heed_of_not hes.1]

/-- The last entry that overrides a tunable counts. -/
theorem get_foldl_heed_of_last {v : t.kind.Value} (hx : Overrides x t v)
    (hafter : ∀ e ∈ after, ∀ w, ¬Overrides e t w) :
    ((before ++ x :: after).foldl heed p).get t = v := by
  rw [List.foldl_append, List.foldl_cons, get_foldl_heed_of_none hafter, heed_of_overrides hx,
    get_put_self]

end groups

/-- **Parameters are read entry by entry.**  The group's value is entries with commas between them,
and under the trials a tunable has the value of the last entry that overrides it, or its default if
none does.  In other words: setting a key changes one tunable on success and nothing else, and
nothing at all on failure; an entry that cannot be read may be put in anywhere; and two entries with
different keys may change places. -/
theorem parameters_read_by_entry :
    (∀ trials : Trials, ∃ es, (∀ e ∈ es, ',' ∉ e.toList) ∧
      trials.lookup trialGroup = String.intercalate "," es) ∧
    (∀ (trials : Trials) es, (∀ e ∈ es, ',' ∉ e.toList) →
      trials.lookup trialGroup = String.intercalate "," es → ∀ t : Tunable,
        (∀ before x after v, es = before ++ x :: after → Overrides x t v →
          (∀ e ∈ after, ∀ w, ¬Overrides e t w) → (ofTrials trials).get t = v) ∧
        ((∀ e ∈ es, ∀ v, ¬Overrides e t v) →
          (ofTrials trials).get t = ({} : Parameters).get t)) ∧
    (∀ (p q : Parameters) key value, p.set key value = .ok q ↔
      ∃ (t : Tunable) (v : t.kind.Value), t.key = key ∧ t.kind.parse? value = some v ∧
        q.get t = v ∧ ∀ u, u ≠ t → q.get u = p.get u) ∧
    (∀ (p : Parameters) key value e, p.set key value = .error e →
      p.follow (.ok (key, value)) = p) ∧
    (∀ before x after, (∀ e ∈ before ++ x :: after, ',' ∉ e.toList) → Unreadable x →
      ofGroup (String.intercalate "," (before ++ x :: after)) =
        ofGroup (String.intercalate "," (before ++ after))) ∧
    ∀ before x y after key value key' value',
      (∀ e ∈ before ++ x :: y :: after, ',' ∉ e.toList) → Assigns x key value →
        Assigns y key' value' → key ≠ key' →
          ofGroup (String.intercalate "," (before ++ x :: y :: after)) =
            ofGroup (String.intercalate "," (before ++ y :: x :: after)) := by
  refine ⟨fun trials => Text.exists_entries _, ?_, fun p q key value => set_eq_ok_iff, ?_, ?_, ?_⟩
  · intro trials es hes hgroup t
    have hparams : ofTrials trials = es.foldl heed {} := by
      rw [ofTrials, hgroup, ofGroup_intercalate hes]
    rw [hparams]
    refine ⟨?_, get_foldl_heed_of_none⟩
    rintro before x after v rfl hx hafter
    exact get_foldl_heed_of_last hx hafter
  · intro p key value e he
    rw [follow, he]
    rfl
  · intro before x after hes hx
    have hes' : ∀ e ∈ before ++ after, ',' ∉ e.toList := by
      intro e he
      apply hes
      rw [List.mem_append] at he ⊢
      exact he.imp_right (List.mem_cons_of_mem x)
    rw [ofGroup_intercalate hes, ofGroup_intercalate hes', List.foldl_append, List.foldl_append,
      List.foldl_cons, heed_of_unreadable hx]
  · intro before x y after key value key' value' hes hx hy hne
    have hes' : ∀ e ∈ before ++ y :: x :: after, ',' ∉ e.toList := by
      intro e he
      apply hes
      exact ((List.Perm.swap x y after).append_left before).mem_iff.mp he
    rw [ofGroup_intercalate hes, ofGroup_intercalate hes', List.foldl_append, List.foldl_append,
      List.foldl_cons, List.foldl_cons, List.foldl_cons, List.foldl_cons, heed_comm _ hx hy hne]

/-- An integer, a float and a time are read; the integer from an entry with blanks, though an entry
that denotes no integer and one without a colon follow. -/
theorem parameters_read_by_entry_before_unreadable :
    let trials : Trials := ⟨[(trialGroup, "PostCongestionDelayRtts:3," ++
      " PostCongestionDelayRtts : 7 ,BetaLoss:0.8,VirtualRtt: 30 ms,PostCongestionDelayRtts:x,y")]⟩
    (ofTrials trials).get .postCongestionRtts = (7 : Int) ∧
      (ofTrials trials).get .lossFactor = (0.8 : Float) ∧
      (ofTrials trials).get .virtualRtt = TimeDelta.ofMillis 30 := by
  intro trials
  have hgroup : trials.lookup trialGroup = String.intercalate "," ["PostCongestionDelayRtts:3",
      " PostCongestionDelayRtts : 7 ", "BetaLoss:0.8", "VirtualRtt: 30 ms",
      "PostCongestionDelayRtts:x", "y"] := rfl
  have hinteger : Overrides " PostCongestionDelayRtts : 7 " .postCongestionRtts (7 : Int) :=
    ⟨"7", ⟨" PostCongestionDelayRtts ", " 7 ", by decide⟩, by decide⟩
  have hfloat : Overrides "BetaLoss:0.8" .lossFactor (0.8 : Float) :=
    ⟨"0.8", ⟨"BetaLoss", "0.8", by decide⟩, rfl⟩
  have htime : Overrides "VirtualRtt: 30 ms" .virtualRtt (TimeDelta.ofMillis 30) :=
    ⟨"30 ms", ⟨"VirtualRtt", " 30 ms", by decide⟩, by decide +kernel⟩
  have hunparsable : Unreadable "PostCongestionDelayRtts:x" :=
    have ha : Assigns "PostCongestionDelayRtts:x" Tunable.postCongestionRtts.key "x" :=
      ⟨"PostCongestionDelayRtts", "x", by decide⟩
    .unparsable ha (by decide)
  have hmalformed : Unreadable "y" := .malformed (by decide)
  have hrest : ∀ t : Tunable, ∀ e ∈ ["PostCongestionDelayRtts:x", "y"],
      ∀ w : t.kind.Value, ¬Overrides e t w := by
    simp only [List.forall_mem_cons]
    exact fun t => ⟨hunparsable.not_overrides, hmalformed.not_overrides, by simp⟩
  have hread := parameters_read_by_entry.2.1 trials _ (by decide) hgroup
  refine ⟨?_, ?_, ?_⟩
  · refine (hread .postCongestionRtts).1 ["PostCongestionDelayRtts:3"] _ _ (7 : Int) rfl hinteger ?_
    exact List.forall_mem_cons.mpr ⟨hfloat.not_of_ne (by decide),
      List.forall_mem_cons.mpr ⟨htime.not_of_ne (by decide), hrest _⟩⟩
  · refine (hread .lossFactor).1 ["PostCongestionDelayRtts:3", " PostCongestionDelayRtts : 7 "]
      _ _ (0.8 : Float) rfl hfloat ?_
    exact List.forall_mem_cons.mpr ⟨htime.not_of_ne (by decide), hrest _⟩
  · exact (hread .virtualRtt).1 ["PostCongestionDelayRtts:3", " PostCongestionDelayRtts : 7 ",
      "BetaLoss:0.8"] _ _ (TimeDelta.ofMillis 30) rfl htime (hrest _)

end MediaSender.Parameters
