import MediaSender.Trials.Basic

/-! # The grammar of trial texts

A trial text is a sequence of groups, each a key and a value with a slash after either.

* **Groups.** `text` writes groups one after the other, and `AreGroups` says which pairs are
  groups.  Reading a text of groups gives them back (`groups?_text_append`).
* **Faults.** A text that is not empty and starts with no group has a `Fault`, and reading stops
  there with its error (`groups?_of_fault`).
* **Both ways.** Every text is groups and then nothing or a fault (`exists_groups_append`).  So a
  text is read exactly if it is the text of groups (`groups?_eq_ok_iff`), and the error is that of
  the fault behind the groups in front (`groups?_eq_error_iff`).
* **One way.** A slash ends a part, so there is one way to take a text as groups with a fault
  behind them (`Fault.groups_unique`), and a key has the value of the first group with it
  (`lookup_of_first`). -/

namespace MediaSender.Trials

/-- What a key or a value may be: not empty, and without a slash. -/
def IsPart (x : String) : Prop := x ≠ "" ∧ '/' ∉ x.toList

/-- Whether all keys and values are what they may be. -/
def AreGroups (gs : List (String × String)) : Prop := ∀ g ∈ gs, IsPart g.1 ∧ IsPart g.2

/-- The text of groups. -/
def text : List (String × String) → String
  | [] => ""
  | (key, value) :: gs => key ++ "/" ++ (value ++ "/" ++ text gs)

/-- Why a text that is not empty starts with no group, and the error that says so. -/
inductive Fault : String → TrialError → Prop where
  | unendedKey {rest : String} (hne : rest ≠ "") (hr : '/' ∉ rest.toList) :
      Fault rest (.missingSeparator rest)
  | emptyKey (rest : String) : Fault ("/" ++ rest) .emptyKey
  | unendedValue {key rest : String} (hk : IsPart key) (hr : '/' ∉ rest.toList) :
      Fault (key ++ "/" ++ rest) (.missingSeparator rest)
  | emptyValue {key : String} (hk : IsPart key) (rest : String) :
      Fault (key ++ "//" ++ rest) (.emptyValue key)

variable {gs : List (String × String)} {key value : String}

theorem text_cons_append (rest : String) :
    text ((key, value) :: gs) ++ rest = key ++ "/" ++ (value ++ "/" ++ (text gs ++ rest)) := by
  simp [text, String.append_assoc]

theorem areGroups_nil : AreGroups [] := by simp [AreGroups]

theorem areGroups_cons : AreGroups ((key, value) :: gs) ↔
    (IsPart key ∧ IsPart value) ∧ AreGroups gs := by
  simp [AreGroups]

/-- A text before a slash that is the first one, if the text is not empty. -/
theorem isPart_of_splitOnce {cs a b : List Char} (h : Text.splitOnce '/' cs = some (a, b))
    (hne : a.isEmpty = false) : IsPart (String.ofList a) :=
  ⟨by simpa using hne, by simpa using (Text.splitOnce_eq_some_iff.mp h).2⟩

/-! ### Reading from the front -/

section reading

theorem groups?_eq (cs : List Char) :
    groups? cs =
      if cs.isEmpty then .ok []
      else
        match Text.splitOnce '/' cs with
        | none => .error (.missingSeparator (String.ofList cs))
        | some (key, afterKey) =>
          if key.isEmpty then .error .emptyKey
          else
            match Text.splitOnce '/' afterKey with
            | none => .error (.missingSeparator (String.ofList afterKey))
            | some (value, rest) =>
              if value.isEmpty then .error (.emptyValue (String.ofList key))
              else (groups? rest).map ((String.ofList key, String.ofList value) :: ·) := by
  rw [groups?]
  split
  next => rfl
  next =>
    split
    next h => rw [h]
    next h =>
      simp only [h]
      split
      next => rfl
      next =>
        split
        next hv => simp only [hv]
        next hv => simp only [hv]

theorem splitOnce_part {x : String} (h : '/' ∉ x.toList) (rest : List Char) :
    Text.splitOnce '/' (x.toList ++ '/' :: rest) = some (x.toList, rest) :=
  Text.splitOnce_eq_some_iff.mpr ⟨rfl, h⟩

theorem groups?_nil : groups? [] = .ok [] := by
  rw [groups?_eq]
  rfl

theorem groups?_group (hk : IsPart key) (hv : IsPart value) (rest : String) :
    groups? (key ++ "/" ++ (value ++ "/" ++ rest)).toList =
      (groups? rest.toList).map ((key, value) :: ·) := by
  have htext : (key ++ "/" ++ (value ++ "/" ++ rest)).toList =
      key.toList ++ '/' :: (value.toList ++ '/' :: rest.toList) := by simp
  rw [htext, groups?_eq]
  simp [splitOnce_part hk.2, splitOnce_part hv.2, hk.1, hv.1]

/-- Groups in front are read one after the other. -/
theorem groups?_text_append (hg : AreGroups gs) (rest : String) :
    groups? (text gs ++ rest).toList = (groups? rest.toList).map (gs ++ ·) := by
  induction gs with
  | nil => cases h : groups? rest.toList <;> simp [text, h, Except.map]
  | cons g gs ih =>
      obtain ⟨key, value⟩ := g
      obtain ⟨⟨hk, hv⟩, hgs⟩ := areGroups_cons.mp hg
      rw [text_cons_append, groups?_group hk hv, ih hgs]
      cases groups? rest.toList <;> rfl

/-- Reading stops at a fault. -/
theorem groups?_of_fault {s : String} {e : TrialError} (h : Fault s e) :
    groups? s.toList = .error e := by
  cases h with
  | unendedKey hne hr =>
      rw [groups?_eq, Text.splitOnce_eq_none_iff.mpr hr]
      simp [hne]
  | emptyKey rest =>
      rw [groups?_eq]
      simp [Text.splitOnce]
  | @unendedValue key rest hk hr =>
      have htext : (key ++ "/" ++ rest).toList = key.toList ++ '/' :: rest.toList := by simp
      rw [htext, groups?_eq, splitOnce_part hk.2]
      simp [Text.splitOnce_eq_none_iff.mpr hr, hk.1]
  | @emptyValue key hk rest =>
      have htext : (key ++ "//" ++ rest).toList = key.toList ++ '/' :: '/' :: rest.toList := by simp
      rw [htext, groups?_eq, splitOnce_part hk.2]
      simp [Text.splitOnce, hk.1]

end reading

/-! ### Every text -/

section every

theorem ofList_of_splitOnce {cs a b : List Char} (h : Text.splitOnce '/' cs = some (a, b)) :
    String.ofList cs = String.ofList a ++ "/" ++ String.ofList b := by
  obtain ⟨rfl, -⟩ := Text.splitOnce_eq_some_iff.mp h
  simp [← String.toList_inj]

/-- Every text is groups and then nothing or a fault. -/
theorem exists_groups_append (cs : List Char) :
    ∃ gs rest, AreGroups gs ∧ String.ofList cs = text gs ++ rest ∧
      (rest = "" ∨ ∃ e, Fault rest e) := by
  have hfault : ∀ {s : String} {e : TrialError}, Fault s e → ∃ gs rest, AreGroups gs ∧
      s = text gs ++ rest ∧ (rest = "" ∨ ∃ e, Fault rest e) := fun {s e} h =>
    ⟨[], s, areGroups_nil, by simp [text], .inr ⟨e, h⟩⟩
  -- every way that reading ends is nothing or one kind of fault, and it goes on behind a group
  fun_induction groups? cs with
  | case1 cs he => exact ⟨[], "", areGroups_nil, by simpa [text] using he, .inl rfl⟩
  | case2 cs hne hs =>
      refine hfault (.unendedKey (by simpa using hne) ?_)
      simpa using Text.splitOnce_eq_none_iff.mp hs
  | case3 cs hne key after hs hkey =>
      rw [ofList_of_splitOnce hs, List.isEmpty_iff.mp hkey]
      exact hfault (.emptyKey _)
  | case4 cs hne key after hs hkey hs' =>
      rw [ofList_of_splitOnce hs]
      refine hfault (.unendedValue (isPart_of_splitOnce hs (by simpa using hkey)) ?_)
      simpa using Text.splitOnce_eq_none_iff.mp hs'
  | case5 cs hne key after hs hkey value rest hs' hvalue =>
      have htext : String.ofList cs = .ofList key ++ "//" ++ .ofList rest := by
        rw [ofList_of_splitOnce hs, ofList_of_splitOnce hs', List.isEmpty_iff.mp hvalue]
        simp [← String.toList_inj]
      rw [htext]
      exact hfault (.emptyValue (isPart_of_splitOnce hs (by simpa using hkey)) _)
  | case6 cs hne key after hs hkey value rest hs' hvalue _ ih =>
      obtain ⟨gs, rest', hgs, hrest, hend⟩ := ih
      have hk : IsPart (.ofList key) := isPart_of_splitOnce hs (by simpa using hkey)
      have hv : IsPart (.ofList value) := isPart_of_splitOnce hs' (by simpa using hvalue)
      refine ⟨_, rest', areGroups_cons.mpr ⟨⟨hk, hv⟩, hgs⟩, ?_, hend⟩
      rw [text_cons_append, ofList_of_splitOnce hs, ofList_of_splitOnce hs', hrest]

theorem groups?_eq_ok_iff {s : String} :
    groups? s.toList = .ok gs ↔ AreGroups gs ∧ s = text gs := by
  constructor
  · intro h
    obtain ⟨gs', rest, hgs, hs, hend⟩ := exists_groups_append s.toList
    rw [String.ofList_toList] at hs
    rw [hs, groups?_text_append hgs] at h
    rcases hend with rfl | ⟨e, he⟩
    · rw [String.toList_empty, groups?_nil] at h
      obtain rfl : gs' = gs := by simpa [Except.map] using h
      exact ⟨hgs, by rw [hs, String.append_empty]⟩
    · rw [groups?_of_fault he] at h
      cases h
  · rintro ⟨hgs, rfl⟩
    have h := groups?_text_append hgs ""
    rw [String.toList_empty, groups?_nil, String.append_empty] at h
    simpa [Except.map] using h

/-- The error is that of the fault behind the groups in front. -/
theorem groups?_eq_error_iff {s : String} {e : TrialError} :
    groups? s.toList = .error e ↔
      ∃ gs rest, AreGroups gs ∧ s = text gs ++ rest ∧ Fault rest e := by
  constructor
  · intro h
    obtain ⟨gs, rest, hgs, hs, hend⟩ := exists_groups_append s.toList
    rw [String.ofList_toList] at hs
    rw [hs, groups?_text_append hgs] at h
    rcases hend with rfl | ⟨e', he⟩
    · rw [String.toList_empty, groups?_nil] at h
      cases h
    · rw [groups?_of_fault he] at h
      cases h
      exact ⟨gs, rest, hgs, hs, he⟩
  · rintro ⟨gs, rest, hgs, rfl, he⟩
    rw [groups?_text_append hgs, groups?_of_fault he]
    rfl

/-! ### One way to take it -/

/-- Two texts with a part in front agree on the part and on what follows the slash. -/
theorem part_append_inj {x y a b : String} (hx : IsPart x) (hy : IsPart y)
    (h : x ++ "/" ++ a = y ++ "/" ++ b) : x = y ∧ a = b := by
  have hcut : Text.splitOnce '/' (x ++ "/" ++ a).toList = some (x.toList, a.toList) := by
    simpa using splitOnce_part hx.2 a.toList
  rw [h] at hcut
  have hcut' : Text.splitOnce '/' (y ++ "/" ++ b).toList = some (y.toList, b.toList) := by
    simpa using splitOnce_part hy.2 b.toList
  rw [hcut', Option.some.injEq, Prod.mk.injEq, String.toList_inj, String.toList_inj] at hcut
  exact ⟨hcut.1.symm, hcut.2.symm⟩

/-- A part starts with no slash. -/
theorem IsPart.append_ne {x : String} (hx : IsPart x) (a b : String) : x ++ a ≠ "/" ++ b := by
  intro h
  have hhead := congrArg (·.toList.head?) h
  cases hc : x.toList with
  | nil => exact hx.1 (String.toList_eq_nil_iff.mp hc)
  | cons c cs =>
      have hslash : c = '/' := by simpa [hc] using hhead
      exact hx.2 (by simp [hc, hslash])

/-- No group starts a text with a fault. -/
theorem Fault.ne_group {s : String} {e : TrialError} (h : Fault s e) (hk : IsPart key)
    (hv : IsPart value) (rest : String) : s ≠ key ++ "/" ++ (value ++ "/" ++ rest) := by
  intro hs
  cases h with
  | unendedKey hne hr => simp [hs] at hr
  | emptyKey rest' => exact hk.append_ne _ rest' (by rw [hs, String.append_assoc])
  | unendedValue hk' hr =>
      obtain ⟨-, rfl⟩ := part_append_inj hk' hk hs
      simp at hr
  | @emptyValue key' hk' rest' =>
      have hs' : key' ++ "/" ++ ("/" ++ rest') = key ++ "/" ++ (value ++ "/" ++ rest) := by
        rw [← hs]
        simp [← String.toList_inj]
      obtain ⟨-, hvalue⟩ := part_append_inj hk' hk hs'
      exact hv.append_ne _ rest' (by rw [hvalue, String.append_assoc])

/-- One text has one list of groups in front of a fault, whatever the error. -/
theorem Fault.groups_unique {rest rest' : String} {e e' : TrialError} (hf : Fault rest e)
    (hf' : Fault rest' e') {gs' : List (String × String)} (hg : AreGroups gs)
    (hg' : AreGroups gs') (h : text gs ++ rest = text gs' ++ rest') : gs = gs' ∧ rest = rest' := by
  induction gs generalizing gs' with
  | nil =>
      cases gs' with
      | nil => simpa [text] using h
      | cons g' gs' =>
          -- here the fault on the one side would start with the group on the other
          obtain ⟨⟨hk', hv'⟩, -⟩ := areGroups_cons.mp hg'
          rw [text_cons_append, text, String.empty_append] at h
          exact absurd h (hf.ne_group hk' hv' _)
  | cons g gs ih =>
      obtain ⟨⟨hk, hv⟩, hgs⟩ := areGroups_cons.mp hg
      cases gs' with
      | nil =>
          rw [text_cons_append, text, String.empty_append] at h
          exact absurd h.symm (hf'.ne_group hk hv _)
      | cons g' gs' =>
          obtain ⟨⟨hk', hv'⟩, hgs'⟩ := areGroups_cons.mp hg'
          rw [text_cons_append, text_cons_append] at h
          obtain ⟨hkey, h⟩ := part_append_inj hk hk' h
          obtain ⟨hvalue, h⟩ := part_append_inj hv hv' h
          obtain ⟨rfl, rfl⟩ := ih hgs hgs' h
          exact ⟨by rw [Prod.ext hkey hvalue], rfl⟩

end every

/-! ### Look-up -/

section lookup

variable {t : Trials}

/-- The value of a key is that of the first group with it. -/
theorem lookup_of_first {before after : List (String × String)}
    (ht : t.groups = before ++ (key, value) :: after) (hb : ∀ g ∈ before, g.1 ≠ key) :
    t.lookup key = value := by
  have hnone : before.find? (·.1 == key) = none := by simpa using hb
  rw [lookup, ht, List.find?_append, hnone]
  simp

theorem lookup_of_absent (ht : ∀ g ∈ t.groups, g.1 ≠ key) : t.lookup key = "" := by
  have hnone : t.groups.find? (·.1 == key) = none := by simpa using ht
  rw [lookup, hnone]

theorem parse_eq_ok_iff {s : String} :
    parse s = .ok t ↔ AreGroups t.groups ∧ s = text t.groups := by
  rw [← groups?_eq_ok_iff, parse]
  cases groups? s.toList with
  | error e => simp [Except.map]
  | ok gs =>
      simp only [Except.map, Except.ok.injEq]
      exact ⟨fun h => h ▸ rfl, fun h => h ▸ rfl⟩

theorem parse_eq_error_iff {s : String} {e : TrialError} :
    parse s = .error e ↔ ∃ gs rest, AreGroups gs ∧ s = text gs ++ rest ∧ Fault rest e := by
  rw [← groups?_eq_error_iff, parse]
  cases groups? s.toList <;> simp [Except.map]

end lookup

/-- **What a trial text means.**  A text is read exactly if it is the text of groups.  There is one
way to take it as such, and then a key has the value of the first group with it, or the empty text
if there is none.  A text that is not read is groups and then a fault, again in one way, and the
error is that of the fault. -/
theorem parse_reads_groups (s : String) :
    ((∃ t, parse s = .ok t) ↔ ∃ gs, AreGroups gs ∧ s = text gs) ∧
      (∀ gs, AreGroups gs → s = text gs →
        (∀ gs', AreGroups gs' → s = text gs' → gs' = gs) ∧
          ∃ t, parse s = .ok t ∧
            (∀ before key value after, gs = before ++ (key, value) :: after →
              (∀ g ∈ before, g.1 ≠ key) → t.lookup key = value) ∧
            ∀ key, (∀ g ∈ gs, g.1 ≠ key) → t.lookup key = "") ∧
      ∀ e, parse s = .error e ↔
        ∃ gs rest, (AreGroups gs ∧ s = text gs ++ rest ∧ Fault rest e) ∧
          ∀ gs' rest' e', AreGroups gs' → s = text gs' ++ rest' → Fault rest' e' →
            gs' = gs ∧ rest' = rest := by
  have hread : ∀ gs, AreGroups gs → s = text gs → parse s = .ok ⟨gs⟩ := fun gs hgs hs =>
    parse_eq_ok_iff.mpr ⟨hgs, hs⟩
  refine ⟨⟨?_, ?_⟩, ?_, fun e => ⟨?_, ?_⟩⟩
  · rintro ⟨t, ht⟩
    exact ⟨t.groups, parse_eq_ok_iff.mp ht⟩
  · rintro ⟨gs, hgs, hs⟩
    exact ⟨⟨gs⟩, hread gs hgs hs⟩
  · intro gs hgs hs
    refine ⟨?_, ⟨gs⟩, hread gs hgs hs, ?_, ?_⟩
    · intro gs' hgs' hs'
      have h := hread gs' hgs' hs'
      rw [hread gs hgs hs] at h
      simpa using h.symm
    · intro before key value after hsplit hb
      exact lookup_of_first hsplit hb
    · intro key hk
      exact lookup_of_absent hk
  · intro h
    obtain ⟨gs, rest, hgs, hs, hf⟩ := parse_eq_error_iff.mp h
    refine ⟨gs, rest, ⟨hgs, hs, hf⟩, ?_⟩
    intro gs' rest' e' hgs' hs' hf'
    exact hf'.groups_unique hf hgs' hgs (hs'.symm.trans hs)
  · rintro ⟨gs, rest, ⟨hgs, hs, hf⟩, -⟩
    exact parse_eq_error_iff.mpr ⟨gs, rest, hgs, hs, hf⟩

/-- Of two groups with one key the first counts; of two faults the one in front is told. -/
theorem parse_reads_groups_up_to_fault :
    (∃ t, parse "a/1/b/2/a/3/" = .ok t ∧ t.lookup "a" = "1" ∧ t.lookup "c" = "") ∧
      parse "a/1/b//c" = .error (.emptyValue "b") := by
  have hgs : AreGroups [("a", "1"), ("b", "2"), ("a", "3")] := by simp [AreGroups, IsPart]
  have hg : AreGroups [("a", "1")] := by simp [AreGroups, IsPart]
  have hb : IsPart "b" := ⟨by decide, by decide⟩
  have hfault : Fault "b//c" (.emptyValue "b") := .emptyValue hb "c"
  constructor
  · obtain ⟨-, t, ht, hfirst, habsent⟩ := (parse_reads_groups "a/1/b/2/a/3/").2.1 _ hgs rfl
    exact ⟨t, ht, hfirst [] "a" "1" _ rfl (by simp), habsent "c" (by simp)⟩
  · refine ((parse_reads_groups "a/1/b//c").2.2 _).mpr ⟨_, _, ⟨hg, rfl, hfault⟩, ?_⟩
    intro gs' rest' e' hgs' hs' hf'
    exact hf'.groups_unique hfault hgs' hg (hs'.symm.trans rfl)

end MediaSender.Trials
