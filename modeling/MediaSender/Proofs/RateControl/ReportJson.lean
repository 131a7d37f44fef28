import MediaSender.Proofs.Json.Integers
import MediaSender.Proofs.Json.Values
import MediaSender.Proofs.Lists
import MediaSender.RateControl.ReportJson

/-! # Reports read back from their text

* **Members.** The fields of a report have different names, so each is found wherever it stands,
  if no further member has a name of theirs (`only?_of_perm`).
* **Tokens.** A scalar is one sound token, so in the text of an object of scalars every token is
  sound and the brackets nest once: the text is read by its members (`ofText?_text_object`).
* **Reports.** A report is read back from its text; and also from that of any object that has its
  members in any order, with unknown scalars anywhere among them (`ofText?_text_reordered`). -/

namespace MediaSender.Json

/-! ### Members -/

section members

variable {ms known extras : Members} {name : String} {v : Json}

theorem named_of_nodup (hnd : (known.map (·.1)).Nodup) (hv : (some name, v) ∈ known) :
    Members.named known name = [v] := by
  induction known with
  | nil => simp at hv
  | cons m known ih =>
      obtain ⟨hm, hnd⟩ := List.nodup_cons.mp hnd
      rcases List.mem_cons.mp hv with rfl | hv
      · have hrest : Members.named known name = [] := by
          rw [Members.named, List.map_eq_nil_iff, List.filter_eq_nil_iff]
          intro m' hm' heq
          exact hm (List.mem_map.mpr ⟨m', hm', by simpa using heq⟩)
        simpa [Members.named] using hrest
      · have hne : m.1 ≠ some name := fun heq => hm (List.mem_map.mpr ⟨_, hv, heq.symm⟩)
        have hrest := ih hnd hv
        simpa [Members.named, hne] using hrest

theorem named_append_of_ne (known : Members) (hx : ∀ m ∈ extras, m.1 ≠ some name) :
    Members.named (known ++ extras) name = Members.named known name := by
  have hnone : extras.filter (·.1 == some name) = [] := by
    rw [List.filter_eq_nil_iff]
    intro m hm
    simpa using hx m hm
  rw [Members.named, List.filter_append, hnone, List.append_nil, Members.named]

/-- A member is found in any order of members that have different names, among others of other
names. -/
theorem only?_of_perm (hp : ms.Perm (known ++ extras)) (hnd : (known.map (·.1)).Nodup)
    (hv : (some name, v) ∈ known) (hx : ∀ m ∈ extras, m.1 ≠ some name) :
    ms.only? name = some v := by
  have hnamed : (ms.named name).Perm [v] := by
    rw [← named_of_nodup hnd hv, ← named_append_of_ne known hx]
    exact (hp.filter _).map _
  rw [Members.only?, List.perm_singleton.mp hnamed]

end members

/-! ### Tokens -/

/-- The values without brackets: nothing, a truth value, a text, or an integer of 64 bits. -/
inductive IsScalar : Json → Prop
  | null : IsScalar .null
  | boolean (b : Bool) : IsScalar (.boolean b)
  | string (s : String) : IsScalar (.string (some s))
  | integer (n : Int) (lower : -0x8000000000000000 ≤ n) (upper : n < 0x8000000000000000) :
      IsScalar (.ofInt n)

/-- Whether a token opens a bracket. -/
def Token.opens : Token → Bool
  | .openArray | .openObject => true
  | _ => false

/-- A token that is read as written and opens no bracket. -/
structure Token.IsPlain (t : Token) : Prop where
  proper : t.Proper
  sound : t.isSound = true
  opens : t.opens = false

theorem IsScalar.exists_toTokens {j : Json} (h : IsScalar j) :
    ∃ t, j.toTokens = [t] ∧ t.IsPlain := by
  cases h with
  | null => exact ⟨.null, rfl, trivial, rfl, rfl⟩
  | boolean b => exact ⟨.boolean b, rfl, trivial, rfl, rfl⟩
  | string s => exact ⟨.string (some s), rfl, trivial, rfl, rfl⟩
  | integer n lower upper =>
      have hvalue := NumberText.value?_ofInt lower (by omega)
      exact ⟨.number (.ofInt n), rfl, NumberText.proper_ofInt n, by rw [Token.isSound, hvalue]; rfl,
        rfl⟩

/-- Members whose names are texts and whose values are scalars. -/
def AreScalars (ms : Members) : Prop := ∀ m ∈ ms, m.1.isSome = true ∧ IsScalar m.2

theorem isPlain_of_mem_memberTokens {ms : Members} (h : AreScalars ms) :
    ∀ t ∈ memberTokens ms, t.IsPlain := by
  induction ms with
  | nil =>
      intro t ht
      obtain rfl : t = .closeObject := by simpa [memberTokens] using ht
      exact ⟨trivial, rfl, rfl⟩
  | cons m ms ih =>
      obtain ⟨⟨hname, hscalar⟩, hms⟩ := List.forall_mem_cons.mp h
      obtain ⟨u, hu, hplain⟩ := hscalar.exists_toTokens
      intro t ht
      simp only [memberTokens, hu, List.cons_append, List.nil_append, List.mem_cons] at ht
      rcases ht with rfl | rfl | rfl | rfl | ht
      · exact ⟨trivial, rfl, rfl⟩
      · exact ⟨trivial, hname, rfl⟩
      · exact ⟨trivial, rfl, rfl⟩
      · exact hplain
      · exact ih hms t ht

/-- An object of scalars has one bracket that opens, the first of its tokens. -/
theorem exists_toTokens_object {ms : Members} (h : AreScalars ms) :
    ∃ ts, (object ms).toTokens = .openObject :: ts ∧ ∀ t ∈ ts, t.IsPlain := by
  cases ms with
  | nil => exact ⟨_, rfl, isPlain_of_mem_memberTokens h⟩
  | cons m ms =>
      refine ⟨_, rfl, fun t ht => isPlain_of_mem_memberTokens h t ?_⟩
      exact List.mem_cons_of_mem _ ht

/-- Brackets nest no deeper than there are opening ones. -/
theorem deepest_le (depth : Nat) (ts : List Token) :
    deepest depth ts ≤ depth + ts.countP Token.opens := by
  induction ts generalizing depth with
  | nil => exact Nat.le_add_right depth _
  | cons t ts ih =>
      have hup := ih (depth + 1)
      have hdown := ih (depth - 1)
      have hsame := ih depth
      rw [List.countP_cons]
      cases t <;> simp only [deepest, Token.opens, if_true, Bool.false_eq_true, if_false] <;> omega

end MediaSender.Json

namespace MediaSender.RateReport

open Json

/-- The text of an object of scalars is read by its members. -/
theorem ofText?_text_object {ms : Members} (h : AreScalars ms) :
    ofText? (object ms).text = ofMembers? ms := by
  obtain ⟨ts, hts, hplain⟩ := exists_toTokens_object h
  have hproper : ∀ t ∈ (object ms).toTokens, t.Proper := by
    rw [hts]
    exact List.forall_mem_cons.mpr ⟨trivial, fun t ht => (hplain t ht).proper⟩
  have hsound : (object ms).toTokens.all Token.isSound = true := by
    rw [hts, List.all_cons, List.all_eq_true.mpr fun t ht => (hplain t ht).sound]
    rfl
  have hdepth : deepest 0 (object ms).toTokens ≤ maxDepth := by
    have hcount : ts.countP Token.opens = 0 :=
      List.countP_eq_zero.mpr fun t ht => by simp [(hplain t ht).opens]
    have hle := deepest_le 0 (object ms).toTokens
    rw [hts, List.countP_cons, hcount] at hle
    exact hts ▸ hle.trans (by decide)
  rw [ofText?, tokens?_text _ hproper, Option.bind_some, ofTokens?, hsound, decide_eq_true hdepth,
    Bool.and_self, if_pos rfl, ofTokens?_toTokens, Option.bind_some, ofJson?]

/-! ### Values -/

theorem word?_ofInt_raw {d : Dimension} (q : Quantity d) : (ofInt q.raw).word? = some q.raw := by
  have hlower := q.lower
  have hupper := q.upper
  exact intWithin?_ofInt hlower (by omega) hlower (by omega)

/-- A report is made again from the values of its fields. -/
theorem ofValues?_values (r : RateReport) : ofValues? (r.values.map ofInt) = some r := by
  have hmarked : (ofInt r.markedPermille.toNat).intWithin? 0 0xffffffff =
      some (r.markedPermille.toNat : Int) := by
    have hlt := r.markedPermille.toNat_lt
    exact intWithin?_ofInt (by omega) (by omega) (by omega) (by omega)
  simp only [values, Timestamp.raw, List.map_cons, List.map_nil, ofValues?, word?_ofInt_raw,
    hmarked]
  simp [Timestamp.ofMicros]

/-! ### Reports -/

/-- The names of a report's members. -/
def names : List String := typeField :: fields

/-- A member that the reader does not know: its name is a text but none of the names of a report's
members, and its value is a scalar. -/
def IsUnknown (m : Option String × Json) : Prop :=
  ∃ name, m.1 = some name ∧ name ∉ names ∧ IsScalar m.2

section members

variable {r : RateReport} {ms extras : Members}

theorem map_fst_members (r : RateReport) : r.members.map (·.1) = names.map some := rfl

theorem bounds_of_mem_values {n : Int} (hn : n ∈ r.values) :
    -0x8000000000000000 ≤ n ∧ n < 0x8000000000000000 := by
  simp only [values, List.mem_cons, List.not_mem_nil, or_false] at hn
  rcases hn with rfl | rfl | rfl | rfl | rfl | rfl | rfl
  · exact ⟨r.atTime.sinceEpoch.lower, r.atTime.sinceEpoch.upper⟩
  · exact ⟨r.refWindow.lower, r.refWindow.upper⟩
  · exact ⟨r.dataInFlight.lower, r.dataInFlight.upper⟩
  · exact ⟨r.targetRate.lower, r.targetRate.upper⟩
  · exact ⟨r.smoothedRtt.lower, r.smoothedRtt.upper⟩
  · exact ⟨r.queueDelay.lower, r.queueDelay.upper⟩
  · have hlt := r.markedPermille.toNat_lt
    omega

theorem areScalars_members (r : RateReport) : AreScalars r.members := by
  intro m hm
  rcases List.mem_cons.mp hm with rfl | hm
  · exact ⟨rfl, .string typeName⟩
  · obtain ⟨⟨name, n⟩, hp, rfl⟩ := List.mem_map.mp hm
    obtain ⟨hlower, hupper⟩ := bounds_of_mem_values (List.of_mem_zip hp).2
    exact ⟨rfl, .integer n hlower hupper⟩

theorem IsUnknown.ne {m : Option String × Json} (hm : IsUnknown m) {name : String}
    (hn : name ∈ names) : m.1 ≠ some name := by
  obtain ⟨other, hother, hnot, -⟩ := hm
  rw [hother]
  rintro ⟨rfl⟩
  exact hnot hn

theorem areScalars_of_perm (hp : ms.Perm (r.members ++ extras))
    (hx : ∀ m ∈ extras, IsUnknown m) : AreScalars ms := by
  intro m hm
  rcases List.mem_append.mp (hp.mem_iff.mp hm) with hm | hm
  · exact areScalars_members r m hm
  · obtain ⟨name, hname, -, hscalar⟩ := hx m hm
    exact ⟨by rw [hname]; rfl, hscalar⟩

/-- The members of a report are found in any order, among others of unknown names. -/
theorem ofMembers?_of_perm (hp : ms.Perm (r.members ++ extras))
    (hx : ∀ m ∈ extras, IsUnknown m) : ofMembers? ms = some r := by
  have hnd : (r.members.map (·.1)).Nodup := by
    rw [map_fst_members]
    decide
  have honly : ∀ name ∈ names, ∀ v, (some name, v) ∈ r.members → ms.only? name = some v :=
    fun name hn v hv => only?_of_perm hp hnd hv fun m hm => (hx m hm).ne hn
  have htype : ms.only? typeField = some (.string (some typeName)) :=
    honly typeField List.mem_cons_self _ List.mem_cons_self
  have hfields : fields.mapM ms.only? = some (r.values.map ofInt) := by
    rw [List.mapM_eq_some_iff, List.forall₂_iff_zip]
    refine ⟨rfl, fun hp => ?_⟩
    rw [List.zip_map_right] at hp
    obtain ⟨q, hq, heq⟩ := List.mem_map.mp hp
    obtain ⟨rfl, rfl⟩ := Prod.mk.inj heq
    have hname : q.1 ∈ names := List.mem_cons_of_mem _ (List.of_mem_zip hq).1
    exact honly q.1 hname _ (List.mem_cons_of_mem _ (List.mem_map.mpr ⟨q, hq, rfl⟩))
  rw [ofMembers?, htype]
  simp only [isTypeName, Json.text?, beq_self_eq_true, if_true, hfields, Option.bind_some,
    ofValues?_values]

end members

/-- **A report survives its text.** It is read back from its text, whatever the values of its
fields, infinities included; and also from the text of every object that has the members of the
report in any order and, anywhere among them, members that the reader does not know. -/
theorem ofText?_text_reordered (r : RateReport) :
    ofText? r.text = some r ∧
      ∀ ms extras : Members, ms.Perm (r.members ++ extras) → (∀ m ∈ extras, IsUnknown m) →
        ofText? (object ms).text = some r := by
  have hread : ∀ ms extras : Members, ms.Perm (r.members ++ extras) →
      (∀ m ∈ extras, IsUnknown m) → ofText? (object ms).text = some r := by
    intro ms extras hp hx
    rw [ofText?_text_object (areScalars_of_perm hp hx), ofMembers?_of_perm hp hx]
  refine ⟨hread r.members [] ?_ (by simp), hread⟩
  rw [List.append_nil]

/-- Infinities and the largest share are read back from the members in reverse, the type behind the
fields, with an unknown member at either end. -/
theorem ofText?_text_reordered_in_reverse :
    let r : RateReport :=
      { atTime := .minusInfinity, refWindow := .plusInfinity, dataInFlight := 0
        targetRate := .ofInt 300000, smoothedRtt := .plusInfinity, queueDelay := .minusInfinity
        markedPermille := 0xffffffff }
    ofText? (object ((some "seen", .boolean true) ::
      (r.members.reverse ++ [(some "next", .ofInt (-0x8000000000000000))]))).text = some r := by
  intro r
  have hp := ((List.reverse_perm r.members).append_right
    [(some "next", Json.ofInt (-0x8000000000000000))]).cons (some "seen", Json.boolean true)
  refine (ofText?_text_reordered r).2 _ _ (hp.trans List.perm_middle.symm) ?_
  simp only [List.forall_mem_cons]
  refine ⟨⟨"seen", rfl, by decide, .boolean true⟩, ⟨"next", rfl, by decide, ?_⟩, by simp⟩
  exact .integer _ (by decide) (by decide)

end MediaSender.RateReport
