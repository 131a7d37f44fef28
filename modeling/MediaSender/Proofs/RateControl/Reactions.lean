import Mathlib.Data.List.Chain
import MediaSender.Proofs.RateControl.WindowFloor

/-! # Reactions along a run

A round that shows congestion reacts to it if the last reaction is long enough ago, and otherwise
leaves the window alone.

* **Memory.** What a state knows of earlier congestion is its inflection point and the time of the
  last reaction (`memory`); only a reaction changes them (`round_memory`).
* **Gate.** A round with congestion that does not react cannot grow either, unless it has the time
  of the last reaction, so it keeps the window and the memory (`Round.keeps_of_gated`).
* **Run.** The time that a state remembers is that of the last reaction among the rounds before
  (`lastReaction_eq`), so each reaction waits for the one before it (`reactions_isChain`). -/

namespace MediaSender.RateControl

/-! ### What is remembered of congestion -/

/-- The inflection point and the time of the last reaction. -/
def memory (c : RateControl) : DataSize × Timestamp := (c.inflection, c.lastReaction)

section memory

variable (c : RateControl) (f : Feedback) (x : Congestion)

@[simp] theorem observe_memory : (c.observe f).memory = c.memory := by
  show (({ c with queue := c.queue.onFeedback f } : RateControl).observeMarks f).memory = c.memory
  unfold observeMarks
  split <;> rfl

@[simp] theorem observe_lastReaction : (c.observe f).lastReaction = c.lastReaction :=
  congrArg Prod.snd (observe_memory c f)

@[simp] theorem grow_memory : (c.grow f x).memory = c.memory := by
  unfold grow
  split <;> rfl

@[simp] theorem openInflection_memory (previous : DataSize) :
    (c.openInflection previous).memory = c.memory := by
  unfold openInflection
  split <;> rfl

@[simp] theorem rollOver_memory : (c.rollOver f).memory = c.memory := by
  unfold rollOver
  split <;> rfl

theorem adjustWindow_memory : (c.adjustWindow f x).memory = (c.afterReaction f x).memory := by
  rw [adjustWindow_eq]
  split
  next => exact grow_memory ..
  next => rfl

/-- Congestion that is not reacted to leaves everything alone, unless the last reaction has the time
of the report. -/
theorem adjustWindow_of_gated (hany : x.isAny = true) (hr : c.reacts f x = false)
    (ht : c.lastReaction ≠ f.feedbackTime) : c.adjustWindow f x = c := by
  have hafter : c.afterReaction f x = c := by simp [afterReaction, hr]
  rw [adjustWindow_eq, hafter, if_neg]
  simp [grows, hany, ht]

/-- Only a reaction changes in a round what is remembered of congestion. -/
theorem round_memory :
    (c.round f).memory =
      ((c.observe f).afterReaction f ((c.observe f).congestion f)).memory := by
  rw [round, rollOver_memory, openInflection_memory]
  exact adjustWindow_memory ..

end memory

/-! ### Rounds -/

/-- A round: the state that finds a report, and the report. -/
structure Round where
  before : RateControl
  report : Feedback

namespace Round

/-- The feedback time of the report. -/
def time (r : Round) : Timestamp := r.report.feedbackTime

/-- The state after the round. -/
def after (r : Round) : RateControl := (r.before.onFeedback r.report).1

/-- The congestion that the report shows, once it has been taken note of. -/
def congestion (r : Round) : Congestion := (r.before.observe r.report).congestion r.report

/-- Whether the round reacts to the congestion. -/
def isReaction (r : Round) : Bool := (r.before.observe r.report).reacts r.report r.congestion

/-- How long the reaction of the round has to wait after the one before: the shorter one of the
round trip and the virtual round trip. -/
def wait (p : Parameters) (r : Round) : TimeDelta := min r.report.smoothedRtt p.virtualRtt

/-- `s` has waited after `r`.  Between finite times the distance is exact, so the time of `s` is
not before that of `r` unless the round trip is negative. -/
def Spaced (p : Parameters) (r s : Round) : Prop :=
  s.wait p ≤ s.time - r.time ∧
    (r.time.isFinite = true → s.time.isFinite = true → s.wait p ≠ .minusInfinity →
      (s.wait p).raw ≤ s.time.raw - r.time.raw)

section rounds

variable {p : Parameters} {r s : Round}

theorem spaced_of_le (h : s.wait p ≤ s.time - r.time) : Spaced p r s :=
  ⟨h, fun hr hs hw => Quantity.raw_le_of_le_sub hs hr hw h⟩

theorem isReaction_iff (hp : r.before.params = p) :
    r.isReaction = true ↔
      r.congestion.isAny = true ∧ r.wait p ≤ r.time - r.before.lastReaction := by
  rw [isReaction, reacts, sinceReaction, observe_params, observe_lastReaction, hp, Bool.and_eq_true,
    decide_eq_true_eq]
  rfl

theorem after_memory (r : Round) :
    r.after.memory =
      (if r.isReaction then (r.before.observe r.report).react r.report r.congestion
        else r.before.observe r.report).memory :=
  round_memory r.before r.report

theorem after_memory_of_not_isReaction (h : r.isReaction = false) :
    r.after.memory = r.before.memory := by
  rw [after_memory, h, if_neg Bool.false_ne_true, observe_memory]

theorem after_lastReaction (r : Round) :
    r.after.lastReaction = if r.isReaction then r.time else r.before.lastReaction := by
  have h := after_memory r
  split
  next hr =>
    rw [if_pos hr] at h
    exact congrArg Prod.snd h
  next hr =>
    rw [if_neg hr, observe_memory] at h
    exact congrArg Prod.snd h

theorem after_params (r : Round) : r.after.params = r.before.params := round_params ..

/-- A round with congestion that does not react, and not at the time of the last reaction, keeps
the window and what is remembered. -/
theorem keeps_of_gated (hany : r.congestion.isAny = true) (hr : r.isReaction = false)
    (ht : r.time ≠ r.before.lastReaction) :
    r.after.refWindow = r.before.refWindow ∧ r.after.memory = r.before.memory := by
  have hadjust : (r.before.observe r.report).adjustWindow r.report r.congestion =
      r.before.observe r.report := by
    refine adjustWindow_of_gated _ _ _ hany hr ?_
    rw [observe_lastReaction]
    exact Ne.symm ht
  refine ⟨?_, after_memory_of_not_isReaction hr⟩
  calc r.after.refWindow
      = ((r.before.observe r.report).adjustWindow r.report r.congestion).refWindow :=
        round_refWindow ..
    _ = r.before.refWindow := by rw [hadjust, observe_refWindow]

end rounds

end Round

/-! ### Runs -/

/-- The rounds of a run, up to bounds that are refused. -/
def rounds (c : RateControl) : List Input → List Round
  | [] => []
  | .feedback f :: rest => ⟨c, f⟩ :: rounds (c.onFeedback f).1 rest
  | .bounds lower upper :: rest =>
    match c.setBounds lower upper with
    | .ok next => rounds next rest
    | .error _ => []

/-- The time of the last reaction among the rounds, or `t` if there is none. -/
def lastReactionAmong (t : Timestamp) (rs : List Round) : Timestamp :=
  rs.foldl (fun t r => if r.isReaction then r.time else t) t

section run

variable {p : Parameters} {c : RateControl}

theorem rounds_bounds_cases (c : RateControl) (lower upper : DataRate) (rest : List Input) :
    c.rounds (.bounds lower upper :: rest) = [] ∨
      ∃ next : RateControl, next.params = c.params ∧ next.lastReaction = c.lastReaction ∧
        c.rounds (.bounds lower upper :: rest) = next.rounds rest := by
  rw [rounds]
  cases hb : c.setBounds lower upper with
  | error x => exact .inl rfl
  | ok next =>
      obtain ⟨-, hnext⟩ := setBounds_eq_ok hb
      exact .inr ⟨next, by rw [hnext], by rw [hnext], rfl⟩

/-- What holds at the start of a run, and is kept by every round and by accepted bounds, holds of
each state that finds a report, given the rounds before. -/
theorem rounds_induction {P : List Round → RateControl → Prop} (h0 : P [] c)
    (hround : ∀ past r, P past r.before → P (past ++ [r]) r.after)
    (hbounds : ∀ past (c next : RateControl) lower upper, P past c →
      c.setBounds lower upper = .ok next → P past next)
    {inputs : List Input} {before later : List Round} {r : Round}
    (h : c.rounds inputs = before ++ r :: later) : P before r.before := by
  induction inputs generalizing c P before with
  | nil => simp [rounds] at h
  | cons i rest ih =>
      cases i with
      | feedback f =>
          rw [rounds] at h
          cases before with
          | nil =>
              obtain ⟨rfl, -⟩ := List.cons.inj h
              exact h0
          | cons first before =>
              obtain ⟨rfl, hrest⟩ := List.cons.inj h
              -- what the first round leaves is the start of the rest, with that round in the past
              exact ih (P := fun past => P (⟨c, f⟩ :: past)) (hround [] ⟨c, f⟩ h0)
                (fun past r hr => hround (⟨c, f⟩ :: past) r hr)
                (fun past => hbounds (⟨c, f⟩ :: past)) hrest
      | bounds lower upper =>
          rw [rounds] at h
          split at h
          next next hb => exact ih (hbounds [] c next lower upper h0 hb) hround hbounds h
          next => simp at h

/-- The state that finds a report remembers the time of the last reaction before. -/
theorem lastReaction_eq {inputs : List Input} {before later : List Round} {r : Round}
    (hc : c.params = p) (h : c.rounds inputs = before ++ r :: later) :
    r.before.params = p ∧
      r.before.lastReaction = lastReactionAmong c.lastReaction before := by
  refine rounds_induction (P := fun past c' => c'.params = p ∧
    c'.lastReaction = lastReactionAmong c.lastReaction past) ⟨hc, rfl⟩ ?_ ?_ h
  · rintro past r ⟨hp, hl⟩
    refine ⟨(Round.after_params r).trans hp, ?_⟩
    rw [Round.after_lastReaction, hl, lastReactionAmong, lastReactionAmong, List.foldl_append]
    rfl
  · rintro past c' next lower upper ⟨hp, hl⟩ hb
    obtain ⟨-, rfl⟩ := setBounds_eq_ok hb
    exact ⟨hp, hl⟩

/-- The first reaction of a run waits for the one that its state remembers, and each later one for
the one before it. -/
theorem reactions_isChain (hc : c.params = p) (inputs : List Input) :
    (∀ r ∈ ((c.rounds inputs).filter Round.isReaction).head?,
        r.wait p ≤ r.time - c.lastReaction) ∧
      List.IsChain (Round.Spaced p) ((c.rounds inputs).filter Round.isReaction) := by
  -- the state after a reaction remembers its time, so the first part for the rest of the run is
  -- what puts the reaction in front of the chain
  induction inputs generalizing c with
  | nil => exact ⟨by simp [rounds], .nil⟩
  | cons i rest ih =>
      cases i with
      | feedback f =>
          have hlast := Round.after_lastReaction ⟨c, f⟩
          obtain ⟨hhead, hchain⟩ := ih ((Round.after_params ⟨c, f⟩).trans hc)
          show (∀ r ∈ (List.filter Round.isReaction
              (⟨c, f⟩ :: (Round.after ⟨c, f⟩).rounds rest)).head?, _) ∧
            List.IsChain _ (List.filter Round.isReaction
              (⟨c, f⟩ :: (Round.after ⟨c, f⟩).rounds rest))
          cases hr : Round.isReaction ⟨c, f⟩ with
          | true =>
              rw [hr, if_pos rfl] at hlast
              rw [List.filter_cons_of_pos hr]
              refine ⟨?_, List.isChain_cons.mpr ⟨?_, hchain⟩⟩
              · rintro r ⟨⟩
                exact ((Round.isReaction_iff hc).mp hr).2
              · intro s hs
                have hwait := hhead s hs
                rw [hlast] at hwait
                exact Round.spaced_of_le hwait
          | false =>
              rw [hr, if_neg Bool.false_ne_true] at hlast
              rw [List.filter_cons_of_neg (by simp [hr]), show c.lastReaction = _ from hlast.symm]
              exact ⟨hhead, hchain⟩
      | bounds lower upper =>
          obtain hnil | ⟨next, hp, hl, hnext⟩ := rounds_bounds_cases c lower upper rest
          · rw [hnil]
            exact ⟨by simp, .nil⟩
          · rw [hnext, ← hl]
            exact ih (hp.trans hc)

end run

/-- **Reactions to congestion are apart, and nothing else answers congestion.**  In any run of
reports and accepted bounds each reaction waits for the one before it by the shorter one of the
round trip of its report and the virtual round trip.  A round with congestion reacts exactly if it
has waited so after the last reaction of the run; if it has not, and has not the time of that
reaction either, it keeps the reference window, the inflection point and the time of the last
reaction. -/
theorem reactions_spaced_and_gated (p : Parameters) (inputs : List Input) :
    List.IsChain (Round.Spaced p) (((initial p).rounds inputs).filter Round.isReaction) ∧
      ∀ (before later : List Round) (r : Round),
        (initial p).rounds inputs = before ++ r :: later →
        (r.isReaction = true ↔ r.congestion.isAny = true ∧
          r.wait p ≤ r.time - lastReactionAmong .minusInfinity before) ∧
        (r.congestion.isAny = true → r.isReaction = false →
          r.time ≠ lastReactionAmong .minusInfinity before →
          r.after.refWindow = r.before.refWindow ∧ r.after.inflection = r.before.inflection ∧
            r.after.lastReaction = r.before.lastReaction) := by
  refine ⟨(reactions_isChain (c := initial p) rfl inputs).2, ?_⟩
  intro before later r h
  obtain ⟨hp, hlast⟩ := lastReaction_eq (p := p) rfl h
  have hlast : r.before.lastReaction = lastReactionAmong .minusInfinity before := hlast
  rw [← hlast]
  refine ⟨Round.isReaction_iff hp, ?_⟩
  intro hany hr ht
  obtain ⟨hwindow, hmemory⟩ := Round.keeps_of_gated hany hr ht
  exact ⟨hwindow, congrArg Prod.fst hmemory, congrArg Prod.snd hmemory⟩

/-- A report of loss to a state. -/
def lossRound (c : RateControl) (sent : Int) : Round :=
  ⟨c, reportOn sent .plusInfinity .notCapable⟩

/-- Losses reported 600, 610 and 625 milliseconds into a session. -/
def firstLoss : Round := lossRound (initial {}) 600

@[inherit_doc firstLoss] def secondLoss : Round := lossRound firstLoss.after 610

@[inherit_doc firstLoss] def thirdLoss : Round := lossRound secondLoss.after 625

/-- The first and the third one of the losses are reacted to, at the distance of the virtual round
trip; the second one leaves the window alone. -/
theorem reactions_spaced_and_gated_of_losses :
    Round.Spaced {} firstLoss thirdLoss ∧
      secondLoss.congestion.isAny = true ∧ secondLoss.isReaction = false ∧
      secondLoss.after.refWindow = secondLoss.before.refWindow := by
  have hrounds : (initial {}).rounds
      [.feedback firstLoss.report, .feedback secondLoss.report, .feedback thirdLoss.report] =
        [firstLoss, secondLoss, thirdLoss] := rfl
  have hfirst : firstLoss.isReaction = true := by decide +kernel
  have hsecond : secondLoss.isReaction = false := by decide +kernel
  have hthird : thirdLoss.isReaction = true := by decide +kernel
  have hany : secondLoss.congestion.isAny = true := by decide +kernel
  have htime : secondLoss.time ≠ lastReactionAmong .minusInfinity [firstLoss] := by decide +kernel
  obtain ⟨hchain, hround⟩ := reactions_spaced_and_gated {}
    [.feedback firstLoss.report, .feedback secondLoss.report, .feedback thirdLoss.report]
  rw [hrounds] at hchain
  simp only [List.filter, hfirst, hsecond, hthird] at hchain
  have hkeeps := (hround [firstLoss] [thirdLoss] secondLoss hrounds).2 hany hsecond htime
  exact ⟨(List.isChain_cons_cons.mp hchain).1, hany, hsecond, hkeeps.1⟩

end MediaSender.RateControl
