import MediaSender.Proofs.Controller.Pacing

/-! # Turns of a controller

A run of calls as a list of turns, each a message with the states around it and the update.

* **Past.** What is in force at a turn is read off the turns before it: the stream settings
  (`streamsInForce`), the target rate (`lastTarget`) and the turns on the present route (`onRoute`),
  which begins with the start or with the last route change.
* **Pacing.** A turn computes a pacer budget or does not (`Turn.pacing`).  If it does, the budget is
  for a time, a target rate and a controller that the message has brought up to date
  (`pacing_cases`), and only the padding interval and the padding flag change afterwards
  (`Pacing.next_eq`).  If it does not, nothing that pacing depends on changes except the streams
  (`deliver_of_no_pacing`).
* **Induction.** What the turns before tell of a state, they tell of the state at each turn of a
  run, if every turn keeps it (`turns_induction`). -/

namespace MediaSender

/-- Whether the message changes the route. -/
def NetworkMessage.isRouteChange : NetworkMessage → Bool
  | .routeChange _ => true
  | _ => false

/-- The stream settings that a message carries. -/
def NetworkMessage.streams? : NetworkMessage → Option StreamSettings
  | .streams m => some m
  | _ => none

namespace SendController

/-! ### Pacing -/

/-- A pacer budget to be computed. -/
structure Pacing where
  /-- The controller right before it computes the budget. -/
  controller : SendController
  atTime : Timestamp
  target : DataRate

namespace Pacing

/-- The controller after the budget has been computed. -/
def next (p : Pacing) : SendController := (p.controller.pacerBudget p.atTime p.target).1

/-- The budget. -/
def budget (p : Pacing) : PacerBudget := (p.controller.pacerBudget p.atTime p.target).2

/-- The time at which a padding interval starts, if one does. -/
def paddingStart? (p : Pacing) : Option Timestamp :=
  if p.controller.mayPad p.atTime p.target &&
      decide (p.controller.params.paddingInterval ≤ p.atTime - p.controller.lastPaddingStart) then
    some p.atTime
  else none

/-- A pacer budget changes at most the padding interval and the padding flag. -/
theorem next_eq (p : Pacing) :
    p.next =
      { p.controller with
        lastPaddingStart := p.paddingStart?.getD p.controller.lastPaddingStart
        isPadding := p.next.isPadding } := by
  have hpad : (p.controller.padRate p.atTime p.target).1 =
      { p.controller with
        lastPaddingStart := p.paddingStart?.getD p.controller.lastPaddingStart } := by
    unfold padRate paddingStart? paddingStart
    split
    next hmay =>
      by_cases hδ : p.controller.params.paddingInterval ≤
          p.atTime - p.controller.lastPaddingStart
      · simp [hmay, hδ]
      · simp [hmay, hδ]
    next hmay => simp [hmay]
  show { (p.controller.padRate p.atTime p.target).1 with
    isPadding := (p.next.isPadding) } = _
  rw [hpad]

end Pacing

/-- The budget that a controller computes when it takes a message. -/
def pacing (c : SendController) (e : NetworkMessage) : Option Pacing :=
  match c.announcement e with
  | some a => some ⟨{ a.controller with currentTarget := some a.rate }, a.atTime, a.rate⟩
  | none =>
    match e with
    | .processInterval m => c.currentTarget.map fun t => ⟨c, m.atTime, t⟩
    | _ => none

section pacing

variable {c c' : SendController} {e : NetworkMessage} {p : Pacing} {u : ControlUpdate}

/-- What brings a controller up to date before it computes a budget. -/
theorem pacing_cases (h : c.pacing e = some p) :
    (∃ m, e = .availability m ∧
        p = ⟨{ c with currentTarget := some c.startRate }, m.atTime, c.startRate⟩) ∨
      (∃ m control, e = .routeChange m ∧
        (RateControl.initial c.params).setBounds m.constraints.lower m.constraints.upper =
          .ok control ∧
        p = ⟨{ c.rerouted m control with currentTarget := some (c.rerouted m control).startRate },
          m.atTime, (c.rerouted m control).startRate⟩) ∨
      (∃ f, e = .feedback f ∧
        p = ⟨{ c.informed f with currentTarget := some (c.informed f).control.targetRate },
          f.feedbackTime, (c.informed f).control.targetRate⟩) ∨
      (∃ m t, e = .processInterval m ∧ c.currentTarget = some t ∧ p = ⟨c, m.atTime, t⟩) := by
  cases e with
  | availability m =>
      simp only [pacing, announcement] at h
      split at h
      next a ha =>
        split at ha
        next =>
          cases ha
          exact .inl ⟨m, rfl, (Option.some.inj h).symm⟩
        next => cases ha
      next => cases h
  | routeChange m =>
      simp only [pacing, announcement] at h
      split at h
      next a ha =>
        split at ha
        next control hb =>
          cases ha
          exact .inr (.inl ⟨m, control, rfl, hb, (Option.some.inj h).symm⟩)
        next => cases ha
      next => cases h
  | feedback f => exact .inr (.inr (.inl ⟨f, rfl, (Option.some.inj h).symm⟩))
  | processInterval m =>
      obtain ⟨t, ht, hp⟩ := Option.map_eq_some_iff.mp h
      exact .inr (.inr (.inr ⟨m, t, rfl, ht, hp.symm⟩))
  | _ => cases h

/-- What brings a controller up to date leaves its parameters and its streams alone, and the budget
is for the target rate that the controller then has. -/
theorem pacing_keeps (h : c.pacing e = some p) :
    p.controller.params = c.params ∧ p.controller.streams = c.streams ∧
      p.controller.currentTarget = some p.target := by
  obtain ⟨m, -, rfl⟩ | ⟨m, control, -, -, rfl⟩ | ⟨f, -, rfl⟩ | ⟨m, t, -, ht, rfl⟩ := pacing_cases h
  · exact ⟨rfl, rfl, rfl⟩
  · exact ⟨rfl, rfl, rfl⟩
  · exact ⟨rfl, rfl, rfl⟩
  · exact ⟨rfl, rfl, ht⟩

/-- A message at which a budget is computed is answered with it, except that the passing of a period
may leave it out. -/
theorem deliver_of_pacing (h : c.pacing e = some p)
    (hd : NetworkMessage.deliver c e = .ok (c', u)) :
    c' = p.next ∧
      (u.pacer = some p.budget ∨ u.pacer = none ∧ ∃ m, e = .processInterval m) := by
  cases ha : c.announcement e with
  | some a =>
      simp only [pacing, ha, Option.some.injEq] at h
      subst h
      rw [deliver_of_announcement ha, Except.ok.injEq] at hd
      have hc : a.answer.1 = c' := congrArg Prod.fst hd
      have hu : a.answer.2 = u := congrArg Prod.snd hd
      rw [← hc, ← hu]
      exact ⟨rfl, .inl rfl⟩
  | none =>
      simp only [pacing, ha] at h
      cases e with
      | processInterval m =>
          obtain ⟨t, ht, rfl⟩ := Option.map_eq_some_iff.mp h
          have hm : c.onProcessInterval m = (c', u) := Except.ok.inj hd
          rw [onProcessInterval_of_target c ht, Prod.mk.injEq] at hm
          obtain ⟨hc, hu⟩ := hm
          refine ⟨hc.symm, ?_⟩
          rw [← hu]
          split
          next => exact .inr ⟨rfl, m, rfl⟩
          next => exact .inl rfl
      | _ => cases h

/-- A message at which no budget is computed changes nothing but the constraints and the streams,
and its update is without changes. -/
theorem deliver_of_no_pacing (h : c.pacing e = none)
    (hd : NetworkMessage.deliver c e = .ok (c', u)) :
    u = {} ∧ e.isRouteChange = false ∧ e.isFeedback = false ∧
      ∃ control constraints,
        c' = { c with control, constraints, streams := e.streams?.getD c.streams } ∧
          control.lastMark = c.control.lastMark := by
  have ha : c.announcement e = none := by
    cases ha : c.announcement e with
    | none => rfl
    | some a => simp [pacing, ha] at h
  cases e with
  | availability m =>
      have hu : c.onAvailability m = (c', u) := Except.ok.inj hd
      have hm : ¬m.isAvailable = true := fun hm => by simp [announcement, hm] at ha
      rw [onAvailability, if_neg hm] at hu
      cases hu
      exact ⟨rfl, rfl, rfl, _, _, rfl, rfl⟩
  | routeChange m =>
      obtain ⟨control, hb, -⟩ := c.onRouteChange_eq_ok hd
      simp [announcement, hb] at ha
  | processInterval m =>
      have ht : c.currentTarget = none := by
        cases ht : c.currentTarget with
        | none => rfl
        | some t => simp [pacing, ha, ht] at h
      have hu : c.onProcessInterval m = (c', u) := Except.ok.inj hd
      rw [onProcessInterval, ht] at hu
      cases hu
      exact ⟨rfl, rfl, rfl, _, _, rfl, rfl⟩
  | constraints m =>
      obtain ⟨control, hb, hr⟩ := c.onConstraints_eq_ok hd
      cases hr
      obtain ⟨-, rfl⟩ := RateControl.setBounds_eq_ok hb
      exact ⟨rfl, rfl, rfl, _, _, rfl, rfl⟩
  | feedback f => cases ha
  | _ => cases hd; exact ⟨rfl, rfl, rfl, _, _, rfl, rfl⟩

end pacing

/-! ### Turns -/

/-- A message that a controller has taken. -/
structure Turn where
  before : SendController
  message : NetworkMessage
  after : SendController
  update : ControlUpdate

namespace Turn

/-- The controller has answered the message so. -/
def Answered (t : Turn) : Prop :=
  NetworkMessage.deliver t.before t.message = .ok (t.after, t.update)

/-- The budget that is computed in the turn. -/
def pacing (t : Turn) : Option Pacing := t.before.pacing t.message

section answered

variable {t : Turn} {p : Pacing}

/-- A budget of an update is the one computed in the turn. -/
theorem Answered.exists_pacing (h : t.Answered) {b : PacerBudget}
    (hb : t.update.pacer = some b) :
    ∃ p, t.pacing = some p ∧ t.after = p.next ∧ p.budget = b := by
  cases hp : t.pacing with
  | some p =>
      obtain ⟨hafter, hpacer | ⟨hnone, -⟩⟩ := deliver_of_pacing hp h
      · exact ⟨p, rfl, hafter, Option.some.inj (hpacer.symm.trans hb)⟩
      · rw [hnone] at hb
        cases hb
  | none =>
      obtain ⟨hu, -⟩ := deliver_of_no_pacing hp h
      rw [hu] at hb
      cases hb

theorem Answered.streams (h : t.Answered) :
    t.after.streams = t.message.streams?.getD t.before.streams := by
  cases hp : t.pacing with
  | some p =>
      have hnone : t.message.streams? = none := by
        obtain ⟨m, he, -⟩ | ⟨m, control, he, -⟩ | ⟨f, he, -⟩ | ⟨m, r, he, -⟩ := pacing_cases hp
        · rw [he]; rfl
        · rw [he]; rfl
        · rw [he]; rfl
        · rw [he]; rfl
      rw [(deliver_of_pacing hp h).1, p.next_eq, hnone]
      exact (pacing_keeps hp).2.1
  | none =>
      obtain ⟨-, -, -, control, constraints, hafter, -⟩ := deliver_of_no_pacing hp h
      rw [hafter]

theorem Answered.currentTarget (h : t.Answered) :
    t.after.currentTarget = (t.update.target.map (·.rate)).or t.before.currentTarget := by
  have hrate := target_eq_announcement h
  rw [hrate]
  cases ha : t.before.announcement t.message with
  | some a =>
      have hanswer := deliver_of_announcement ha
      rw [show NetworkMessage.deliver t.before t.message = .ok (t.after, t.update) from h,
        Except.ok.injEq] at hanswer
      have htarget := a.answer_pace.1
      rw [← hanswer] at htarget
      exact htarget
  | none =>
      obtain ⟨m, -, hm⟩ | ⟨m, control, -, -, hafter, -⟩ | ⟨-, ⟨streams, hafter⟩, -⟩ :=
        deliver_of_no_announcement ha h
      · have hafter : (t.before.onProcessInterval m).1 = t.after := congrArg Prod.fst hm
        rw [← hafter]
        cases htarget : t.before.currentTarget with
        | none =>
            rw [onProcessInterval, htarget]
            exact htarget
        | some r =>
            rw [onProcessInterval_of_target _ htarget]
            have hpace := t.before.pacerBudget_pace m.atTime r
            exact (congrArg Prod.fst hpace).trans htarget
      · rw [hafter]
        rfl
      · rw [hafter]
        rfl

end answered

end Turn

/-! ### Runs -/

/-- The turns of a run, up to a message that breaks a rule. -/
def turns (c : SendController) : List NetworkMessage → List Turn
  | [] => []
  | e :: rest =>
    match NetworkMessage.deliver c e with
    | .error _ => []
    | .ok (c', u) => ⟨c, e, c', u⟩ :: c'.turns rest

/-- The stream settings in force after some turns, given those before. -/
def streamsInForce (s : StreamSettings) (past : List Turn) : StreamSettings :=
  past.foldl (fun s t => t.message.streams?.getD s) s

/-- The target rate that was announced last. -/
def lastTarget (past : List Turn) : Option DataRate :=
  (past.filterMap fun t => t.update.target.map (·.rate)).getLast?

/-- The turns on the present route, from the start or from the last route change. -/
def onRoute (past : List Turn) : List Turn :=
  past.foldl (fun route t => if t.message.isRouteChange then [t] else route ++ [t]) []

section past

variable (past : List Turn) (t : Turn)

theorem streamsInForce_concat (s : StreamSettings) :
    streamsInForce s (past ++ [t]) = t.message.streams?.getD (streamsInForce s past) := by
  simp [streamsInForce]

theorem lastTarget_concat :
    lastTarget (past ++ [t]) = (t.update.target.map (·.rate)).or (lastTarget past) := by
  cases h : t.update.target with
  | none => simp [lastTarget, h]
  | some r => simp [lastTarget, h]

theorem onRoute_concat :
    onRoute (past ++ [t]) =
      if t.message.isRouteChange then [t] else onRoute past ++ [t] := by
  simp [onRoute]

/-- What happened on a route before it changes does not count on the new one. -/
theorem filterMap_onRoute_concat {α : Type} (g : Turn → Option α) :
    (onRoute (past ++ [t])).filterMap g =
      (if t.message.isRouteChange then [] else (onRoute past).filterMap g) ++ (g t).toList := by
  rw [onRoute_concat]
  split
  next => cases h : g t <;> simp [h]
  next => cases h : g t <;> simp [h]

end past

section runs

variable {c : SendController} {messages : List NetworkMessage} {earlier later : List Turn}
  {t : Turn}

/-- What holds at the start and is kept by every turn holds at each turn of a run, before it and
after it; and the turns after it are those of a run that begins with the state it leaves. -/
theorem turns_induction {P : List Turn → SendController → Prop} (h0 : P [] c)
    (hstep : ∀ past t, P past t.before → t.Answered → P (past ++ [t]) t.after)
    (h : c.turns messages = earlier ++ t :: later) :
    t.Answered ∧ P earlier t.before ∧ P (earlier ++ [t]) t.after ∧
      ∃ rest, t.after.turns rest = later := by
  induction messages generalizing c P earlier with
  | nil => simp [turns] at h
  | cons e rest ih =>
      rw [turns] at h
      split at h
      next => simp at h
      next c' u hd =>
        cases earlier with
        | nil =>
            obtain ⟨rfl, hlater⟩ := List.cons.inj h
            exact ⟨hd, h0, hstep [] ⟨c, e, c', u⟩ h0 hd, rest, hlater⟩
        | cons first earlier =>
            obtain ⟨rfl, hrest⟩ := List.cons.inj h
            -- what the first turn leaves is the start of the rest, with that turn in the past
            exact ih (P := fun past => P (⟨c, e, c', u⟩ :: past))
              (hstep [] ⟨c, e, c', u⟩ h0 hd)
              (fun past t hp ht => hstep (⟨c, e, c', u⟩ :: past) t hp ht) hrest

/-- What the turns so far tell of the controller: its parameters, its streams and its target
rate. -/
structure InForce (config : ControllerConfig) (past : List Turn) (c : SendController) : Prop where
  params : c.params = Parameters.ofTrials config.trials
  streams : c.streams = streamsInForce config.streams past
  target : c.currentTarget = lastTarget past

variable {config : ControllerConfig} {past : List Turn}

theorem inForce_of_create (h : create config = .ok c) (δ : TimeDelta) :
    InForce config [] (c.withInterval δ) := by
  obtain ⟨control, -, rfl⟩ := create_eq_ok h
  exact ⟨rfl, rfl, rfl⟩

theorem InForce.turn (h : InForce config past t.before) (ht : t.Answered) :
    InForce config (past ++ [t]) t.after where
  params := (deliver_params ht).trans h.params
  streams := by rw [ht.streams, streamsInForce_concat, h.streams]
  target := by rw [ht.currentTarget, lastTarget_concat, h.target]

end runs

end SendController

end MediaSender
