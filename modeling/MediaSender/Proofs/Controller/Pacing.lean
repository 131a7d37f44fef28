import Mathlib.Data.List.Induction
import MediaSender.Proofs.Controller.Announcements

/-! # The pacer of a transport

A transport applies the updates that it is given.  The controller leaves a pacer budget out of an
update if padding goes on as before, so what the transport holds has to stay right without it.

* **Windows.** A budget that the controller computes has the windows of the pace that it leaves
  behind (`pacerBudget_eq`), and the pace is the target rate, the padding flag and the time window.
* **Step.** If the transport holds a budget with the windows of the pace, it does so after every
  message: an update without a budget leaves the pace alone, and one with a budget has the windows
  of the new pace (`Tracks.deliver`).
* **Run.** So a run keeps it (`tracks_of_run`), and a budget that is left out has the windows of the
  one emitted last. -/

namespace MediaSender

/-- Two budgets for the same windows, which may start at different times. -/
structure PacerBudget.SameWindows (b b' : PacerBudget) : Prop where
  data : b.dataWindow = b'.dataWindow
  time : b.timeWindow = b'.timeWindow
  pad : b.padWindow = b'.padWindow

namespace PacerBudget.SameWindows

variable {b b' b'' : PacerBudget}

theorem symm (h : b.SameWindows b') : b'.SameWindows b :=
  ⟨h.data.symm, h.time.symm, h.pad.symm⟩

theorem trans (h : b.SameWindows b') (h' : b'.SameWindows b'') : b.SameWindows b'' :=
  ⟨h.data.trans h'.data, h.time.trans h'.time, h.pad.trans h'.pad⟩

end PacerBudget.SameWindows

namespace SendController

/-! ### The windows of a pace -/

/-- What the pacing of a controller depends on, apart from its streams: the target rate, whether
padding goes on, and the time window. -/
def pace (c : SendController) : Option DataRate × Bool × TimeDelta :=
  (c.currentTarget, c.isPadding, c.pacingWindow)

/-- The budget that a controller with this pace computes for a target rate. -/
def paceBudget (c : SendController) (now : Timestamp) (target : DataRate) : PacerBudget :=
  .ofRates now (target.scale pacingFactor) (if c.isPadding then target else 0) c.pacingWindow

section windows

variable (c : SendController) (now : Timestamp) (target : DataRate)

theorem padRate_cases : (c.padRate now target).2 = target ∨ (c.padRate now target).2 = 0 := by
  unfold padRate
  split
  next =>
    simp only
    split
    next => exact .inl rfl
    next => exact .inr rfl
  next => exact .inr rfl

@[simp] theorem padRate_pace : (c.padRate now target).1.pace = c.pace := by
  unfold padRate
  split <;> rfl

/-- The padding flag tells the rate of padding, which is nothing or the target rate. -/
theorem padRate_eq_ite :
    (c.padRate now target).2 = if !(c.padRate now target).2.isZero then target else 0 := by
  obtain h | h := c.padRate_cases now target
  · -- a target rate of nothing clears the flag, and padding with it is nothing too
    rw [h]
    cases hz : target.isZero with
    | false => rfl
    | true => exact Quantity.ext (Quantity.isZero_iff.mp hz)
  · rw [h]
    rfl

/-- A budget has the windows of the pace that it leaves behind. -/
theorem pacerBudget_eq :
    (c.pacerBudget now target).2 = (c.pacerBudget now target).1.paceBudget now target := by
  show PacerBudget.ofRates now _ (c.padRate now target).2 _ = PacerBudget.ofRates now _ _ _
  rw [padRate_eq_ite]
  rfl

/-- A budget changes at most the padding flag of the pace. -/
theorem pacerBudget_pace :
    (c.pacerBudget now target).1.pace =
      (c.currentTarget, (c.pacerBudget now target).1.isPadding, c.pacingWindow) := by
  have h := c.padRate_pace now target
  simp only [pace, Prod.mk.injEq] at h
  show ((c.padRate now target).1.currentTarget, _, (c.padRate now target).1.pacingWindow) = _
  rw [h.1, h.2.2]

/-- The answer to the passing of a period leaves the budget out if padding goes on as before. -/
theorem onProcessInterval_of_target {t : DataRate} (h : c.currentTarget = some t)
    (m : ProcessInterval) :
    c.onProcessInterval m =
      ((c.pacerBudget m.atTime t).1,
        if (c.pacerBudget m.atTime t).1.isPadding = c.isPadding then {}
        else { pacer := some (c.pacerBudget m.atTime t).2 }) := by
  unfold onProcessInterval
  rw [h]

theorem sameWindows_of_pace {c c' : SendController} (h : c'.pace = c.pace) (now now' : Timestamp)
    (target : DataRate) :
    (c.paceBudget now target).SameWindows (c'.paceBudget now' target) := by
  simp only [pace, Prod.mk.injEq] at h
  obtain ⟨-, hpad, hwindow⟩ := h
  unfold paceBudget
  rw [hpad, hwindow]
  exact ⟨rfl, rfl, rfl⟩

end windows

/-! ### What a transport holds -/

/-- Whether a target rate has been announced. -/
def HasTarget (calls : List Call) : Prop := ∃ k ∈ calls, k.update.target.isSome = true

/-- The pacer budget that a transport holds once it has applied all updates. -/
def held (calls : List Call) : Option PacerBudget :=
  calls.foldl (fun held k => k.update.pacer.or held) none

/-- The pacer budget that was emitted last. -/
def lastPacer (calls : List Call) : Option PacerBudget :=
  (calls.filterMap (·.update.pacer)).getLast?

/-- The budget that a controller computes when it takes a message, whether or not it emits it. -/
def computed (c : SendController) (e : NetworkMessage) : Option PacerBudget :=
  match c.announcement e with
  | some a =>
    some ({ a.controller with currentTarget := some a.rate }.pacerBudget a.atTime a.rate).2
  | none =>
    match e with
    | .processInterval m => c.currentTarget.map fun t => (c.pacerBudget m.atTime t).2
    | _ => none

/-- The messages at which the pace is set: the network comes up, the route changes, feedback comes,
or a period has passed and a target rate has been announced. -/
def SetsPace (calls : List Call) : NetworkMessage → Prop
  | .availability m => m.isAvailable = true
  | .routeChange _ => True
  | .feedback _ => True
  | .processInterval _ => HasTarget calls
  | _ => False

section held

variable {calls : List Call} {k : Call}

@[simp] theorem held_concat : held (calls ++ [k]) = k.update.pacer.or (held calls) := by
  simp [held]

theorem hasTarget_concat :
    HasTarget (calls ++ [k]) ↔ HasTarget calls ∨ k.update.target.isSome = true := by
  simp [HasTarget, or_and_right, exists_or]

/-- A transport holds the budget that was emitted last. -/
theorem held_eq_lastPacer (calls : List Call) : held calls = lastPacer calls := by
  induction calls using List.reverseRecOn with
  | nil => rfl
  | append_singleton calls k ih =>
      rw [held_concat, ih, lastPacer, lastPacer, List.filterMap_append, List.getLast?_append]
      cases h : k.update.pacer <;> simp [h]

end held

/-! ### Runs -/

/-- The controller remembers a target rate if and only if it has announced one, and the transport
then holds the windows of its pace. -/
structure Tracks (c : SendController) (calls : List Call) : Prop where
  target : c.currentTarget.isSome = true ↔ HasTarget calls
  windows : ∀ t, c.currentTarget = some t →
    ∃ b, held calls = some b ∧ ∀ now, b.SameWindows (c.paceBudget now t)

section run

variable {c c' : SendController} {calls : List Call} {k : Call} {e : NetworkMessage}
  {u : ControlUpdate}

/-- A call that leaves the pace alone and emits nothing. -/
theorem Tracks.of_silent (h : Tracks c calls) (hp : c'.pace = c.pace) (hk : k.update = {}) :
    Tracks c' (calls ++ [k]) := by
  have htarget : c'.currentTarget = c.currentTarget := congrArg Prod.fst hp
  refine ⟨?_, ?_⟩
  · rw [htarget, h.target, hasTarget_concat, hk]
    simp
  · intro t ht
    obtain ⟨b, hb, hw⟩ := h.windows t (htarget ▸ ht)
    refine ⟨b, by rw [held_concat, hk]; exact hb, ?_⟩
    intro now
    exact (hw now).trans (sameWindows_of_pace hp now now t)

/-- A call that emits a budget with the windows of the pace that it leaves behind. -/
theorem tracks_of_emitted (now : Timestamp) {t : DataRate} (ht : c'.currentTarget = some t)
    (htarget : HasTarget (calls ++ [k])) (hk : k.update.pacer = some (c'.paceBudget now t)) :
    Tracks c' (calls ++ [k]) := by
  refine ⟨by simp [ht, htarget], ?_⟩
  intro t' ht'
  have heq : t = t' := Option.some.inj (ht.symm.trans ht')
  subst heq
  refine ⟨_, by rw [held_concat, hk, Option.some_or], ?_⟩
  intro now'
  exact sameWindows_of_pace rfl now now' t

/-- The controller after an announcement remembers the rate, and the update has a budget with the
windows of its pace. -/
theorem Announcement.answer_pace (a : Announcement) :
    a.answer.1.currentTarget = some a.rate ∧
      a.answer.2.pacer = some (a.answer.1.paceBudget a.atTime a.rate) := by
  have hpace := pacerBudget_pace { a.controller with currentTarget := some a.rate } a.atTime a.rate
  have heq := pacerBudget_eq { a.controller with currentTarget := some a.rate } a.atTime a.rate
  exact ⟨congrArg Prod.fst hpace, congrArg some heq⟩

theorem Tracks.onProcessInterval (h : Tracks c calls) {m : ProcessInterval}
    (hm : c.onProcessInterval m = (c', u)) (hk : k.update = u) : Tracks c' (calls ++ [k]) := by
  cases ht : c.currentTarget with
  | none =>
      rw [SendController.onProcessInterval, ht] at hm
      cases hm
      exact h.of_silent rfl hk
  | some t =>
      rw [onProcessInterval_of_target c ht, Prod.mk.injEq] at hm
      obtain ⟨hc, hu⟩ := hm
      have hpace := c.pacerBudget_pace m.atTime t
      rw [hc] at hpace hu
      by_cases hsame : c'.isPadding = c.isPadding
      · -- of the pace only the padding flag could have changed
        rw [if_pos hsame] at hu
        refine h.of_silent ?_ (hk.trans hu.symm)
        rw [hpace, hsame]
        rfl
      · rw [if_neg hsame, pacerBudget_eq, hc] at hu
        have hlast : HasTarget calls := h.target.mp (by rw [ht]; rfl)
        refine tracks_of_emitted m.atTime (t := t) ?_ ?_ ?_
        · exact (congrArg Prod.fst hpace).trans ht
        · exact hasTarget_concat.mpr (.inl hlast)
        · rw [hk, ← hu]

theorem Tracks.deliver (h : Tracks c calls) (hd : NetworkMessage.deliver c e = .ok (c', u))
    (hk : k.update = u) : Tracks c' (calls ++ [k]) := by
  cases ha : c.announcement e with
  | some a =>
      rw [deliver_of_announcement ha, Except.ok.injEq] at hd
      obtain ⟨htarget, hpacer⟩ := a.answer_pace
      rw [hd] at htarget hpacer
      refine tracks_of_emitted a.atTime htarget (hasTarget_concat.mpr (.inr ?_)) (hk ▸ hpacer)
      have hu : a.answer.2 = u := congrArg Prod.snd hd
      rw [hk, ← hu]
      rfl
  | none =>
      obtain ⟨m, rfl, hm⟩ | ⟨m, control, -, -, rfl, rfl⟩ | ⟨-, ⟨streams, rfl⟩, rfl⟩ :=
        deliver_of_no_announcement ha hd
      · exact h.onProcessInterval hm hk
      · exact h.of_silent rfl hk
      · exact h.of_silent rfl hk

/-- Where the pace is set, the computed budget has the windows of the pace that is left behind. -/
theorem Tracks.computed_eq (h : Tracks c calls) (he : SetsPace calls e)
    (hd : NetworkMessage.deliver c e = .ok (c', u)) :
    ∃ now t, c'.currentTarget = some t ∧ c.computed e = some (c'.paceBudget now t) := by
  cases ha : c.announcement e with
  | some a =>
      rw [deliver_of_announcement ha, Except.ok.injEq] at hd
      obtain ⟨htarget, hpacer⟩ := a.answer_pace
      have hcomputed : c.computed e = a.answer.2.pacer := by
        unfold computed
        rw [ha]
        rfl
      rw [hd] at htarget hpacer hcomputed
      exact ⟨a.atTime, a.rate, htarget, hcomputed.trans hpacer⟩
  | none =>
      cases e with
      | availability m =>
          have hm : m.isAvailable = true := he
          simp [announcement, hm] at ha
      | routeChange m =>
          obtain ⟨control, hb, -⟩ := c.onRouteChange_eq_ok hd
          simp [announcement, hb] at ha
      | feedback f => cases ha
      | processInterval m =>
          obtain ⟨t, ht⟩ := Option.isSome_iff_exists.mp (h.target.mpr he)
          have hc : (c.onProcessInterval m).1 = c' := congrArg Prod.fst (Except.ok.inj hd)
          have hnext : (c.pacerBudget m.atTime t).1 = c' := by
            rw [← hc, onProcessInterval_of_target c ht]
          refine ⟨m.atTime, t, ?_, ?_⟩
          · rw [← hnext]
            exact (congrArg Prod.fst (c.pacerBudget_pace m.atTime t)).trans ht
          · show c.currentTarget.map _ = _
            rw [← hnext, ← pacerBudget_eq, ht]
            rfl
      | _ => cases he

theorem tracks_of_run {config : ControllerConfig} {c₀ : SendController} {δ : TimeDelta}
    {messages : List NetworkMessage} (h₀ : create config = .ok c₀)
    (hrun : messages.foldlM serve (c₀.withInterval δ, []) = .ok (c, calls)) : Tracks c calls := by
  refine List.foldlM_induction (P := fun p => Tracks p.1 p.2) ?_ ?_ hrun
  · intro p e p' hp hs
    obtain ⟨u, hd, hcalls⟩ := serve_eq_ok hs
    rw [hcalls]
    exact hp.deliver hd rfl
  · obtain ⟨control, -, rfl⟩ := create_eq_ok h₀
    refine ⟨?_, ?_⟩
    · simp [withInterval, HasTarget]
    · intro t ht
      cases ht

end run

/-- **What is left out of an update is not missed.**  Along every run of calls to a new controller,
let `e` be one more message that it answers.

* If a period has passed, a target rate has been announced before, and the update has no pacer
  budget, then the budget that the controller has computed has the windows of the one emitted last.
* If the network comes up, the route changes, feedback comes, or a period has passed and a target
  rate has been announced before, then a transport that has applied all updates, this one included,
  holds the windows of the budget that the controller has computed. -/
theorem held_sameWindows_computed {config : ControllerConfig} {c₀ c c' : SendController}
    {δ : TimeDelta} {messages : List NetworkMessage} {calls : List Call} {e : NetworkMessage}
    {u : ControlUpdate} (h₀ : create config = .ok c₀)
    (hrun : messages.foldlM serve (c₀.withInterval δ, []) = .ok (c, calls))
    (hd : NetworkMessage.deliver c e = .ok (c', u)) :
    (∀ m, e = .processInterval m → HasTarget calls → u.pacer = none →
      ∃ b last, c.computed e = some b ∧ lastPacer calls = some last ∧ b.SameWindows last) ∧
    (SetsPace calls e →
      ∃ b h, c.computed e = some b ∧
        held (calls ++ [{ message := e, update := u, logged := c.logged e }]) = some h ∧
        h.SameWindows b) := by
  have htracks := tracks_of_run h₀ hrun
  have hholds : SetsPace calls e →
      ∃ b h, c.computed e = some b ∧
        held (calls ++ [{ message := e, update := u, logged := c.logged e }]) = some h ∧
        h.SameWindows b := by
    intro he
    obtain ⟨now, t, ht, hb⟩ := htracks.computed_eq he hd
    have hafter := htracks.deliver hd (rfl : ({ message := e, update := u, logged := c.logged e } :
      Call).update = u)
    obtain ⟨h, hh, hw⟩ := hafter.windows t ht
    exact ⟨_, h, hb, hh, hw now⟩
  refine ⟨?_, hholds⟩
  intro m hm hlast hnone
  have he : SetsPace calls e := by
    rw [hm]
    exact hlast
  obtain ⟨b, h, hb, hh, hw⟩ := hholds he
  -- an update without a budget leaves the transport with the one emitted last
  rw [held_concat, hnone, Option.none_or, held_eq_lastPacer] at hh
  exact ⟨b, h, hb, hh, hw.symm⟩

/-- A new controller without trials, constraints and streams. -/
def plain : SendController where
  params := Parameters.ofTrials {}
  control := .initial (Parameters.ofTrials {})
  constraints := {}
  streams := {}

/-- The streams want more than the start rate that is announced when the network comes up, so
padding begins; it goes on a period later, and the budget of then is left out. -/
theorem held_sameWindows_computed_of_padding :
    ∃ (c : SendController) (calls : List Call) (b last : PacerBudget),
      create {} = .ok plain ∧
        [.streams { maxAllocated := some (.ofKbps 5000) },
          .availability { atTime := 0, isAvailable := true }].foldlM serve
            (plain.withInterval (.ofMillis 10), []) = .ok (c, calls) ∧
        c.isPadding = true ∧
        (c.onProcessInterval { atTime := .ofMillis 25 }).2.pacer = none ∧
        c.computed (.processInterval { atTime := .ofMillis 25 }) = some b ∧
        lastPacer calls = some last ∧ b.SameWindows last := by
  have h₀ : create {} = .ok plain := rfl
  have hrun : [.streams { maxAllocated := some (.ofKbps 5000) },
      .availability { atTime := 0, isAvailable := true }].foldlM serve
        (plain.withInterval (.ofMillis 10), []) = .ok (_, _) := rfl
  obtain ⟨b, last, hb, hlast, hw⟩ :=
    (held_sameWindows_computed h₀ hrun (e := .processInterval { atTime := .ofMillis 25 }) rfl).1 _
      rfl ⟨_, .tail _ (.head _), rfl⟩ (by decide +kernel)
  exact ⟨_, _, b, last, h₀, hrun, by decide +kernel, by decide +kernel, hb, hlast, hw⟩

end SendController

end MediaSender
