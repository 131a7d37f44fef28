import Mathlib.Data.List.Chain
import MediaSender.Proofs.Controller.Turns

/-! # The budget of periodic padding

* **Starts.** A padding interval starts when a pacer budget is computed, padding may be used, and
  the present interval is over (`Pacing.paddingStart?`).  The controller remembers the last start on
  its route, so each start waits for the one before it (`Intervals.concat`, `Padded.turn`).
* **Padding.** A budget with a padding window was computed at a time and for a target rate at which
  padding may be used, within the padding duration of the last start (`Pacing.of_padWindow`). -/

namespace MediaSender.SendController

/-! ### Starts of padding intervals -/

/-- The time at which a padding interval starts in the turn, if one does. -/
def Turn.paddingStart? (t : Turn) : Option Timestamp := t.pacing.bind Pacing.paddingStart?

/-- The starts of the padding intervals on a route. -/
def paddingStarts (route : List Turn) : List Timestamp := route.filterMap Turn.paddingStart?

/-- The instant `t` is at least `δ` after `s`, by the distance as it is computed and by the exact
one. -/
structure SpacedBy (δ : TimeDelta) (s t : Timestamp) : Prop where
  computed : δ ≤ t - s
  exact : δ ≠ .minusInfinity → δ.raw ≤ t.raw - s.raw

/-- The instant `t` is less than `δ` after `s`, by the distance as it is computed and by the exact
one. -/
structure EndsBefore (δ : TimeDelta) (s t : Timestamp) : Prop where
  computed : t - s < δ
  exact : t.raw - s.raw < δ.raw

/-- Padding intervals start at these times, the last one at `last`, or not at all yet. -/
structure Intervals (δ : TimeDelta) (starts : List Timestamp) (last : Timestamp) : Prop where
  last_eq : last = starts.getLast?.getD .minusInfinity
  spaced : starts.IsChain (SpacedBy δ)
  finite : ∀ s ∈ starts, s.isFinite = true

/-- The controller remembers the last one of the padding intervals on the present route. -/
def Padded (past : List Turn) (c : SendController) : Prop :=
  Intervals c.params.paddingInterval (paddingStarts (onRoute past)) c.lastPaddingStart

namespace Intervals

variable {δ : TimeDelta} {starts : List Timestamp} {last s : Timestamp}

theorem nil (δ : TimeDelta) : Intervals δ [] .minusInfinity := ⟨rfl, .nil, by simp⟩

/-- An interval that starts after the present one joins those that are spaced. -/
theorem concat (h : Intervals δ starts last) (hs : s.isFinite = true) (hδ : δ ≤ s - last) :
    Intervals δ (starts ++ [s]) s := by
  refine ⟨by simp, List.isChain_append.mpr ⟨h.spaced, .singleton s, ?_⟩, ?_⟩
  · intro r hr s' hs'
    obtain rfl : s = s' := by simpa using hs'
    have hlast : last = r := by rw [h.last_eq, hr, Option.getD_some]
    have hfinite := h.finite r (List.mem_of_getLast? hr)
    rw [hlast] at hδ
    exact ⟨hδ, fun hne => Quantity.raw_le_of_le_sub hs hfinite hne hδ⟩
  · simp only [List.forall_mem_append, List.forall_mem_singleton]
    exact ⟨h.finite, hs⟩

/-- If an instant is within some time of the last start, then there is a start. -/
theorem exists_start (h : Intervals δ starts last) {δ' : TimeDelta} (hs : s.isFinite = true)
    (hwithin : s - last < δ') :
    ∃ start, starts.getLast? = some start ∧ EndsBefore δ' start s := by
  rw [h.last_eq] at hwithin
  cases hlast : starts.getLast? with
  | none =>
      rw [hlast] at hwithin
      exact absurd hwithin (Quantity.not_sub_minusInfinity_lt _ _)
  | some start =>
      rw [hlast] at hwithin
      have hstart := h.finite start (List.mem_of_getLast? hlast)
      exact ⟨start, rfl, hwithin, Quantity.raw_sub_lt_of_sub_lt hs hstart hwithin⟩

end Intervals

section starts

variable {p : Pacing} {s : Timestamp}

/-- A padding interval starts only at a time and for a target rate at which padding may be used, and
after the present interval. -/
theorem Pacing.paddingStart?_eq_some_iff :
    p.paddingStart? = some s ↔
      s = p.atTime ∧ p.controller.mayPad p.atTime p.target = true ∧
        p.controller.params.paddingInterval ≤ p.atTime - p.controller.lastPaddingStart := by
  unfold paddingStart?
  split
  next h =>
    rw [Bool.and_eq_true, decide_eq_true_eq] at h
    simp [h, eq_comm]
  next h =>
    rw [Bool.and_eq_true, decide_eq_true_eq] at h
    simp [h]

/-- Padding may be used only at a finite time, with streams that want more than the target rate. -/
theorem mayPad_iff {c : SendController} {now : Timestamp} {target : DataRate} :
    c.mayPad now target = true ↔
      ∃ allocated, c.streams.maxAllocated = some allocated ∧ now.isFinite = true ∧
        target < allocated.scale pacingFactor := by
  unfold mayPad
  cases c.streams.maxAllocated <;> simp

/-- A route change forgets the starts on the old route. -/
theorem pacing_lastPaddingStart {c : SendController} {e : NetworkMessage}
    (h : c.pacing e = some p) :
    p.controller.lastPaddingStart =
      if e.isRouteChange then .minusInfinity else c.lastPaddingStart := by
  obtain ⟨m, rfl, rfl⟩ | ⟨m, control, rfl, -, rfl⟩ | ⟨f, rfl, rfl⟩ | ⟨m, t, rfl, -, rfl⟩ :=
    pacing_cases h
  · rfl
  · rfl
  · rfl
  · rfl

end starts

section turns

variable {past : List Turn} {t : Turn}

theorem paddingStarts_concat (past : List Turn) (t : Turn) :
    paddingStarts (onRoute (past ++ [t])) =
      (if t.message.isRouteChange then [] else paddingStarts (onRoute past)) ++
        t.paddingStart?.toList :=
  filterMap_onRoute_concat past t Turn.paddingStart?

/-- A turn keeps what the turns before it tell of padding. -/
theorem Padded.turn (h : Padded past t.before) (ht : t.Answered) :
    Padded (past ++ [t]) t.after := by
  rw [Padded, paddingStarts_concat, deliver_params ht]
  cases hp : t.pacing with
  | none =>
      obtain ⟨-, hroute, -, control, constraints, hafter, -⟩ := deliver_of_no_pacing hp ht
      rw [hroute, hafter, Turn.paddingStart?, hp]
      simpa [Padded] using h
  | some p =>
      -- a route change leaves nothing of the starts before it
      have hprior : Intervals t.before.params.paddingInterval
          (if t.message.isRouteChange then [] else paddingStarts (onRoute past))
          p.controller.lastPaddingStart := by
        rw [pacing_lastPaddingStart hp]
        split
        next => exact .nil _
        next => exact h
      rw [Turn.paddingStart?, hp, Option.bind_some, (deliver_of_pacing hp ht).1, p.next_eq]
      cases hs : p.paddingStart? with
      | none => simpa using hprior
      | some s =>
          obtain ⟨rfl, hmay, hover⟩ := Pacing.paddingStart?_eq_some_iff.mp hs
          obtain ⟨-, -, hnow, -⟩ := mayPad_iff.mp hmay
          rw [(pacing_keeps hp).1] at hover
          exact hprior.concat hnow hover

end turns

/-! ### Padding windows -/

section padding

variable {c : SendController} {now : Timestamp} {target : DataRate}

/-- Padding that is not nothing fills up to the target rate, and is within the padding duration of
the start of the interval. -/
theorem padRate_of_ne_zero (h : (c.padRate now target).2 ≠ 0) :
    (c.padRate now target).2 = target ∧ c.mayPad now target = true ∧
      now - (c.padRate now target).1.lastPaddingStart < c.params.paddingDuration := by
  unfold padRate at h ⊢
  split
  next hmay =>
    rw [if_pos hmay] at h
    dsimp only at h ⊢
    split
    next hwithin => exact ⟨rfl, hmay, hwithin⟩
    next hout => exact absurd (if_neg hout) h
  next hmay =>
    rw [if_neg hmay] at h
    exact absurd rfl h

theorem Pacing.of_padWindow {p : Pacing} (h : p.budget.padWindow ≠ 0) :
    p.budget.padWindow = p.target.during p.budget.timeWindow ∧
      p.controller.mayPad p.atTime p.target = true ∧
      p.atTime - p.next.lastPaddingStart < p.controller.params.paddingDuration := by
  have hrate : (p.controller.padRate p.atTime p.target).2 ≠ 0 := by
    intro hzero
    apply h
    show DataRate.during (p.controller.padRate p.atTime p.target).2 _ = 0
    rw [hzero]
    rfl
  obtain ⟨htarget, hmay, hwithin⟩ := padRate_of_ne_zero hrate
  refine ⟨?_, hmay, hwithin⟩
  show DataRate.during (p.controller.padRate p.atTime p.target).2 _ = _
  rw [htarget]
  rfl

end padding

/-! ### Runs -/

/-- **Periodic padding stays within its budget.**  At each turn of a run of calls to a new
controller, with the turns before it:

* the controller remembers the last start of a padding interval on the present route;
* the starts on the present route are at least the padding interval apart;
* if the update has a pacer budget with a padding window, then the budget was computed at a finite
  time, the streams in force have a largest allocated rate, the current target rate is less than one
  and a half times that, the last of the starts is less than the padding duration ago, and the
  window is what the target rate carries in the time window. -/
theorem padding_within_budget {config : ControllerConfig} {c₀ : SendController}
    (h₀ : create config = .ok c₀) (δ : TimeDelta) {messages : List NetworkMessage}
    {earlier later : List Turn} {t : Turn}
    (h : (c₀.withInterval δ).turns messages = earlier ++ t :: later) :
    t.after.lastPaddingStart =
        (paddingStarts (onRoute (earlier ++ [t]))).getLast?.getD .minusInfinity ∧
      (paddingStarts (onRoute (earlier ++ [t]))).IsChain
        (SpacedBy (Parameters.ofTrials config.trials).paddingInterval) ∧
      ∀ b, t.update.pacer = some b → b.padWindow ≠ 0 →
        ∃ allocated target start,
          b.atTime.isFinite = true ∧
          (streamsInForce config.streams earlier).maxAllocated = some allocated ∧
          lastTarget (earlier ++ [t]) = some target ∧ target < allocated.scale pacingFactor ∧
          (paddingStarts (onRoute (earlier ++ [t]))).getLast? = some start ∧
          EndsBefore (Parameters.ofTrials config.trials).paddingDuration start b.atTime ∧
          b.padWindow = target.during b.timeWindow := by
  have hpadded : Padded [] (c₀.withInterval δ) := by
    obtain ⟨control, -, rfl⟩ := create_eq_ok h₀
    exact .nil _
  obtain ⟨ht, ⟨hbefore, -⟩, ⟨hafter, hpad⟩, -⟩ := turns_induction
    (P := fun past c => InForce config past c ∧ Padded past c)
    ⟨inForce_of_create h₀ δ, hpadded⟩ (fun past t hp ht => ⟨hp.1.turn ht, hp.2.turn ht⟩) h
  refine ⟨hpad.last_eq, hafter.params ▸ hpad.spaced, ?_⟩
  intro b hb hwindow
  obtain ⟨p, hp, hnext, rfl⟩ := ht.exists_pacing hb
  obtain ⟨hparams, hstreams, htarget⟩ := pacing_keeps hp
  obtain ⟨hpadWindow, hmay, hwithin⟩ := Pacing.of_padWindow hwindow
  obtain ⟨allocated, hallocated, hnow, hlt⟩ := mayPad_iff.mp hmay
  rw [hparams, hbefore.params, ← hnext] at hwithin
  obtain ⟨start, hstart, hends⟩ := hpad.exists_start hnow hwithin
  refine ⟨allocated, p.target, start, hnow, ?_, ?_, hlt, hstart, hends, hpadWindow⟩
  · rw [← hbefore.streams, ← hstreams]
    exact hallocated
  · rw [← hafter.target, hnext, p.next_eq]
    exact htarget

/-- A run in which the streams want more than the start rate that is announced: padding begins with
the first interval, stops after a second, and begins again with the second interval. -/
def paddedRun : List Turn :=
  (plain.withInterval (.ofMillis 25)).turns
    [.streams { maxAllocated := some (.ofKbps 5000) },
      .availability { atTime := 0, isAvailable := true },
      .processInterval { atTime := .ofMillis 500 }, .processInterval { atTime := .ofMillis 1500 },
      .processInterval { atTime := .ofSeconds 10 }]

theorem padding_within_budget_over_two_intervals :
    create {} = .ok plain ∧
      ∃ earlier t b target, paddedRun = earlier ++ [t] ∧ t.update.pacer = some b ∧
        b.padWindow ≠ 0 ∧ paddingStarts (onRoute (earlier ++ [t])) = [0, .ofSeconds 10] ∧
        SpacedBy (.ofSeconds 10) 0 (.ofSeconds 10) ∧
        lastTarget (earlier ++ [t]) = some target ∧ b.padWindow = target.during b.timeWindow := by
  have h₀ : create {} = .ok plain := rfl
  obtain ⟨t, ht, b, hb, hwindow⟩ : ∃ t ∈ paddedRun.getLast?, ∃ b ∈ t.update.pacer,
      b.padWindow ≠ 0 := by
    decide +kernel
  obtain ⟨earlier, hsplit⟩ := List.getLast?_eq_some_iff.mp ht
  obtain ⟨-, hspaced, hpad⟩ := padding_within_budget h₀ (.ofMillis 25) hsplit
  have hstarts : paddingStarts (onRoute paddedRun) = [0, .ofSeconds 10] := by decide +kernel
  rw [hsplit] at hstarts
  rw [hstarts] at hspaced
  obtain ⟨allocated, target, start, -, -, htarget, -, -, -, hcarried⟩ := hpad b hb hwindow
  exact ⟨h₀, earlier, t, b, target, hsplit, hb, hwindow, hstarts,
    (List.isChain_cons_cons.mp hspaced).1, htarget, hcarried⟩

end MediaSender.SendController
