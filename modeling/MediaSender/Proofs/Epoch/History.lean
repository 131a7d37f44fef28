import MediaSender.Proofs.Epoch.Slots
import MediaSender.Proofs.History.Ledger

/-! # The packet history on another clock

A history that is told the time by another clock gives the same answers, the packets it hands out
with their capture times told by that clock.

* **Encapsulation.** A function that dresses packets may read capture times; on the other clock it
  has a counterpart that does the same by that clock (`Encapsulation.Rebases`).
* **Operations.** The history after an operation is the same on both clocks, and so is the packet
  handed out (`Rebasable.step_rebase`); all times it keeps have timestamps on the other clock
  (`Rebasable.step`).
* **Runs.** So runs give the same answers (`Rebasable.answers_rebase`). -/

namespace MediaSender

variable {k : Int}

/-! ### The packet for padding -/

/-- The packet kept for padding with its capture time told by the other clock. -/
def LargePacket.rebase (k : Int) (l : LargePacket) : LargePacket :=
  { l with packet := l.packet.map (·.rebase k) }

theorem LargePacket.observe_rebase (l : LargePacket) (p : RtpPacket) :
    (l.rebase k).observe (p.rebase k) = (l.observe p).rebase k := by
  have hgap : (l.rebase k).afterGap (p.rebase k) = l.afterGap p := by
    have hkept : (l.rebase k).packet = l.packet.map (·.rebase k) := rfl
    unfold afterGap
    rw [hkept]
    cases l.packet <;> rfl
  have hsize : (p.rebase k).payloadSize = p.payloadSize := rfl
  have hlargest : (l.rebase k).largestPayload = l.largestPayload := rfl
  unfold observe
  rw [hgap, hsize, hlargest]
  unfold rebase
  dsimp only
  rw [apply_ite (Option.map fun p : RtpPacket => p.rebase k)]
  rfl

theorem LargePacket.eq_or_kept_of_observe {l : LargePacket} {p q : RtpPacket}
    (h : (l.observe p).packet = some q) : q = p ∨ l.packet = some q := by
  unfold observe at h
  dsimp only at h
  obtain ⟨-, hnew⟩ | ⟨-, hkept⟩ := ite_eq_iff.mp h
  · exact .inl (Option.some.inj hnew).symm
  · exact .inr hkept

/-- On the other clock `g` does to packets what `f` does to them on this one. -/
def Encapsulation.Rebases (k : Int) (f g : Encapsulation) : Prop :=
  ∀ p : RtpPacket, p.captureTime.Rebasable k → g (p.rebase k) = (f p).map (·.rebase k)

namespace PacketHistory

/-- The history with all its times told by the other clock. -/
def rebase (k : Int) (h : PacketHistory) : PacketHistory :=
  { h with slots := h.slots.rebase k, large := h.large.rebase k }

/-- The times in the history have timestamps on the other clock. -/
structure Rebasable (k : Int) (h : PacketHistory) : Prop where
  slots : h.slots.Rebasable k
  large : ∀ p, h.large.packet = some p → p.captureTime.Rebasable k

/-- The second operation is the first one as told by the other clock, and the times of the first
one have timestamps there. -/
inductive Operation.Rebases (k : Int) : Operation → Operation → Prop where
  | configure (mode : StorageMode) (n : Nat) :
    Rebases k (.configure mode n) (.configure mode n)
  | setRtt (rtt : TimeDelta) {now : Timestamp} (hnow : now.Rebasable k) :
    Rebases k (.setRtt rtt now) (.setRtt rtt (now.rebase k))
  | put {p : RtpPacket} {now : Timestamp} (hp : p.captureTime.Rebasable k)
    (hnow : now.Rebasable k) : Rebases k (.put p now) (.put (p.rebase k) (now.rebase k))
  | resend (s : SequenceNumber) {now : Timestamp} {f g : Encapsulation} (hnow : now.Rebasable k)
    (hfg : Encapsulation.Rebases k f g) :
    Rebases k (.resend s now f) (.resend s (now.rebase k) g)
  | markSent (s : SequenceNumber) {now : Timestamp} (hnow : now.Rebasable k) :
    Rebases k (.markSent s now) (.markSent s (now.rebase k))
  | acknowledge (arrived : List SequenceNumber) :
    Rebases k (.acknowledge arrived) (.acknowledge arrived)
  | pad {now : Timestamp} {f g : Encapsulation} (hnow : now.Rebasable k)
    (hfg : Encapsulation.Rebases k f g) : Rebases k (.pad now f) (.pad (now.rebase k) g)
  | clear : Rebases k .clear .clear

/-- What an operation hands out, with the history after it, told by the other clock. -/
def rebaseAnswer (k : Int) (r : PacketHistory × Option RtpPacket) :
    PacketHistory × Option RtpPacket :=
  (r.1.rebase k, r.2.map (·.rebase k))

section operations

variable {h : PacketHistory} {now : Timestamp} {f g : Encapsulation}

theorem Rebasable.of_slots (hh : h.Rebasable k) {slots : Slots} (hs : slots.Rebasable k) :
    ({ h with slots } : PacketHistory).Rebasable k :=
  ⟨hs, hh.large⟩

theorem rebasable_nil {h : PacketHistory} (hslots : h.slots = []) (hlarge : h.large.packet = none) :
    h.Rebasable k := by
  refine ⟨?_, ?_⟩
  · intro e he
    rw [hslots] at he
    cases he
  · intro p hp
    rw [hlarge] at hp
    cases hp

theorem duration_nonneg (rtt : Option TimeDelta) : 0 ≤ Retention.duration rtt := by
  cases rtt with
  | none => exact (by decide : (0 : TimeDelta) ≤ Retention.minimum)
  | some r =>
      have hminimum : (0 : TimeDelta) ≤ Retention.minimum := by decide
      exact le_trans hminimum (le_max_right _ _)

/-! ### Storing -/

theorem Rebasable.cull_rebase (hh : h.Rebasable k) (hnow : now.Rebasable k) :
    (h.rebase k).cull (now.rebase k) = (h.cull now).rebase k := by
  have hslots := hh.slots.cull_rebase hnow (duration_nonneg h.rtt) h.numberToStore
  exact congrArg (fun slots : Slots => { h.rebase k with slots }) hslots

theorem Rebasable.cull (hh : h.Rebasable k) (now : Timestamp) : (h.cull now).Rebasable k :=
  hh.of_slots fun e he => hh.slots e (Slots.mem_of_mem_cull he)

theorem Rebasable.setRtt_rebase (hh : h.Rebasable k) (rtt : TimeDelta) (hnow : now.Rebasable k) :
    (h.rebase k).setRtt rtt (now.rebase k) = (h.setRtt rtt now).map (·.rebase k) := by
  have hh' : ({ h with rtt := some rtt } : PacketHistory).Rebasable k := ⟨hh.slots, hh.large⟩
  have hcull := hh'.cull_rebase hnow
  unfold setRtt
  split
  next => rfl
  next =>
    show Except.ok (if h.isEnabled then
        PacketHistory.cull (({ h with rtt := some rtt } : PacketHistory).rebase k) (now.rebase k)
      else ({ h with rtt := some rtt } : PacketHistory).rebase k) =
      Except.ok (PacketHistory.rebase k
        (if h.isEnabled then PacketHistory.cull { h with rtt := some rtt } now
        else { h with rtt := some rtt }))
    rw [hcull, apply_ite (PacketHistory.rebase k)]

theorem Rebasable.setRtt (hh : h.Rebasable k) {rtt : TimeDelta} {h' : PacketHistory}
    (he : h.setRtt rtt now = .ok h') : h'.Rebasable k := by
  have hh' : ({ h with rtt := some rtt } : PacketHistory).Rebasable k := ⟨hh.slots, hh.large⟩
  unfold PacketHistory.setRtt at he
  split at he
  next => cases he
  next =>
    rw [Except.ok.injEq] at he
    rw [← he]
    split
    next => exact hh'.cull now
    next => exact hh'

theorem Rebasable.put_rebase (hh : h.Rebasable k) (p : RtpPacket) (hnow : now.Rebasable k) :
    (h.rebase k).put (p.rebase k) (now.rebase k) = (h.put p now).rebase k := by
  have hcull := hh.cull_rebase hnow
  have hinsert := Slots.insert_rebase (k := k) (h.cull now).slots (Entry.fresh p now)
  have hobserve := LargePacket.observe_rebase (k := k) h.large p
  have hstored : ((h.rebase k).isEnabled && (p.rebase k).allowRetransmission) =
      (h.isEnabled && p.allowRetransmission) := rfl
  unfold put
  rw [hstored]
  split
  next =>
    rw [hcull]
    show { (h.cull now).rebase k with
      slots := ((h.cull now).slots.rebase k).insert ((Entry.fresh p now).rebase k)
      large :=
        if h.paddingMode = PaddingMode.recentLargePacket then
          (h.large.rebase k).observe (p.rebase k)
        else h.large.rebase k } = _
    rw [hinsert, hobserve, ← apply_ite (LargePacket.rebase k)]
    rfl
  next => rfl

theorem Rebasable.put (hh : h.Rebasable k) {p : RtpPacket} (hp : p.captureTime.Rebasable k)
    (hnow : now.Rebasable k) : (h.put p now).Rebasable k := by
  unfold PacketHistory.put
  split
  next =>
    have hfresh : (Entry.fresh p now).Rebasable k := ⟨hp, hnow, hnow⟩
    refine ⟨(hh.cull now).slots.insert hfresh, ?_⟩
    intro q hq
    have hlarge : q = p ∨ h.large.packet = some q := by
      dsimp only at hq
      split at hq
      next => exact LargePacket.eq_or_kept_of_observe hq
      next => exact .inr hq
    obtain rfl | hkept := hlarge
    · exact hp
    · exact hh.large q hkept
  next => exact hh

/-! ### Handing out -/

theorem find?_rebase (h : PacketHistory) (s : SequenceNumber) :
    (h.rebase k).find? s = (h.find? s).map (·.rebase k) := by
  have hslots := Slots.find?_rebase (k := k) h.slots s
  have henabled : (h.rebase k).isEnabled = h.isEnabled := rfl
  unfold find?
  rw [henabled]
  split
  next => exact hslots
  next => rfl

theorem Rebasable.resend_rebase (hh : h.Rebasable k) (s : SequenceNumber) (hnow : now.Rebasable k)
    (hfg : Encapsulation.Rebases k f g) :
    (h.rebase k).resend s (now.rebase k) g = rebaseAnswer k (h.resend s now f) := by
  have hupdate := Slots.update_rebase (k := k) (f := ({ · with pending := true }))
    (g := ({ · with pending := true })) (fun _ => rfl) h.slots s
  have hrtt : (h.rebase k).rtt = h.rtt := rfl
  unfold resend
  rw [find?_rebase, hrtt]
  cases hfind : h.find? s with
  | none => rfl
  | some e =>
      have he := hh.slots e (Slots.mem_of_find? (find?_eq_some_iff.mp hfind).2)
      have hrested := he.rested_rebase h.rtt hnow
      have hpending : (e.rebase k).pending = e.pending := rfl
      have hdressed : g (e.rebase k).packet = (f e.packet).map (·.rebase k) :=
        hfg e.packet he.captureTime
      dsimp only [Option.map_some]
      rw [hrested, hpending, hdressed]
      split
      next => rfl
      next =>
        cases f e.packet with
        | none => rfl
        | some q =>
            exact congrArg (fun slots : Slots => ({ h.rebase k with slots }, some (q.rebase k)))
              hupdate

theorem Rebasable.resend (hh : h.Rebasable k) (s : SequenceNumber) (now : Timestamp)
    (f : Encapsulation) : (h.resend s now f).1.Rebasable k := by
  unfold PacketHistory.resend
  split
  next => exact hh
  next =>
    split
    next => exact hh
    next =>
      split
      next => exact hh
      next =>
        refine hh.of_slots (hh.slots.update ?_ s)
        intro e he
        exact ⟨he.captureTime, he.sentAt, he.lastTransmission⟩

theorem markSent_rebase (h : PacketHistory) (s : SequenceNumber) (now : Timestamp) :
    (h.rebase k).markSent s (now.rebase k) = (h.markSent s now).rebase k := by
  have hupdate := Slots.update_rebase (k := k)
    (f := fun e => { e.resent now with pending := false })
    (g := fun e => { e.resent (now.rebase k) with pending := false }) (fun _ => rfl) h.slots s
  have henabled : (h.rebase k).isEnabled = h.isEnabled := rfl
  unfold markSent
  rw [henabled]
  split
  next => exact congrArg (fun slots : Slots => { h.rebase k with slots }) hupdate
  next => rfl

theorem Rebasable.markSent (hh : h.Rebasable k) (s : SequenceNumber) (hnow : now.Rebasable k) :
    (h.markSent s now).Rebasable k := by
  unfold PacketHistory.markSent
  split
  next =>
    refine hh.of_slots (hh.slots.update ?_ s)
    intro e he
    exact ⟨he.captureTime, he.sentAt, hnow⟩
  next => exact hh

theorem acknowledgeOne_rebase (h : PacketHistory) (s : SequenceNumber) :
    (h.rebase k).acknowledgeOne s = (h.acknowledgeOne s).rebase k := by
  have hfind := Slots.find?_rebase (k := k) h.slots s
  have hposition := Slots.position_rebase (k := k) h.slots s
  have hremove := Slots.removeAt_rebase (k := k) h.slots (h.slots.position s)
  have hslots : (h.rebase k).slots = h.slots.rebase k := rfl
  unfold acknowledgeOne
  rw [hslots, hfind]
  cases h.slots.find? s with
  | none => rfl
  | some e =>
      dsimp only [Option.map_some]
      have hpending : (e.rebase k).pending = e.pending := rfl
      rw [hpending]
      split
      next => rfl
      next =>
        rw [hposition, hremove]
        rfl

theorem acknowledge_rebase (h : PacketHistory) (arrived : List SequenceNumber) :
    (h.rebase k).acknowledge arrived = (h.acknowledge arrived).rebase k :=
  List.foldl_hom (rebase k) fun h s => acknowledgeOne_rebase h s

theorem Rebasable.acknowledgeOne (hh : h.Rebasable k) (s : SequenceNumber) :
    (h.acknowledgeOne s).Rebasable k := by
  have hslots : (h.acknowledgeOne s).slots.Rebasable k :=
    fun e he => hh.slots e (mem_of_mem_acknowledgeOne he)
  refine ⟨hslots, ?_⟩
  have hlarge : (h.acknowledgeOne s).large = h.large := by
    unfold PacketHistory.acknowledgeOne
    split
    next => split <;> rfl
    next => rfl
  rw [hlarge]
  exact hh.large

theorem Rebasable.acknowledge (hh : h.Rebasable k) (arrived : List SequenceNumber) :
    (h.acknowledge arrived).Rebasable k :=
  List.foldlRecOn arrived PacketHistory.acknowledgeOne hh fun _ hb s _ => hb.acknowledgeOne s

/-! ### Padding -/

theorem Rebasable.padWithLast_rebase (hh : h.Rebasable k) (now : Timestamp)
    (hfg : Encapsulation.Rebases k f g) :
    (h.rebase k).padWithLast (now.rebase k) g = rebaseAnswer k (h.padWithLast now f) := by
  have hupdate := Slots.updateLast_rebase (k := k) (f := (·.resent now))
    (g := (·.resent (now.rebase k))) (fun _ => rfl) h.slots
  have hlast : (h.slots.rebase k).getLast?.join = h.slots.getLast?.join.map (·.rebase k) := by
    unfold Slots.rebase
    rw [List.getLast?_map]
    cases h.slots.getLast? with
    | none => rfl
    | some slot => cases slot <;> rfl
  have hslots : (h.rebase k).slots = h.slots.rebase k := rfl
  unfold padWithLast
  rw [hslots, hlast]
  cases hslot : h.slots.getLast?.join with
  | none => rfl
  | some e =>
      have hmem : some e ∈ h.slots := List.mem_of_getLast? (Option.join_eq_some_iff.mp hslot)
      have he := hh.slots e hmem
      have hpending : (e.rebase k).pending = e.pending := rfl
      have hdressed : g (e.rebase k).packet = (f e.packet).map (·.rebase k) :=
        hfg e.packet he.captureTime
      dsimp only [Option.map_some]
      rw [hpending, hdressed]
      split
      next => rfl
      next =>
        cases f e.packet with
        | none => rfl
        | some q =>
            exact congrArg (fun slots : Slots => ({ h.rebase k with slots }, some (q.rebase k)))
              hupdate

theorem Rebasable.padWithLast (hh : h.Rebasable k) (hnow : now.Rebasable k) (f : Encapsulation) :
    (h.padWithLast now f).1.Rebasable k := by
  unfold PacketHistory.padWithLast
  split
  next => exact hh
  next =>
    split
    next => exact hh
    next =>
      split
      next => exact hh
      next =>
        refine hh.of_slots (hh.slots.modify ?_ _)
        intro e he
        exact ⟨he.captureTime, he.sentAt, hnow⟩

theorem Rebasable.pad_rebase (hh : h.Rebasable k) (now : Timestamp)
    (hfg : Encapsulation.Rebases k f g) :
    (h.rebase k).pad (now.rebase k) g = rebaseAnswer k (h.pad now f) := by
  have hlast := hh.padWithLast_rebase now hfg
  have henabled : (h.rebase k).isEnabled = h.isEnabled := rfl
  have hmode : (h.rebase k).paddingMode = h.paddingMode := rfl
  have hkept : (h.rebase k).large.packet = h.large.packet.map (·.rebase k) := rfl
  unfold pad
  rw [henabled, hmode, hkept]
  split
  next =>
    cases h.paddingMode with
    | lastPacket => exact hlast
    | recentLargePacket =>
        cases hp : h.large.packet with
        | none => exact hlast
        | some p =>
            have hdressed := hfg p (hh.large p hp)
            exact congrArg (Prod.mk (h.rebase k)) hdressed
  next => rfl

theorem Rebasable.pad (hh : h.Rebasable k) (hnow : now.Rebasable k) (f : Encapsulation) :
    (h.pad now f).1.Rebasable k := by
  unfold PacketHistory.pad
  split
  next =>
    split
    next => exact hh
    next => exact hh.padWithLast hnow f
  next => exact hh

/-! ### Operations -/

variable {o o' : Operation}

/-- An operation and its counterpart do the same on their clocks. -/
theorem Rebasable.step_rebase (hh : h.Rebasable k) (ho : Operation.Rebases k o o') :
    (h.rebase k).step o' = (h.step o).map (rebaseAnswer k) := by
  cases ho with
  | configure mode n => rfl
  | setRtt rtt hnow =>
      have hset := hh.setRtt_rebase rtt hnow
      unfold step
      dsimp only
      rw [hset]
      cases h.setRtt rtt _ <;> rfl
  | put hp hnow =>
      exact congrArg (fun h : PacketHistory => Except.ok (h, none)) (hh.put_rebase _ hnow)
  | resend s hnow hfg => exact congrArg Except.ok (hh.resend_rebase s hnow hfg)
  | markSent s hnow =>
      exact congrArg (fun h : PacketHistory => Except.ok (h, none)) (markSent_rebase h s _)
  | acknowledge arrived =>
      exact congrArg (fun h : PacketHistory => Except.ok (h, none)) (acknowledge_rebase h arrived)
  | pad hnow hfg => exact congrArg Except.ok (hh.pad_rebase _ hfg)
  | clear => rfl

theorem Rebasable.step (hh : h.Rebasable k) (ho : Operation.Rebases k o o') {h' : PacketHistory}
    {r : Option RtpPacket} (he : h.step o = .ok (h', r)) : h'.Rebasable k := by
  cases ho with
  | configure mode n => cases he; exact rebasable_nil rfl rfl
  | setRtt rtt hnow => exact hh.setRtt (step_setRtt_eq_ok he).1
  | put hp hnow => cases he; exact hh.put hp hnow
  | @resend s now f g hnow hfg =>
      have hafter := hh.resend s now f
      rw [Except.ok.inj he] at hafter
      exact hafter
  | markSent s hnow => cases he; exact hh.markSent s hnow
  | acknowledge arrived => cases he; exact hh.acknowledge arrived
  | @pad now f g hnow hfg =>
      have hafter := hh.pad hnow f
      rw [Except.ok.inj he] at hafter
      exact hafter
  | clear => cases he; exact rebasable_nil rfl rfl

end operations

end PacketHistory

/-! ### Runs -/

/-- The answer with its packet's capture time told by the other clock. -/
def HistoryAnswer.rebase (k : Int) (a : HistoryAnswer) : HistoryAnswer :=
  { a with handed := a.handed.map (·.rebase k) }

namespace PacketHistory

/-- What is stored under which number has nothing to do with the clock. -/
theorem answer_rebase (h : PacketHistory) (handed : Option RtpPacket) :
    HistoryAnswer.mk (handed.map (·.rebase k)) (h.rebase k).contains (h.rebase k).size
        (h.rebase k).isEmpty =
      (HistoryAnswer.mk handed h.contains h.size h.isEmpty).rebase k := by
  have hcontains : (h.rebase k).contains = h.contains := by
    funext s
    unfold contains
    rw [find?_rebase, Option.isSome_map]
  have hsize : (h.rebase k).size = h.size := by
    show (h.slots.map (Option.map (·.rebase k))).countP Option.isSome = h.slots.countP _
    rw [List.countP_map]
    apply List.countP_congr
    intro slot _
    rw [Function.comp_apply, Option.isSome_map]
  have hisEmpty : (h.rebase k).isEmpty = h.isEmpty := by
    show (h.slots.map (Option.map (·.rebase k))).all Option.isNone = h.slots.all _
    rw [List.all_map, Slots.isNone_comp_rebase]
  rw [hcontains, hsize, hisEmpty]
  rfl

/-- A run and its counterpart give the same answers on their clocks. -/
theorem Rebasable.answers_rebase {h : PacketHistory} (hh : h.Rebasable k)
    {ops ops' : List Operation} (ho : List.Forall₂ (Operation.Rebases k) ops ops') :
    (h.rebase k).answers ops' = (h.answers ops).map (List.map (·.rebase k)) := by
  induction ho generalizing h with
  | nil => rfl
  | @cons o o' rest rest' ho _ ih =>
      rw [answers, answers, hh.step_rebase ho]
      cases hstep : h.step o with
      | error x => rfl
      | ok r =>
          obtain ⟨h', handed⟩ := r
          have hnext := ih (hh.step ho hstep)
          show (do let later ← (h'.rebase k).answers rest'; _) =
            (do let later ← h'.answers rest; _ : Except HistoryError (List HistoryAnswer)).map _
          rw [hnext]
          cases h'.answers rest with
          | error x => rfl
          | ok later =>
              have hanswer := answer_rebase (k := k) h' handed
              exact congrArg (fun a => Except.ok (a :: later.map (·.rebase k))) hanswer

end PacketHistory

end MediaSender
