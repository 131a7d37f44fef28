import MediaSender.History.Run
import MediaSender.Proofs.SequenceNumber

/-! # A ledger of sent packets

The history without slots: a list of entries, each with its unwrapped number, in increasing order
of the numbers.

* **Look-up** goes through the list and compares numbers modulo `2 ^ 16`.
* **Storing** culls by age and then inserts the entry in order, in place of one with the same
  number.
* **Room.** What the retention rule counts is the span of the numbers, `last - first + 1`.
* **Padding** takes the last entry or none.

`Fitting` runs are those in which the numbers in use, together with that of a packet to be stored,
always lie less than half a circle apart. -/

namespace MediaSender

open SequenceNumber (wrap)

/-! ### Sorted entries -/

/-- Entries with their unwrapped numbers, in increasing order of these. -/
abbrev Numbered := List (Int × Entry)

namespace Numbered

/-- The count of numbers from the first to the last one. -/
def span (l : Numbered) : Nat :=
  match l.head?, l.getLast? with
  | some first, some last => (last.1 - first.1 + 1).toNat
  | _, _ => 0

/-- The entries left after culling at `now`. -/
def cull (numberToStore : Nat) (δ : TimeDelta) (now : Timestamp) : Numbered → Numbered
  | [] => []
  | x :: rest =>
    if Retention.givesUp numberToStore δ now (span (x :: rest)) x.2 then
      cull numberToStore δ now rest
    else x :: rest

/-- Insert `e` under the number `k`, in place of an entry already there. -/
def insert (k : Int) (e : Entry) : Numbered → Numbered
  | [] => [(k, e)]
  | x :: rest =>
    if k < x.1 then (k, e) :: x :: rest
    else if k = x.1 then (k, e) :: rest
    else x :: insert k e rest

/-- The entry with sequence number `s`. -/
def find? (l : Numbered) (s : SequenceNumber) : Option Entry :=
  (List.find? (fun x => wrap x.1 = s) l).map Prod.snd

/-- Replace the entry with sequence number `s` by its image under `f`. -/
def update (l : Numbered) (s : SequenceNumber) (f : Entry → Entry) : Numbered :=
  l.map fun x => if wrap x.1 = s then (x.1, f x.2) else x

/-- Remove the entries that `arrived` lists and that are not pending. -/
def acknowledge (l : Numbered) (arrived : List SequenceNumber) : Numbered :=
  l.filter fun x => x.2.pending || !arrived.contains (wrap x.1)

/-- Replace the last entry by its image under `f`. -/
def updateLast (l : Numbered) (f : Entry → Entry) : Numbered :=
  match l.getLast? with
  | some x => l.dropLast ++ [(x.1, f x.2)]
  | none => l

end Numbered

/-! ### Operations -/

/-- A history as a list of numbered entries. -/
structure Ledger where
  paddingMode : PaddingMode := .lastPacket
  mode : StorageMode := .disabled
  numberToStore : Nat := 0
  rtt : Option TimeDelta := none
  entries : Numbered := []
  large : LargePacket := {}

namespace Ledger

/-- A ledger that stores nothing yet. -/
def empty (paddingMode : PaddingMode) : Ledger := { paddingMode }

def isEnabled (l : Ledger) : Bool := l.mode != .disabled

def clear (l : Ledger) : Ledger := { l with entries := [], large := {} }

def configure (l : Ledger) (mode : StorageMode) (numberToStore : Nat) : Ledger :=
  { l.clear with mode, numberToStore := min numberToStore Retention.maxSlots }

def cull (l : Ledger) (now : Timestamp) : Ledger :=
  { l with entries := l.entries.cull l.numberToStore (Retention.duration l.rtt) now }

def setRtt (l : Ledger) (rtt : TimeDelta) (now : Timestamp) : Except HistoryError Ledger :=
  if rtt < 0 then .error .negativeRoundTrip
  else
    let l := { l with rtt := some rtt }
    .ok (if l.isEnabled then l.cull now else l)

/-- Store a packet with unwrapped number `k`. -/
def put (l : Ledger) (k : Int) (p : RtpPacket) (now : Timestamp) : Ledger :=
  if l.isEnabled && p.allowRetransmission then
    let l := l.cull now
    { l with
      entries := l.entries.insert k (Entry.fresh p now)
      large := if l.paddingMode = .recentLargePacket then l.large.observe p else l.large }
  else l

def find? (l : Ledger) (s : SequenceNumber) : Option Entry :=
  if l.isEnabled then l.entries.find? s else none

def contains (l : Ledger) (s : SequenceNumber) : Bool := (l.find? s).isSome

def resend (l : Ledger) (s : SequenceNumber) (now : Timestamp) (f : Encapsulation) :
    Ledger × Option RtpPacket :=
  match l.find? s with
  | none => (l, none)
  | some e =>
    if e.pending || !e.rested l.rtt now then (l, none)
    else
      match f e.packet with
      | none => (l, none)
      | some q => ({ l with entries := l.entries.update s ({ · with pending := true }) }, some q)

def markSent (l : Ledger) (s : SequenceNumber) (now : Timestamp) : Ledger :=
  if l.isEnabled then
    { l with entries := l.entries.update s fun e => { e.resent now with pending := false } }
  else l

def acknowledge (l : Ledger) (arrived : List SequenceNumber) : Ledger :=
  { l with entries := l.entries.acknowledge arrived }

/-- The last entry as padding, and never an older one. -/
def padWithLast (l : Ledger) (now : Timestamp) (f : Encapsulation) : Ledger × Option RtpPacket :=
  match l.entries.getLast? with
  | none => (l, none)
  | some x =>
    if x.2.pending then (l, none)
    else
      match f x.2.packet with
      | none => (l, none)
      | some q => ({ l with entries := l.entries.updateLast (·.resent now) }, some q)

def pad (l : Ledger) (now : Timestamp) (f : Encapsulation) : Ledger × Option RtpPacket :=
  if l.isEnabled then
    match l.paddingMode, l.large.packet with
    | .recentLargePacket, some p => (l, f p)
    | _, _ => l.padWithLast now f
  else (l, none)

def size (l : Ledger) : Nat := l.entries.length

def isEmpty (l : Ledger) : Bool := l.entries.isEmpty

/-! ### Runs -/

/-- The ledger after an operation, and the packet it hands out; `k` is the unwrapped number of
the packet that a `put` stores. -/
def step (l : Ledger) (k : Int) :
    PacketHistory.Operation → Except HistoryError (Ledger × Option RtpPacket)
  | .configure mode n => .ok (l.configure mode n, none)
  | .setRtt rtt now => (l.setRtt rtt now).map (·, none)
  | .put p now => .ok (l.put k p now, none)
  | .resend s now f => .ok (l.resend s now f)
  | .markSent s now => .ok (l.markSent s now, none)
  | .acknowledge arrived => .ok (l.acknowledge arrived, none)
  | .pad now f => .ok (l.pad now f)
  | .clear => .ok (l.clear, none)

/-- The numbers in use. -/
def numbers (l : Ledger) : List Int := l.entries.map Prod.fst

/-- Unless the operation stores a packet, nothing is asked of it.  If it does, `k` unwraps the
packet's number, and `k` and the numbers in use lie less than half a circle apart. -/
def Fits (l : Ledger) (k : Int) : PacketHistory.Operation → Prop
  | .put p _ => wrap k = p.sequenceNumber ∧
      ∀ i ∈ k :: l.numbers, ∀ j ∈ k :: l.numbers, j - i < 0x8000
  | _ => True

/-- Every operation of a run fits where it happens. -/
def Fitting (l : Ledger) : List (Int × PacketHistory.Operation) → Prop
  | [] => True
  | (k, o) :: rest => l.Fits k o ∧
      match l.step k o with
      | .ok (l', _) => l'.Fitting rest
      | .error _ => True

instance (l : Ledger) (k : Int) (o : PacketHistory.Operation) : Decidable (l.Fits k o) := by
  cases o <;> unfold Fits <;> infer_instance

instance decidableFitting : (l : Ledger) → (ops : List (Int × PacketHistory.Operation)) →
    Decidable (l.Fitting ops)
  | _, [] => inferInstanceAs (Decidable True)
  | l, (k, o) :: rest =>
    have : Decidable (match l.step k o with
        | .ok (l', _) => l'.Fitting rest
        | .error _ => True) :=
      match l.step k o with
      | .ok (l', _) => decidableFitting l' rest
      | .error _ => inferInstanceAs (Decidable True)
    inferInstanceAs (Decidable (_ ∧ _))

end Ledger

/-! ### Answers -/

/-- What a user of a history sees after an operation: the packet handed out, which numbers are
stored, and how many packets. -/
structure HistoryAnswer where
  handed : Option RtpPacket
  contains : SequenceNumber → Bool
  size : Nat
  isEmpty : Bool

/-- The answers of a history along a run. -/
def PacketHistory.answers (h : PacketHistory) :
    List PacketHistory.Operation → Except HistoryError (List HistoryAnswer)
  | [] => .ok []
  | o :: rest => do
    let (h, handed) ← h.step o
    let later ← h.answers rest
    return ⟨handed, h.contains, h.size, h.isEmpty⟩ :: later

/-- The answers of a ledger along a run. -/
def Ledger.answers (l : Ledger) :
    List (Int × PacketHistory.Operation) → Except HistoryError (List HistoryAnswer)
  | [] => .ok []
  | (k, o) :: rest => do
    let (l, handed) ← l.step k o
    let later ← l.answers rest
    return ⟨handed, l.contains, l.size, l.isEmpty⟩ :: later

end MediaSender
