import MediaSender.Json.Basic
import MediaSender.RateControl.Parameters

/-! # Parameters in JSON

A record of parameters is an object with a member for each tunable that is not at its default, or
an array of values in the order of declaration that may end early.

* **Members.** No tunable may be given twice, and every name must be text; a member with a name
  that is no tunable's is passed over unread.
* **Values.** Quantities are integers of their unit that fit 64 bits, so the infinities are the
  ends of that range; floats may be written as integers, and not the other way round. -/

namespace MediaSender

/-- The value of kind `k` that a JSON value denotes. -/
def ValueKind.ofJson? : (k : ValueKind) → Json → Option k.Value
  | .float, j => j.float?
  | .integer, j => j.intWithin? (-0x80000000) 0x7fffffff
  | .flag, j => j.boolean?
  | .time, j => j.word?.map .ofInt
  | .size, j => j.word?.map .ofInt
  | .rate, j => j.word?.map .ofInt

namespace Parameters

/-- Read one value into the record. -/
def read? (p : Parameters) (t : Tunable) (j : Json) : Option Parameters :=
  (t.kind.ofJson? j).map (p.put t)

/-- Read a tunable from the members of an object. -/
def readMember? (ms : Json.Members) (p : Parameters) (t : Tunable) : Option Parameters :=
  match ms.named t.field with
  | [] => some p
  | [v] => p.read? t v
  | _ => none

/-- The parameters that an object with these members denotes. -/
def ofMembers? (ms : Json.Members) : Option Parameters :=
  if ms.all (·.1.isSome) then Tunable.all.foldlM (readMember? ms) {} else none

/-- The parameters that an array of these values denotes. -/
def ofValues? (vs : List Json) : Option Parameters :=
  if vs.length ≤ Tunable.all.length then
    (Tunable.all.zip vs).foldlM (fun p tv => p.read? tv.1 tv.2) {}
  else none

/-- The parameters that a JSON value denotes. -/
def ofJson? : Json → Option Parameters
  | .object ms => ofMembers? ms
  | .array vs => ofValues? vs
  | _ => none

/-- The parameters that a text denotes. -/
def ofText? (text : String) : Option Parameters := (Json.ofText? text).bind ofJson?

end Parameters

end MediaSender
