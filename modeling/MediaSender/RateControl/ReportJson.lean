import MediaSender.Json.Text
import MediaSender.RateControl.Report

/-! # Reports in JSON

A report is written as an object: first its type, then the fields, each the raw integer.

* **Reading.** The type and every field must occur exactly once, in any order; other members are
  passed over.  An array of the type and the values of the fields, in order, is read as well.
* **Soundness.** A text is read only if all of it denotes a value, what is passed over included,
  and if its brackets nest no deeper than `maxDepth`. -/

namespace MediaSender.RateReport

/-- The member that names the type. -/
def typeField : String := "type"

/-- The type of a report. -/
def typeName : String := "BweUpdateScream"

/-- The fields of a report, in order. -/
def fields : List String :=
  ["at_time", "ref_window", "data_in_flight", "target_rate", "smoothed_rtt", "queue_delay",
    "l4s_marked_permille"]

/-- How deep the brackets of a text may nest. -/
def maxDepth : Nat := 127

/-! ### Writing -/

/-- The values of the fields, in order. -/
def values (r : RateReport) : List Int :=
  [r.atTime.raw, r.refWindow.raw, r.dataInFlight.raw, r.targetRate.raw, r.smoothedRtt.raw,
    r.queueDelay.raw, r.markedPermille.toNat]

/-- The members of a report's object. -/
def members (r : RateReport) : Json.Members :=
  (some typeField, .string (some typeName)) ::
    (fields.zip r.values).map fun (name, n) => (some name, .ofInt n)

/-- The text of a report. -/
def text (r : RateReport) : String := (Json.object r.members).text

/-! ### Reading -/

/-- The report with these values of the fields. -/
def ofValues? : List Json → Option RateReport
  | [atTime, window, inFlight, rate, rtt, delay, marked] => do
    return {
      atTime := .ofMicros (← atTime.word?)
      refWindow := .ofInt (← window.word?)
      dataInFlight := .ofInt (← inFlight.word?)
      targetRate := .ofInt (← rate.word?)
      smoothedRtt := .ofInt (← rtt.word?)
      queueDelay := .ofInt (← delay.word?)
      markedPermille := .ofNat (← marked.intWithin? 0 0xffffffff).toNat }
  | _ => none

/-- Whether a value names the type of a report. -/
def isTypeName (j : Json) : Bool := j.text? == some typeName

/-- The report that an object with these members denotes. -/
def ofMembers? (ms : Json.Members) : Option RateReport :=
  match ms.only? typeField with
  | some t => if isTypeName t then (fields.mapM ms.only?).bind ofValues? else none
  | none => none

/-- The report that a JSON value denotes. -/
def ofJson? : Json → Option RateReport
  | .object ms => ofMembers? ms
  | .array (t :: vs) => if isTypeName t then ofValues? vs else none
  | _ => none

/-- The report that a list of tokens denotes. -/
def ofTokens? (ts : List Json.Token) : Option RateReport :=
  if ts.all Json.Token.isSound && decide (Json.deepest 0 ts ≤ maxDepth) then
    (Json.ofTokens? ts).bind ofJson?
  else none

/-- The report that a text denotes. -/
def ofText? (text : String) : Option RateReport := (Json.tokens? text.toList).bind ofTokens?

end MediaSender.RateReport
