import MediaSender.Json.Number

/-! # JSON values

A value is read from tokens by recursive descent (`ofTokens?`); what is left of the tokens must be
nothing.  Objects keep their members in order, repeated names included. -/

namespace MediaSender

/-- A JSON value. -/
inductive Json where
  | null
  | boolean (b : Bool)
  | number (n : Json.NumberText)
  | string (s : Option String)
  | array (items : List Json)
  | object (members : List (Option String × Json))

namespace Json

mutual

/-- The value at the start of a list of tokens, and the tokens after it. -/
def value? : Nat → List Token → Option (Json × List Token)
  | 0, _ => none
  | _ + 1, .null :: ts => some (.null, ts)
  | _ + 1, .boolean b :: ts => some (.boolean b, ts)
  | _ + 1, .number n :: ts => some (.number n, ts)
  | _ + 1, .string s :: ts => some (.string s, ts)
  | _ + 1, .openArray :: .closeArray :: ts => some (.array [], ts)
  | fuel + 1, .openArray :: ts =>
    match value? fuel ts with
    | none => none
    | some (v, ts) => (items? fuel ts).map fun (vs, ts) => (.array (v :: vs), ts)
  | _ + 1, .openObject :: .closeObject :: ts => some (.object [], ts)
  | fuel + 1, .openObject :: ts =>
    match member? fuel ts with
    | none => none
    | some (m, ts) => (members? fuel ts).map fun (ms, ts) => (.object (m :: ms), ts)
  | _ + 1, _ => none

/-- The further items of an array, up to its end. -/
def items? : Nat → List Token → Option (List Json × List Token)
  | 0, _ => none
  | _ + 1, .closeArray :: ts => some ([], ts)
  | fuel + 1, .comma :: ts =>
    match value? fuel ts with
    | none => none
    | some (v, ts) => (items? fuel ts).map fun (vs, ts) => (v :: vs, ts)
  | _ + 1, _ => none

/-- A member of an object. -/
def member? : Nat → List Token → Option ((Option String × Json) × List Token)
  | 0, _ => none
  | fuel + 1, .string s :: .colon :: ts => (value? fuel ts).map fun (v, ts) => ((s, v), ts)
  | _ + 1, _ => none

/-- The further members of an object, up to its end. -/
def members? : Nat → List Token → Option (List (Option String × Json) × List Token)
  | 0, _ => none
  | _ + 1, .closeObject :: ts => some ([], ts)
  | fuel + 1, .comma :: ts =>
    match member? fuel ts with
    | none => none
    | some (m, ts) => (members? fuel ts).map fun (ms, ts) => (m :: ms, ts)
  | _ + 1, _ => none

end

/-- The value that a list of tokens denotes. -/
def ofTokens? (ts : List Token) : Option Json :=
  match value? (ts.length + 1) ts with
  | some (v, []) => some v
  | _ => none

/-- The value that a text denotes. -/
def ofText? (text : String) : Option Json := (tokens? text.toList).bind ofTokens?

/-! ### Members -/

/-- The members of an object. -/
abbrev Members := List (Option String × Json)

/-- The values of the members with this name. -/
def Members.named (ms : Members) (name : String) : List Json :=
  (ms.filter (·.1 == some name)).map (·.2)

/-- The value of the only member with this name. -/
def Members.only? (ms : Members) (name : String) : Option Json :=
  match ms.named name with
  | [v] => some v
  | _ => none

/-! ### Scalars -/

/-- An integer between `lo` and `hi`. -/
def intWithin? (lo hi : Int) : Json → Option Int
  | .number n =>
    match n.value? with
    | some (.integer k) => if lo ≤ k ∧ k ≤ hi then some k else none
    | _ => none
  | _ => none

/-- An integer that fits 64 bits, the raw value of a quantity. -/
def word? (j : Json) : Option Int := intWithin? (-0x8000000000000000) 0x7fffffffffffffff j

/-- A float, or an integer as the float nearest to it. -/
def float? : Json → Option Float
  | .number n =>
    match n.value? with
    | some (.integer k) => some (Float.ofInt k)
    | some (.float x) => some x
    | none => none
  | _ => none

/-- A truth value. -/
def boolean? : Json → Option Bool
  | .boolean b => some b
  | _ => none

/-- A text. -/
def text? : Json → Option String
  | .string s => s
  | _ => none

end Json

end MediaSender
