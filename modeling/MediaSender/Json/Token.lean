import MediaSender.Text.Decimal

/-! # Tokens of JSON

* **Blanks** are the space, the tab and the two line ends.
* **Numbers** are kept as written: the digits before the point, those after it, and the exponent.
* **Strings** are decoded; one whose escapes are half a surrogate pair denotes no text, and its
  token holds none. -/

namespace MediaSender.Json

/-- A number as written. -/
structure NumberText where
  negative : Bool := false
  whole : List Char
  fraction : List Char := []
  hasFraction : Bool := false
  exponent : Option (Bool × List Char) := none
deriving DecidableEq, Repr

/-- A token. -/
inductive Token where
  | openArray
  | closeArray
  | openObject
  | closeObject
  | comma
  | colon
  | null
  | boolean (b : Bool)
  | number (n : NumberText)
  | string (s : Option String)
deriving DecidableEq, Repr

/-- Whether a character may stand between tokens. -/
def isBlank (c : Char) : Bool := c == ' ' || c == '\t' || c == '\n' || c == '\r'

/-! ### Strings -/

/-- A part of a string as written: a character, or a 16-bit code unit by its number. -/
inductive StringPart where
  | char (c : Char)
  | unit (n : Nat)
deriving DecidableEq, Repr

/-- The value of a hexadecimal digit. -/
def hexDigit? (c : Char) : Option Nat :=
  if c.isDigit then some (c.toNat - '0'.toNat)
  else if 'a' ≤ c ∧ c ≤ 'f' then some (c.toNat - 'a'.toNat + 10)
  else if 'A' ≤ c ∧ c ≤ 'F' then some (c.toNat - 'A'.toNat + 10)
  else none

/-- The value of four hexadecimal digits. -/
def codeUnit? (a b c d : Char) : Option Nat := do
  return (((← hexDigit? a) * 16 + (← hexDigit? b)) * 16 + (← hexDigit? c)) * 16 + (← hexDigit? d)

/-- The character that a one-letter escape stands for. -/
def escaped? : Char → Option Char
  | '"' => some '"'
  | '\\' => some '\\'
  | '/' => some '/'
  | 'b' => some '\x08'
  | 'f' => some '\x0c'
  | 'n' => some '\n'
  | 'r' => some '\r'
  | 't' => some '\t'
  | _ => none

/-- The parts of a string up to its closing quote, and the text after it. -/
def stringParts? : List Char → Option (List StringPart × List Char)
  | [] => none
  | '"' :: cs => some ([], cs)
  | '\\' :: 'u' :: a :: b :: c :: d :: cs =>
    match codeUnit? a b c d, stringParts? cs with
    | some n, some (parts, rest) => some (.unit n :: parts, rest)
    | _, _ => none
  | '\\' :: e :: cs =>
    match escaped? e, stringParts? cs with
    | some c, some (parts, rest) => some (.char c :: parts, rest)
    | _, _ => none
  | c :: cs =>
    if c.toNat < 0x20 then none
    else (stringParts? cs).map fun (parts, rest) => (.char c :: parts, rest)

/-- Whether a code unit is the first of a pair. -/
def isLeading (n : Nat) : Bool := 0xD800 ≤ n && n < 0xDC00

/-- Whether a code unit is the second of a pair. -/
def isTrailing (n : Nat) : Bool := 0xDC00 ≤ n && n < 0xE000

/-- The character of a pair of code units. -/
def pairChar (lead trail : Nat) : Char :=
  Char.ofNat (0x10000 + (lead - 0xD800) * 0x400 + (trail - 0xDC00))

/-- The characters of a string, if every code unit of a pair has its partner. -/
def chars? : List StringPart → Option (List Char)
  | [] => some []
  | .char c :: parts => (chars? parts).map (c :: ·)
  | .unit n :: parts =>
    if isLeading n then
      match parts with
      | .unit t :: parts => if isTrailing t then (chars? parts).map (pairChar n t :: ·) else none
      | _ => none
    else if isTrailing n then none
    else (chars? parts).map (Char.ofNat n :: ·)

/-! ### Numbers -/

/-- The fraction of a number: nothing, or a point and digits; and the text after it. -/
def fraction? : List Char → Option (Option (List Char) × List Char)
  | '.' :: cs =>
    if (cs.takeWhile Char.isDigit).isEmpty then none
    else some (some (cs.takeWhile Char.isDigit), cs.dropWhile Char.isDigit)
  | cs => some (none, cs)

/-- The exponent of a number: nothing, or a letter, a sign and digits; and the text after it. -/
def exponent? : List Char → Option (Option (Bool × List Char) × List Char)
  | [] => some (none, [])
  | c :: cs =>
    if c == 'e' || c == 'E' then
      let (negative, digits) := Text.Decimal.sign cs
      if (digits.takeWhile Char.isDigit).isEmpty then none
      else some (some (negative, digits.takeWhile Char.isDigit), digits.dropWhile Char.isDigit)
    else some (none, c :: cs)

/-- A number without its minus, and the text after it.  A zero in front stands alone. -/
def magnitude? (negative : Bool) (cs : List Char) : Option (NumberText × List Char) :=
  let whole := cs.takeWhile Char.isDigit
  if whole.isEmpty || (whole.head? == some '0' && whole != ['0']) then none
  else do
    let (fraction, cs) ← fraction? (cs.dropWhile Char.isDigit)
    let (exponent, cs) ← exponent? cs
    return ({ negative, whole, fraction := fraction.getD [], hasFraction := fraction.isSome,
              exponent }, cs)

/-! ### Tokens -/

/-- The token at the start of a text that starts with no blank, and the text after it. -/
def token? : List Char → Option (Token × List Char)
  | [] => none
  | '[' :: cs => some (.openArray, cs)
  | ']' :: cs => some (.closeArray, cs)
  | '\x7b' :: cs => some (.openObject, cs)
  | '\x7d' :: cs => some (.closeObject, cs)
  | ',' :: cs => some (.comma, cs)
  | ':' :: cs => some (.colon, cs)
  | 'n' :: 'u' :: 'l' :: 'l' :: cs => some (.null, cs)
  | 't' :: 'r' :: 'u' :: 'e' :: cs => some (.boolean true, cs)
  | 'f' :: 'a' :: 'l' :: 's' :: 'e' :: cs => some (.boolean false, cs)
  | '"' :: cs =>
    (stringParts? cs).map fun (parts, rest) => (.string ((chars? parts).map String.ofList), rest)
  | '-' :: cs => (magnitude? true cs).map fun (n, rest) => (.number n, rest)
  | cs => (magnitude? false cs).map fun (n, rest) => (.number n, rest)

/-- The tokens of a text, at most `fuel` of them. -/
def tokensWithin? : Nat → List Char → Option (List Token)
  | fuel, cs =>
    match cs.dropWhile isBlank with
    | [] => some []
    | cs =>
      match fuel with
      | 0 => none
      | fuel + 1 =>
        match token? cs with
        | none => none
        | some (t, rest) => (tokensWithin? fuel rest).map (t :: ·)

/-- The tokens of a text. -/
def tokens? (cs : List Char) : Option (List Token) := tokensWithin? cs.length cs

/-- How deep the brackets of a list of tokens nest, from depth `depth` on. -/
def deepest (depth : Nat) : List Token → Nat
  | [] => depth
  | .openArray :: ts | .openObject :: ts => max depth (deepest (depth + 1) ts)
  | .closeArray :: ts | .closeObject :: ts => max depth (deepest (depth - 1) ts)
  | _ :: ts => deepest depth ts

end MediaSender.Json
