import Mathlib.Algebra.Ring.Nat

/-!
# JSON values, pointers and semantic equality

The part of `workflow/condition.rs` that deals with JSON alone.  A number is
kept as its literal, as the engine's `serde_json` does with arbitrary
precision; an object is the list of its members in iteration order.

**Pointers.**  `JsonPointer.parse` decodes an authored RFC 6901 pointer once;
`JsonPointer.select` walks a value along the decoded tokens.

**Equality.**  `jsonSemanticallyEqual` compares numbers by value: both literals
are brought to a normal form of significant digits and a decimal exponent of
unbounded size (`NormalizedNumber`), with schoolbook arithmetic on digit lists.
-/

namespace ScherzoCloud.Workflow

/-- A JSON value. -/
inductive Json where
  | null
  | bool (value : Bool)
  | number (literal : String)
  | string (value : String)
  | array (items : List Json)
  | object (members : List (String × Json))
  deriving Inhabited

namespace Json

/-- The member of an object with the given name. -/
def member? (name : String) : List (String × Json) → Option Json
  | [] => none
  | m :: members => if m.1 = name then some m.2 else member? name members

end Json

/-- The error of `JsonPointer::parse`. -/
inductive InvalidJsonPointer where
  | invalid
  deriving DecidableEq

/-- A parsed JSON pointer: the authored text and its decoded tokens. -/
structure JsonPointer where
  authored : String
  tokens : List String
  deriving DecidableEq

/-- Undo the `~0` and `~1` escapes of one pointer token. -/
def decodePointerToken : List Char → Except InvalidJsonPointer (List Char)
  | [] => .ok []
  | c :: rest =>
    if c ≠ '~' then (decodePointerToken rest).map (c :: ·)
    else match rest with
      | [] => .error .invalid
      | escape :: rest' =>
        if escape = '0' then (decodePointerToken rest').map ('~' :: ·)
        else if escape = '1' then (decodePointerToken rest').map ('/' :: ·)
        else .error .invalid

/-- An array index: `0`, or decimal digits without a leading zero that fit in a
64-bit `usize`. -/
def parseArrayIndex (token : String) : Option Nat :=
  match token.toList with
  | ['0'] => some 0
  | first :: rest =>
    if first.isDigit && first ≠ '0' && rest.all Char.isDigit then
      let value := (first :: rest).foldl (fun n c => 10 * n + (c.toNat - '0'.toNat)) 0
      if value < 2 ^ 64 then some value else none
    else none
  | [] => none

namespace JsonPointer

/-- Parse an authored pointer: empty, or a slash before every token. -/
def parse (authored : String) : Except InvalidJsonPointer JsonPointer :=
  match authored.toList with
  | [] => .ok ⟨authored, []⟩
  | c :: rest =>
    if c = '/' then do
      let tokens ← (rest.splitOn '/').mapM decodePointerToken
      .ok ⟨authored, tokens.map String.ofList⟩
    else .error .invalid

/-- One selection step. -/
def selectToken (token : String) : Json → Option Json
  | .object members => Json.member? token members
  | .array items => (parseArrayIndex token).bind (fun index => items[index]?)
  | .null | .bool _ | .number _ | .string _ => none

/-- Walk along decoded tokens; `none` is `JsonSelection::Missing`. -/
def selectTokens : List String → Json → Option Json
  | [], value => some value
  | token :: tokens, value => (selectToken token value).bind (selectTokens tokens)

/-- The selected part of a value, or `none` when it is missing. -/
def select (pointer : JsonPointer) (value : Json) : Option Json :=
  selectTokens pointer.tokens value

end JsonPointer

/-- A signed decimal integer; digits of the magnitude, most significant first. -/
structure SignedDecimal where
  negative : Bool
  magnitude : List Nat
  deriving DecidableEq

namespace SignedDecimal

def zero : SignedDecimal := ⟨false, [0]⟩

/-- The value of a decimal digit character. -/
def digitValue (c : Char) : Nat := c.toNat - '0'.toNat

/-- Decode an explicit exponent with an optional sign. -/
def parse (value : List Char) : Option SignedDecimal :=
  let signed : Bool × List Char :=
    match value with
    | '-' :: digits => (true, digits)
    | '+' :: digits => (false, digits)
    | digits => (false, digits)
  if signed.2.isEmpty || !signed.2.all Char.isDigit then none
  else match signed.2.dropWhile (· = '0') with
    | [] => some zero
    | digits => some ⟨signed.1, digits.map digitValue⟩

/-- Longer magnitudes are greater; equal lengths compare lexicographically. -/
def compareMagnitudes (left right : List Nat) : Ordering :=
  if left.length < right.length then .lt
  else if right.length < left.length then .gt
  else if left < right then .lt
  else if left = right then .eq
  else .gt

/-- Add a carry to a digit list, least significant digit first. -/
def addCarry : List Nat → Nat → List Nat
  | [], carry => if carry = 0 then [] else [carry % 10]
  | d :: digits, carry => (d + carry) % 10 :: addCarry digits ((d + carry) / 10)

/-- Addition of digit lists, least significant digit first. -/
def addDigits : List Nat → List Nat → Nat → List Nat
  | [], right, carry => addCarry right carry
  | l :: left, right, carry =>
    let sum := l + right.headD 0 + carry
    sum % 10 :: addDigits left right.tail (sum / 10)

def addMagnitudes (left right : List Nat) : List Nat :=
  (addDigits left.reverse right.reverse 0).reverse

/-- Subtraction of digit lists, least significant digit first. -/
def subtractDigits : List Nat → List Nat → Nat → List Nat
  | [], _, _ => []
  | l :: larger, smaller, borrow =>
    let taken := smaller.headD 0 + borrow
    if l < taken then (l + 10 - taken) :: subtractDigits larger smaller.tail 1
    else (l - taken) :: subtractDigits larger smaller.tail 0

/-- Drop leading zeroes, but keep a last digit. -/
def trimLeadingZeroes : List Nat → List Nat
  | [] => []
  | [d] => [d]
  | d :: e :: rest => if d = 0 then trimLeadingZeroes (e :: rest) else d :: e :: rest

def subtractMagnitudes (larger smaller : List Nat) : List Nat :=
  trimLeadingZeroes (subtractDigits larger.reverse smaller.reverse 0).reverse

def add (self other : SignedDecimal) : SignedDecimal :=
  if self.negative = other.negative then
    { self with magnitude := addMagnitudes self.magnitude other.magnitude }
  else match compareMagnitudes self.magnitude other.magnitude with
    | .gt => { self with magnitude := subtractMagnitudes self.magnitude other.magnitude }
    | .lt => ⟨other.negative, subtractMagnitudes other.magnitude self.magnitude⟩
    | .eq => zero

def addUnsigned (self : SignedDecimal) (value : Nat) (negative : Bool) : SignedDecimal :=
  if value = 0 then self
  else self.add ⟨negative, (Nat.toDigits 10 value).map digitValue⟩

end SignedDecimal

/-- A number literal as sign, significant digits and decimal exponent. -/
structure NormalizedNumber where
  negative : Bool
  significantDigits : List Char
  decimalExponent : SignedDecimal
  deriving DecidableEq

namespace NormalizedNumber

/-- Split a literal at its exponent marker. -/
def splitExponent (unsigned : List Char) : List Char × Option (List Char) :=
  match unsigned.span (fun c => c ≠ 'e' ∧ c ≠ 'E') with
  | (mantissa, []) => (mantissa, none)
  | (mantissa, _ :: exponent) => (mantissa, some exponent)

/-- Split a mantissa at its decimal point. -/
def splitFraction (mantissa : List Char) : List Char × List Char :=
  match mantissa.span (· ≠ '.') with
  | (integer, []) => (integer, [])
  | (integer, _ :: fraction) => (integer, fraction)

/-- Normalize a number literal. -/
def parse (number : String) : Option NormalizedNumber :=
  let signed : Bool × List Char :=
    match number.toList with
    | '-' :: unsigned => (true, unsigned)
    | unsigned => (false, unsigned)
  let (mantissa, explicitExponent) := splitExponent signed.2
  let (integer, fraction) := splitFraction mantissa
  if integer.isEmpty || !integer.all Char.isDigit || !fraction.all Char.isDigit then none
  else
    let digits := integer ++ fraction
    if digits.all (· = '0') then some ⟨false, ['0'], SignedDecimal.zero⟩
    else
      let trailingZeroes := (digits.reverse.takeWhile (· = '0')).length
      let significantDigits := (digits.take (digits.length - trailingZeroes)).dropWhile (· = '0')
      let exponent := match explicitExponent with
        | some exponent => SignedDecimal.parse exponent
        | none => some SignedDecimal.zero
      exponent.map (fun exponent =>
        ⟨signed.1, significantDigits,
          (exponent.addUnsigned trailingZeroes false).addUnsigned fraction.length true⟩)

end NormalizedNumber

/-- Two number literals denote the same number. -/
def numbersSemanticallyEqual (left right : String) : Bool :=
  match NormalizedNumber.parse left, NormalizedNumber.parse right with
  | some left, some right => left = right
  | _, _ => false

mutual

/-- Same shape, byte-equal strings, numerically equal numbers. -/
def jsonSemanticallyEqual : Json → Json → Bool
  | .null, .null => true
  | .bool left, .bool right => left = right
  | .number left, .number right => numbersSemanticallyEqual left right
  | .string left, .string right => left = right
  | .array left, .array right => itemsSemanticallyEqual left right
  | .object left, .object right =>
    left.length = right.length && membersSemanticallyEqual left right
  | _, _ => false
  termination_by structural left => left

/-- Item by item equality of arrays of the same length. -/
def itemsSemanticallyEqual : List Json → List Json → Bool
  | [], [] => true
  | left :: lefts, right :: rights =>
    jsonSemanticallyEqual left right && itemsSemanticallyEqual lefts rights
  | _, _ => false
  termination_by structural left => left

/-- Every member on the left has an equal member of its name on the right. -/
def membersSemanticallyEqual : List (String × Json) → List (String × Json) → Bool
  | [], _ => true
  | (name, left) :: lefts, rights =>
    (match Json.member? name rights with
      | some right => jsonSemanticallyEqual left right
      | none => false) &&
    membersSemanticallyEqual lefts rights
  termination_by structural left => left

end

end ScherzoCloud.Workflow
