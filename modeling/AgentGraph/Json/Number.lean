import AgentGraph.Json.Basic
import AgentGraph.Json.Reader
import AgentGraph.Numeric.Decimal

/-!
# Reading numbers

Whole numbers of at most 64 bits are read exactly. Every other number is computed from a significand
of at most 64 bits and a power of ten: the significand is rounded to 64-bit floating point, and then
multiplied or divided by the power, which rounds once more. Digits of a fraction that no longer fit
into the significand are dropped. So the result may differ from the nearest number in the last bit.
-/

namespace AgentGraph.Json.Reader

open Numeric

/-- The greatest significand. -/
def maxSignificand : Nat := Nat.pow 2 64 - 1

/-- The greatest exponent that is computed with. -/
def maxExponent : Nat := Nat.pow 2 31 - 1

/-- The greatest power of ten below infinity. -/
def maxPower : Nat := 308

/-- The next character if it is a digit, not consumed. -/
def peekDigit? : Reader (Option Nat) := do
  match ← peek? with
  | some c => if c.isDigit then return some (digitValue c) else return none
  | none => return none

/-- Consume digits, and count them. -/
def countDigits : Reader Nat := do
  let (digits, rest) := spanDigits (← unread)
  set rest
  return digits.length

/-- Divide by `10 ^ 308` until the exponent is in range or nothing is left; `fuel` bounds the
steps. -/
def shrink : (fuel : Nat) → Double → (exponent : Int) → Double × Int
  | 0, x, e => (x, e)
  | fuel + 1, x, e =>
    if e < -(maxPower : Int) ∧ ¬ x.isZero then
      shrink fuel (x.scaleDown (.ofNat (Nat.pow 10 maxPower))) (e + maxPower)
    else (x, e)

/-- Put a significand and a power of ten together. -/
def assemble (positive : Bool) (significand : Nat) (exponent : Int) : Reader Double := do
  let x : Double := .ofNat significand
  let (x, exponent) := shrink 4 x exponent
  let magnitude : Double ←
    if exponent.natAbs ≤ maxPower then
      if exponent ≥ 0 then
        let y := x.scaleUp (.ofNat (Nat.pow 10 exponent.natAbs))
        if y.isInfinite then failHere .numberTooLarge else pure y
      else pure (x.scaleDown (.ofNat (Nat.pow 10 exponent.natAbs)))
    else if x.isZero then pure x
    else failHere .numberTooLarge
  return if positive then magnitude else magnitude.neg

/-- An exponent with too many digits: infinity is refused, zero is not. -/
def hugeExponent (positive : Bool) (significand : Nat) (positiveExponent : Bool) :
    Reader Double := do
  if significand ≠ 0 ∧ positiveExponent then failHere .numberTooLarge
  else
    let _ ← countDigits
    return .ofMagnitude (!positive) 0

/-- Read the digits of an exponent after the first one. -/
def exponentRest (positive : Bool) (significand : Nat) (start : Int) (positiveExponent : Bool) :
    (fuel : Nat) → (exponent : Nat) → Reader Double
  | 0, _ => failHere .badNumber
  | fuel + 1, exponent => do
    match ← peekDigit? with
    | none =>
      let e : Int := if positiveExponent then start + exponent else start - exponent
      assemble positive significand e
    | some digit =>
      skip
      if exponent * 10 + digit > maxExponent then hugeExponent positive significand positiveExponent
      else exponentRest positive significand start positiveExponent fuel (exponent * 10 + digit)

/-- Read the digits of an exponent. -/
def exponentDigits (positive : Bool) (significand : Nat) (start : Int) (positiveExponent : Bool) :
    Reader Double := do
  match ← next? with
  | none => failHere .endInValue
  | some c =>
    if c.isDigit then
      exponentRest positive significand start positiveExponent ((← unread).length + 1)
        (digitValue c)
    else failHere .badNumber

/-- Read an exponent, its letter being next. -/
def exponentPart (positive : Bool) (significand : Nat) (start : Int) : Reader Double := do
  skip
  let positiveExponent ← match ← peek? with
    | some '+' => do
      skip
      pure true
    | some '-' => do
      skip
      pure false
    | _ => pure true
  exponentDigits positive significand start positiveExponent

/-- After all digits: an exponent, or the end of the number. -/
def afterDigits (positive : Bool) (significand : Nat) (exponent : Int) : Reader Double := do
  match ← peek? with
  | some 'e' | some 'E' => exponentPart positive significand exponent
  | _ => assemble positive significand exponent

/-- Read the digits of a fraction. Each one that fits joins the significand and lowers the exponent;
from the first that does not fit, digits are dropped. -/
def fractionRest (positive : Bool) (start : Int) :
    (fuel : Nat) → (significand : Nat) → (read : Nat) → Reader Double
  | 0, _, _ => failHere .badNumber
  | fuel + 1, significand, read => do
    match ← peekDigit? with
    | some digit =>
      if significand * 10 + digit > maxSignificand then
        let _ ← countDigits
        afterDigits positive significand (start - read)
      else
        skip
        fractionRest positive start fuel (significand * 10 + digit) (read + 1)
    | none =>
      if read = 0 then
        match ← peek? with
        | some _ => failAtNext .badNumber
        | none => failAtNext .endInValue
      else afterDigits positive significand (start - read)

/-- Read a fraction, its point being next. -/
def fractionPart (positive : Bool) (significand : Nat) (start : Int) : Reader Double := do
  skip
  fractionRest positive start ((← unread).length + 1) significand 0

/-- A whole number, or a fraction or exponent after it. A negative number below the 64-bit range and
negative zero are floating-point numbers. -/
def afterWhole (positive : Bool) (significand : Nat) : Reader Number := do
  match ← peek? with
  | some '.' => return .double (← fractionPart positive significand 0)
  | some 'e' | some 'E' => return .double (← exponentPart positive significand 0)
  | _ =>
    if positive then return .whole significand
    else if significand = 0 ∨ Nat.pow 2 63 < significand then
      return .double (Binary.ofNat significand).neg
    else return .whole (-significand)

/-- Further digits of a whole number too long for the significand only raise the exponent. -/
def longWhole (positive : Bool) (significand : Nat) : Reader Number := do
  let exponent ← countDigits
  match ← peek? with
  | some '.' => return .double (← fractionPart positive significand exponent)
  | _ => return .double (← afterDigits positive significand exponent)

/-- Read the digits of a whole number after the first one. -/
def wholeRest (positive : Bool) : (fuel : Nat) → (significand : Nat) → Reader Number
  | 0, _ => failHere .badNumber
  | fuel + 1, significand => do
    match ← peekDigit? with
    | none => afterWhole positive significand
    | some digit =>
      if significand * 10 + digit > maxSignificand then longWhole positive significand
      else
        skip
        wholeRest positive fuel (significand * 10 + digit)

/-- Read a number after its sign. A leading zero stands alone. -/
def unsignedNumber (positive : Bool) : Reader Number := do
  match ← next? with
  | none => failHere .endInValue
  | some '0' =>
    match ← peekDigit? with
    | some _ => failAtNext .badNumber
    | none => afterWhole positive 0
  | some c =>
    if c.isDigit then wholeRest positive ((← unread).length + 1) (digitValue c)
    else failHere .badNumber

/-- Read a number, its minus sign or first digit being next. -/
def number : Reader Number := do
  match ← peek? with
  | some '-' => do
    skip
    unsignedNumber false
  | _ => unsignedNumber true

/-- Does a number begin with this character? -/
def beginsNumber (c : Char) : Bool := c = '-' || c.isDigit

end AgentGraph.Json.Reader
