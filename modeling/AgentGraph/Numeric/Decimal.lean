import AgentGraph.Numeric.Binary

/-!
# Reading a decimal

`Double.ofText?` reads a whole text as a number: an optional sign, then digits with an optional
fraction and exponent, or one of the words `inf`, `infinity` and `nan` in any letter case. At least
one digit must stand before or after the point. The result is the number nearest to the decimal
written, whatever its length.
-/

namespace AgentGraph.Numeric

/-- The value of a decimal digit. -/
def digitValue (c : Char) : Nat := c.toNat - '0'.toNat

/-- The natural number that a list of digits spells. -/
def digitsValue (digits : List Char) : Nat :=
  digits.foldl (fun n c => 10 * n + digitValue c) 0

/-- Split off the leading decimal digits. -/
def spanDigits (cs : List Char) : List Char × List Char :=
  (cs.takeWhile Char.isDigit, cs.dropWhile Char.isDigit)

namespace Double

/-- Beyond these many digits before the point a decimal is infinite, and beyond as many zeros after
it, zero. -/
def decimalRange : Int := 400

/-- The number nearest to `significand * 10 ^ exponent`. The magnitude is looked at first, so that
an absurd exponent is never raised to. -/
def ofScientific (negative : Bool) (significand : Nat) (exponent : Int) : Double :=
  if significand = 0 then .ofMagnitude negative 0
  else
    let length : Int := (Nat.toDigits 10 significand).length
    if length + exponent > decimalRange then .infinity negative
    else if length + exponent < -decimalRange then .ofMagnitude negative 0
    else if exponent ≥ 0 then .round negative (significand * Nat.pow 10 exponent.toNat) 1 0
    else .round negative significand (Nat.pow 10 (-exponent).toNat) 0

/-- Read the exponent part, which must use up the text. -/
def exponentOf? : List Char → Option Int
  | [] => some 0
  | c :: rest =>
    if c ≠ 'e' ∧ c ≠ 'E' then none
    else
      let (negative, digits) := match rest with
        | '-' :: ds => (true, ds)
        | '+' :: ds => (false, ds)
        | ds => (false, ds)
      if digits.isEmpty ∨ ¬ digits.all Char.isDigit then none
      else some (if negative then -(digitsValue digits : Int) else digitsValue digits)

/-- Read an unsigned decimal or one of the special words. -/
def unsignedOf? (negative : Bool) (cs : List Char) : Option Double :=
  let word := String.ofList (cs.map Char.toLower)
  if word = "inf" ∨ word = "infinity" then some (.infinity negative)
  else if word = "nan" then some .nan
  else
    let (whole, rest) := spanDigits cs
    let (fraction, rest) := match rest with
      | '.' :: rest => spanDigits rest
      | rest => ([], rest)
    if whole.isEmpty ∧ fraction.isEmpty then none
    else (exponentOf? rest).map fun e =>
      ofScientific negative (digitsValue (whole ++ fraction)) (e - fraction.length)

/-- Read a whole text as a number. -/
def ofText? (s : String) : Option Double :=
  match s.toList with
  | '-' :: cs => unsignedOf? true cs
  | '+' :: cs => unsignedOf? false cs
  | cs => unsignedOf? false cs

end Double

end AgentGraph.Numeric
