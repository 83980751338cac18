/-!
# Binary floating-point numbers

Positions and temperatures are 32-bit floating-point numbers, and numbers held in JSON values may be
64-bit ones. A number is kept as its interchange bit pattern, so every pattern is a number and
equality of numbers is equality of patterns.

`Binary.parts` says what a pattern stands for. Going the other way there is one function,
`Binary.round`: it takes an exact non-negative fraction, scaled by a power of two, and gives the
nearest number, ties to the even significand. Every operation below computes its exact result in
integers and rounds once, so no operation depends on the machine.
-/

namespace AgentGraph.Numeric

/-- The two widths in use, with 24 and 53 significant bits. -/
inductive Width where
  | single
  | double
deriving DecidableEq, Repr

namespace Width

/-- Stored bits of the significand, without the leading one. -/
def fractionBits : Width → Nat
  | single => 23
  | double => 52

/-- Bits of the biased exponent. -/
def exponentBits : Width → Nat
  | single => 8
  | double => 11

/-- All bits: sign, exponent, fraction. -/
def size : Width → Nat
  | single => 32
  | double => 64

/-- The exponent of the least positive number, which is `2 ^ quantum`. -/
def quantum : Width → Int
  | single => -149
  | double => -1074

/-- The magnitude bits of infinity: all exponent bits set and an empty fraction. -/
def infinityBits (w : Width) : Nat := (Nat.pow 2 w.exponentBits - 1) * Nat.pow 2 w.fractionBits

end Width

/-- A floating-point number of width `w`, as its bit pattern. -/
structure Binary (w : Width) where
  bits : BitVec w.size
deriving DecidableEq, Repr

/-- A 32-bit number. -/
abbrev Single := Binary .single

/-- A 64-bit number. -/
abbrev Double := Binary .double

/-- What a bit pattern stands for; `finite s m q` is `m * 2 ^ q`, negated when `s`. -/
inductive Parts where
  | finite (negative : Bool) (significand : Nat) (exponent : Int)
  | infinite (negative : Bool)
  | nan
deriving DecidableEq, Repr

/-- `num / den` rounded to the nearest integer, ties to the even one. -/
def roundHalfEven (num den : Nat) : Nat :=
  let floor := num / den
  let twice := 2 * (num % den)
  if twice < den then floor
  else if den < twice then floor + 1
  else floor + floor % 2

/-- The fraction `num / den * 2 ^ e` as a quotient of two naturals. -/
def scale (num den : Nat) (e : Int) : Nat × Nat :=
  if e ≥ 0 then (num * Nat.pow 2 e.toNat, den) else (num, den * Nat.pow 2 (-e).toNat)

/-- The greatest `e` with `2 ^ e ≤ num / den`, for positive `num` and `den`. -/
def floorLog2 (num den : Nat) : Int :=
  let guess : Int := (Nat.log2 num : Int) - (Nat.log2 den : Int)
  let (n, d) := scale num den (-guess)
  if d ≤ n then guess else guess - 1

namespace Binary

variable {w : Width}

/-- The sign bit is the most significant one. -/
def isNegative (x : Binary w) : Bool := x.bits.msb

/-- The pattern with the sign bit cleared. -/
def magnitude (x : Binary w) : Nat := x.bits.toNat % Nat.pow 2 (w.size - 1)

/-- Decode the three fields of a pattern. An empty exponent field marks a number below the normal
range, whose significand has no implicit leading one. -/
def parts (x : Binary w) : Parts :=
  let fraction := x.magnitude % Nat.pow 2 w.fractionBits
  let biased := x.magnitude / Nat.pow 2 w.fractionBits
  if biased = Nat.pow 2 w.exponentBits - 1 then
    if fraction = 0 then .infinite x.isNegative else .nan
  else if biased = 0 then .finite x.isNegative fraction w.quantum
  else .finite x.isNegative (Nat.pow 2 w.fractionBits + fraction) (w.quantum + (biased - 1 : Nat))

/-- The number with the given sign and magnitude bits. -/
def ofMagnitude (negative : Bool) (magnitude : Nat) : Binary w :=
  ⟨BitVec.ofNat w.size (if negative then Nat.pow 2 (w.size - 1) + magnitude else magnitude)⟩

def zero : Binary w := ofMagnitude false 0

def infinity (negative : Bool) : Binary w := ofMagnitude negative w.infinityBits

/-- The quiet not-a-number. -/
def nan : Binary w := ofMagnitude false (w.infinityBits + Nat.pow 2 (w.fractionBits - 1))

/-- The number nearest to `num / den * 2 ^ e`, ties to the even significand, and infinity beyond the
range. With the unit in the last place `2 ^ q`, the magnitude bits are the rounded significand plus
`q - quantum` steps of the exponent field; a significand that rounds up to the next power of two
carries into that field by itself. -/
def round (negative : Bool) (num den : Nat) (e : Int) : Binary w :=
  if num = 0 then ofMagnitude negative 0
  else
    let top := floorLog2 num den + e
    let q := max w.quantum (top - w.fractionBits)
    let (n, d) := scale num den (e - q)
    let significand := roundHalfEven n d
    let magnitude := (q - w.quantum).toNat * Nat.pow 2 w.fractionBits + significand
    ofMagnitude negative (min magnitude w.infinityBits)

/-- The number nearest to a natural number. -/
def ofNat (n : Nat) : Binary w := round false n 1 0

/-- The number nearest to an integer. -/
def ofInt (i : Int) : Binary w := round (decide (i < 0)) i.natAbs 1 0

/-- Finite numbers are those JSON can hold. -/
def isFinite (x : Binary w) : Bool :=
  match x.parts with
  | .finite .. => true
  | _ => false

def isInfinite (x : Binary w) : Bool :=
  match x.parts with
  | .infinite _ => true
  | _ => false

def isZero (x : Binary w) : Bool := x.magnitude = 0

/-- The same number with the other sign. -/
def neg (x : Binary w) : Binary w := ofMagnitude (!x.isNegative) x.magnitude

def abs (x : Binary w) : Binary w := ofMagnitude false x.magnitude

/-- The nearest number of another width. -/
def convert {v : Width} (x : Binary w) : Binary v :=
  match x.parts with
  | .finite s m q => round s m 1 q
  | .infinite s => infinity s
  | .nan => nan

/-- The exact value as a multiple of the least positive number; the infinities lie beyond every
finite number, and not-a-number has no place in the order. -/
def rank (x : Binary w) : Option Int :=
  let signed (s : Bool) (n : Nat) : Int := if s then -(n : Int) else n
  match x.parts with
  | .finite s m q => some (signed s (m * Nat.pow 2 (q - w.quantum).toNat))
  | .infinite s => some (signed s (Nat.pow 2 (Nat.pow 2 w.exponentBits + w.fractionBits)))
  | .nan => none

/-- Numeric order; false as soon as one side is not a number. -/
def lt (x y : Binary w) : Bool :=
  match x.rank, y.rank with
  | some a, some b => a < b
  | _, _ => false

/-- Numeric equality: the two zeros are equal, and not-a-number equals nothing. -/
def numEq (x y : Binary w) : Bool :=
  match x.rank, y.rank with
  | some a, some b => a = b
  | _, _ => false

/-- The rounded difference. -/
def sub (x y : Binary w) : Binary w :=
  match x.parts, y.parts with
  | .nan, _ => nan
  | _, .nan => nan
  | .infinite s, .infinite t => if s = t then nan else infinity s
  | .infinite s, _ => infinity s
  | _, .infinite t => infinity (!t)
  | .finite .., .finite .. =>
    let difference := x.rank.getD 0 - y.rank.getD 0
    round (decide (difference < 0)) difference.natAbs 1 w.quantum

/-- The rounded sum. -/
def add (x y : Binary w) : Binary w := x.sub y.neg

/-- The rounded product of two finite numbers, with the sign of the first. -/
def scaleUp (x y : Binary w) : Binary w :=
  match x.parts, y.parts with
  | .finite s m q, .finite _ n r => round s (m * n) 1 (q + r)
  | _, _ => x

/-- The rounded quotient of two finite numbers, with the sign of the first. -/
def scaleDown (x y : Binary w) : Binary w :=
  match x.parts, y.parts with
  | .finite s m q, .finite _ n r => round s m n (q - r)
  | _, _ => x

end Binary

/-- The distance between 1 and the next 64-bit number, `2 ^ -52`. -/
def Double.epsilon : Double := Binary.round false 1 1 (-52)

end AgentGraph.Numeric
