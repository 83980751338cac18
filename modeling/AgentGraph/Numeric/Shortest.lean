import AgentGraph.Numeric.Binary

/-!
# The shortest decimal that reads back

A number is written with the fewest decimal digits that still round to it, and among those with the
digits nearest to it. `Shortest.digits` finds them: the reals that round to `m * 2 ^ q` form an
interval, closed when `m` is even, and for 1, 2, 3, … digits the two neighbours of the number on
that decimal grid are tried. If any point of a grid lies in the interval then one of the two
neighbours does, so the first grid with a hit has the fewest digits.

`NumberLayout` decides how the digits become text: which exponents are written positionally and what
the scientific form looks like.
-/

namespace AgentGraph.Numeric

/-- The decimal digits of a natural number, most significant first. -/
def decimalDigits (n : Nat) : List Char := Nat.toDigits 10 n

/-- A positive decimal `d.ddd * 10 ^ exponent`, given by its digits without the point. -/
structure Decimal where
  digits : List Char
  exponent : Int
deriving DecidableEq, Repr

namespace Shortest

/-- The greatest `e` with `10 ^ e ≤ num / den`, for positive `num` and `den`. -/
def floorLog10 (num den : Nat) : Int :=
  if den ≤ num then (decimalDigits (num / den)).length - 1
  else -((decimalDigits ((den + num - 1) / num - 1)).length : Int)

/-- `num / den` in units of `10 ^ k`, as a quotient of naturals. -/
def inUnits (num den : Nat) (k : Int) : Nat × Nat :=
  if k ≥ 0 then (num, den * Nat.pow 10 k.toNat) else (num * Nat.pow 10 (-k).toNat, den)

/-- The reals that round to a number: between `low / den` and `high / den`, ends included when
`closed`, around the number `value / den`. -/
structure Interval where
  low : Nat
  value : Nat
  high : Nat
  den : Nat
  closed : Bool

/-- The interval of a finite positive number `m * 2 ^ q`. Below a power of two the next smaller
number is only half as far away, except at the bottom of the range. -/
def intervalOf (w : Width) (m : Nat) (q : Int) : Interval :=
  let lowGap := if m = Nat.pow 2 w.fractionBits ∧ w.quantum < q then 1 else 2
  let (unit, den) := scale 1 1 (q - 2)
  { low := (4 * m - lowGap) * unit, value := 4 * m * unit, high := (4 * m + 2) * unit
    den, closed := m % 2 = 0 }

/-- Does `d * 10 ^ k` round to the number? -/
def Interval.contains (i : Interval) (d : Nat) (k : Int) : Bool :=
  let (low, den) := inUnits i.low i.den k
  let (high, _) := inUnits i.high i.den k
  if i.closed then low ≤ d * den ∧ d * den ≤ high else low < d * den ∧ d * den < high

/-- The grid point nearest to the number, among the two neighbours that round to it; an exact tie
goes to the even one. -/
def Interval.nearest? (i : Interval) (k : Int) : Option Nat :=
  let (value, den) := inUnits i.value i.den k
  let below := value / den
  let above := below + 1
  let twice := 2 * (value % den)
  match i.contains below k, i.contains above k with
  | true, true =>
    if twice < den then some below
    else if den < twice then some above
    else some (below + below % 2)
  | true, false => some below
  | false, true => some above
  | false, false => none

/-- Try grids with `tried + 1`, `tried + 2`, … digits. -/
def search (i : Interval) (top : Int) : (left tried : Nat) → Nat × Int
  | 0, _ => (i.value / i.den, 0)
  | left + 1, tried =>
    match i.nearest? (top - tried) with
    | some d => (d, top - tried)
    | none => search i top left (tried + 1)

/-- Digits enough to tell any two neighbours apart. -/
def maxDigits : Width → Nat
  | .single => 9
  | .double => 17

/-- The shortest decimal of the finite positive number `m * 2 ^ q`. -/
def digits (w : Width) (m : Nat) (q : Int) : Decimal :=
  let i := intervalOf w m q
  let (d, k) := search i (floorLog10 i.value i.den) (maxDigits w) 0
  let all := decimalDigits d
  let kept := (all.reverse.dropWhile (· = '0')).reverse
  ⟨kept, k + (all.length - 1 : Nat)⟩

end Shortest

/-- How a decimal is laid out: positionally while its exponent lies between `least` and `greatest`,
scientifically otherwise. -/
structure NumberLayout where
  least : Int
  greatest : Int
deriving DecidableEq, Repr

namespace NumberLayout

/-- 32-bit numbers are positional from `10 ^ -6` to below `10 ^ 13`, 64-bit ones from `10 ^ -5` to
below `10 ^ 16`. -/
def ofWidth : Width → NumberLayout
  | .single => ⟨-6, 12⟩
  | .double => ⟨-5, 15⟩

/-- Digits with a decimal point, and always at least one digit on either side of it. -/
def positional (d : Decimal) : List Char :=
  if d.exponent < 0 then
    '0' :: '.' :: (List.replicate (-d.exponent - 1).toNat '0' ++ d.digits)
  else
    let whole := d.exponent.toNat + 1
    let padded := d.digits ++ List.replicate (whole - d.digits.length) '0'
    let fraction := padded.drop whole
    padded.take whole ++ '.' :: (if fraction.isEmpty then ['0'] else fraction)

/-- One digit before the point, no point without a fraction, and a signed exponent. -/
def scientific (d : Decimal) : List Char :=
  let mantissa := match d.digits with
    | [] => []
    | [c] => [c]
    | c :: rest => c :: '.' :: rest
  let sign := if d.exponent < 0 then '-' else '+'
  mantissa ++ 'e' :: sign :: decimalDigits d.exponent.natAbs

def write (layout : NumberLayout) (d : Decimal) : List Char :=
  if layout.least ≤ d.exponent ∧ d.exponent ≤ layout.greatest then positional d else scientific d

end NumberLayout

/-- The text of a finite number; `none` for the others, which have no decimal form. -/
def Binary.decimal? {w : Width} (x : Binary w) : Option String :=
  match x.parts with
  | .finite s m q =>
    let sign := if s then ['-'] else []
    let body := if m = 0 then ['0', '.', '0']
      else (NumberLayout.ofWidth w).write (Shortest.digits w m q)
    some (String.ofList (sign ++ body))
  | _ => none

end AgentGraph.Numeric
