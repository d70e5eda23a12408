import BuildQueue.Binary64

/-!
# Shortest decimals of binary numbers

The decimal text of a binary64 number has the fewest digits that read back as the same number,
and of those the digits nearest to it.
-/

namespace BuildQueue
namespace Binary64

/-- A decimal magnitude `digits · 10 ^ power`. -/
structure Decimal where
  digits : Nat
  power : Int
deriving DecidableEq, Repr

/-- The reals that round to a finite positive number, with one common denominator: the number
itself, the lower and the upper end, and whether the ends belong to it. -/
structure Interval where
  low : Nat
  centre : Nat
  high : Nat
  denominator : Nat
  closed : Bool

/-- The rounding interval of a number. Below a power of two the neighbour is at half the
distance. -/
def interval (x : Binary64) : Interval :=
  let significand := x.significand
  let narrow := significand == hiddenWeight && x.exponent != -1074
  let (unit, denominator) := timesPowerOfTwo 1 4 x.exponent
  { low := (4 * significand - if narrow then 1 else 2) * unit
    centre := 4 * significand * unit
    high := (4 * significand + 2) * unit
    denominator
    closed := significand % 2 == 0 }

/-- Whether `point / scale` lies in the interval, both being given over `scale · denominator`. -/
def Interval.holds (i : Interval) (point scale : Nat) : Bool :=
  let value := point * i.denominator
  if i.closed then i.low * scale ≤ value && value ≤ i.high * scale
  else i.low * scale < value && value < i.high * scale

/-- The multiple of `10 ^ power` in the interval that is nearest to the centre, if there is a
positive one. -/
def Interval.onGrid (i : Interval) (power : Int) : Option Decimal :=
  let step := if 0 ≤ power then Nat.pow 10 power.toNat else 1
  let scale := if 0 ≤ power then 1 else Nat.pow 10 (-power).toNat
  let below := i.centre * scale / (i.denominator * step)
  let distance (digits : Nat) : Nat :=
    let value := digits * step * i.denominator
    (value - i.centre * scale) + (i.centre * scale - value)
  let candidates := [below, below + 1].filter fun digits =>
    digits != 0 && i.holds (digits * step) scale
  match candidates with
  | [] => none
  | [digits] => some ⟨digits, power⟩
  | digits :: other :: _ =>
    some ⟨if distance other < distance digits then other else digits, power⟩

/-- The shortest decimal of a magnitude: the one on the coarsest decimal grid that meets the
rounding interval. -/
def shortest (x : Binary64) : Decimal :=
  if x.isZero then ⟨0, 0⟩
  else
    ((List.range 680).findSome? fun (step : Nat) => x.interval.onGrid (309 - step)).getD ⟨0, 0⟩

/-- The text of a magnitude: positional while the point stands at most sixteen digits after the
first digit and at most four zeros before it, always with a fraction or an exponent. -/
def Decimal.render (d : Decimal) : String :=
  let digits := toString d.digits
  let count := digits.length
  let point : Int := count + d.power
  if d.digits == 0 then "0.0"
  else if 0 ≤ d.power && point ≤ 16 then
    digits ++ String.ofList (List.replicate d.power.toNat '0') ++ ".0"
  else if 0 < point && point ≤ 16 then
    (digits.take point.toNat).toString ++ "." ++ (digits.drop point.toNat).toString
  else if -5 < point && point ≤ 0 then
    "0." ++ String.ofList (List.replicate (-point).toNat '0') ++ digits
  else
    let fraction := if count == 1 then "" else "." ++ (digits.drop 1).toString
    (digits.take 1).toString ++ fraction ++ "e" ++ toString (point - 1)

/-- The text of a finite number. -/
def render (x : Binary64) : String :=
  (if x.isNegative then "-" else "") ++ x.shortest.render

end Binary64
end BuildQueue
