/-! # The shortest decimal of a binary64 number

A binary64 number stands for an interval of reals: those that round to it.  The
shortest decimal is the one with the fewest digits in that interval, and among
those the nearest to the number.  All arithmetic is on natural numbers: the
number and the ends of its interval are fractions over one denominator, and on
each decimal grid only the two neighbours of the number have to be looked at.
-/

namespace SerialBridge.Decimal

/-- A positive number and the ends of the interval that rounds to it, all over
one denominator. -/
structure Interval where
  /-- Lower end. -/
  low : Nat
  /-- The number itself. -/
  mid : Nat
  /-- Upper end. -/
  high : Nat
  /-- Common denominator. -/
  den : Nat
  /-- Whether the ends themselves round to the number. -/
  closed : Bool

/-- The interval of a positive finite binary64 number, given its bits. -/
def Interval.ofBits (bits : UInt64) : Interval :=
  let fraction := bits.toNat % (1 <<< 52)
  let field := (bits.toNat >>> 52) % (1 <<< 11)
  let m := if field = 0 then fraction else fraction + (1 <<< 52)
  let e := if field = 0 then 1 else field
  let below := if fraction = 0 ∧ 1 < field then 1 else 2
  let up := if 1077 ≤ e then 1 <<< (e - 1077) else 1
  let den := if 1077 ≤ e then 1 else 1 <<< (1077 - e)
  { low := (4 * m - below) * up, mid := 4 * m * up, high := (4 * m + 2) * up, den := den,
    closed := m % 2 = 0 }

/-- Whether the fraction `n / d` rounds to the number. -/
def Interval.contains (i : Interval) (n d : Nat) : Bool :=
  if i.closed then i.low * d ≤ n * i.den && n * i.den ≤ i.high * d
  else i.low * d < n * i.den && n * i.den < i.high * d

/-- The least exponent `k`, counted from `from_`, with `10 ^ k` times the
fraction at least one. -/
def scaleUp (num den : Nat) : Nat → Nat → Nat
  | 0, k => k
  | fuel + 1, k => if den ≤ num * Nat.pow 10 k then k else scaleUp num den fuel (k + 1)

/-- The power of ten at or below a positive fraction. -/
def magnitude (num den : Nat) : Int :=
  if den ≤ num then ((Nat.toDigits 10 (num / den)).length : Int) - 1
  else -(scaleUp num den 400 1 : Int)

/-- The better of the two neighbours of the number on the grid of `n` digits, as
a count of grid steps, if one of them rounds to the number. -/
def Interval.onGrid (i : Interval) (exponent : Int) (n : Nat) : Option (Nat × Int) :=
  let step : Int := exponent - (n : Int) + 1
  let up := if 0 ≤ step then Nat.pow 10 step.toNat else 1
  let down := if 0 ≤ step then 1 else Nat.pow 10 (-step).toNat
  let floor := i.mid * down / (i.den * up)
  let rest := i.mid * down % (i.den * up)
  let lower := i.contains (floor * up) down
  let upper := i.contains ((floor + 1) * up) down
  let nearLower := 2 * rest < i.den * up || (2 * rest == i.den * up && floor % 2 == 0)
  if lower && (nearLower || !upper) then some (floor, step)
  else if upper then some (floor + 1, step)
  else none

/-- The shortest decimal of a positive finite number: its digits, and the power
of ten of the first one. -/
def shortest (bits : UInt64) : List Char × Int :=
  let i := Interval.ofBits bits
  let exponent := magnitude i.mid i.den
  match (List.range 17).findSome? fun n => i.onGrid exponent (n + 1) with
  | none => (['0'], 0)
  | some (count, step) =>
    let digits := Nat.toDigits 10 count
    let kept := (digits.reverse.dropWhile (· == '0')).reverse
    (kept, step + digits.length - 1)

/-- Where positional notation ends: numbers with a first digit at `10 ^ -5` up to
`10 ^ 15` are written out, the others with an exponent. -/
def isPositional (exponent : Int) : Bool :=
  -5 ≤ exponent && exponent ≤ 15

/-- An exponent with its sign and at least two digits. -/
def exponentText (exponent : Int) : List Char :=
  let digits := Nat.toDigits 10 exponent.natAbs
  (if exponent < 0 then '-' else '+') :: (if digits.length < 2 then '0' :: digits else digits)

/-- Digits laid out with the first one at a power of ten; a whole number keeps
one zero after the point. -/
def layout (digits : List Char) (exponent : Int) : List Char :=
  if isPositional exponent then
    if exponent < 0 then
      '0' :: '.' :: List.replicate (exponent.natAbs - 1) '0' ++ digits
    else
      let whole := exponent.toNat + 1
      let padded := digits ++ List.replicate (whole - digits.length) '0'
      let rest := padded.drop whole
      padded.take whole ++ '.' :: (if rest.isEmpty then ['0'] else rest)
  else
    match digits with
    | [d] => d :: 'e' :: exponentText exponent
    | d :: rest => d :: '.' :: rest ++ 'e' :: exponentText exponent
    | [] => []

/-- The text of a finite binary64 number, given its bits. -/
def ofBits (bits : UInt64) : String :=
  let sign := if bits.toNat >>> 63 = 1 then ['-'] else []
  let size := UInt64.ofNat (bits.toNat % (1 <<< 63))
  if size = 0 then String.ofList (sign ++ ['0', '.', '0'])
  else
    let (digits, exponent) := shortest size
    String.ofList (sign ++ layout digits exponent)

end SerialBridge.Decimal
