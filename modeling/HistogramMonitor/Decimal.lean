import HistogramMonitor.Floating

/-!
# Decimal text of a double

Two notations, both positional, never with an exponent:

* `Double.shortest`: the fewest digits that read back as the same double, and of those the nearest
  to it;
* `Double.tenths`: the exact value rounded to one decimal place, a tie going to the even digit.

A finite double is the rational `m * 2 ^ q`; everything is decided by comparing integers.
-/

namespace HistogramMonitor

/-! ## Digits on a grid -/

namespace Decimal

/-- The positional text of `n * 10 ^ k`. -/
def positional (n : Nat) (k : Int) : String :=
  match k with
  | .ofNat zeros => toString n ++ "".pushn '0' zeros
  | .negSucc places' =>
    let places := places' + 1
    let digits := (toString n).toList
    let padded := List.replicate (places + 1 - digits.length) '0' ++ digits
    let whole := padded.length - places
    String.ofList (padded.take whole ++ '.' :: padded.drop whole)

/-- The reals that read back as one double: `4 * center` is the double itself, `low` and `high` are
its ends, all three in units of `2 ^ shift / 2 ^ 1076`. -/
structure Neighbourhood where
  center : Nat
  low : Nat
  high : Nat
  /-- whether the ends themselves read back as the double -/
  closed : Bool
  shift : Nat

/-- The reals that round to a finite nonzero double. Below a power of two the next double is only
half as far away; a tie rounds to the even significand. -/
def Neighbourhood.of (x : Double) : Neighbourhood :=
  let m := x.significand
  { center := 4 * m
    low := if x.fraction = 0 ∧ 1 < x.exponent then 4 * m - 1 else 4 * m - 2
    high := 4 * m + 2
    closed := m % 2 == 0
    shift := x.power }

/-- The factors that bring the neighbourhood and the decimal grid of step `10 ^ k` onto one scale:
a point `n` of the grid becomes `n * step`, an end `e` becomes `e * unit`. -/
structure Scale where
  unit : Nat
  step : Nat

/-- One scale for both sides of a comparison. -/
def Scale.of (shift : Nat) (k : Int) : Scale :=
  { unit := Nat.pow 2 shift * Nat.pow 10 (-k).toNat
    step := Nat.pow 2 1076 * Nat.pow 10 k.toNat }

/-- Whether the grid point `n` reads back as the double. -/
def Neighbourhood.covers (h : Neighbourhood) (s : Scale) (n : Nat) : Bool :=
  if h.closed then decide (h.low * s.unit ≤ n * s.step) && decide (n * s.step ≤ h.high * s.unit)
  else decide (h.low * s.unit < n * s.step) && decide (n * s.step < h.high * s.unit)

/-- The point of the grid of step `10 ^ k` that reads back as the double, if there is one; of two,
the nearer, and of two equally near ones the larger. -/
def Neighbourhood.hit? (h : Neighbourhood) (k : Int) : Option Nat :=
  let s := Scale.of h.shift k
  let below := h.center * s.unit / s.step
  let rest := h.center * s.unit % s.step
  match h.covers s below, h.covers s (below + 1) with
  | true, true => some (if s.step ≤ 2 * rest then below + 1 else below)
  | true, false => some below
  | false, true => some (below + 1)
  | false, false => none

/-- The coarsest grid with a hit, tried from the step `10 ^ k` downwards. -/
def Neighbourhood.search (h : Neighbourhood) : Nat → Int → Nat × Int
  | 0, k => (0, k)
  | fuel + 1, k =>
    match h.hit? k with
    | some n => (n, k)
    | none => h.search fuel (k - 1)

/-- A power of ten above the double, at most two places too high. -/
def Neighbourhood.ceiling (h : Neighbourhood) : Int :=
  let num := h.center * Nat.pow 2 h.shift
  let den := Nat.pow 2 1076
  if den ≤ num then (toString (num / den)).length
  else 2 - ((toString (den / num)).length : Int)

end Decimal

/-! ## The range of a double -/

namespace Decimal

/-- Whether `mantissa * 10 ^ exponent` exceeds the range of a double; few digits decide it unless the
number lies close to the end of the range. -/
def exceedsDouble (mantissa : Nat) (exponent : Int) : Bool :=
  let top : Int := (toString mantissa).length + exponent
  if mantissa = 0 || top < 300 then false
  else if 310 < top then true
  else
    decide ((Nat.pow 2 1024 - Nat.pow 2 970) * Nat.pow 10 (-exponent).toNat
      ≤ mantissa * Nat.pow 10 exponent.toNat)

/-- A natural number as a double holds it, rounded to 53 binary digits. -/
def toDouble (n : Nat) : Nat :=
  let unit := Nat.pow 2 (n.log2 - 52)
  roundHalfEven n unit * unit

/-- Whether `mantissa * 10 ^ exponent` exceeds the range of a double when both factors are rounded to
doubles before they are multiplied. -/
def productExceedsDouble (mantissa : Nat) (exponent : Int) : Bool :=
  if mantissa = 0 || exponent < 0 then false
  else if 308 < exponent then true
  else
    decide (Nat.pow 2 1024 - Nat.pow 2 970
      ≤ toDouble mantissa * toDouble (Nat.pow 10 exponent.toNat))

end Decimal

/-! ## The two notations -/

namespace Double

/-- The text of a word that is not finite. -/
def special (x : Double) : String :=
  if x.isNaN then "NaN" else if x.negative then "-inf" else "inf"

/-- The fewest digits that read back. -/
def shortest (x : Double) : String :=
  if x.exponent = 2047 then x.special
  else
    let sign := if x.negative then "-" else ""
    if x.significand = 0 then sign ++ "0"
    else
      let h := Decimal.Neighbourhood.of x
      let (n, k) := h.search 24 h.ceiling
      sign ++ Decimal.positional n k

/-- The value rounded to one decimal place. -/
def tenths (x : Double) : String :=
  if x.exponent = 2047 then x.special
  else
    let sign := if x.negative then "-" else ""
    let n := roundHalfEven (10 * x.significand * Nat.pow 2 x.power) (Nat.pow 2 1074)
    sign ++ Decimal.positional n (-1)

end Double

end HistogramMonitor
