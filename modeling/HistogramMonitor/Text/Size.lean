import HistogramMonitor.Decimal

/-!
# Sizes in binary units

A byte count for a reader: the largest unit of 1024 that does not exceed it, one decimal place, and no
`.0`. The exponent is read off the quotient of two logarithms and the mantissa is a power of 1024, so a
count just below a unit is rounded up to `1024` of the smaller one.
-/

namespace HistogramMonitor.Text

/-- The units, each 1024 times the one before. -/
def binaryUnits : List String := ["B", "KiB", "MiB", "GiB", "TiB", "PiB", "EiB"]

/-- A text without a final `.0`. -/
def dropPointZero (s : String) : String :=
  match s.toList.reverse with
  | '0' :: '.' :: rest => String.ofList rest.reverse
  | _ => s

/-- A byte count in binary units. -/
def binarySize (n : Nat) : String :=
  if n = 0 then "0 B"
  else
    let base := Float.log10 (Float.ofNat n) / Float.log10 1024
    let unit := base.floor
    let mantissa := Double.ofFloat (Float.pow 1024 (base - unit))
    dropPointZero mantissa.tenths ++ " " ++ binaryUnits.getD unit.toUInt64.toNat "YiB"

end HistogramMonitor.Text
