import HistogramMonitor.Floating

/-!
# Axes

An axis is a range cut into bins of equal width. One cell below it and one above it collect what falls
outside, so an axis of `n` bins has `n + 2` cells, and a histogram has one bin of content for every
combination of cells of its axes. `totalBins` is that product, as long as it fits an address of 64 bits.
-/

namespace HistogramMonitor

/-- The binning of one axis, without the cells for underflow and overflow. -/
structure Axis where
  bins : UInt32
  low : Double
  high : Double
  deriving DecidableEq, Repr, Inhabited

namespace Axis

/-- The cells along the axis, those for underflow and overflow included. -/
def cells (a : Axis) : Nat := a.bins.toNat + 2

/-- The width of one bin; an axis without bins has none. -/
def width (a : Axis) : Double :=
  if a.bins = 0 then ⟨0⟩ else (a.high - a.low) / Double.ofCount a.bins

end Axis

/-- The number of cells that can be addressed. -/
def addressable : Nat := 0x10000000000000000

/-- A product, unless it leaves the addressable range. -/
def checkedMul (a b : Nat) : Option Nat := if a * b < addressable then some (a * b) else none

/-- The number of bins of content that axes call for, unless it leaves the addressable range. -/
def totalBins (axes : List Axis) : Option Nat :=
  axes.foldlM (fun n a => checkedMul n a.cells) 1

end HistogramMonitor
