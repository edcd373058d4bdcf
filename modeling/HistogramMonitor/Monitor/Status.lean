import HistogramMonitor.Floating

/-!
# Cycle status

How far a refresh cycle has come. One status goes out when a cycle begins and one after each plot that
it has visited.
-/

namespace HistogramMonitor

/-- The progress of a cycle. -/
structure CycleStatus where
  /-- the number of the cycle, counted from one -/
  cycle : Nat := 0
  /-- the plots visited so far -/
  done : Nat := 0
  /-- the plots registered by now -/
  total : Nat := 0
  /-- the visits of this cycle that failed -/
  failures : Nat := 0
  deriving DecidableEq, Repr

namespace CycleStatus

/-- The visited part of the plots, as a single. A cycle over no plots is complete at once. -/
def progress (s : CycleStatus) : Single :=
  if s.total = 0 then ⟨0x3f800000⟩
  else ⟨((UInt64.ofNat s.done).toFloat32 / (UInt64.ofNat s.total).toFloat32).toBits⟩

/-- Whether every plot has been visited. -/
def finished (s : CycleStatus) : Bool := decide (s.total ≤ s.done)

end CycleStatus

end HistogramMonitor
