import HistogramMonitor.Monitor.Source

/-!
# Commands

The requests that the handle of an updater passes on to its worker, and what sending one comes to.
-/

namespace HistogramMonitor

/-- A span of time in nanoseconds. -/
abbrev Duration := Nat

/-- A span of milliseconds. -/
def milliseconds (n : Nat) : Duration := n * 1000000

/-- A request to the worker. -/
inductive Command
  | addPlot (plot : Plot)
  | changeSource (plot : Nat) (source : Option PlotSource) (refreshNow : Bool)
  | setDefaultRuns (runs : List UInt32)
  | setDefaultProgram (program : String)
  | start (interval : Duration)
  | refreshAll
  | setInterval (interval : Duration)
  | setVisible (visible : Bool)
  deriving DecidableEq, Repr

/-- What a sender learns. -/
inductive SendResult
  /-- the id that the new plot will have -/
  | added (id : Nat)
  | accepted
  /-- the worker is no longer there -/
  | refused
  deriving DecidableEq, Repr

/-- The error of a sender whose worker is gone. -/
def sendRefused : String :=
  "Updater failed due to Send error, the worker is no longer running: sending on a closed channel"

/-- A request that was sent, and what its sender learned. -/
structure Sending where
  command : Command
  result : SendResult
  deriving DecidableEq, Repr

end HistogramMonitor
