import HistogramMonitor.Monitor.Command
import HistogramMonitor.Transport.Call

/-!
# Configurations

What a monitor is to watch: the backend program and the runs to ask for, the time between two rounds, the
directory of recorded replies, and the plots with the series drawn on them.
-/

namespace HistogramMonitor

/-- One plot to watch. -/
structure PlotConfig where
  title : String
  /-- the series on the plot, in drawing order -/
  series : List SeriesSource
  deriving DecidableEq, Repr

/-- The source that a plot is registered with; a plot without series has none. -/
def PlotConfig.source (p : PlotConfig) : Option PlotSource :=
  if p.series.isEmpty then none else some ⟨p.series⟩

/-- A configuration. -/
structure Config where
  /-- the backend program -/
  program : String
  /-- the runs to ask for; zero is the current one -/
  runs : List UInt32
  /-- the milliseconds between the end of a cycle and the start of the next -/
  interval : UInt64
  /-- the directory of recorded replies -/
  replies : String
  plots : List PlotConfig
  deriving DecidableEq, Repr

namespace Config

/-- A configuration to start from: two histograms of the current run. -/
def template : Config :=
  { program := standardProgram
    runs := [0]
    interval := 2000
    replies := "./replies"
    plots :=
      [{ title := "Hit pattern", series := [{ name := "demo/hitmap" }] },
       { title := "Pad plane", series := [{ name := "demo/pad_plane" }] }] }

/-- The time between two cycles. With none, there is a single cycle and no automatic repeat. -/
def pause (c : Config) : Duration := milliseconds c.interval.toNat

/-- Whether there is a plot to watch. -/
def hasPlots (c : Config) : Bool := !c.plots.isEmpty

end Config

end HistogramMonitor
