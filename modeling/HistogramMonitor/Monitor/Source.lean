import HistogramMonitor.Text.Quoted

/-!
# Plots and their sources

A plot draws one or more series, each retrieved under a name. A series may name the runs and the program
that it wants; where it does not, the defaults in force at the time of a refresh hold. An empty list of
runs is a list of runs, not an absent one.
-/

namespace HistogramMonitor

/-- Where one series comes from. -/
structure SeriesSource where
  name : String
  runs : Option (List UInt32) := none
  program : Option String := none
  deriving DecidableEq, Repr

/-- All series of a plot, in drawing order. -/
structure PlotSource where
  series : List SeriesSource
  deriving DecidableEq, Repr

/-- A registered plot. -/
structure Plot where
  source : Option PlotSource
  /-- whether somebody is told when a refresh of it begins -/
  announcesStart : Bool
  /-- whether somebody is told when a refresh of it ends -/
  announcesComplete : Bool
  deriving DecidableEq, Repr

/-- How messages name a plot. -/
def plotName (id : Nat) : String := s!"plot {id}"

/-! ## The text of a plot -/

/-- Numbers in brackets. -/
def listText (xs : List String) : String := "[" ++ ", ".intercalate xs ++ "]"

/-- The text of a value that may be absent. -/
def optionText : Option String → String
  | none => "None"
  | some s => s!"Some({s})"

/-- Named fields in braces. -/
def recordText (name : String) (entries : List (String × String)) : String :=
  name ++ " \x7b " ++ ", ".intercalate (entries.map fun e => e.1 ++ ": " ++ e.2) ++ " \x7d"

/-- The text of one series source. -/
def SeriesSource.text (s : SeriesSource) : String :=
  recordText "RetrievalSource"
    [("name", Text.quoted s.name),
     ("runs", optionText (s.runs.map fun r => listText (r.map fun n => toString n))),
     ("program", optionText (s.program.map Text.quoted))]

/-- The text of a source. -/
def PlotSource.text (s : PlotSource) : String :=
  recordText "PlotSource" [("series", listText (s.series.map SeriesSource.text))]

/-- The text of a plot. -/
def Plot.text (p : Plot) : String :=
  recordText "PlotBinding"
    [("source", optionText (p.source.map PlotSource.text)),
     ("on_update_start", toString p.announcesStart),
     ("on_update_complete", toString p.announcesComplete)]

end HistogramMonitor
