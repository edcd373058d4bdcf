import HistogramMonitor.Histogram.Summary
import HistogramMonitor.Monitor.Event

/-!
# The terminal screen

A screen for a terminal: a drawn series becomes one line with the summary of its histogram, a wiped plot
one line with a warning. Plots go by the titles that they were given, and by their number where they were
given none.
-/

namespace HistogramMonitor

/-- The titles of the plots, by their ids. -/
structure Screen where
  titles : List String
  deriving Repr

namespace Screen

/-- The title of a plot. -/
def title (s : Screen) (plot : Nat) : String := s.titles[plot]?.getD (plotName plot)

/-- The line about a drawn series. -/
def drawn (s : Screen) (plot series : Nat) (h : Snapshot) : LogLine :=
  ⟨.terminal, .info, s!"{s.title plot} [{series}]: {h.summary}"⟩

/-- The line about a wiped plot. -/
def wiped (s : Screen) (plot : Nat) : LogLine :=
  ⟨.terminal, .warn, s!"{s.title plot} cleared, its data could not be retrieved"⟩

/-- The line that an event puts on the screen, if it puts one there. -/
def line? (s : Screen) : Event → Option LogLine
  | .display plot series h => some (s.drawn plot series h)
  | .clear plot => some (s.wiped plot)
  | _ => none

end Screen

end HistogramMonitor
