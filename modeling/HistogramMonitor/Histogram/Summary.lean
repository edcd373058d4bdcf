import HistogramMonitor.Decimal
import HistogramMonitor.Histogram.Layout

/-!
# Summaries

One line about a snapshot, for a terminal: its kind, its entries, its shape, the sum of its bins and the
highest of them.
-/

namespace HistogramMonitor

/-- A range in brackets. -/
def Span.text (s : Span) : String := s!"[{s.low.shortest}, {s.high.shortest}]"

/-- The shape of a layout. -/
def Layout.text : Layout → String
  | .series bins x => s!"{bins} bins over {x.text}"
  | .colormap nx ny x y => s!"{nx}x{ny} cells over {x.text} x {y.text}"

/-- The highest value that is a number, or the lowest double if there is none. -/
def peak (values : List Double) : Double := values.foldl Double.larger Double.lowest

namespace Snapshot

/-- The highest bin. -/
def peak (h : Snapshot) : Double :=
  match h.grid? with
  | some g => HistogramMonitor.peak g.values
  | none => HistogramMonitor.peak h.content.toDoubles

/-- The line about a snapshot. -/
def summary (h : Snapshot) : String :=
  s!"{h.kind.name} with {h.entries} entries, {h.layout.text}, " ++
    s!"sum {h.content.sum.tenths}, max {h.peak.tenths}"

end Snapshot

end HistogramMonitor
