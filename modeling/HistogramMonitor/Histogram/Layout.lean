import HistogramMonitor.Histogram.Snapshot

/-!
# Layouts and grids

How a snapshot is laid out when it is drawn. The cells for underflow and overflow are drawn too, so the
drawn range reaches one bin width beyond each edge. A snapshot with two axes is also a grid: one row for
every cell of the second axis, and the rows one after the other are the content.
-/

namespace HistogramMonitor

/-- The drawn range of an axis. -/
structure Span where
  low : Double
  high : Double
  deriving DecidableEq, Repr

/-- The edges, each pushed out by one bin width. -/
def Axis.span (a : Axis) : Span := ⟨a.low - a.width, a.high + a.width⟩

/-- What a snapshot looks like. -/
inductive Layout
  /-- bars over one axis -/
  | series (bins : Nat) (x : Span)
  /-- colored cells over two axes -/
  | colormap (nx ny : Nat) (x y : Span)
  deriving DecidableEq, Repr

namespace Snapshot

/-- The first axis. -/
def firstAxis (h : Snapshot) : Axis :=
  h.axes.head (by
    intro hnil
    have hlength := h.axes_length
    rw [hnil] at hlength
    have := h.kind.dimensions_pos
    simp at hlength
    omega)

/-- The layout of a snapshot: a series with one axis, a colormap with two. -/
def layout (h : Snapshot) : Layout :=
  match h.axes[1]? with
  | none => .series h.firstAxis.cells h.firstAxis.span
  | some y => .colormap h.firstAxis.cells y.cells h.firstAxis.span y.span

end Snapshot

/-! ## Grids -/

/-- A table of values, row after row. -/
structure Grid where
  rows : Nat
  cols : Nat
  values : List Double
  length_values : values.length = rows * cols

namespace Grid

/-- The grid of this shape, if the values fill it exactly. -/
def ofValues? (rows cols : Nat) (values : List Double) : Option Grid :=
  if h : values.length = rows * cols then some ⟨rows, cols, values, h⟩ else none

/-- The value in a row and a column. -/
def cell? (g : Grid) (row col : Nat) : Option Double :=
  if row < g.rows ∧ col < g.cols then g.values[row * g.cols + col]? else none

/-- The values column after column. -/
def byColumn (g : Grid) : List Double :=
  let table := g.values.toArray
  (List.range g.cols).flatMap fun col =>
    (List.range g.rows).filterMap fun row => table[row * g.cols + col]?

end Grid

/-- The grid of a snapshot with two axes: the second axis counts the rows. -/
def Snapshot.grid? (h : Snapshot) : Option Grid :=
  match h.axes with
  | [x, y] => Grid.ofValues? y.cells x.cells h.content.toDoubles
  | _ => none

end HistogramMonitor
