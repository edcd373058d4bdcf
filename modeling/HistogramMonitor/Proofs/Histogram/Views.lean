import Mathlib.Data.List.Basic
import HistogramMonitor.Histogram.Summary
import HistogramMonitor.Proofs.Histogram.Acceptance

/-!
# The views of a snapshot

A snapshot is looked at in several ways: as a list of bins, as a layout to be drawn, as a grid, and as a line on a
terminal. Each of them works out the shape anew from the axes, and they agree (`views_agree`). What they rest on is
that the kind fixes the number of axes, which is one or two, and that there are as many bins as the axes have cells
together: so a grid is never refused for its shape, and its rows one after the other are the bins in their order
(`byRow_eq`).
-/

namespace HistogramMonitor

/-! ## Rows of a list -/

/-- What is found at so many places in a row is what a list holds there. -/
theorem filterMap_range_getElem? {α : Type} (values : List α) (k n : Nat) :
    ((List.range n).filterMap fun i => values[k + i]?) = (values.drop k).take n := by
  induction n with
  | zero => rfl
  | succ n ih =>
    rw [List.range_succ, List.filterMap_append, ih, List.take_add_one, List.getElem?_drop, List.filterMap_cons]
    cases values[k + n]? <;> rfl

/-- Rows of equal length, one after the other, are the beginning of the list that they are rows of. -/
theorem flatMap_range_rows {α : Type} (values : List α) (cols rows : Nat) :
    ((List.range rows).flatMap fun row => (values.drop (row * cols)).take cols) = values.take (rows * cols) := by
  induction rows with
  | zero => rw [Nat.zero_mul, List.take_zero]; rfl
  | succ rows ih =>
    rw [List.range_succ, List.flatMap_append, ih, Nat.succ_mul, List.take_add]
    simp

/-! ## Grids -/

namespace Grid

variable {g : Grid} {row col : Nat}

/-- The values row after row. -/
def byRow (g : Grid) : List Double :=
  (List.range g.rows).flatMap fun row => (List.range g.cols).filterMap fun col => g.cell? row col

theorem index_lt (hrow : row < g.rows) (hcol : col < g.cols) : row * g.cols + col < g.values.length := by
  have hbelow : (row + 1) * g.cols ≤ g.rows * g.cols := Nat.mul_le_mul_right g.cols hrow
  rw [Nat.succ_mul] at hbelow
  rw [g.length_values]
  omega

/-- **The rows of a grid one after the other are its values.** -/
theorem byRow_eq (g : Grid) : g.byRow = g.values := by
  have hrow : ∀ row ∈ List.range g.rows, ((List.range g.cols).filterMap fun col => g.cell? row col) =
      (g.values.drop (row * g.cols)).take g.cols := by
    intro row hrow
    rw [← filterMap_range_getElem?]
    refine List.filterMap_congr fun col hcol => ?_
    exact if_pos ⟨List.mem_range.mp hrow, List.mem_range.mp hcol⟩
  rw [byRow, List.flatMap_congr hrow, flatMap_range_rows, ← g.length_values, List.take_length]

/-- The grid has this shape, its cells are the values at their places in it, and row after row they are these
values. -/
structure Holds (g : Grid) (rows cols : Nat) (values : List Double) : Prop where
  rows_eq : g.rows = rows
  cols_eq : g.cols = cols
  cell : ∀ row < rows, ∀ col < cols, ∃ v, g.cell? row col = some v ∧ values[row * cols + col]? = some v
  byRow : g.byRow = values

/-- Values that fill a shape make up a grid of it. -/
theorem ofValues?_holds {rows cols : Nat} {values : List Double} (h : values.length = rows * cols) :
    ∃ g, ofValues? rows cols values = some g ∧ g.Holds rows cols values := by
  refine ⟨⟨rows, cols, values, h⟩, dif_pos h, rfl, rfl, fun row hrow col hcol => ?_, byRow_eq _⟩
  have hlt := index_lt (g := ⟨rows, cols, values, h⟩) hrow hcol
  exact ⟨_, (if_pos ⟨hrow, hcol⟩).trans (List.getElem?_eq_getElem hlt), List.getElem?_eq_getElem hlt⟩

end Grid

/-! ## Snapshots -/

theorem Kind.dimensions_cases (k : Kind) : k.dimensions = 1 ∨ k.dimensions = 2 := by
  cases k <;> simp [dimensions]

namespace Snapshot

variable {h : Snapshot} {kind : Kind} {axes : List Axis} {entries : UInt64} {content : Content} {x y : Axis}

/-- A snapshot consists of the parts that it was made from. -/
theorem parts_of_make? (hmake : make? kind axes entries content = .ok h) :
    h.kind = kind ∧ h.axes = axes ∧ h.entries = entries ∧ h.content = content := by
  unfold make? at hmake
  split at hmake
  · split at hmake
    · split at hmake
      · cases hmake
      · split at hmake
        · obtain rfl := Except.ok.inj hmake
          exact ⟨rfl, rfl, rfl, rfl⟩
        · cases hmake
    · cases hmake
  · cases hmake

theorem firstAxis_eq (haxes : h.axes = x :: axes) : h.firstAxis = x := by
  unfold firstAxis
  simp only [haxes, List.head_cons]

/-- The cells of one axis are the bins. -/
theorem cells_series (haxes : h.axes = [x]) : x.cells = h.content.length := by
  rw [h.length_content.1, haxes, cellCount, List.foldr_cons, List.foldr_nil, Nat.mul_one]

/-- The cells of two axes multiply to the bins. -/
theorem cells_colormap (haxes : h.axes = [x, y]) : x.cells * y.cells = h.content.length := by
  rw [h.length_content.1, haxes, cellCount, List.foldr_cons, List.foldr_cons, List.foldr_nil, Nat.mul_one]

/-- With one axis, a snapshot is laid out as a series, and is no grid. -/
theorem layout_series (haxes : h.axes = [x]) : h.layout = .series x.cells x.span ∧ h.grid? = none := by
  refine ⟨?_, ?_⟩
  · unfold layout
    rw [firstAxis_eq haxes, haxes]
    rfl
  · unfold grid?
    rw [haxes]

/-- With two axes, it is laid out as a colormap, and its bins fill a grid. -/
theorem layout_colormap (haxes : h.axes = [x, y]) : h.layout = .colormap x.cells y.cells x.span y.span ∧
    ∃ g, h.grid? = some g ∧ g.Holds y.cells x.cells h.content.toDoubles := by
  refine ⟨?_, ?_⟩
  · unfold layout
    rw [firstAxis_eq haxes, haxes]
    rfl
  · have hlength : h.content.toDoubles.length = y.cells * x.cells := by
      rw [Content.length_toDoubles, ← cells_colormap haxes, Nat.mul_comm]
    have hgrid : h.grid? = Grid.ofValues? y.cells x.cells h.content.toDoubles := by
      unfold grid?
      rw [haxes]
    rw [hgrid]
    exact Grid.ofValues?_holds hlength

/-- Row after row, a grid of a snapshot is its bins. -/
theorem byRow_of_grid? {g : Grid} (hgrid : h.grid? = some g) : g.byRow = h.content.toDoubles := by
  unfold grid? Grid.ofValues? at hgrid
  split at hgrid
  · split at hgrid
    · obtain rfl := Option.some.inj hgrid
      exact Grid.byRow_eq _
    · cases hgrid
  · cases hgrid

/-- The highest bin is the same, whether or not it is looked for in a grid. -/
theorem peak_eq (h : Snapshot) : h.peak = HistogramMonitor.peak h.content.toDoubles := by
  unfold peak
  cases hgrid : h.grid? with
  | none => rfl
  | some g => exact congrArg HistogramMonitor.peak (g.byRow_eq.symm.trans (byRow_of_grid? hgrid))

/-- **The views of a snapshot agree**, of whatever parts it was made, and so also if it was decoded.

* It consists of these parts. It has as many axes as its kind has dimensions, its bins are of the type of its kind, and
  there are as many as the axes have cells together, which is two more than bins on each axis.
* If its kind has one dimension, it is laid out as a series over its one axis, with as many cells as there are bins, and
  is no grid.
* If its kind has two, it is laid out as a colormap over its two axes, whose cells multiply to the number of bins. It is
  a grid then: one row for every cell of the second axis, and one column for every cell of the first, with the bins row
  after row.
* The highest bin is the same for both. -/
theorem views_agree (h : Snapshot) :
    (∀ kind axes entries content, make? kind axes entries content = .ok h →
      h.kind = kind ∧ h.axes = axes ∧ h.entries = entries ∧ h.content = content) ∧
    h.axes.length = h.kind.dimensions ∧ h.content.element = h.kind.element ∧
    h.content.length = cellCount h.axes ∧ (∀ a : Axis, a.cells = a.bins.toNat + 2) ∧
    (h.grid? = none ↔ h.kind.dimensions = 1) ∧
    (h.kind.dimensions = 1 ∧ (∃ x, h.axes = [x] ∧ h.layout = .series x.cells x.span ∧
        x.cells = h.content.length) ∨
      h.kind.dimensions = 2 ∧ ∃ x y g, h.axes = [x, y] ∧ h.layout = .colormap x.cells y.cells x.span y.span ∧
        x.cells * y.cells = h.content.length ∧ h.grid? = some g ∧
        g.Holds y.cells x.cells h.content.toDoubles ∧ h.peak = HistogramMonitor.peak g.byRow) ∧
    h.peak = HistogramMonitor.peak h.content.toDoubles := by
  have hlength := h.axes_length
  refine ⟨fun _ _ _ _ => parts_of_make?, hlength, h.element_eq, h.length_content.1, fun _ => rfl, ?_⟩
  obtain hone | htwo := h.kind.dimensions_cases
  · obtain ⟨x, haxes⟩ := List.length_eq_one_iff.mp (hlength.trans hone)
    obtain ⟨hlayout, hgrid⟩ := layout_series haxes
    exact ⟨iff_of_true hgrid hone, .inl ⟨hone, x, haxes, hlayout, cells_series haxes⟩, h.peak_eq⟩
  · obtain ⟨x, y, haxes⟩ := List.length_eq_two.mp (hlength.trans htwo)
    obtain ⟨hlayout, g, hgrid, hholds⟩ := layout_colormap haxes
    have hsome : h.grid? ≠ none := by
      rw [hgrid]
      nofun
    have hplane : h.kind.dimensions ≠ 1 := by
      rw [htwo]
      decide
    have hpeak : h.peak = HistogramMonitor.peak g.byRow := hholds.byRow ▸ h.peak_eq
    exact ⟨iff_of_false hsome hplane,
      .inr ⟨htwo, x, y, g, haxes, hlayout, cells_colormap haxes, hgrid, hholds, hpeak⟩, h.peak_eq⟩

/-- A map of one bin by none, and so of three cells by two. -/
def tile : Snapshot where
  kind := .mapCount
  axes := [⟨1, ⟨0⟩, ⟨0⟩⟩, ⟨0, ⟨0⟩, ⟨0⟩⟩]
  entries := 4
  content := .counts [1, 2, 3, 4, 5, 6]
  axes_length := rfl
  element_eq := rfl
  totalBins_eq := rfl

/-- It is a grid of two rows. -/
theorem tile_views : make? .mapCount tile.axes 4 (.counts [1, 2, 3, 4, 5, 6]) = .ok tile ∧
    ∃ g, tile.grid? = some g ∧ g.Holds 2 3 ([1, 2, 3, 4, 5, 6].map Double.ofCount) := by
  have hmake : make? .mapCount tile.axes 4 (.counts [1, 2, 3, 4, 5, 6]) = .ok tile := make?_self tile
  obtain ⟨-, -, -, -, -, -, ⟨hone, -⟩ | ⟨-, x, y, g, haxes, -, -, hgrid, hholds, -⟩, -⟩ := views_agree tile
  · exact absurd hone (by decide)
  · obtain ⟨rfl, hy⟩ := List.cons.inj haxes
    obtain rfl := List.singleton_inj.mp hy
    exact ⟨hmake, g, hgrid, hholds⟩

end Snapshot

end HistogramMonitor
