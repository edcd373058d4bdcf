import HistogramMonitor.Histogram.Wire
import HistogramMonitor.Replay.Store

/-!
# Demonstration replies

Three histograms of a peak on a flat background, sampled at the centre of every cell, to try a monitor on.
-/

namespace HistogramMonitor.Demo

/-! ## The histograms -/

/-- A peak on a flat background. -/
def peak (x center width : Float) : Float :=
  let d := (x - center) / width
  10.0 + 200.0 * Float.exp (-0.5 * (d * d))

/-- The position of the centre of a cell, in bins from the low edge. -/
def cellCenter (cell : Nat) : Float := Float.ofNat cell - 0.5

/-- An axis between two edges. -/
def axis (bins : UInt32) (low high : Float) : Axis := ⟨bins, .ofFloat low, .ofFloat high⟩

/-- One value per cell of an axis. -/
def sampled {α : Type} (a : Axis) (f : Nat → α) : List α := (List.range a.cells).map f

/-- Hits over the channels of a detector. -/
def hitmap : Except DecodeError Snapshot :=
  let a := axis 64 0.0 64.0
  let content := sampled a fun cell => (peak (cellCenter cell) 32.0 6.0).toUInt32
  Snapshot.make? .seriesCount [a] 6400 (.counts content)

/-- An energy spectrum. -/
def energy : Except DecodeError Snapshot :=
  let a := axis 200 0.0 10.0
  let content := sampled a fun cell =>
    Double.ofFloat (peak (a.low.toFloat + cellCenter cell * a.width.toFloat) 6.13 0.2)
  Snapshot.make? .series64 [a] 12000 (.doubles content)

/-- The charge on a pad plane. -/
def padPlane : Except DecodeError Snapshot :=
  let a := axis 32 (-16.0) 16.0
  let content := (sampled a fun row => sampled a fun col =>
    let dx := Float.ofNat col - 16.5
    let dy := Float.ofNat row - 16.5
    (Double.ofFloat (peak (Float.sqrt (dx * dx + dy * dy)) 0.0 5.0)).narrow).flatten
  Snapshot.make? .map32 [a, a] 90000 (.singles content)

/-! ## Recording -/

/-- Why the replies could not be recorded. -/
inductive Error
  | snapshot (e : DecodeError)
  | file (e : FileError)
  deriving DecidableEq, Repr

/-- The wording of an error. -/
def Error.message : Error → String
  | snapshot e => e.message
  | file e => s!"Failed to parse buffer into a histogram: {e.message}"

/-- The histograms and their names. -/
def histograms : Except DecodeError (List (String × Snapshot)) := do
  return [("demo/hitmap", ← hitmap), ("demo/energy", ← energy), ("demo/pad_plane", ← padPlane)]

/-- Records some histograms, one after the other, up to the first that fails. -/
def recordAll (s : ReplyStore) : List (String × Snapshot) → Files → Files.Attempt
  | [], t => (t, .ok ())
  | (name, h) :: rest, t =>
    match s.record name (Envelope.wrap Envelope.histogramType h.encode) t with
    | .ok t => recordAll s rest t
    | .error e => (t, .error e)

/-- Records the demonstration replies. The answer holds the names of what was recorded. -/
def record (s : ReplyStore) (t : Files) : Files × Except Error (List String) :=
  match histograms with
  | .error e => (t, .error (.snapshot e))
  | .ok hs =>
    match recordAll s hs t with
    | (t, .ok ()) => (t, .ok (hs.map (·.1)))
    | (t, .error e) => (t, .error (.file e))

end HistogramMonitor.Demo
