import HistogramMonitor.Histogram.Axis
import HistogramMonitor.Histogram.Kind

/-!
# Snapshots

A snapshot is one histogram as it was at one moment. Its axes, its content and its kind agree: that is
part of the type, and `Snapshot.make?` is the one way to build it from parts that may not.
-/

namespace HistogramMonitor

/-- Why bytes or parts are no histogram. -/
inductive DecodeError
  /-- an unknown format version -/
  | version (found : UInt8)
  /-- an unknown kind tag -/
  | kind (tag : UInt8)
  /-- a number of axes that the kind does not have -/
  | dimensions (kind : Kind) (found : UInt8)
  /-- an edge size that is neither 4 nor 8 -/
  | abscissaSize (found : UInt8)
  /-- a bin size that is neither 4 nor 8 -/
  | ordinateSize (found : UInt8)
  /-- a bin size that the kind does not have -/
  | ordinateMismatch (kind : Kind) (found : UInt8)
  /-- more bins than can be addressed -/
  | tooManyBins
  /-- content of another length than the axes call for -/
  | contentLength (expected found : Nat)
  /-- the buffer ends inside a field of the header -/
  | headerCut
  /-- the buffer ends inside the content -/
  | contentCut (bins size remaining : Nat)
  deriving DecidableEq, Repr

namespace DecodeError

/-- The wording of an error. -/
def message : DecodeError → String
  | version v => s!"Histogram has format version {v}; only version 1 can be decoded"
  | kind t => s!"Unknown histogram type tag {t}"
  | dimensions k f =>
    s!"Histogram type {k.name} has {k.dimensions} dimensions but the buffer declares {f}"
  | abscissaSize s => s!"Can't decode histogram because an abscissa of size {s} was requested"
  | ordinateSize s => s!"Don't know how to decode a histogram with ordinate size {s}"
  | ordinateMismatch k f =>
    s!"Histogram type {k.name} stores {k.element.size} byte bins but the buffer declares {f}"
  | tooManyBins => "Histogram axes declare more bins than can be addressed"
  | contentLength e f => s!"Histogram content has {f} bins; its axes require {e}"
  | headerCut => "Failed to parse buffer into a histogram: failed to fill whole buffer"
  | contentCut n s r =>
    s!"Failed to parse buffer into a histogram: histogram content needs {n} bins of {s} bytes " ++
      s!"but only {r} bytes remain"

/-- The errors that say no more than that the buffer is too short. -/
def incomplete : DecodeError → Bool
  | headerCut => true
  | contentCut .. => true
  | _ => false

end DecodeError

/-! ## Content -/

/-- The bins, in one of the three types. -/
inductive Content
  | singles (values : List Single)
  | doubles (values : List Double)
  | counts (values : List UInt32)
  deriving DecidableEq, Repr

namespace Content

/-- The number of bins. -/
def length : Content → Nat
  | singles v => v.length
  | doubles v => v.length
  | counts v => v.length

/-- The type of the bins. -/
def element : Content → Element
  | singles _ => .single
  | doubles _ => .double
  | counts _ => .count

/-- Every bin as a double, which holds all three types exactly. -/
def toDoubles : Content → List Double
  | singles v => v.map Single.widen
  | doubles v => v
  | counts v => v.map Double.ofCount

/-- The sum of the bins from left to right. -/
def sum (c : Content) : Double := c.toDoubles.foldl (· + ·) Double.negativeZero

@[simp] theorem length_toDoubles (c : Content) : c.toDoubles.length = c.length := by
  cases c <;> simp [toDoubles, length]

end Content

/-! ## Snapshots -/

/-- One histogram at one moment. With two axes, the first runs fastest through the content. -/
structure Snapshot where
  kind : Kind
  axes : List Axis
  /-- the entry counter -/
  entries : UInt64
  content : Content
  axes_length : axes.length = kind.dimensions
  element_eq : content.element = kind.element
  totalBins_eq : totalBins axes = some content.length
  deriving DecidableEq, Repr

namespace Snapshot

/-- The snapshot with these parts, or the first way in which they disagree. -/
def make? (kind : Kind) (axes : List Axis) (entries : UInt64) (content : Content) :
    Except DecodeError Snapshot :=
  if haxes : axes.length = kind.dimensions then
    if helement : content.element = kind.element then
      match htotal : totalBins axes with
      | none => .error .tooManyBins
      | some n =>
        if hlength : content.length = n then
          .ok ⟨kind, axes, entries, content, haxes, helement, by rw [htotal, hlength]⟩
        else .error (.contentLength n content.length)
    else .error (.ordinateMismatch kind (UInt8.ofNat content.element.size))
  else .error (.dimensions kind (UInt8.ofNat axes.length))

/-- The parts of a snapshot do not disagree. -/
theorem make?_self (h : Snapshot) : make? h.kind h.axes h.entries h.content = .ok h := by
  rw [make?, dif_pos h.axes_length, dif_pos h.element_eq]
  split
  · rename_i hnone
    rw [h.totalBins_eq] at hnone
    cases hnone
  · rename_i n hsome
    rw [h.totalBins_eq] at hsome
    obtain rfl := Option.some.inj hsome
    rw [dif_pos rfl]

end Snapshot

end HistogramMonitor
