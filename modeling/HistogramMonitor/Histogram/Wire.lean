import HistogramMonitor.Bytes
import HistogramMonitor.Histogram.Snapshot

/-!
# The binary histogram format

A serialized histogram is a row of little-endian fields:

* the format version, the kind tag, the number of axes, the edge size of each axis (4 or 8) and the bin
  size (4 or 8), one byte each;
* aligned to 4, the bin count of each axis;
* for each axis, aligned to its edge size, its low and its high edge;
* aligned to 8, the entry counter;
* aligned to the bin size, the content.

Alignment is counted from the start of the buffer, so the place of a field depends on all before it.
`Snapshot.encode` pads with zeros and writes every edge in the width of the kind; `Snapshot.decode`
accepts any padding, any mix of edge sizes and any bytes after the content. It reports the first field
that is missing or wrong, and it looks for content only after the rest of the buffer was found large
enough to hold it.
-/

namespace HistogramMonitor

/-- The one format version. -/
def formatVersion : Nat := 1

/-! ## Reading -/

/-- A buffer being read: how far reading has come, and what is left. The offset may run past the end of
the buffer, when padding does. -/
structure Cursor where
  offset : Nat
  rest : Bytes
  deriving Repr

/-- A step of reading. -/
abbrev Reader := StateT Cursor (Except DecodeError)

namespace Reader

/-- The next field of `w` bytes. -/
def field (w : Nat) : Reader Nat := fun c =>
  let head := c.rest.take w
  if head.length = w then .ok (Bytes.ofLittle head, ⟨c.offset + w, c.rest.drop w⟩)
  else .error .headerCut

/-- The next byte. -/
def byte : Reader UInt8 := UInt8.ofNat <$> field 1

/-- Skips padding, whatever it holds. -/
def align (alignment : Nat) : Reader Unit := fun c =>
  let n := Bytes.gap c.offset alignment
  .ok ((), ⟨c.offset + n, c.rest.drop n⟩)

/-- An edge of the given size. -/
def edge (size : Nat) : Reader Double :=
  if size = 4 then do return Single.widen ⟨UInt32.ofNat (← field 4)⟩
  else do return ⟨UInt64.ofNat (← field 8)⟩

/-- The edge size of one axis. -/
def abscissaSize : Reader Nat := do
  let size ← byte
  if size = 4 ∨ size = 8 then return size.toNat else throw (.abscissaSize size)

/-- The bin size, which the kind fixes. -/
def ordinateSize (kind : Kind) : Reader Unit := do
  let size ← byte
  unless size = 4 ∨ size = 8 do throw (.ordinateSize size)
  unless size.toNat = kind.element.size do throw (.ordinateMismatch kind size)

/-- The kind and the number of axes, which the kind fixes. -/
def kind : Reader Kind := do
  let version ← byte
  unless version.toNat = formatVersion do throw (.version version)
  let tag ← byte
  let some kind := Kind.ofTag? tag.toNat | throw (.kind tag)
  let found ← byte
  unless found.toNat = kind.dimensions do throw (.dimensions kind found)
  return kind

/-- One axis with this bin count and edge size. -/
def axis (bins size : Nat) : Reader Axis := do
  align size
  let low ← edge size
  let high ← edge size
  return ⟨UInt32.ofNat bins, low, high⟩

end Reader

/-- The first `n` fields of `w` bytes, put in front of `done` reversed. -/
def fieldsOnto (w : Nat) : Nat → Bytes → List Nat → List Nat
  | 0, _, done => done.reverse
  | n + 1, b, done => fieldsOnto w n (b.drop w) (Bytes.ofLittle (b.take w) :: done)

/-- The first `n` fields of `w` bytes. -/
def fields (w n : Nat) (b : Bytes) : List Nat := fieldsOnto w n b []

/-- Bins from their fields. -/
def Content.ofFields (e : Element) (v : List Nat) : Content :=
  match e with
  | .single => .singles (v.map fun n => ⟨UInt32.ofNat n⟩)
  | .double => .doubles (v.map fun n => ⟨UInt64.ofNat n⟩)
  | .count => .counts (v.map UInt32.ofNat)

namespace Reader

/-- The content, once the buffer is known to hold it. -/
def content (e : Element) (n : Nat) : Reader Content := do
  let remaining := (← get).rest.length
  if n * e.size < addressable ∧ n * e.size ≤ remaining then
    return Content.ofFields e (fields e.size n (← get).rest)
  else throw (.contentCut n e.size remaining)

/-- A whole histogram. -/
def snapshot : Reader Snapshot := do
  let kind ← kind
  let sizes ← (List.replicate kind.dimensions ()).mapM fun _ => abscissaSize
  ordinateSize kind
  align 4
  let bins ← sizes.mapM fun _ => field 4
  let axes ← (bins.zip sizes).mapM fun (n, size) => axis n size
  align 8
  let entries ← field 8
  align kind.element.size
  let some n := totalBins axes | throw .tooManyBins
  let content ← content kind.element n
  Snapshot.make? kind axes (UInt64.ofNat entries) content

end Reader

/-- The histogram that a buffer starts with. -/
def Snapshot.decode (b : Bytes) : Except DecodeError Snapshot :=
  (·.1) <$> Reader.snapshot ⟨0, b⟩

/-! ## Writing -/

/-- The bins as bytes. -/
def Content.encode : Content → Bytes
  | .singles v => v.flatMap fun x => Bytes.little 4 x.bits.toNat
  | .doubles v => v.flatMap fun x => Bytes.little 8 x.bits.toNat
  | .counts v => v.flatMap fun x => Bytes.little 4 x.toNat

namespace Kind

/-- The bytes that an edge takes when it is written: a single's where the bins are singles. -/
def edgeSize (k : Kind) : Nat := if k.element = .single then 4 else 8

/-- An edge in the width of the kind. -/
def edge (k : Kind) (x : Double) : Bytes :=
  if k.element = .single then Bytes.little 4 x.narrow.bits.toNat else Bytes.little 8 x.bits.toNat

end Kind

namespace Snapshot

/-- The bytes before the bin counts. -/
def leader (h : Snapshot) : Bytes :=
  [UInt8.ofNat formatVersion, h.kind.tag, UInt8.ofNat h.axes.length]
    ++ h.axes.map (fun _ => UInt8.ofNat h.kind.edgeSize) ++ [UInt8.ofNat h.kind.element.size]

/-- Everything before the content. -/
def header (h : Snapshot) : Bytes :=
  let counted := h.axes.foldl (fun b a => b ++ Bytes.little 4 a.bins.toNat) (h.leader.aligned 4)
  let edged := h.axes.foldl
    (fun b a => b.aligned h.kind.edgeSize ++ h.kind.edge a.low ++ h.kind.edge a.high) counted
  (edged.aligned 8 ++ Bytes.little 8 h.entries.toNat).aligned h.kind.element.size

/-- The serialized histogram. -/
def encode (h : Snapshot) : Bytes := h.header ++ h.content.encode

end Snapshot

end HistogramMonitor
