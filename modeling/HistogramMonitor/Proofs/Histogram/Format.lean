import HistogramMonitor.Histogram.Wire

/-!
# What a buffer can hold

The binary format as a relation, with no reading or writing in it.

* `Row c fields c'`: from one place in a buffer, fields lead to another. Every field of the format is
  aligned to its own width, so a row is known from its fields alone.
* `Header` is all that stands before the content, with what the format leaves open: each axis chooses the
  width of its edges. `Header.fields` is the format, field by field.
* `Snapshot.StartsIn`: a buffer starts with a header and the content that belong to a snapshot.
* `Fault`: the first thing that is wrong with a buffer, which is a field that the buffer ends before, or
  one that holds what it must not (`Invalid`).

Rows can be taken apart anywhere (`row_append_iff`), and bytes behind them change nothing (`Row.extend`).
-/

namespace HistogramMonitor

/-! ## Rows of fields -/

/-- From one place in a buffer, the fields lead to another. A field is the bytes that it takes. Before it
stand the fewest bytes that bring the offset to a multiple of its length, whatever they are. -/
inductive Row : Cursor → List Bytes → Cursor → Prop
  | nil (c : Cursor) : Row c [] c
  | cons {offset : Nat} {pad field rest : Bytes} {fields : List Bytes} {c : Cursor}
      (aligned : pad.length = Bytes.gap offset field.length)
      (more : Row ⟨offset + pad.length + field.length, rest⟩ fields c) :
      Row ⟨offset, pad ++ (field ++ rest)⟩ (field :: fields) c

namespace Cursor

/-- The buffer ends before a field of this width does, if only in the padding before it. -/
def Cuts (c : Cursor) (width : Nat) : Prop := c.rest.length < Bytes.gap c.offset width + width

/-- The place behind the padding. -/
def aligned (c : Cursor) (alignment : Nat) : Cursor :=
  ⟨c.offset + Bytes.gap c.offset alignment, c.rest.drop (Bytes.gap c.offset alignment)⟩

/-- The same place in a longer buffer. -/
def extend (c : Cursor) (tail : Bytes) : Cursor := ⟨c.offset, c.rest ++ tail⟩

theorem aligned_offset_mod (c : Cursor) {width : Nat} (hw : 0 < width) :
    (c.aligned width).offset % width = 0 :=
  Bytes.add_gap_mod c.offset hw

theorem length_aligned_rest (c : Cursor) (width : Nat) :
    (c.aligned width).rest.length = c.rest.length - Bytes.gap c.offset width :=
  List.length_drop

theorem cuts_aligned_iff {c : Cursor} {width : Nat} (hw : 0 < width) :
    (c.aligned width).Cuts width ↔ c.Cuts width := by
  unfold Cuts
  rw [Bytes.gap_eq_zero (c.aligned_offset_mod hw), length_aligned_rest]
  omega

end Cursor

section

variable {c c' : Cursor} {field : Bytes} {fields more : List Bytes} {width : Nat}

@[simp] theorem row_nil_iff : Row c [] c' ↔ c' = c := by
  constructor
  · intro h
    cases h
    rfl
  · rintro rfl
    exact .nil _

theorem row_singleton_iff :
    Row c [field] c' ↔ ∃ pad, pad.length = Bytes.gap c.offset field.length ∧
      c.rest = pad ++ (field ++ c'.rest) ∧
      c'.offset = c.offset + Bytes.gap c.offset field.length + field.length := by
  constructor
  · intro h
    cases h with
    | cons aligned more =>
      cases more
      exact ⟨_, aligned, rfl, by rw [aligned]⟩
  · rintro ⟨pad, aligned, hrest, hoffset⟩
    obtain ⟨offset, rest⟩ := c
    obtain ⟨offset', rest'⟩ := c'
    obtain rfl : rest = pad ++ (field ++ rest') := hrest
    obtain rfl : offset' = offset + pad.length + field.length := by rw [aligned]; exact hoffset
    exact .cons aligned (.nil _)

theorem row_cons_iff : Row c (field :: fields) c' ↔ ∃ c₁, Row c [field] c₁ ∧ Row c₁ fields c' := by
  constructor
  · intro h
    cases h with
    | cons aligned more => exact ⟨_, .cons aligned (.nil _), more⟩
  · rintro ⟨c₁, h, more⟩
    cases h with
    | cons aligned h =>
      cases h
      exact .cons aligned more

theorem row_append_iff : Row c (fields ++ more) c' ↔ ∃ c₁, Row c fields c₁ ∧ Row c₁ more c' := by
  induction fields generalizing c with
  | nil => simp
  | cons field fields ih =>
    rw [List.cons_append, row_cons_iff]
    constructor
    · rintro ⟨c₁, h₁, hrest⟩
      obtain ⟨c₂, h₂, h₃⟩ := ih.mp hrest
      exact ⟨c₂, row_cons_iff.mpr ⟨c₁, h₁, h₂⟩, h₃⟩
    · rintro ⟨c₂, hfields, h₃⟩
      obtain ⟨c₁, h₁, h₂⟩ := row_cons_iff.mp hfields
      exact ⟨c₁, h₁, ih.mpr ⟨c₂, h₂, h₃⟩⟩

/-- Behind a field the offset is still a multiple of its width. -/
theorem Row.offset_mod (h : Row c [field] c') (hf : field.length = width) (hw : 0 < width) :
    c'.offset % width = 0 := by
  obtain ⟨pad, -, -, hoffset⟩ := row_singleton_iff.mp h
  rw [hoffset, hf, Nat.add_mod_right]
  exact Bytes.add_gap_mod c.offset hw

/-- Whether the padding before a row is skipped beforehand makes no difference, as long as there is a
field behind it. -/
theorem row_aligned_iff (hw : 0 < width) (hf : field.length = width) :
    Row (c.aligned width) (field :: fields) c' ↔ Row c (field :: fields) c' := by
  rw [row_cons_iff, row_cons_iff (c := c)]
  refine exists_congr fun c₁ => and_congr_left fun _ => ?_
  rw [row_singleton_iff, row_singleton_iff, hf, Bytes.gap_eq_zero (c.aligned_offset_mod hw)]
  constructor
  · rintro ⟨pad, hpad, hrest, hoffset⟩
    obtain rfl := List.eq_nil_of_length_eq_zero hpad
    have hrest : c.rest.drop (Bytes.gap c.offset width) = field ++ c₁.rest := hrest
    refine ⟨c.rest.take (Bytes.gap c.offset width), ?_, ?_, hoffset⟩
    · -- the field behind the padding shows that the buffer did not end in it
      have hlen := congrArg List.length hrest
      rw [List.length_drop, List.length_append] at hlen
      rw [List.length_take]
      omega
    · rw [← hrest, List.take_append_drop]
  · rintro ⟨pad, hpad, hrest, hoffset⟩
    refine ⟨[], rfl, ?_, hoffset⟩
    change c.rest.drop (Bytes.gap c.offset width) = _
    rw [hrest, ← hpad, List.drop_left, List.nil_append]

/-- A row of fields of one width has no padding in it. -/
theorem row_uniform_iff (hc : c.offset % width = 0) (hf : ∀ f ∈ fields, f.length = width) :
    Row c fields c' ↔
      c.rest = fields.flatten ++ c'.rest ∧ c'.offset = c.offset + fields.flatten.length := by
  induction fields generalizing c with
  | nil =>
    obtain ⟨offset, rest⟩ := c
    obtain ⟨offset', rest'⟩ := c'
    rw [row_nil_iff, List.flatten_nil, List.nil_append, List.length_nil, Nat.add_zero]
    constructor
    · intro h
      cases h
      exact ⟨rfl, rfl⟩
    · rintro ⟨hrest, hoffset⟩
      rw [show rest' = rest from hrest.symm, show offset' = offset from hoffset]
  | cons field fields ih =>
    obtain ⟨hfield, hfields⟩ := List.forall_mem_cons.mp hf
    rw [row_cons_iff, List.flatten_cons, List.append_assoc, List.length_append]
    constructor
    · rintro ⟨c₁, h₁, h₂⟩
      obtain ⟨pad, hpad, hrest, hoffset⟩ := row_singleton_iff.mp h₁
      rw [hfield, Bytes.gap_eq_zero hc] at hpad hoffset
      obtain rfl := List.eq_nil_of_length_eq_zero hpad
      -- a field of the width ends where the next one may begin
      have hc₁ : c₁.offset % width = 0 := by rw [hoffset, Nat.add_mod_right]; exact hc
      obtain ⟨hrest₁, hoffset₁⟩ := (ih hc₁ hfields).mp h₂
      refine ⟨?_, ?_⟩
      · rw [hrest, hrest₁, List.nil_append]
      · rw [hoffset₁, hoffset, hfield]
        omega
    · rintro ⟨hrest, hoffset⟩
      refine ⟨⟨c.offset + width, fields.flatten ++ c'.rest⟩, row_singleton_iff.mpr ?_, ?_⟩
      · rw [hfield, Bytes.gap_eq_zero hc]
        exact ⟨[], rfl, hrest, rfl⟩
      · refine (ih (by rw [Nat.add_mod_right]; exact hc) hfields).mpr ⟨rfl, ?_⟩
        rw [hoffset, hfield, Nat.add_assoc]

theorem flatten_bytes (b : Bytes) : (b.map fun x => [x]).flatten = b := by
  rw [← List.flatMap_def, List.flatMap_singleton']

/-- Single bytes have no padding between them, so a buffer leads over them exactly if it starts with them. -/
theorem row_bytes_iff {b bytes : Bytes} : (∃ c, Row ⟨0, b⟩ (bytes.map fun x => [x]) c) ↔ bytes <+: b := by
  have hbyte : ∀ f ∈ bytes.map fun x => [x], f.length = 1 := by
    intro f hf
    obtain ⟨x, -, rfl⟩ := List.mem_map.mp hf
    rfl
  constructor
  · rintro ⟨c, hrow⟩
    obtain ⟨hrest, -⟩ := (row_uniform_iff (Nat.mod_one 0) hbyte).mp hrow
    rw [flatten_bytes] at hrest
    exact ⟨c.rest, hrest.symm⟩
  · rintro ⟨rest, rfl⟩
    refine ⟨⟨0 + bytes.length, rest⟩, (row_uniform_iff (Nat.mod_one 0) hbyte).mpr ?_⟩
    rw [flatten_bytes]
    exact ⟨rfl, rfl⟩

/-- What the fields of a row take up is gone from the buffer behind it. -/
theorem Row.length_le (h : Row c fields c') : fields.flatten.length + c'.rest.length ≤ c.rest.length := by
  induction h with
  | nil c => simp
  | cons aligned more ih =>
    simp only [List.flatten_cons, List.length_append] at ih ⊢
    omega

/-- The buffer ends within a row: it holds some of the fields, and not all of the next one. -/
inductive Ends : Cursor → List Bytes → Prop
  | here {c : Cursor} {field : Bytes} {fields : List Bytes} (cut : c.Cuts field.length) :
      Ends c (field :: fields)
  | later {c c₁ : Cursor} {field : Bytes} {fields : List Bytes} (read : Row c [field] c₁)
      (ends : Ends c₁ fields) : Ends c (field :: fields)

theorem ends_nil : ¬ Ends c [] := nofun

theorem ends_cons_iff :
    Ends c (field :: fields) ↔ c.Cuts field.length ∨ ∃ c₁, Row c [field] c₁ ∧ Ends c₁ fields := by
  constructor
  · intro h
    cases h with
    | here cut => exact .inl cut
    | later read ends => exact .inr ⟨_, read, ends⟩
  · rintro (cut | ⟨c₁, read, ends⟩)
    · exact .here cut
    · exact .later read ends

theorem ends_append_iff :
    Ends c (fields ++ more) ↔ Ends c fields ∨ ∃ c₁, Row c fields c₁ ∧ Ends c₁ more := by
  induction fields generalizing c with
  | nil => simp [ends_nil]
  | cons field fields ih =>
    rw [List.cons_append, ends_cons_iff, ends_cons_iff]
    constructor
    · rintro (cut | ⟨c₁, read, ends⟩)
      · exact .inl (.inl cut)
      · rcases ih.mp ends with ends | ⟨c₂, reads, ends⟩
        · exact .inl (.inr ⟨c₁, read, ends⟩)
        · exact .inr ⟨c₂, row_cons_iff.mpr ⟨c₁, read, reads⟩, ends⟩
    · rintro ((cut | ⟨c₁, read, ends⟩) | ⟨c₂, reads, ends⟩)
      · exact .inl cut
      · exact .inr ⟨c₁, read, ih.mpr (.inl ends)⟩
      · obtain ⟨c₁, read, reads⟩ := row_cons_iff.mp reads
        exact .inr ⟨c₁, read, ih.mpr (.inr ⟨c₂, reads, ends⟩)⟩

theorem ends_aligned_iff (hw : 0 < width) (hf : field.length = width) :
    Ends (c.aligned width) (field :: fields) ↔ Ends c (field :: fields) := by
  rw [ends_cons_iff, ends_cons_iff, hf, Cursor.cuts_aligned_iff hw]
  simp only [row_aligned_iff hw hf]

/-- Bytes behind a row change nothing. -/
theorem Row.extend (h : Row c fields c') (tail : Bytes) :
    Row (c.extend tail) fields (c'.extend tail) := by
  induction h with
  | nil c => exact .nil _
  | @cons offset pad field rest fields c aligned more ih =>
    have hcons := Row.cons aligned ih
    rwa [← List.append_assoc field, ← List.append_assoc pad] at hcons

end

/-! ## Headers -/

/-- The two edges of an axis, in one of the two widths. -/
inductive Edges
  | singles (low high : Single)
  | doubles (low high : Double)

namespace Edges

/-- The bytes that each of them takes. -/
def size : Edges → Nat
  | singles .. => 4
  | doubles .. => 8

theorem size_eq (e : Edges) : e.size = 4 ∨ e.size = 8 := by
  cases e
  · exact .inl rfl
  · exact .inr rfl

/-- The low edge; a narrow one is widened. -/
def low : Edges → Double
  | singles low _ => low.widen
  | doubles low _ => low

/-- The high edge; a narrow one is widened. -/
def high : Edges → Double
  | singles _ high => high.widen
  | doubles _ high => high

/-- Their fields. -/
def fields : Edges → List Bytes
  | singles low high => [Bytes.little 4 low.bits.toNat, Bytes.little 4 high.bits.toNat]
  | doubles low high => [Bytes.little 8 low.bits.toNat, Bytes.little 8 high.bits.toNat]

end Edges

/-- Version, kind and number of axes. -/
def Kind.opening (k : Kind) : List Bytes := [[1], [k.tag], [UInt8.ofNat k.dimensions]]

/-- The edge size of each axis. -/
def sizeFields (sizes : List Nat) : List Bytes := sizes.map fun n => [UInt8.ofNat n]

/-- The bin count of each axis. -/
def binFields (bins : List UInt32) : List Bytes := bins.map fun n => Bytes.little 4 n.toNat

/-- All that stands before the content. -/
structure Header where
  kind : Kind
  bins : List UInt32
  edges : List Edges
  entries : UInt64
  bins_length : bins.length = kind.dimensions
  edges_length : edges.length = kind.dimensions

namespace Header

/-- The format, field by field. -/
def fields (h : Header) : List Bytes :=
  h.kind.opening ++ (sizeFields (h.edges.map Edges.size) ++ ([UInt8.ofNat h.kind.element.size] ::
    (binFields h.bins ++ (h.edges.flatMap Edges.fields ++ [Bytes.little 8 h.entries.toNat]))))

/-- The axes that it describes. -/
def axes (h : Header) : List Axis := List.zipWith (fun n e => ⟨n, e.low, e.high⟩) h.bins h.edges

theorem length_axes (h : Header) : h.axes.length = h.kind.dimensions := by
  rw [axes, List.length_zipWith, h.bins_length, h.edges_length, Nat.min_self]

end Header

/-- The product of the cells along each axis. -/
def cellCount (axes : List Axis) : Nat := axes.foldr (fun a n => a.cells * n) 1

/-- The fields of the content, one for each bin. -/
def Content.fields : Content → List Bytes
  | .singles v => v.map fun x => Bytes.little 4 x.bits.toNat
  | .doubles v => v.map fun x => Bytes.little 8 x.bits.toNat
  | .counts v => v.map fun x => Bytes.little 4 x.toNat

/-- The buffer starts with the snapshot: with a header that says of it what it says, and then a bin of
content for each cell. -/
def Snapshot.StartsIn (h : Snapshot) (b : Bytes) : Prop :=
  ∃ (head : Header) (c : Cursor), head.kind = h.kind ∧ head.axes = h.axes ∧ head.entries = h.entries ∧
    h.content.fields.length = cellCount head.axes ∧ Row ⟨0, b⟩ (head.fields ++ h.content.fields) c

/-! ## Faults -/

/-- The first of the leading fields that holds what it must not. -/
inductive Invalid (c : Cursor) : DecodeError → Prop
  | version {v : UInt8} {c' : Cursor} (read : Row c [[v]] c') (wrong : v ≠ 1) : Invalid c (.version v)
  | kind {tag : UInt8} {c' : Cursor} (read : Row c [[1], [tag]] c')
      (wrong : ∀ k : Kind, k.tag ≠ tag) : Invalid c (.kind tag)
  | dimensions {k : Kind} {found : UInt8} {c' : Cursor} (read : Row c [[1], [k.tag], [found]] c')
      (wrong : found.toNat ≠ k.dimensions) : Invalid c (.dimensions k found)
  | abscissaSize {k : Kind} {sizes : List Nat} {size : UInt8} {c' : Cursor}
      (fine : ∀ n ∈ sizes, n = 4 ∨ n = 8) (fewer : sizes.length < k.dimensions)
      (read : Row c (k.opening ++ (sizeFields sizes ++ [[size]])) c')
      (wrong : ¬ (size = 4 ∨ size = 8)) : Invalid c (.abscissaSize size)
  | ordinateSize {k : Kind} {sizes : List Nat} {size : UInt8} {c' : Cursor}
      (fine : ∀ n ∈ sizes, n = 4 ∨ n = 8) (all : sizes.length = k.dimensions)
      (read : Row c (k.opening ++ (sizeFields sizes ++ [[size]])) c')
      (wrong : ¬ (size = 4 ∨ size = 8)) : Invalid c (.ordinateSize size)
  | ordinateMismatch {k : Kind} {sizes : List Nat} {size : UInt8} {c' : Cursor}
      (fine : ∀ n ∈ sizes, n = 4 ∨ n = 8) (all : sizes.length = k.dimensions)
      (read : Row c (k.opening ++ (sizeFields sizes ++ [[size]])) c')
      (known : size = 4 ∨ size = 8) (wrong : size.toNat ≠ k.element.size) :
      Invalid c (.ordinateMismatch k size)

/-- The first thing that is wrong with a buffer. -/
inductive Fault (b : Bytes) : DecodeError → Prop
  /-- the buffer starts with some fields of a header and ends before the next one does -/
  | missing {head : Header} (ends : Ends ⟨0, b⟩ head.fields) : Fault b .headerCut
  /-- one of the leading fields holds what it must not -/
  | invalid {e : DecodeError} (first : Invalid ⟨0, b⟩ e) : Fault b e
  /-- the header calls for more bins than there are addresses -/
  | tooManyBins {head : Header} {c : Cursor} (read : Row ⟨0, b⟩ head.fields c)
      (wrong : addressable ≤ cellCount head.axes) : Fault b .tooManyBins
  /-- the buffer holds a header and ends before the content does -/
  | contentCut {head : Header} {c : Cursor} {size room : Nat} (read : Row ⟨0, b⟩ head.fields c)
      (fine : cellCount head.axes < addressable) (hsize : size = head.kind.element.size)
      (hroom : room = (c.aligned size).rest.length) (cut : room < cellCount head.axes * size) :
      Fault b (.contentCut (cellCount head.axes) size room)

end HistogramMonitor
