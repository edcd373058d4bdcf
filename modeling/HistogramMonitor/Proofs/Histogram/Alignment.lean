import Mathlib.Order.Bounds.Defs
import HistogramMonitor.Proofs.Histogram.Counting
import HistogramMonitor.Proofs.Histogram.Cuts

/-!
# Where the fields are

An encoding is a row of packed fields, so where a field stands is a matter of the fields before it: behind the last of
them, after the fewest zero bytes that bring it to a multiple of its own length (`packed_split`). Which bytes these are
is said once, for all rows, and `Snapshot.fields` only has to list what is written.

The paddings add up to the same number for every kind. Those before the bin counts, the edges and the entry counter
fill what the one-byte fields left open, and the content needs none; so the length is a sum of products
(`length_header`).
-/

namespace HistogramMonitor

/-! ## Packed fields -/

namespace Bytes

variable {offset alignment : Nat}

theorem packed_append (fields more : List Bytes) : ∃ rest, packed (fields ++ more) = packed fields ++ rest := by
  induction more using List.reverseRecOn with
  | nil => exact ⟨[], by rw [List.append_nil, List.append_nil]⟩
  | append_singleton more f ih =>
    obtain ⟨rest, hrest⟩ := ih
    refine ⟨rest ++ (zeros (gap (packed (fields ++ more)).length f.length) ++ f), ?_⟩
    rw [← List.append_assoc, packed_concat, aligned, ← List.append_assoc, ← hrest, List.append_assoc]

/-- What stands before a field does not depend on what comes behind it. -/
theorem packed_split (before : List Bytes) (field : Bytes) (after : List Bytes) :
    ∃ rest, packed (before ++ field :: after) =
      packed before ++ (zeros (gap (packed before).length field.length) ++ (field ++ rest)) := by
  obtain ⟨rest, hrest⟩ := packed_append (before ++ [field]) after
  refine ⟨rest, ?_⟩
  rw [← List.append_cons, packed_concat, aligned] at hrest
  rw [hrest, List.append_assoc, List.append_assoc]

/-- Padding leads to the next place that is aligned. -/
theorem isLeast_gap (offset : Nat) (ha : 0 < alignment) :
    IsLeast {n | offset ≤ n ∧ alignment ∣ n} (offset + gap offset alignment) := by
  refine ⟨⟨Nat.le_add_right _ _, Nat.dvd_of_mod_eq_zero (add_gap_mod offset ha)⟩, fun n hn => ?_⟩
  obtain ⟨hle, hdvd⟩ := hn
  have hgap : gap offset alignment ≤ n - offset := by
    apply gap_le ha
    rw [Nat.add_sub_cancel' hle]
    exact Nat.mod_eq_zero_of_dvd hdvd
  omega

/-- The next place that is aligned can be addressed, unless it is the very end. -/
theorem gap_addressable_iff (offset : Nat) (ha : alignment ∣ 8) :
    offset + gap offset alignment < addressable ↔ offset ≤ addressable - alignment := by
  have hpos : 0 < alignment := Nat.pos_of_dvd_of_pos ha (by decide)
  have hend : alignment ∣ addressable := Nat.dvd_trans ha (by decide)
  have hlast : alignment ∣ addressable - alignment := Nat.dvd_sub hend (Nat.dvd_refl _)
  have hle : alignment ≤ addressable := Nat.le_of_dvd (by decide) hend
  obtain ⟨⟨hfrom, hdvd⟩, hleast⟩ := isLeast_gap offset hpos
  constructor
  · intro hlt
    -- between two multiples lies at least the alignment
    have hroom : alignment ≤ addressable - (offset + gap offset alignment) :=
      Nat.le_of_dvd (Nat.sub_pos_of_lt hlt) (Nat.dvd_sub hend hdvd)
    omega
  · intro hoffset
    have hnext := hleast ⟨hoffset, hlast⟩
    omega

end Bytes

/-! ## The fields of an encoding -/

namespace Snapshot

variable (h : Snapshot)

/-- What is written, field by field: the leading bytes, the bin counts, the edges of each axis, the entry counter and
the bins. -/
def fields : List Bytes :=
  h.leader.map (fun x => [x]) ++ h.axes.map (fun a => Bytes.little 4 a.bins.toNat) ++
    h.axes.flatMap (fun a => [h.kind.edge a.low, h.kind.edge a.high]) ++ [Bytes.little 8 h.entries.toNat] ++
    h.content.fields

theorem fields_eq : h.fields = h.written.fields ++ h.content.fields := by
  have hedges : h.written.edges.flatMap Edges.fields =
      h.axes.flatMap fun a => [h.kind.edge a.low, h.kind.edge a.high] := by
    rw [edges_written, List.flatMap_map]
    exact congrArg (h.axes.flatMap ·) (funext fun a => Kind.fields_edges)
  rw [fields, fields_written, hedges, binFields, bins_written, List.map_map]
  rfl

theorem encode_eq_packed_fields : h.encode = Bytes.packed h.fields := by rw [fields_eq, encode_eq_packed]

theorem length_pos_of_mem_fields {f : Bytes} (hf : f ∈ h.fields) : 0 < f.length := by
  simp only [fields, List.mem_append, List.mem_map, List.mem_flatMap, List.mem_cons, List.not_mem_nil, or_false] at hf
  rcases hf with (((⟨x, -, rfl⟩ | ⟨a, -, rfl⟩) | ⟨a, -, rfl | rfl⟩) | rfl) | hbin
  · exact Nat.one_pos
  · rw [Bytes.length_little]
    decide
  · exact h.kind.length_edge _ ▸ h.kind.edgeSize_pos
  · exact h.kind.length_edge _ ▸ h.kind.edgeSize_pos
  · rw [Bytes.length_little]
    decide
  · exact Content.length_of_mem_fields hbin ▸ h.content.element.size_pos

/-! ## Lengths -/

/-- The header with its paddings, whatever its axes are. -/
theorem length_header : h.header.length = 24 + 2 * h.kind.dimensions * h.kind.edgeSize := by
  have hdimensions : h.kind.dimensions = 1 ∨ h.kind.dimensions = 2 := by cases h.kind <;> decide
  have hsize : h.kind.edgeSize = 4 ∨ h.kind.edgeSize = 8 := by cases h.kind <;> decide
  have haxes := h.axes_length
  rw [header_eq]
  rcases hdimensions with hd | hd
  · obtain ⟨a, ha⟩ := List.length_eq_one_iff.mp (haxes.trans hd)
    rcases hsize with hs | hs <;>
      simp [ha, hd, hs, leader, Bytes.aligned, Bytes.gap, Kind.length_edge]
  · obtain ⟨a, a', ha⟩ := List.length_eq_two.mp (haxes.trans hd)
    rcases hsize with hs | hs <;>
      simp [ha, hd, hs, leader, Bytes.aligned, Bytes.gap, Kind.length_edge]

theorem length_encode : h.encode.length = 24 + 2 * h.kind.dimensions * h.kind.edgeSize +
    h.kind.element.size * (h.axes.map fun a => a.bins.toNat + 2).prod := by
  rw [encode, List.length_append, length_header, Content.length_encode, h.element_eq, h.length_content.1,
    cellCount_eq_prod, Nat.mul_comm (List.prod _)]

end Snapshot

/-- **Every field is aligned to its own size.**

* An encoding is its fields, packed one behind the other.
* Each of them starts at a multiple of its own size, counted from the start of the encoding, and the bytes between it
  and the field before it are zeros, fewer than its size.
* The length follows from the kind and the product of the bins along each axis, two more for each.
* Padding leads from every offset to the least multiple of the alignment that is not below it. That is a number of 64
  bits too, unless the offset is less than the alignment away from the first number that is not. -/
theorem encode_aligned (h : Snapshot) :
    h.encode = Bytes.packed h.fields ∧
    (∀ before field after, h.fields = before ++ field :: after →
      ∃ pad rest, h.encode = Bytes.packed before ++ (Bytes.zeros pad ++ (field ++ rest)) ∧
        field.length ∣ (Bytes.packed before).length + pad ∧ pad < field.length) ∧
    h.encode.length = 24 + 2 * h.kind.dimensions * h.kind.edgeSize +
      h.kind.element.size * (h.axes.map fun a => a.bins.toNat + 2).prod ∧
    (∀ offset alignment, 0 < alignment →
      IsLeast {n | offset ≤ n ∧ alignment ∣ n} (offset + Bytes.gap offset alignment)) ∧
    ∀ offset alignment, alignment ∣ 8 →
      (offset + Bytes.gap offset alignment < 0x10000000000000000 ↔ offset ≤ 0x10000000000000000 - alignment) := by
  refine ⟨h.encode_eq_packed_fields, fun before field after hfields => ?_, h.length_encode,
    fun offset _ => Bytes.isLeast_gap offset, fun offset _ => Bytes.gap_addressable_iff offset⟩
  have hpos : 0 < field.length := h.length_pos_of_mem_fields (hfields ▸ List.mem_append_right _ List.mem_cons_self)
  obtain ⟨rest, hrest⟩ := Bytes.packed_split before field after
  refine ⟨Bytes.gap (Bytes.packed before).length field.length, rest, ?_, ?_, Bytes.gap_lt _ hpos⟩
  · rw [h.encode_eq_packed_fields, hfields, hrest]
  · exact Nat.dvd_of_mod_eq_zero (Bytes.add_gap_mod _ hpos)

/-- A series of doubles from one to two. -/
def wideSeries : Snapshot where
  kind := .series64
  axes := [⟨1, ⟨0x3FF0000000000000⟩, ⟨0x4000000000000000⟩⟩]
  entries := 7
  content := .doubles [⟨0⟩, ⟨0x4014000000000000⟩, ⟨0⟩]
  axes_length := rfl
  element_eq := rfl
  totalBins_eq := rfl

/-- Its bin count ends at twelve bytes, and its low edge begins at sixteen. -/
theorem wideSeries_padded : wideSeries.encode.length = 64 ∧
    ∃ rest, wideSeries.encode =
      [1, 1, 1, 8, 8, 0, 0, 0, 1, 0, 0, 0] ++ (Bytes.zeros 4 ++ (Bytes.little 8 0x3FF0000000000000 ++ rest)) := by
  obtain ⟨-, hfields, hlength, -⟩ := encode_aligned wideSeries
  obtain ⟨pad, rest, hencode, hdvd, hlt⟩ :=
    hfields [[1], [1], [1], [8], [8], Bytes.little 4 1] (Bytes.little 8 0x3FF0000000000000) _ rfl
  have hbefore : Bytes.packed [[1], [1], [1], [8], [8], Bytes.little 4 1] = [1, 1, 1, 8, 8, 0, 0, 0, 1, 0, 0, 0] :=
    rfl
  rw [hbefore] at hencode hdvd
  rw [Bytes.length_little] at hdvd hlt
  obtain rfl : pad = 4 := by
    simp only [List.length_cons, List.length_nil] at hdvd
    omega
  exact ⟨hlength, rest, hencode⟩

end HistogramMonitor
