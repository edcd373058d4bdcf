import Mathlib.Data.List.Induction
import HistogramMonitor.Proofs.Histogram.Acceptance
import HistogramMonitor.Proofs.Widths

/-!
# Writing and reading back

What `Snapshot.encode` writes is one of the buffers that the format knows. Each step of writing pads the buffer
with zeros and puts fields of one width behind it (`packed_block`), so what has been written is a row of packed
fields at every moment (`encode_eq_packed`), and packed fields are laid out as a row (`lays_packed`). Decoding
then follows from what is accepted, without running the reader.

The width of an edge is that of the bins. A kind with bins of 32 bits writes its edges as singles, so they
come back rounded (`Snapshot.rounded`); the other kinds are read back as they were.
-/

namespace HistogramMonitor

/-! ## Laying fields -/

/-- The buffer is laid out as these fields, whatever follows. -/
def Lays (b : Bytes) (fields : List Bytes) : Prop := ∀ rest, Row ⟨0, b ++ rest⟩ fields ⟨b.length, rest⟩

namespace Bytes

variable {fields fs : List Bytes} {w : Nat}

/-- The fields one after the other, each behind the zero bytes that bring it to a multiple of its own length. -/
def packed (fields : List Bytes) : Bytes := fields.foldl (fun b f => b.aligned f.length ++ f) []

theorem packed_concat (fields : List Bytes) (f : Bytes) :
    packed (fields ++ [f]) = (packed fields).aligned f.length ++ f := by
  rw [packed, List.foldl_append]
  rfl

/-- Fields of one width stand behind the padding that their width calls for. -/
theorem packed_block (hw : 0 < w) (hne : fs ≠ []) (hfs : ∀ f ∈ fs, f.length = w) :
    packed (fields ++ fs) = (packed fields).aligned w ++ fs.flatten := by
  -- behind the first of them there is no padding any more
  have hrest : ∀ (fs : List Bytes) (b : Bytes), b.length % w = 0 → (∀ f ∈ fs, f.length = w) →
      fs.foldl (fun b f => b.aligned f.length ++ f) b = b ++ fs.flatten := by
    intro fs
    induction fs with
    | nil => exact fun b _ _ => (List.append_nil b).symm
    | cons f fs ih =>
      intro b hb hfs
      obtain ⟨hf, hfs⟩ := List.forall_mem_cons.mp hfs
      have hend : (b ++ f).length % w = 0 := by rw [List.length_append, hf, Nat.add_mod_right, hb]
      rw [List.foldl_cons, hf, aligned_eq_self hb, ih _ hend hfs, List.append_assoc, List.flatten_cons]
  obtain ⟨f, fs', rfl⟩ := List.exists_cons_of_ne_nil hne
  obtain ⟨hf, hfs⟩ := List.forall_mem_cons.mp hfs
  have hend : ((packed fields).aligned w ++ f).length % w = 0 := by
    rw [List.length_append, hf, Nat.add_mod_right, length_aligned_mod _ hw]
  rw [packed, List.foldl_append, List.foldl_cons, hf]
  exact (hrest fs' _ hend hfs).trans (List.append_assoc _ _ _)

end Bytes

theorem lays_packed (fields : List Bytes) : Lays (Bytes.packed fields) fields := by
  induction fields using List.reverseRecOn with
  | nil => exact fun _ => .nil _
  | append_singleton fields f ih =>
    intro rest
    have hsplit : Bytes.packed (fields ++ [f]) ++ rest = Bytes.packed fields ++
        (Bytes.zeros (Bytes.gap (Bytes.packed fields).length f.length) ++ (f ++ rest)) := by
      rw [Bytes.packed_concat, Bytes.aligned, List.append_assoc, List.append_assoc]
    rw [hsplit]
    refine row_append_iff.mpr ⟨_, ih _, row_singleton_iff.mpr ⟨_, Bytes.length_zeros _, rfl, ?_⟩⟩
    rw [Bytes.packed_concat, List.length_append, Bytes.aligned, List.length_append, Bytes.length_zeros]

/-! ## What is written -/

namespace Kind

/-- The two edges of an axis in the width of the kind. -/
def edges (k : Kind) (a : Axis) : Edges :=
  if k.element = .single then .singles a.low.narrow a.high.narrow else .doubles a.low a.high

/-- An edge as it is read back. -/
def roundEdge (k : Kind) (x : Double) : Double := if k.element = .single then x.narrow.widen else x

/-- An axis as it is read back. -/
def roundAxis (k : Kind) (a : Axis) : Axis := ⟨a.bins, k.roundEdge a.low, k.roundEdge a.high⟩

variable {k : Kind} {a : Axis}

theorem size_edges : (k.edges a).size = k.edgeSize := by
  rw [edges, edgeSize]
  split <;> rfl

theorem fields_edges : (k.edges a).fields = [k.edge a.low, k.edge a.high] := by
  rw [edges, edge, edge]
  split <;> rfl

theorem length_edge (k : Kind) (x : Double) : (k.edge x).length = k.edgeSize := by
  rw [edge, edgeSize]
  split <;> exact Bytes.length_little _ _

theorem edgeSize_pos (k : Kind) : 0 < k.edgeSize := by
  rw [edgeSize]
  split <;> decide

theorem roundAxis_eq : k.roundAxis a = ⟨a.bins, (k.edges a).low, (k.edges a).high⟩ := by
  rw [roundAxis, roundEdge, roundEdge, edges]
  split <;> rfl

/-- A rounded edge is written like the edge itself. -/
theorem edge_roundEdge (k : Kind) (x : Double) : k.edge (k.roundEdge x) = k.edge x := by
  rw [edge, edge, roundEdge]
  by_cases hk : k.element = .single
  · rw [if_pos hk, if_pos hk, if_pos hk, Double.narrow_widen_narrow]
  · rw [if_neg hk, if_neg hk, if_neg hk]

end Kind

namespace Snapshot

variable (h : Snapshot)

/-- The header that is written. -/
def written : Header where
  kind := h.kind
  bins := h.axes.map Axis.bins
  edges := h.axes.map h.kind.edges
  entries := h.entries
  bins_length := (List.length_map _).trans h.axes_length
  edges_length := (List.length_map _).trans h.axes_length

/-- The snapshot as it is read back. -/
def rounded : Snapshot where
  kind := h.kind
  axes := h.axes.map h.kind.roundAxis
  entries := h.entries
  content := h.content
  axes_length := (List.length_map _).trans h.axes_length
  element_eq := h.element_eq
  totalBins_eq := by
    rw [totalBins, List.foldlM_map]
    exact h.totalBins_eq

@[simp] theorem kind_rounded : h.rounded.kind = h.kind := rfl

@[simp] theorem axes_rounded : h.rounded.axes = h.axes.map h.kind.roundAxis := rfl

@[simp] theorem entries_rounded : h.rounded.entries = h.entries := rfl

@[simp] theorem content_rounded : h.rounded.content = h.content := rfl

@[simp] theorem bins_written : h.written.bins = h.axes.map Axis.bins := rfl

@[simp] theorem edges_written : h.written.edges = h.axes.map h.kind.edges := rfl

theorem axes_written : h.written.axes = h.rounded.axes := by
  change List.zipWith _ (h.axes.map Axis.bins) (h.axes.map h.kind.edges) = h.axes.map h.kind.roundAxis
  rw [List.zipWith_map, List.zipWith_self]
  exact List.map_congr_left fun a _ => Kind.roundAxis_eq.symm

end Snapshot

/-! ## The layout of what is written -/

theorem Content.encode_eq (v : Content) : v.encode = v.fields.flatten := by
  cases v <;> rfl

theorem packed_edges (k : Kind) (axes : List Axis) (fields : List Bytes) :
    axes.foldl (fun b a => b.aligned k.edgeSize ++ k.edge a.low ++ k.edge a.high) (Bytes.packed fields) =
      Bytes.packed (fields ++ (axes.map k.edges).flatMap Edges.fields) := by
  induction axes generalizing fields with
  | nil => exact congrArg Bytes.packed (List.append_nil fields).symm
  | cons a axes ih =>
    have hpair : (Bytes.packed fields).aligned k.edgeSize ++ k.edge a.low ++ k.edge a.high =
        Bytes.packed (fields ++ (k.edges a).fields) := by
      have hwidth : ∀ f ∈ [k.edge a.low, k.edge a.high], f.length = k.edgeSize := by
        intro f hf
        rcases List.mem_cons.mp hf with rfl | hf
        · exact k.length_edge a.low
        · rw [List.mem_singleton.mp hf]
          exact k.length_edge a.high
      rw [Kind.fields_edges, Bytes.packed_block k.edgeSize_pos (List.cons_ne_nil _ _) hwidth, List.flatten_cons,
        List.flatten_singleton, List.append_assoc]
    rw [List.foldl_cons, hpair, ih, List.map_cons, List.flatMap_cons, List.append_assoc]

namespace Snapshot

variable (h : Snapshot)

/-- The header that is written begins with the bytes of the leader, each a field. -/
theorem fields_written : h.written.fields = (h.leader.map fun x => [x]) ++ binFields h.written.bins ++
    h.written.edges.flatMap Edges.fields ++ [Bytes.little 8 h.entries.toNat] := by
  have hsizes : h.written.edges.map Edges.size = h.axes.map fun _ => h.kind.edgeSize := by
    rw [edges_written, List.map_map]
    exact List.map_congr_left fun a _ => Kind.size_edges
  have hleader : (h.leader.map fun x => [x]) = h.kind.opening ++
      (sizeFields (h.written.edges.map Edges.size) ++ [[UInt8.ofNat h.kind.element.size]]) := by
    rw [hsizes, sizeFields, Kind.opening, leader, h.axes_length, List.map_append, List.map_append,
      List.map_map, List.map_map, List.append_assoc]
    rfl
  rw [hleader]
  simp only [Header.fields, List.append_assoc, List.cons_append, List.nil_append]
  rfl

theorem leader_eq_packed : h.leader = Bytes.packed (h.leader.map fun x => [x]) := by
  have hblock : Bytes.packed ([] ++ h.leader.map fun x => [x]) =
      (Bytes.packed []).aligned 1 ++ (h.leader.map fun x => [x]).flatten :=
    Bytes.packed_block Nat.one_pos (by simp [leader]) (by simp)
  rw [List.nil_append, flatten_bytes] at hblock
  exact hblock.symm

theorem length_fields_content : h.content.fields.length = cellCount h.axes :=
  (Content.length_fields _).trans h.length_content.1

/-- The entry counter ends where any bin may begin. -/
theorem header_eq : h.header = (h.axes.foldl
    (fun b a => b.aligned h.kind.edgeSize ++ h.kind.edge a.low ++ h.kind.edge a.high)
    (h.axes.foldl (fun b a => b ++ Bytes.little 4 a.bins.toNat) (h.leader.aligned 4))).aligned 8 ++
      Bytes.little 8 h.entries.toNat := by
  refine Bytes.aligned_eq_self (Nat.mod_eq_zero_of_dvd ?_)
  refine Nat.dvd_trans h.kind.element.size_dvd (Nat.dvd_of_mod_eq_zero ?_)
  rw [List.length_append, Bytes.length_little, Nat.add_mod_right]
  exact Bytes.length_aligned_mod _ (by decide)

theorem header_eq_packed : h.header = Bytes.packed h.written.fields := by
  have hnonempty : binFields h.written.bins ≠ [] := by
    refine List.ne_nil_of_length_pos ?_
    rw [binFields, List.length_map, h.written.bins_length]
    exact h.kind.dimensions_pos
  have hword : ∀ f ∈ binFields h.written.bins, f.length = 4 := by
    intro f hf
    obtain ⟨n, -, rfl⟩ := List.mem_map.mp hf
    exact Bytes.length_little 4 _
  have hcounted : h.axes.foldl (fun b a => b ++ Bytes.little 4 a.bins.toNat) (h.leader.aligned 4) =
      h.leader.aligned 4 ++ (binFields h.written.bins).flatten := by
    rw [List.foldl_append_eq_append, binFields, bins_written, List.map_map]
    rfl
  -- one block after the other, in the order of writing
  rw [header_eq, hcounted, fields_written, Bytes.packed_concat, Bytes.length_little, edges_written, ← packed_edges,
    Bytes.packed_block (by decide) hnonempty hword, ← leader_eq_packed]

/-- What is written is the header and the bins, field by field. -/
theorem encode_eq_packed : h.encode = Bytes.packed (h.written.fields ++ h.content.fields) := by
  have hnonempty : h.content.fields ≠ [] :=
    List.ne_nil_of_length_pos (h.length_fields_content ▸ cellCount_pos h.axes)
  have hbin : ∀ f ∈ h.content.fields, f.length = h.kind.element.size := fun f hf =>
    (Content.length_of_mem_fields hf).trans (congrArg Element.size h.element_eq)
  have halready : h.header.aligned h.kind.element.size = h.header :=
    Bytes.aligned_eq_self (Bytes.length_aligned_mod _ h.kind.element.size_pos)
  rw [Bytes.packed_block h.kind.element.size_pos hnonempty hbin, ← header_eq_packed, halready,
    ← Content.encode_eq]
  rfl

theorem lays_header : Lays h.header h.written.fields := h.header_eq_packed ▸ lays_packed _

theorem lays_encode : Lays h.encode (h.written.fields ++ h.content.fields) :=
  h.encode_eq_packed ▸ lays_packed _

/-! ## Reading it back -/

theorem rounded_startsIn : h.rounded.StartsIn h.encode := by
  have hrow := h.lays_encode []
  rw [List.append_nil] at hrow
  exact ⟨h.written, _, rfl, h.axes_written, rfl, h.axes_written ▸ h.rounded.length_fields_content, hrow⟩

/-- What was written is read back, with the edges rounded. -/
theorem decode_encode (hlen : h.encode.length < addressable) :
    decode h.encode = .ok h.rounded :=
  decode_eq_ok_iff.mpr ⟨h.rounded_startsIn, Nat.lt_of_le_of_lt h.rounded_startsIn.length_le hlen⟩

/-- Wide edges are not rounded. -/
theorem rounded_eq_self (hk : h.kind.element ≠ .single) : h.rounded = h := by
  have hedge : ∀ x, h.kind.roundEdge x = x := fun x => if_neg hk
  have haxes : h.axes.map h.kind.roundAxis = h.axes := by
    rw [List.map_congr_left, List.map_id]
    intro a _
    rw [Kind.roundAxis, hedge, hedge]
    rfl
  cases h with
  | mk kind axes entries content _ _ _ =>
    have haxes : axes.map kind.roundAxis = axes := haxes
    simp only [rounded, haxes]

/-- A rounded snapshot is written like the snapshot itself. -/
theorem encode_rounded : h.rounded.encode = h.encode := by
  have hleader : h.rounded.leader = h.leader := by
    simp only [leader, kind_rounded, axes_rounded, List.map_map, List.length_map]
    rfl
  have hheader : h.rounded.header = h.header := by
    simp only [header, hleader, kind_rounded, axes_rounded, entries_rounded, List.foldl_map,
      Kind.roundAxis, Kind.edge_roundEdge]
  rw [encode, encode, hheader, content_rounded]

end Snapshot

/-! ## The same snapshot -/

/-- The same axis, with one NaN for all of them. -/
def Axis.oneNaN (a : Axis) : Axis := ⟨a.bins, a.low.oneNaN, a.high.oneNaN⟩

/-- The same snapshot, all NaNs being one. -/
def Snapshot.Same (h h' : Snapshot) : Prop :=
  h.kind = h'.kind ∧ h.axes.map Axis.oneNaN = h'.axes.map Axis.oneNaN ∧ h.entries = h'.entries ∧
    h.content = h'.content

/-- Narrow edges are the same after being read back exactly if they are singles. -/
theorem Snapshot.rounded_same_iff (h : Snapshot) (hk : h.kind.element = .single) :
    h.rounded.Same h ↔ ∀ a ∈ h.axes, a.low.IsSingle ∧ a.high.IsSingle := by
  have haxis : ∀ a, (h.kind.roundAxis a).oneNaN = a.oneNaN ↔ a.low.IsSingle ∧ a.high.IsSingle := by
    intro a
    rw [← Double.oneNaN_narrow_widen_iff, ← Double.oneNaN_narrow_widen_iff, Axis.oneNaN, Axis.oneNaN,
      Kind.roundAxis, Kind.roundEdge, Kind.roundEdge, if_pos hk, if_pos hk, Axis.mk.injEq]
    exact and_iff_right rfl
  have hsame : h.rounded.Same h ↔ h.axes.map (fun a => (h.kind.roundAxis a).oneNaN) =
      h.axes.map Axis.oneNaN := by
    constructor
    · rintro ⟨-, haxes, -, -⟩
      rwa [axes_rounded, List.map_map] at haxes
    · intro haxes
      exact ⟨rfl, by rwa [axes_rounded, List.map_map], rfl, rfl⟩
  rw [hsame, List.map_inj_left]
  exact forall_congr' fun a => imp_congr_right fun _ => haxis a

/-- **What is written is read back.** Every snapshot that fits into a buffer is encoded so that decoding
gives it back: the kind, the bin counts, the entry counter and the content unchanged, and the edges
unchanged if the bins are doubles or counters, rounded to singles and back if they are singles. Then it is
the same snapshot exactly if its edges are singles. Encoding what was decoded gives the same bytes. -/
theorem encode_round_trip (h : Snapshot) (hlen : h.encode.length < 0x8000000000000000) :
    ∃ h', Snapshot.decode h.encode = .ok h' ∧
      h'.kind = h.kind ∧ h'.entries = h.entries ∧ h'.content = h.content ∧
      h'.axes = h.axes.map (fun a => if h.kind.element = .single
        then ⟨a.bins, a.low.narrow.widen, a.high.narrow.widen⟩ else a) ∧
      (h.kind.element ≠ .single → h' = h) ∧
      (h.kind.element = .single →
        (h'.Same h ↔ ∀ a ∈ h.axes, a.low.IsSingle ∧ a.high.IsSingle)) ∧
      h'.encode = h.encode := by
  refine ⟨h.rounded, h.decode_encode (Nat.lt_trans hlen (by decide)), rfl, rfl, rfl, ?_,
    h.rounded_eq_self, h.rounded_same_iff, h.encode_rounded⟩
  refine List.map_congr_left fun a _ => ?_
  rw [Kind.roundAxis, Kind.roundEdge, Kind.roundEdge]
  split <;> rfl

/-- A series whose low edge, a tenth, is no single, and one of whose bins is a signaling NaN. -/
def tenthSeries : Snapshot where
  kind := .series32
  axes := [⟨1, ⟨0x3FB999999999999A⟩, ⟨0x3FF0000000000000⟩⟩]
  entries := 7
  content := .singles [⟨0⟩, ⟨0x7F800001⟩, ⟨0x3F800000⟩]
  axes_length := rfl
  element_eq := rfl
  totalBins_eq := rfl

/-- Its edge is rounded, its bins are not. -/
theorem tenthSeries_round_trip : ∃ h', Snapshot.decode tenthSeries.encode = .ok h' ∧
    h'.axes = [⟨1, ⟨0x3FB99999A0000000⟩, ⟨0x3FF0000000000000⟩⟩] ∧ h'.content = tenthSeries.content := by
  obtain ⟨h', hdecode, -, -, hcontent, haxes, -⟩ := encode_round_trip tenthSeries (by decide)
  exact ⟨h', hdecode, haxes.trans (by decide), hcontent⟩

end HistogramMonitor
