import HistogramMonitor.Proofs.Histogram.Reading

/-!
# Reading the header

`reads_header`: everything before the content is read exactly along the fields of a `Header`, and what
else there may be is refused for the first field that is missing or wrong.

The leading bytes are checked one by one, each before the next is read. Behind them nothing can be wrong
any more: the bin counts, the edges and the entry counter may be any numbers.
-/

namespace HistogramMonitor.Reader

variable {c : Cursor} {e : DecodeError}

/-! ## The leading fields -/

theorem toNat_eq_dimensions_iff {v : UInt8} {k : Kind} :
    v.toNat = k.dimensions ↔ UInt8.ofNat k.dimensions = v := by
  have hk : (UInt8.ofNat k.dimensions).toNat = k.dimensions := by cases k <;> rfl
  rw [← UInt8.toNat_inj, hk, eq_comm]

/-- The number of axes of a kind. -/
theorem reads_dimensions (k : Kind) :
    Reads (byte >>= fun found => if found.toNat = k.dimensions then pure k
        else (throw (.dimensions k found) : Reader PUnit) >>= fun _ => pure k)
      Anywhere (· = k) (fun i => i) (fun i => [[UInt8.ofNat i.dimensions]])
      fun c e => ∃ found c₁, Row c [[found]] c₁ ∧ found.toNat ≠ k.dimensions ∧ e = .dimensions k found := by
  refine (reads_checked_byte (·.toNat = k.dimensions) (fun i => UInt8.ofNat i.dimensions)
    (.dimensions k) (fun _ => NeverWrong) ?_ ?_ ?_ ?_).reindex
    (fun i hi => ⟨i, hi, rfl, rfl⟩) (fun i hi => ⟨i, hi, rfl, rfl⟩) (by simp [NeverWrong])
  · intro v hv
    rw [if_pos hv]
    exact Reads.pure ⟨k, rfl, toNat_eq_dimensions_iff.mp hv⟩ fun i hi => hi.1
  · intro v c hv
    rw [if_neg hv]
    rfl
  · rintro i rfl
    exact toNat_eq_dimensions_iff.mpr rfl
  · exact ⟨k, rfl⟩

/-- The kind with this tag, and then the number of its axes. -/
theorem reads_tag : Reads (byte >>= fun tag => match Kind.ofTag? tag.toNat with
      | some k => byte >>= fun found => if found.toNat = k.dimensions then pure k
        else (throw (.dimensions k found) : Reader PUnit) >>= fun _ => pure k
      | _ => throw (.kind tag))
    Anywhere (fun _ => True) (fun k => k) (fun k => [[k.tag], [UInt8.ofNat k.dimensions]])
    fun c e => ∃ tag c₁, Row c [[tag]] c₁ ∧ (((∀ k : Kind, k.tag ≠ tag) ∧ e = .kind tag) ∨
      ∃ (k : Kind) (found : UInt8) (c₂ : Cursor), k.tag = tag ∧ Row c₁ [[found]] c₂ ∧
        found.toNat ≠ k.dimensions ∧ e = .dimensions k found) := by
  refine (reads_checked_byte (fun tag => ∃ k : Kind, k.tag = tag) Kind.tag .kind
    (fun tag c e => ∃ (k : Kind) (found : UInt8) (c₁ : Cursor), k.tag = tag ∧ Row c [[found]] c₁ ∧
      found.toNat ≠ k.dimensions ∧ e = .dimensions k found)
    ?_ ?_ (fun k _ => ⟨k, rfl⟩) ⟨.series32, trivial⟩).reindex
    (fun k _ => ⟨k, trivial, rfl, rfl⟩) (fun k _ => ⟨k, trivial, rfl, rfl⟩) ?_
  · rintro tag ⟨k, rfl⟩
    rw [Kind.ofTag?_tag]
    refine (reads_dimensions k).reindex ?_ ?_ ?_
    · rintro i rfl
      exact ⟨i, ⟨trivial, rfl⟩, rfl, rfl⟩
    · rintro i ⟨-, htag⟩
      exact ⟨i, Kind.tag_inj.mp htag, rfl, rfl⟩
    · intro c e
      constructor
      · rintro ⟨found, c₁, hrow, hfound⟩
        exact ⟨k, found, c₁, rfl, hrow, hfound⟩
      · rintro ⟨i, found, c₁, htag, hrow, hfound⟩
        obtain rfl := Kind.tag_inj.mp htag
        exact ⟨found, c₁, hrow, hfound⟩
  · intro tag c htag
    rw [Kind.ofTag?_eq_none_iff.mpr fun k hk => htag ⟨k, hk⟩]
    rfl
  · intro c e
    refine exists_congr fun tag => exists_congr fun c₁ => and_congr_right fun _ => ?_
    rw [not_exists]
    refine or_congr_right ?_
    constructor
    · exact fun h => h.2
    · rintro ⟨k, found, c₂, htag, hmore⟩
      exact ⟨⟨k, htag⟩, k, found, c₂, htag, hmore⟩

theorem reads_kind : Reads kind Anywhere (fun _ => True) (fun k => k) Kind.opening
    fun c e => ∃ v c₁, Row c [[v]] c₁ ∧ ((v ≠ 1 ∧ e = .version v) ∨ v = 1 ∧
      ∃ tag c₂, Row c₁ [[tag]] c₂ ∧ (((∀ k : Kind, k.tag ≠ tag) ∧ e = .kind tag) ∨
        ∃ (k : Kind) (found : UInt8) (c₃ : Cursor), k.tag = tag ∧ Row c₂ [[found]] c₃ ∧
          found.toNat ≠ k.dimensions ∧ e = .dimensions k found)) := by
  have hone : ∀ v : UInt8, v.toNat = formatVersion ↔ v = 1 := by
    intro v
    rw [← UInt8.toNat_inj]
    rfl
  refine reads_checked_byte (· = 1) (fun _ => 1) .version _ ?_ ?_ (fun _ _ => rfl) ⟨.series32, trivial⟩
  · rintro v rfl
    exact reads_tag.reindex (fun k _ => ⟨k, ⟨trivial, rfl⟩, rfl, rfl⟩) (fun k _ => ⟨k, trivial, rfl, rfl⟩)
      fun _ _ => Iff.rfl
  · intro v c hv
    rw [if_neg (mt (hone v).mp hv)]
    rfl

theorem reads_abscissaSize : Reads abscissaSize Anywhere (fun n => n = 4 ∨ n = 8) (fun n => n)
    (fun n => [[UInt8.ofNat n]])
    fun c e => ∃ size c₁, Row c [[size]] c₁ ∧ ¬ (size = 4 ∨ size = 8) ∧ e = .abscissaSize size := by
  refine (reads_checked_byte (fun size => size = 4 ∨ size = 8) UInt8.ofNat .abscissaSize
    (fun _ => NeverWrong) ?_ ?_ ?_ ⟨4, .inl rfl⟩).reindex
    (fun n hn => ⟨n, hn, rfl, rfl⟩) (fun n hn => ⟨n, hn, rfl, rfl⟩) (by simp [NeverWrong])
  · intro size hsize
    rw [if_pos hsize]
    refine Reads.pure ⟨size.toNat, ?_, UInt8.ofNat_toNat⟩ ?_
    · rcases hsize with rfl | rfl
      · exact .inl rfl
      · exact .inr rfl
    · rintro n ⟨rfl | rfl, rfl⟩ <;> rfl
  · intro size c hsize
    rw [if_neg hsize]
    rfl
  · rintro n (rfl | rfl)
    · exact .inl rfl
    · exact .inr rfl

/-- The edge sizes of the axes. -/
theorem reads_sizes (n : Nat) : Reads ((List.replicate n ()).mapM fun _ => abscissaSize) Anywhere
    (fun sizes => (∀ m ∈ sizes, m = 4 ∨ m = 8) ∧ sizes.length = n) (fun sizes => sizes) sizeFields
    fun c e => ∃ (sizes : List Nat) (size : UInt8) (c₁ : Cursor), (∀ m ∈ sizes, m = 4 ∨ m = 8) ∧
      sizes.length < n ∧ Row c (sizeFields sizes ++ [[size]]) c₁ ∧ ¬ (size = 4 ∨ size = 8) ∧
        e = .abscissaSize size := by
  refine (reads_abscissaSize.times (fun _ _ _ _ _ _ => trivial) ⟨4, .inl rfl⟩ n).reindex ?_ ?_ ?_
  · exact fun sizes hsizes => ⟨sizes, hsizes, (List.map_id sizes).symm, List.map_eq_flatMap⟩
  · exact fun sizes hsizes => ⟨sizes, hsizes, List.map_id sizes, List.map_eq_flatMap.symm⟩
  · intro c e
    constructor
    · rintro ⟨sizes, c₁, hsizes, hlen, hrow, size, c₂, hbyte, hsize, rfl⟩
      rw [← List.map_eq_flatMap] at hrow
      exact ⟨sizes, size, c₂, hsizes, hlen, row_append_iff.mpr ⟨c₁, hrow, hbyte⟩, hsize, rfl⟩
    · rintro ⟨sizes, size, c₂, hsizes, hlen, hrow, hsize, rfl⟩
      obtain ⟨c₁, hrow, hbyte⟩ := row_append_iff.mp hrow
      rw [sizeFields, List.map_eq_flatMap] at hrow
      exact ⟨sizes, c₁, hsizes, hlen, hrow, size, c₂, hbyte, hsize, rfl⟩

/-- The bin size, which can be wrong in two ways. -/
theorem reads_ordinateSize (k : Kind) : Reads (ordinateSize k) Anywhere (fun _ : Unit => True)
    (fun _ => ()) (fun _ => [[UInt8.ofNat k.element.size]])
    fun c e => ∃ size c₁, Row c [[size]] c₁ ∧ ((¬ (size = 4 ∨ size = 8) ∧ e = .ordinateSize size) ∨
      ((size = 4 ∨ size = 8) ∧ size.toNat ≠ k.element.size ∧ e = .ordinateMismatch k size)) := by
  have hknown : ∀ size : UInt8, size.toNat = k.element.size → size = 4 ∨ size = 8 := by
    intro size hsize
    rw [← UInt8.toNat_inj, ← UInt8.toNat_inj, hsize]
    cases k.element <;> decide
  have hsize : (UInt8.ofNat k.element.size).toNat = k.element.size := by cases k.element <;> rfl
  refine (reads_checked_byte (·.toNat = k.element.size) (fun _ => UInt8.ofNat k.element.size)
    (fun size => if size = 4 ∨ size = 8 then .ordinateMismatch k size else .ordinateSize size)
    (fun _ => NeverWrong) ?_ ?_ ?_ ⟨(), trivial⟩).reindex
    (fun u _ => ⟨u, trivial, rfl, rfl⟩) (fun u _ => ⟨u, trivial, rfl, rfl⟩) ?_
  · intro size hfound
    rw [if_pos (hknown size hfound), if_pos hfound]
    refine Reads.pure ⟨(), trivial, ?_⟩ fun _ _ => rfl
    rw [← UInt8.toNat_inj, hsize, hfound]
  · intro size c hfound
    by_cases hs : size = 4 ∨ size = 8
    · rw [if_pos hs, if_pos hs, if_neg hfound]
      rfl
    · rw [if_neg hs, if_neg hs]
      rfl
  · exact fun _ _ => hsize
  · intro c e
    refine exists_congr fun size => exists_congr fun c₁ => and_congr_right fun _ => ?_
    by_cases hs : size = 4 ∨ size = 8
    · simp [hs, NeverWrong]
    · simp [hs, NeverWrong, mt (hknown size) hs]

/-! ## The fields behind them -/

theorem reads_word : Reads (field 4) (fun c => c.offset % 4 = 0) (fun _ : UInt32 => True)
    UInt32.toNat (fun n => [Bytes.little 4 n.toNat]) NeverWrong := by
  refine reads_field.reindex ?_ ?_ fun _ _ => Iff.rfl
  · intro n hn
    have hcast : (UInt32.ofNat n).toNat = n := UInt32.toNat_ofNat_of_lt hn
    exact ⟨UInt32.ofNat n, trivial, hcast, by rw [hcast]⟩
  · intro n _
    exact ⟨n.toNat, n.toNat_lt, rfl, rfl⟩

theorem reads_long : Reads (field 8) (fun c => c.offset % 8 = 0) (fun _ : UInt64 => True)
    UInt64.toNat (fun n => [Bytes.little 8 n.toNat]) NeverWrong := by
  refine reads_field.reindex ?_ ?_ fun _ _ => Iff.rfl
  · intro n hn
    have hcast : (UInt64.ofNat n).toNat = n := UInt64.toNat_ofNat_of_lt hn
    exact ⟨UInt64.ofNat n, trivial, hcast, by rw [hcast]⟩
  · intro n _
    exact ⟨n.toNat, n.toNat_lt, rfl, rfl⟩

/-- The bin counts, one for each axis. -/
theorem reads_bins {sizes : List Nat} (hpos : 0 < sizes.length) :
    Reads (align 4 >>= fun _ => sizes.mapM fun _ => field 4) Anywhere
      (fun bins : List UInt32 => bins.length = sizes.length) (fun bins => bins.map UInt32.toNat)
      binFields NeverWrong := by
  -- of the edge sizes only their number matters here
  have hconst : sizes.mapM (fun _ => field 4) =
      (List.replicate sizes.length ()).mapM fun _ => field 4 := by
    rw [← List.map_const', List.mapM_map]
    rfl
  have hword : ∀ (n : UInt32) (c c' : Cursor), True → c.offset % 4 = 0 →
      Row c [Bytes.little 4 n.toNat] c' → c'.offset % 4 = 0 :=
    fun n c c' _ _ hrow => hrow.offset_mod (Bytes.length_little 4 _) (by decide)
  rw [hconst]
  refine Reads.aligned ((reads_word.times hword ⟨0, trivial⟩ sizes.length).reindex ?_ ?_ ?_)
    (by decide) ?_
  · rintro bins ⟨-, hlen⟩
    exact ⟨bins, hlen, rfl, List.map_eq_flatMap⟩
  · intro bins hlen
    exact ⟨bins, ⟨fun _ _ => trivial, hlen⟩, rfl, List.map_eq_flatMap.symm⟩
  · simp [NeverWrong]
  · intro bins hlen
    cases bins with
    | nil => exact absurd hlen (Nat.ne_of_lt hpos)
    | cons n bins => exact ⟨Bytes.little 4 n.toNat, binFields bins, rfl, Bytes.length_little 4 _⟩

theorem reads_entries : Reads (align 8 >>= fun _ => field 8) Anywhere (fun _ : UInt64 => True)
    UInt64.toNat (fun n => [Bytes.little 8 n.toNat]) NeverWrong :=
  reads_long.aligned (by decide) fun n _ => ⟨_, [], rfl, Bytes.length_little 8 _⟩

theorem reads_single_edge : Reads (edge 4) (fun c => c.offset % 4 = 0) (fun _ : Single => True)
    Single.widen (fun x => [Bytes.little 4 x.bits.toNat]) NeverWrong := by
  refine (reads_word.map fun n => Single.widen ⟨UInt32.ofNat n⟩).reindex ?_ ?_ fun _ _ => Iff.rfl
  · intro n _
    exact ⟨⟨n⟩, trivial, by rw [UInt32.ofNat_toNat], rfl⟩
  · intro x _
    exact ⟨x.bits, trivial, by rw [UInt32.ofNat_toNat], rfl⟩

theorem reads_double_edge : Reads (edge 8) (fun c => c.offset % 8 = 0) (fun _ : Double => True)
    (fun x => x) (fun x => [Bytes.little 8 x.bits.toNat]) NeverWrong := by
  refine (reads_long.map fun n => (⟨UInt64.ofNat n⟩ : Double)).reindex ?_ ?_ fun _ _ => Iff.rfl
  · intro n _
    exact ⟨⟨n⟩, trivial, by rw [UInt64.ofNat_toNat], rfl⟩
  · intro x _
    exact ⟨x.bits, trivial, by rw [UInt64.ofNat_toNat], rfl⟩

/-- An axis is two edges of one size. -/
theorem reads_two_edges {ε : Type} [Inhabited ε] {value : ε → Double} {bytes : ε → Bytes} {n size : Nat}
    (h : Reads (edge size) (fun c => c.offset % size = 0) (fun _ : ε => True) value
      (fun x => [bytes x]) NeverWrong)
    (hpos : 0 < size) (hlen : ∀ x, (bytes x).length = size) :
    Reads (axis n size) Anywhere (fun _ : ε × ε => True)
      (fun p => ⟨UInt32.ofNat n, value p.1, value p.2⟩) (fun p => [bytes p.1, bytes p.2])
      NeverWrong := by
  have hstay : ∀ (x : ε) (c c' : Cursor), True → c.offset % size = 0 → Row c [bytes x] c' →
      c'.offset % size = 0 :=
    fun x c c' _ _ hrow => hrow.offset_mod (hlen x) hpos
  refine Reads.aligned (w := size) ((h.bind (fun low _ => h.map fun high =>
    (⟨UInt32.ofNat n, value low, high⟩ : Axis)) hstay fun _ _ => ⟨default, trivial⟩).reindex ?_ ?_ ?_)
    hpos ?_
  · exact fun p _ => ⟨p, trivial, rfl, rfl⟩
  · exact fun p _ => ⟨p, ⟨trivial, trivial⟩, rfl, rfl⟩
  · simp [NeverWrong]
  · exact fun p _ => ⟨_, _, rfl, hlen p.1⟩

/-- An axis, whose edges are of the size that was read for it. -/
theorem reads_axis {n size : Nat} (hsize : size = 4 ∨ size = 8) :
    Reads (axis n size) Anywhere (fun e : Edges => e.size = size)
      (fun e => ⟨UInt32.ofNat n, e.low, e.high⟩) Edges.fields NeverWrong := by
  rcases hsize with rfl | rfl
  · refine (reads_two_edges reads_single_edge (by decide) fun x => Bytes.length_little 4 _).reindex
      ?_ ?_ fun _ _ => Iff.rfl
    · rintro ⟨low, high⟩ -
      exact ⟨.singles low high, rfl, rfl, rfl⟩
    · intro e he
      cases e with
      | singles low high => exact ⟨(low, high), trivial, rfl, rfl⟩
      | doubles low high => cases he
  · refine (reads_two_edges reads_double_edge (by decide) fun x => Bytes.length_little 8 _).reindex
      ?_ ?_ fun _ _ => Iff.rfl
    · rintro ⟨low, high⟩ -
      exact ⟨.doubles low high, rfl, rfl, rfl⟩
    · intro e he
      cases e with
      | singles low high => cases he
      | doubles low high => exact ⟨(low, high), trivial, rfl, rfl⟩

/-- There are edges of any sizes. -/
theorem exists_edges {sizes : List Nat} (hsizes : ∀ n ∈ sizes, n = 4 ∨ n = 8) :
    ∃ edges : List Edges, edges.map Edges.size = sizes := by
  refine ⟨sizes.map fun n => if n = 4 then .singles ⟨0⟩ ⟨0⟩ else .doubles ⟨0⟩ ⟨0⟩, ?_⟩
  rw [List.map_map, List.map_congr_left, List.map_id]
  intro n hn
  rcases hsizes n hn with rfl | rfl <;> rfl

/-- The axes, of which the bin counts and the edge sizes were read before. -/
theorem reads_axes {bins : List UInt32} {sizes : List Nat} (hlen : bins.length = sizes.length)
    (hsizes : ∀ n ∈ sizes, n = 4 ∨ n = 8) :
    Reads (((bins.map UInt32.toNat).zip sizes).mapM fun (n, size) => axis n size) Anywhere
      (fun edges : List Edges => edges.map Edges.size = sizes)
      (fun edges => List.zipWith (fun n e => ⟨n, e.low, e.high⟩) bins edges)
      (fun edges => edges.flatMap Edges.fields) NeverWrong := by
  induction bins generalizing sizes with
  | nil =>
    obtain rfl := List.eq_nil_of_length_eq_zero hlen.symm
    rw [List.map_nil, List.zip_nil_left, List.mapM_nil]
    have hnone : Reads (pure ([] : List Axis)) Anywhere (fun _ : Unit => True) (fun _ => [])
        (fun _ => []) NeverWrong :=
      Reads.pure ⟨(), trivial⟩ fun _ _ => rfl
    refine hnone.reindex (fun _ _ => ⟨[], rfl, rfl, rfl⟩) ?_ fun _ _ => Iff.rfl
    intro edges hedges
    obtain rfl := List.map_eq_nil_iff.mp hedges
    exact ⟨(), trivial, rfl, rfl⟩
  | cons n bins ih =>
    obtain ⟨size, sizes, rfl⟩ := List.exists_cons_of_length_eq_add_one hlen.symm
    obtain ⟨hsize, hsizes⟩ := List.forall_mem_cons.mp hsizes
    rw [List.map_cons, List.zip_cons_cons, List.mapM_cons]
    -- the edges of an axis tell which size was read for it, so the sizes are those of the edges
    refine ((reads_axis hsize).bind (fun e _ => (ih (Nat.succ.inj hlen) hsizes).map
      (⟨UInt32.ofNat n.toNat, e.low, e.high⟩ :: ·)) (fun _ _ _ _ _ _ => trivial)
      fun _ _ => exists_edges hsizes).reindex ?_ ?_ (by simp [NeverWrong])
    · rintro ⟨e, edges⟩ ⟨rfl, rfl⟩
      exact ⟨e :: edges, rfl, by rw [UInt32.ofNat_toNat]; rfl, rfl⟩
    · intro edges hedges
      obtain ⟨e, edges, rfl, hfirst, hothers⟩ := List.map_eq_cons_iff.mp hedges
      exact ⟨(e, edges), ⟨hfirst, hothers⟩, by rw [UInt32.ofNat_toNat]; rfl, rfl⟩

/-! ## The header -/

/-- Reading up to the content: the kind, the axes and the entry counter. -/
def header : Reader (Kind × List Axis × Nat) := do
  let kind ← kind
  let sizes ← (List.replicate kind.dimensions ()).mapM fun _ => abscissaSize
  ordinateSize kind
  let bins ← align 4 >>= fun _ => sizes.mapM fun _ => field 4
  let axes ← (bins.zip sizes).mapM fun (n, size) => axis n size
  let entries ← align 8 >>= fun _ => field 8
  return (kind, axes, entries)

/-- Reading the content that a header calls for. -/
def body (kind : Kind) (axes : List Axis) (entries : Nat) : Reader Snapshot := do
  align kind.element.size
  let some n := totalBins axes | throw .tooManyBins
  let content ← content kind.element n
  Snapshot.make? kind axes (UInt64.ofNat entries) content

theorem snapshot_eq : snapshot = header >>= fun (kind, axes, entries) => body kind axes entries := by
  simp only [header, bind_assoc, pure_bind]
  rfl

/-- The fields behind the bin size, which cannot be wrong: bin counts, axes and entry counter. -/
theorem reads_remainder (k : Kind) {sizes : List Nat} (hsizes : ∀ n ∈ sizes, n = 4 ∨ n = 8)
    (hpos : 0 < sizes.length) :
    Reads (do
        let bins ← align 4 >>= fun _ => sizes.mapM fun _ => field 4
        let axes ← (bins.zip sizes).mapM fun (n, size) => axis n size
        let entries ← align 8 >>= fun _ => field 8
        return (k, axes, entries)) Anywhere
      (fun p : List UInt32 × List Edges × UInt64 =>
        p.1.length = sizes.length ∧ p.2.1.map Edges.size = sizes)
      (fun p => (k, List.zipWith (fun n e => ⟨n, e.low, e.high⟩) p.1 p.2.1, p.2.2.toNat))
      (fun p => binFields p.1 ++ (p.2.1.flatMap Edges.fields ++ [Bytes.little 8 p.2.2.toNat]))
      NeverWrong := by
  obtain ⟨edges, hedges⟩ := exists_edges hsizes
  refine ((reads_bins hpos).bind (fun bins hbins => (reads_axes hbins hsizes).bind
    (fun edges _ => reads_entries.map fun n =>
      (k, List.zipWith (fun n e => (⟨n, e.low, e.high⟩ : Axis)) bins edges, n))
    (fun _ _ _ _ _ _ => trivial) fun _ _ => ⟨0, trivial⟩)
    (fun _ _ _ _ _ _ => trivial) fun _ _ => ⟨(edges, 0), hedges, trivial⟩).reindex ?_ ?_ ?_
  · rintro p ⟨hbins, hedges, -⟩
    exact ⟨p, ⟨hbins, hedges⟩, rfl, rfl⟩
  · rintro p ⟨hbins, hedges⟩
    exact ⟨p, ⟨hbins, hedges, trivial⟩, rfl, rfl⟩
  · simp [NeverWrong]

/-- What is wrong with the first of the leading fields that is, in the order of reading. -/
theorem invalid_iff : Invalid c e ↔
    (∃ v c₁, Row c [[v]] c₁ ∧ ((v ≠ 1 ∧ e = .version v) ∨ v = 1 ∧
      ∃ tag c₂, Row c₁ [[tag]] c₂ ∧ (((∀ k : Kind, k.tag ≠ tag) ∧ e = .kind tag) ∨
        ∃ (k : Kind) (found : UInt8) (c₃ : Cursor), k.tag = tag ∧ Row c₂ [[found]] c₃ ∧
          found.toNat ≠ k.dimensions ∧ e = .dimensions k found))) ∨
    ∃ (k : Kind) (c₁ : Cursor), Row c k.opening c₁ ∧
      ((∃ (sizes : List Nat) (size : UInt8) (c₂ : Cursor), (∀ m ∈ sizes, m = 4 ∨ m = 8) ∧
        sizes.length < k.dimensions ∧ Row c₁ (sizeFields sizes ++ [[size]]) c₂ ∧
          ¬ (size = 4 ∨ size = 8) ∧ e = .abscissaSize size) ∨
      ∃ (sizes : List Nat) (c₂ : Cursor), ((∀ m ∈ sizes, m = 4 ∨ m = 8) ∧
        sizes.length = k.dimensions) ∧ Row c₁ (sizeFields sizes) c₂ ∧
          ∃ size c₃, Row c₂ [[size]] c₃ ∧ ((¬ (size = 4 ∨ size = 8) ∧ e = .ordinateSize size) ∨
            ((size = 4 ∨ size = 8) ∧ size.toNat ≠ k.element.size ∧ e = .ordinateMismatch k size))) := by
  constructor
  · intro h
    cases h with
    | version read wrong => exact .inl ⟨_, _, read, .inl ⟨wrong, rfl⟩⟩
    | kind read wrong =>
      obtain ⟨c₁, hv, htag⟩ := row_cons_iff.mp read
      exact .inl ⟨1, c₁, hv, .inr ⟨rfl, _, _, htag, .inl ⟨wrong, rfl⟩⟩⟩
    | dimensions read wrong =>
      obtain ⟨c₁, hv, read⟩ := row_cons_iff.mp read
      obtain ⟨c₂, htag, hfound⟩ := row_cons_iff.mp read
      exact .inl ⟨1, c₁, hv, .inr ⟨rfl, _, c₂, htag, .inr ⟨_, _, _, rfl, hfound, wrong, rfl⟩⟩⟩
    | abscissaSize fine fewer read wrong =>
      obtain ⟨c₁, hkind, read⟩ := row_append_iff.mp read
      exact .inr ⟨_, c₁, hkind, .inl ⟨_, _, _, fine, fewer, read, wrong, rfl⟩⟩
    | ordinateSize fine all read wrong =>
      obtain ⟨c₁, hkind, read⟩ := row_append_iff.mp read
      obtain ⟨c₂, hsizes, hsize⟩ := row_append_iff.mp read
      exact .inr ⟨_, c₁, hkind, .inr ⟨_, c₂, ⟨fine, all⟩, hsizes, _, _, hsize, .inl ⟨wrong, rfl⟩⟩⟩
    | ordinateMismatch fine all read known wrong =>
      obtain ⟨c₁, hkind, read⟩ := row_append_iff.mp read
      obtain ⟨c₂, hsizes, hsize⟩ := row_append_iff.mp read
      exact .inr ⟨_, c₁, hkind, .inr ⟨_, c₂, ⟨fine, all⟩, hsizes, _, _, hsize,
        .inr ⟨known, wrong, rfl⟩⟩⟩
  · rintro (⟨v, c₁, hv, ⟨hwrong, rfl⟩ | ⟨rfl, tag, c₂, htag, hwrong⟩⟩ | ⟨k, c₁, hkind, hwrong⟩)
    · exact .version hv hwrong
    · rcases hwrong with ⟨hwrong, rfl⟩ | ⟨k, found, c₃, rfl, hfound, hwrong, rfl⟩
      · exact .kind (row_cons_iff.mpr ⟨c₁, hv, htag⟩) hwrong
      · exact .dimensions
          (row_cons_iff.mpr ⟨c₁, hv, row_cons_iff.mpr ⟨c₂, htag, hfound⟩⟩) hwrong
    · rcases hwrong with ⟨sizes, size, c₂, fine, fewer, hsize, hwrong, rfl⟩ |
        ⟨sizes, c₂, ⟨fine, all⟩, hsizes, size, c₃, hsize, hwrong⟩
      · exact .abscissaSize fine fewer (row_append_iff.mpr ⟨c₁, hkind, hsize⟩) hwrong
      · have hrow := row_append_iff.mpr ⟨c₁, hkind, row_append_iff.mpr ⟨c₂, hsizes, hsize⟩⟩
        rcases hwrong with ⟨hwrong, rfl⟩ | ⟨known, hwrong, rfl⟩
        · exact .ordinateSize fine all hrow hwrong
        · exact .ordinateMismatch fine all hrow known hwrong

/-- **Reading the header.** It comes to the kind, the axes and the entry counter of a header exactly along
the fields of that header; if the buffer ends before one of them does, or with the first of the leading
fields that is wrong, it fails. -/
theorem reads_header : Reads header Anywhere (fun _ : Header => True)
    (fun h => (h.kind, h.axes, h.entries.toNat)) Header.fields Invalid := by
  have hremainder : ∀ {sizes : List Nat}, (∀ n ∈ sizes, n = 4 ∨ n = 8) →
      ∃ p : List UInt32 × List Edges × UInt64,
        p.1.length = sizes.length ∧ p.2.1.map Edges.size = sizes := by
    intro sizes hsizes
    obtain ⟨edges, hedges⟩ := exists_edges hsizes
    exact ⟨(List.replicate sizes.length 0, edges, 0), List.length_replicate, hedges⟩
  have hsizes : ∀ n : Nat, ∃ sizes : List Nat, (∀ m ∈ sizes, m = 4 ∨ m = 8) ∧ sizes.length = n :=
    fun n => ⟨List.replicate n 4, fun m hm => .inl (List.eq_of_mem_replicate hm), List.length_replicate⟩
  refine (reads_kind.bind (fun k _ => (reads_sizes k.dimensions).bind (fun sizes hsizes =>
    (reads_ordinateSize k).bind (fun _ _ => reads_remainder k hsizes.1 (hsizes.2 ▸ k.dimensions_pos))
      (fun _ _ _ _ _ _ => trivial) fun _ _ => hremainder hsizes.1)
      (fun _ _ _ _ _ _ => trivial) fun sizes hsizes => ?_)
      (fun _ _ _ _ _ _ => trivial) fun k _ => ?_).reindex ?_ ?_ ?_
  · obtain ⟨p, hp⟩ := hremainder hsizes.1
    exact ⟨((), p), trivial, hp⟩
  · obtain ⟨sizes, hlen⟩ := hsizes k.dimensions
    obtain ⟨p, hp⟩ := hremainder hlen.1
    exact ⟨(sizes, (), p), hlen, trivial, hp⟩
  · rintro ⟨k, sizes, u, bins, edges, entries⟩ ⟨_, ⟨_, hlen⟩, _, hbins, hedges⟩
    have hbins : bins.length = sizes.length := hbins
    have hlen : sizes.length = k.dimensions := hlen
    have hedges : edges.map Edges.size = sizes := hedges
    subst hedges
    rw [List.length_map] at hlen hbins
    exact ⟨⟨k, bins, edges, entries, hbins.trans hlen, hlen⟩, trivial, rfl, rfl⟩
  · rintro ⟨k, bins, edges, entries, hbins, hedges⟩ _
    have hlen : (edges.map Edges.size).length = k.dimensions := by rw [List.length_map, hedges]
    refine ⟨(k, edges.map Edges.size, (), bins, edges, entries),
      ⟨trivial, ⟨?_, hlen⟩, trivial, hbins.trans hlen.symm, rfl⟩, rfl, rfl⟩
    intro n hn
    obtain ⟨e, -, rfl⟩ := List.mem_map.mp hn
    exact e.size_eq
  · intro c e
    simp [invalid_iff, NeverWrong]

end HistogramMonitor.Reader
