import HistogramMonitor.Proofs.Histogram.Header

/-!
# What is accepted

`Snapshot.decode` accepts exactly the buffers that start with a snapshot, and refuses every other with the
first fault that it has. Up to the content this is `reads_header`; here the content comes to it.

Content is looked for only where there is room for it. So a reader of content does not run into the end of
the buffer: it weighs the length of the content against what is left, and that has to be the same as
whether the buffer holds so many fields (`content_eq_ok_iff`).
-/

namespace HistogramMonitor

/-! ## Counting cells -/

theorem cellCount_pos (axes : List Axis) : 0 < cellCount axes := by
  induction axes with
  | nil => exact Nat.one_pos
  | cons a axes ih => exact Nat.mul_pos (Nat.succ_pos _) ih

/-- The bins are counted as long as no partial product is too large, but that depends on the whole product
alone: no axis is without cells. -/
theorem totalBins_eq (axes : List Axis) :
    totalBins axes = if cellCount axes < addressable then some (cellCount axes) else none := by
  have hfold : ∀ (axes : List Axis) (m : Nat), m < addressable →
      axes.foldlM (fun n a => checkedMul n a.cells) m =
        if m * cellCount axes < addressable then some (m * cellCount axes) else none := by
    intro axes
    induction axes with
    | nil =>
      intro m hm
      rw [cellCount, List.foldr_nil, Nat.mul_one, if_pos hm]
      rfl
    | cons a axes ih =>
      intro m hm
      have hassoc : m * cellCount (a :: axes) = m * a.cells * cellCount axes :=
        (Nat.mul_assoc _ _ _).symm
      rw [List.foldlM_cons, checkedMul, hassoc]
      by_cases hlt : m * a.cells < addressable
      · rw [if_pos hlt]
        exact ih _ hlt
      · -- once it is too large, the product stays so
        have hle : m * a.cells ≤ m * a.cells * cellCount axes :=
          Nat.le_mul_of_pos_right _ (cellCount_pos axes)
        rw [if_neg hlt, if_neg (by omega)]
        rfl
  have hone := hfold axes 1 (by decide)
  rwa [Nat.one_mul] at hone

/-- A snapshot has a bin for every cell, and these are not too many. -/
theorem Snapshot.length_content (h : Snapshot) :
    h.content.length = cellCount h.axes ∧ cellCount h.axes < addressable := by
  have htotal := h.totalBins_eq
  rw [HistogramMonitor.totalBins_eq] at htotal
  split at htotal
  · rename_i hfits
    exact ⟨(Option.some.inj htotal).symm, hfits⟩
  · cases htotal

/-! ## Content as fields -/

namespace Content

variable {v : Content} {e : Element} {bytes : List Bytes}

theorem length_fields (v : Content) : v.fields.length = v.length := by
  cases v <;> exact List.length_map _

theorem length_of_mem_fields {f : Bytes} (hf : f ∈ v.fields) : f.length = v.element.size := by
  cases v <;>
  · obtain ⟨x, -, rfl⟩ := List.mem_map.mp hf
    exact Bytes.length_little _ _

/-- Values that are written as fields of one width are read back from them. -/
theorem read_written {α : Type} {w : Nat} {write : α → Nat} {read : Nat → α}
    (hfits : ∀ x, write x < Nat.pow 256 w) (hback : ∀ x, read (write x) = x) (values : List α) :
    ((values.map fun x => Bytes.little w (write x)).map Bytes.ofLittle).map read = values := by
  rw [List.map_map, List.map_map, List.map_congr_left, List.map_id]
  intro x _
  change read (Bytes.ofLittle (Bytes.little w (write x))) = x
  rw [Bytes.ofLittle_little_of_lt (hfits x), hback]

/-- Fields of one width are written as they were read. -/
theorem written_read {α : Type} {w : Nat} {write : α → Nat} {read : Nat → α}
    (hback : ∀ n, n < Nat.pow 256 w → write (read n) = n) (hbytes : ∀ f ∈ bytes, f.length = w) :
    ((bytes.map Bytes.ofLittle).map read).map (fun x => Bytes.little w (write x)) = bytes := by
  rw [List.map_map, List.map_map, List.map_congr_left, List.map_id]
  intro f hf
  have hlt := Bytes.ofLittle_lt f
  rw [hbytes f hf] at hlt
  change Bytes.little w (write (read (Bytes.ofLittle f))) = f
  rw [hback _ hlt, ← hbytes f hf, Bytes.little_ofLittle]

/-- Content is told apart by its fields. -/
theorem ofFields_fields (v : Content) :
    ofFields v.element (v.fields.map Bytes.ofLittle) = v := by
  cases v with
  | singles values =>
    exact congrArg singles
      (read_written (fun x => x.bits.toNat_lt) (fun x => by rw [UInt32.ofNat_toNat]) values)
  | doubles values =>
    exact congrArg doubles
      (read_written (fun x => x.bits.toNat_lt) (fun x => by rw [UInt64.ofNat_toNat]) values)
  | counts values =>
    exact congrArg counts (read_written UInt32.toNat_lt (fun x => UInt32.ofNat_toNat) values)

/-- Any fields of the width of an element are the fields of some content. -/
theorem exists_fields_eq (e : Element) (hbytes : ∀ f ∈ bytes, f.length = e.size) :
    ∃ v : Content, v.element = e ∧ v.fields = bytes := by
  refine ⟨ofFields e (bytes.map Bytes.ofLittle), by cases e <;> rfl, ?_⟩
  cases e with
  | single => exact written_read (fun n hn => UInt32.toNat_ofNat_of_lt hn) hbytes
  | double => exact written_read (fun n hn => UInt64.toNat_ofNat_of_lt hn) hbytes
  | count => exact written_read (fun n hn => UInt32.toNat_ofNat_of_lt hn) hbytes

/-- Where there is a bin, the padding stands before the first one. -/
theorem row_aligned_iff {c c' : Cursor} (hv : 0 < v.fields.length) :
    Row (c.aligned v.element.size) v.fields c' ↔ Row c v.fields c' := by
  obtain ⟨f, fs, hcons⟩ := List.exists_cons_of_ne_nil (List.ne_nil_of_length_pos hv)
  have hf := length_of_mem_fields (v := v) (hcons ▸ List.mem_cons_self)
  rw [hcons, HistogramMonitor.row_aligned_iff v.element.size_pos hf]

end Content

section

variable {w : Nat} {bytes : List Bytes}

theorem length_flatten_of_length_eq (hbytes : ∀ f ∈ bytes, f.length = w) :
    bytes.flatten.length = bytes.length * w := by
  rw [List.length_flatten, List.map_congr_left hbytes, List.map_const', List.sum_replicate_nat]

/-- Fields of one width are taken off the front of a buffer. -/
theorem fields_flatten (hbytes : ∀ f ∈ bytes, f.length = w) (more : Bytes) :
    fields w bytes.length (bytes.flatten ++ more) = bytes.map Bytes.ofLittle := by
  have honto : ∀ (bytes : List Bytes) (done : List Nat), (∀ f ∈ bytes, f.length = w) →
      fieldsOnto w bytes.length (bytes.flatten ++ more) done =
        done.reverse ++ bytes.map Bytes.ofLittle := by
    intro bytes
    induction bytes with
    | nil =>
      intro done _
      exact (List.append_nil _).symm
    | cons f bytes ih =>
      intro done hbytes
      obtain ⟨hf, hbytes⟩ := List.forall_mem_cons.mp hbytes
      rw [List.length_cons, List.flatten_cons, List.append_assoc, fieldsOnto, List.take_left' hf,
        List.drop_left' hf, ih _ hbytes, List.reverse_cons, List.append_assoc]
      rfl
  exact honto bytes [] hbytes

/-- A buffer that is long enough starts with so many fields of one width. -/
theorem exists_flatten (n : Nat) {b : Bytes} (hb : n * w ≤ b.length) :
    ∃ (bytes : List Bytes) (more : Bytes), bytes.length = n ∧ (∀ f ∈ bytes, f.length = w) ∧
      b = bytes.flatten ++ more := by
  induction n generalizing b with
  | zero => exact ⟨[], b, rfl, nofun, rfl⟩
  | succ n ih =>
    rw [Nat.succ_mul] at hb
    have hdrop : n * w ≤ (b.drop w).length := by
      rw [List.length_drop]
      omega
    have htake : (b.take w).length = w := by
      rw [List.length_take]
      omega
    obtain ⟨bytes, more, hlen, hbytes, hsplit⟩ := ih hdrop
    refine ⟨b.take w :: bytes, more, congrArg (· + 1) hlen,
      List.forall_mem_cons.mpr ⟨htake, hbytes⟩, ?_⟩
    rw [List.flatten_cons, List.append_assoc, ← hsplit, List.take_append_drop]

end

namespace Reader

variable {c c' : Cursor} {e : Element} {n : Nat} {err : DecodeError}

/-- Content is looked for only where there is room for it. -/
theorem content_apply : content e n c =
    if n * e.size < addressable ∧ n * e.size ≤ c.rest.length then
      .ok (Content.ofFields e (fields e.size n c.rest), c)
    else .error (.contentCut n e.size c.rest.length) := by
  rw [content]
  change (if _ then _ else _ : Reader Content) c = _
  split <;> rfl

/-- Weighing the content against what is left of the buffer is as good as running along its fields. -/
theorem content_eq_ok_iff (hc : c.offset % e.size = 0) {v : Content} :
    content e n c = .ok (v, c') ↔ c' = c ∧ v.element = e ∧ v.fields.length = n ∧
      n * e.size < addressable ∧ ∃ c₁, Row c v.fields c₁ := by
  rw [content_apply]
  constructor
  · intro h
    split at h
    · rename_i hroom
      obtain ⟨bytes, more, rfl, hbytes, hrest⟩ := exists_flatten n hroom.2
      obtain ⟨v', rfl, rfl⟩ := Content.exists_fields_eq e hbytes
      rw [hrest, fields_flatten hbytes, Content.ofFields_fields] at h
      cases h
      exact ⟨rfl, rfl, rfl, hroom.1, ⟨c.offset + v.fields.flatten.length, more⟩,
        (row_uniform_iff hc hbytes).mpr ⟨hrest, rfl⟩⟩
    · cases h
  · rintro ⟨rfl, rfl, rfl, hlt, c₁, hrow⟩
    have hfields : ∀ f ∈ v.fields, f.length = v.element.size := fun f => Content.length_of_mem_fields
    obtain ⟨hrest, -⟩ := (row_uniform_iff hc hfields).mp hrow
    have hlen : c'.rest.length = v.fields.length * v.element.size + c₁.rest.length := by
      rw [hrest, List.length_append, length_flatten_of_length_eq hfields]
    rw [hrest, fields_flatten hfields, Content.ofFields_fields, ← hrest, if_pos ⟨hlt, by omega⟩]

theorem content_eq_error_iff : content e n c = .error err ↔
    (addressable ≤ n * e.size ∨ c.rest.length < n * e.size) ∧
      err = .contentCut n e.size c.rest.length := by
  rw [content_apply]
  split
  · rename_i hroom
    constructor
    · nofun
    · omega
  · rename_i hroom
    constructor
    · intro h
      exact ⟨by omega, (Except.error.inj h).symm⟩
    · rintro ⟨-, rfl⟩
      rfl

/-! ## The rest of the buffer -/

variable {head : Header} {h : Snapshot}

theorem body_apply {kind : Kind} {axes : List Axis} {entries : Nat} : body kind axes entries c =
    if cellCount axes < addressable then
      (content kind.element (cellCount axes) >>= fun v =>
        liftM (Snapshot.make? kind axes (UInt64.ofNat entries) v)) (c.aligned kind.element.size)
    else .error .tooManyBins := by
  rw [body, totalBins_eq]
  by_cases hlt : cellCount axes < addressable
  · simp only [if_pos hlt]
    rfl
  · simp only [if_neg hlt]
    rfl

/-- The bins that a header calls for make a snapshot with it. -/
theorem make?_eq_ok {v : Content} (helement : v.element = head.kind.element)
    (hlen : v.fields.length = cellCount head.axes) (hlt : cellCount head.axes < addressable) :
    ∃ h : Snapshot, h.kind = head.kind ∧ h.axes = head.axes ∧ h.entries = head.entries ∧
      h.content = v ∧ Snapshot.make? head.kind head.axes (UInt64.ofNat head.entries.toNat) v = .ok h := by
  have htotal : totalBins head.axes = some v.length := by
    rw [totalBins_eq, if_pos hlt, ← hlen, Content.length_fields]
  rw [UInt64.ofNat_toNat]
  exact ⟨⟨head.kind, head.axes, head.entries, v, head.length_axes, helement, htotal⟩, rfl, rfl, rfl, rfl,
    Snapshot.make?_self ⟨_, _, _, _, head.length_axes, helement, htotal⟩⟩

/-- Behind a header, the bins that it calls for make up the snapshot. -/
theorem body_eq_ok_iff : (∃ c', body head.kind head.axes head.entries.toNat c = .ok (h, c')) ↔
    head.kind = h.kind ∧ head.axes = h.axes ∧ head.entries = h.entries ∧
      h.content.fields.length = cellCount head.axes ∧
      cellCount head.axes * head.kind.element.size < addressable ∧ ∃ c₁, Row c h.content.fields c₁ := by
  have hpos := head.kind.element.size_pos
  have hmod := c.aligned_offset_mod hpos
  have hrow : ∀ {v : Content}, v.element = head.kind.element →
      v.fields.length = cellCount head.axes → ∀ c₁,
        (Row (c.aligned head.kind.element.size) v.fields c₁ ↔ Row c v.fields c₁) := by
    intro v helement hlen c₁
    rw [← helement, Content.row_aligned_iff (hlen ▸ cellCount_pos head.axes)]
  rw [body_apply]
  constructor
  · rintro ⟨c', hread⟩
    split at hread
    · rename_i hlt
      obtain ⟨v, c₁, hcontent, hmake⟩ := bind_eq_ok_iff.mp hread
      obtain ⟨rfl, helement, hlen, hsize, c₂, hcells⟩ := (content_eq_ok_iff hmod).mp hcontent
      obtain ⟨h', hkind, haxes, hentries, rfl, hok⟩ := make?_eq_ok helement hlen hlt
      rw [hok] at hmake
      cases hmake
      exact ⟨hkind.symm, haxes.symm, hentries.symm, hlen, hsize, c₂, (hrow helement hlen c₂).mp hcells⟩
    · cases hread
  · rintro ⟨hkind, haxes, hentries, hlen, hsize, c₁, hcells⟩
    have helement : h.content.element = head.kind.element := hkind ▸ h.element_eq
    have hlt : cellCount head.axes < addressable :=
      Nat.lt_of_le_of_lt (Nat.le_mul_of_pos_right _ hpos) hsize
    refine ⟨c.aligned head.kind.element.size, ?_⟩
    rw [if_pos hlt]
    refine bind_eq_ok_iff.mpr ⟨h.content, _, (content_eq_ok_iff hmod).mpr
      ⟨rfl, helement, hlen, hsize, c₁, (hrow helement hlen c₁).mpr hcells⟩, ?_⟩
    rw [UInt64.ofNat_toNat, hkind, haxes, hentries, Snapshot.make?_self]
    rfl

theorem body_eq_error_iff : body head.kind head.axes head.entries.toNat c = .error err ↔
    (addressable ≤ cellCount head.axes ∧ err = .tooManyBins) ∨
    (cellCount head.axes < addressable ∧
      (addressable ≤ cellCount head.axes * head.kind.element.size ∨
        (c.aligned head.kind.element.size).rest.length <
          cellCount head.axes * head.kind.element.size) ∧
      err = .contentCut (cellCount head.axes) head.kind.element.size
        (c.aligned head.kind.element.size).rest.length) := by
  rw [body_apply]
  by_cases hlt : cellCount head.axes < addressable
  · rw [if_pos hlt, bind_eq_error_iff, content_eq_error_iff]
    constructor
    · rintro (hcut | ⟨v, c₁, hcontent, hmake⟩)
      · exact .inr ⟨hlt, hcut⟩
      · -- bins that were read make a snapshot, so nothing fails behind them
        obtain ⟨rfl, helement, hlen, -⟩ :=
          (content_eq_ok_iff (c.aligned_offset_mod head.kind.element.size_pos)).mp hcontent
        obtain ⟨h', -, -, -, -, hok⟩ := make?_eq_ok helement hlen hlt
        rw [hok] at hmake
        cases hmake
    · rintro (⟨hle, -⟩ | ⟨-, hcut⟩)
      · omega
      · exact .inl hcut
  · rw [if_neg hlt]
    constructor
    · intro he
      exact .inl ⟨Nat.le_of_not_lt hlt, (Except.error.inj he).symm⟩
    · rintro (⟨-, rfl⟩ | ⟨hlt', -⟩)
      · rfl
      · exact absurd hlt' hlt

end Reader

/-! ## Whole buffers -/

variable {b : Bytes} {h : Snapshot} {e : DecodeError}

/-- What a header calls for does not fit into the addresses that there are, however long the buffer. -/
def Oversized (b : Bytes) (e : DecodeError) : Prop :=
  ∃ (head : Header) (c : Cursor), Row ⟨0, b⟩ head.fields c ∧ cellCount head.axes < addressable ∧
    addressable ≤ cellCount head.axes * head.kind.element.size ∧
    e = .contentCut (cellCount head.axes) head.kind.element.size
      (c.aligned head.kind.element.size).rest.length

theorem decode_eq_ok_iff : Snapshot.decode b = .ok h ↔
    h.StartsIn b ∧ h.content.fields.length * h.kind.element.size < addressable := by
  have hdecode : Snapshot.decode b = .ok h ↔ ∃ c', Reader.snapshot ⟨0, b⟩ = .ok (h, c') := by
    rw [Snapshot.decode]
    rcases Reader.snapshot ⟨0, b⟩ with e | ⟨h', c'⟩
    · exact ⟨nofun, nofun⟩
    · simp [Functor.map, Except.map]
  rw [hdecode, Reader.snapshot_eq]
  constructor
  · rintro ⟨c', hread⟩
    obtain ⟨⟨kind, axes, entries⟩, c, hheader, hbody⟩ := Reader.bind_eq_ok_iff.mp hread
    obtain ⟨head, -, hvalue, hrow⟩ := (Reader.reads_header.ok trivial).mp hheader
    cases hvalue
    obtain ⟨hkind, haxes, hentries, hlen, hsize, c₁, hcells⟩ := Reader.body_eq_ok_iff.mp ⟨c', hbody⟩
    refine ⟨⟨head, c₁, hkind, haxes, hentries, hlen, row_append_iff.mpr ⟨c, hrow, hcells⟩⟩, ?_⟩
    rwa [hlen, ← hkind]
  · rintro ⟨⟨head, c₁, hkind, haxes, hentries, hlen, hrows⟩, hsize⟩
    rw [hlen, ← hkind] at hsize
    obtain ⟨c, hrow, hcells⟩ := row_append_iff.mp hrows
    obtain ⟨c', hbody⟩ := Reader.body_eq_ok_iff.mpr ⟨hkind, haxes, hentries, hlen, hsize, c₁, hcells⟩
    exact ⟨c', Reader.bind_eq_ok_iff.mpr ⟨_, c,
      (Reader.reads_header.ok trivial).mpr ⟨head, trivial, rfl, hrow⟩, hbody⟩⟩

theorem decode_eq_error_iff : Snapshot.decode b = .error e ↔ Fault b e ∨ Oversized b e := by
  have hdecode : Snapshot.decode b = .error e ↔ Reader.snapshot ⟨0, b⟩ = .error e := by
    rw [Snapshot.decode]
    rcases Reader.snapshot ⟨0, b⟩ with e' | ⟨h', c'⟩
    · simp [Functor.map, Except.map]
    · exact ⟨nofun, nofun⟩
  rw [hdecode, Reader.snapshot_eq, Reader.bind_eq_error_iff, Reader.reads_header.error trivial]
  constructor
  · rintro ((⟨rfl, head, -, hends⟩ | hinvalid) | ⟨⟨kind, axes, entries⟩, c, hheader, hbody⟩)
    · exact .inl (.missing hends)
    · exact .inl (.invalid hinvalid)
    · obtain ⟨head, -, hvalue, hrow⟩ := (Reader.reads_header.ok trivial).mp hheader
      cases hvalue
      rcases Reader.body_eq_error_iff.mp hbody with ⟨hmany, rfl⟩ | ⟨hlt, hlarge | hcut, rfl⟩
      · exact .inl (.tooManyBins hrow hmany)
      · exact .inr ⟨head, c, hrow, hlt, hlarge, rfl⟩
      · exact .inl (.contentCut hrow hlt rfl rfl hcut)
  · have hheader : ∀ {head : Header} {c : Cursor}, Row ⟨0, b⟩ head.fields c →
        Reader.header ⟨0, b⟩ = .ok ((head.kind, head.axes, head.entries.toNat), c) :=
      fun hrow => (Reader.reads_header.ok trivial).mpr ⟨_, trivial, rfl, hrow⟩
    rintro (hfault | ⟨head, c, hrow, hlt, hlarge, rfl⟩)
    · cases hfault with
      | missing ends => exact .inl (.inl ⟨rfl, _, trivial, ends⟩)
      | invalid first => exact .inl (.inr first)
      | tooManyBins read wrong =>
        exact .inr ⟨_, _, hheader read, Reader.body_eq_error_iff.mpr (.inl ⟨wrong, rfl⟩)⟩
      | contentCut read fine hsize hroom cut =>
        subst hsize hroom
        exact .inr ⟨_, _, hheader read, Reader.body_eq_error_iff.mpr (.inr ⟨fine, .inr cut, rfl⟩)⟩
    · exact .inr ⟨_, _, hheader hrow, Reader.body_eq_error_iff.mpr (.inr ⟨hlt, .inl hlarge, rfl⟩)⟩

/-- The content of a snapshot fits into every buffer that starts with it. -/
theorem Snapshot.StartsIn.length_le (hb : h.StartsIn b) :
    h.content.fields.length * h.kind.element.size ≤ b.length := by
  obtain ⟨head, c, -, -, -, -, hrow⟩ := hb
  have hle := hrow.length_le
  have hrest : (Cursor.mk 0 b).rest.length = b.length := rfl
  rw [List.flatten_append, List.length_append] at hle
  rw [← h.element_eq, ← length_flatten_of_length_eq fun f => Content.length_of_mem_fields]
  omega

/-- **Exactly the format is accepted.** A buffer is decoded to a snapshot exactly if it starts with it,
whatever its padding holds and whatever follows; and it is refused exactly for its first fault. No buffer
is longer than half of what can be addressed. -/
theorem decode_exact (b : Bytes) (hb : b.length < 0x8000000000000000) :
    (∀ h, Snapshot.decode b = .ok h ↔ h.StartsIn b) ∧ ∀ e, Snapshot.decode b = .error e ↔ Fault b e := by
  have haddressable : b.length < addressable := Nat.lt_trans hb (by decide)
  refine ⟨fun h => decode_eq_ok_iff.trans (and_iff_left_of_imp ?_),
    fun e => decode_eq_error_iff.trans (or_iff_left_of_imp ?_)⟩
  · intro hstarts
    exact Nat.lt_of_le_of_lt hstarts.length_le haddressable
  · -- what does not fit into the addresses is not in the buffer either, which does
    rintro ⟨head, c, hrow, hlt, hlarge, rfl⟩
    refine .contentCut hrow hlt rfl rfl (Nat.lt_of_lt_of_le ?_ hlarge)
    have hle := hrow.length_le
    have hrest : (Cursor.mk 0 b).rest.length = b.length := rfl
    rw [c.length_aligned_rest]
    omega

/-- A map whose first axis has wide edges and whose second has narrow ones, with padding that is not zero
and a byte behind the content. -/
def mixedBuffer : Bytes :=
  [1, 2, 2, 8, 4, 4, 0xAA, 0xBB] ++ Bytes.little 4 1 ++ Bytes.little 4 0 ++
    Bytes.little 8 0 ++ Bytes.little 8 0x3FF0000000000000 ++
    Bytes.little 4 0 ++ Bytes.little 4 0x3F800000 ++ Bytes.little 8 7 ++
    (List.replicate 6 (Bytes.little 4 0x3F800000)).flatten ++ [0xFF]

/-- It starts with a snapshot, and cut within its padding it lacks a field. -/
theorem mixedBuffer_accepted :
    (∃ h : Snapshot, h.StartsIn mixedBuffer ∧
      h.axes.map Axis.high = [⟨0x3FF0000000000000⟩, ⟨0x3FF0000000000000⟩]) ∧
      Fault (mixedBuffer.take 7) .headerCut := by
  have hdecode : ∃ h, Snapshot.decode mixedBuffer = .ok h ∧
      h.axes.map Axis.high = [⟨0x3FF0000000000000⟩, ⟨0x3FF0000000000000⟩] :=
    ⟨_, rfl, rfl⟩
  obtain ⟨h, hok, hhigh⟩ := hdecode
  exact ⟨⟨h, ((decode_exact mixedBuffer (by decide)).1 h).mp hok, hhigh⟩,
    ((decode_exact (mixedBuffer.take 7) (by decide)).2 .headerCut).mp rfl⟩

end HistogramMonitor
