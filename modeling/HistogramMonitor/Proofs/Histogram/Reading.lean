import HistogramMonitor.Proofs.Histogram.Format

/-!
# What reading comes to

A reader *reads* a kind of written item (`Reads`) if it comes to the value of an item exactly along the
fields of that item, and otherwise fails: because the buffer ends within the fields of an item, or with
what it finds wrong. Both are equivalences, so they say what is refused as well as what is accepted.

Readers in sequence read pairs of items (`Reads.bind`), and a reader that is used several times over reads
a list of them (`Reads.times`). A reader of a larger item is put together from those of its fields by
these two.
-/

namespace HistogramMonitor.Reader

variable {α β : Type} {c c' : Cursor} {e : DecodeError}

/-! ## Sequences -/

theorem bind_apply (x : Reader α) (f : α → Reader β) (c : Cursor) :
    (x >>= f) c = match x c with
      | .error e => .error e
      | .ok (a, c') => f a c' := by
  change (x c >>= fun p => f p.1 p.2) = _
  cases x c <;> rfl

theorem map_apply (g : α → β) (x : Reader α) (c : Cursor) :
    (g <$> x) c = (x >>= fun a => pure (g a)) c := by
  change (x c >>= fun p => pure (g p.1, p.2)) = _
  rw [bind_apply]
  cases x c <;> rfl

theorem pure_eq_ok_iff {a b : α} : (pure a : Reader α) c = .ok (b, c') ↔ a = b ∧ c = c' := by
  change Except.ok (a, c) = Except.ok (b, c') ↔ _
  rw [Except.ok.injEq, Prod.mk.injEq]

theorem pure_ne_error {a : α} : (pure a : Reader α) c ≠ .error e := nofun

/-- A sequence comes to a value if both of its parts do. -/
theorem bind_eq_ok_iff {x : Reader α} {f : α → Reader β} {b : β} :
    (x >>= f) c = .ok (b, c') ↔ ∃ a c₁, x c = .ok (a, c₁) ∧ f a c₁ = .ok (b, c') := by
  rw [bind_apply]
  rcases x c with e | ⟨a, c₁⟩
  · simp
  · simp [and_assoc]

/-- A sequence fails if its first part does, or the second behind it. -/
theorem bind_eq_error_iff {x : Reader α} {f : α → Reader β} :
    (x >>= f) c = .error e ↔
      x c = .error e ∨ ∃ a c₁, x c = .ok (a, c₁) ∧ f a c₁ = .error e := by
  rw [bind_apply]
  rcases x c with e | ⟨a, c₁⟩
  · simp
  · simp [and_assoc]

/-! ## Readers of written items -/

/-- From places that satisfy `P`, the reader comes to the `value` of a `good` item exactly along the
item's `fields`; and it fails exactly if the buffer ends within the fields of such an item, or with an
error of its own. -/
structure Reads {γ : Type} (x : Reader α) (P : Cursor → Prop) (good : γ → Prop) (value : γ → α)
    (fields : γ → List Bytes) (Wrong : Cursor → DecodeError → Prop) : Prop where
  ok {c c' : Cursor} {a : α} : P c →
    (x c = .ok (a, c') ↔ ∃ g, good g ∧ value g = a ∧ Row c (fields g) c')
  error {c : Cursor} {e : DecodeError} : P c →
    (x c = .error e ↔ (e = .headerCut ∧ ∃ g, good g ∧ Ends c (fields g)) ∨ Wrong c e)

/-- A place anywhere in the buffer. -/
def Anywhere : Cursor → Prop := fun _ => True

/-- No error but that of a buffer that ends. -/
def NeverWrong : Cursor → DecodeError → Prop := fun _ _ => False

namespace Reads

variable {γ δ : Type} {x : Reader α} {P Q : Cursor → Prop} {good : γ → Prop} {value : γ → α}
  {fields : γ → List Bytes} {Wrong : Cursor → DecodeError → Prop}

theorem weaken (h : Reads x P good value fields Wrong) (hP : ∀ c, Q c → P c) :
    Reads x Q good value fields Wrong where
  ok hc := h.ok (hP _ hc)
  error hc := h.error (hP _ hc)

/-- The same items, told apart in another way. -/
theorem reindex {good' : δ → Prop} {value' : δ → α} {fields' : δ → List Bytes}
    {Wrong' : Cursor → DecodeError → Prop} (h : Reads x P good value fields Wrong)
    (forth : ∀ g, good g → ∃ d, good' d ∧ value' d = value g ∧ fields' d = fields g)
    (back : ∀ d, good' d → ∃ g, good g ∧ value g = value' d ∧ fields g = fields' d)
    (wrong : ∀ c e, Wrong c e ↔ Wrong' c e) : Reads x P good' value' fields' Wrong' where
  ok := by
    intro c c' a hc
    rw [h.ok hc]
    constructor
    · rintro ⟨g, hg, rfl, hrow⟩
      obtain ⟨d, hd, hvalue, hfields⟩ := forth g hg
      exact ⟨d, hd, hvalue, hfields ▸ hrow⟩
    · rintro ⟨d, hd, rfl, hrow⟩
      obtain ⟨g, hg, hvalue, hfields⟩ := back d hd
      exact ⟨g, hg, hvalue, hfields ▸ hrow⟩
  error := by
    intro c e hc
    rw [h.error hc, wrong]
    refine or_congr_left (and_congr_right fun _ => ?_)
    constructor
    · rintro ⟨g, hg, hends⟩
      obtain ⟨d, hd, -, hfields⟩ := forth g hg
      exact ⟨d, hd, hfields ▸ hends⟩
    · rintro ⟨d, hd, hends⟩
      obtain ⟨g, hg, -, hfields⟩ := back d hd
      exact ⟨g, hg, hfields ▸ hends⟩

/-- Reading nothing. -/
theorem pure {a : α} (hgood : ∃ g, good g) (hvalue : ∀ g, good g → value g = a) :
    Reads (pure a) P good value (fun _ => []) NeverWrong where
  ok := by
    intro c c' b _
    rw [pure_eq_ok_iff]
    constructor
    · rintro ⟨rfl, rfl⟩
      obtain ⟨g, hg⟩ := hgood
      exact ⟨g, hg, hvalue g hg, .nil c⟩
    · rintro ⟨g, hg, rfl, hrow⟩
      exact ⟨(hvalue g hg).symm, (row_nil_iff.mp hrow).symm⟩
  error := by
    intro c e _
    simp [pure_ne_error, ends_nil, NeverWrong]

/-- Readers in sequence read pairs. Whatever the first comes to, there has to be something for the second
to read. -/
theorem bind {f : α → Reader β} {good' : γ → δ → Prop} {value' : γ → δ → β}
    {fields' : γ → δ → List Bytes} {Wrong' : γ → Cursor → DecodeError → Prop}
    (hx : Reads x P good value fields Wrong)
    (hf : ∀ g, good g → Reads (f (value g)) Q (good' g) (value' g) (fields' g) (Wrong' g))
    (hQ : ∀ g c c', good g → P c → Row c (fields g) c' → Q c')
    (hfill : ∀ g, good g → ∃ d, good' g d) :
    Reads (x >>= f) P (fun p : γ × δ => good p.1 ∧ good' p.1 p.2) (fun p => value' p.1 p.2)
      (fun p => fields p.1 ++ fields' p.1 p.2)
      fun c e => Wrong c e ∨ ∃ g c₁, good g ∧ Row c (fields g) c₁ ∧ Wrong' g c₁ e where
  ok := by
    intro c c' b hc
    rw [bind_eq_ok_iff]
    constructor
    · rintro ⟨a, c₁, hfirst, hsecond⟩
      obtain ⟨g, hg, rfl, hrow⟩ := (hx.ok hc).mp hfirst
      obtain ⟨d, hd, rfl, hmore⟩ := ((hf g hg).ok (hQ g c c₁ hg hc hrow)).mp hsecond
      exact ⟨(g, d), ⟨hg, hd⟩, rfl, row_append_iff.mpr ⟨c₁, hrow, hmore⟩⟩
    · rintro ⟨⟨g, d⟩, ⟨hg, hd⟩, rfl, hrow⟩
      obtain ⟨c₁, hrow, hmore⟩ := row_append_iff.mp hrow
      exact ⟨value g, c₁, (hx.ok hc).mpr ⟨g, hg, rfl, hrow⟩,
        ((hf g hg).ok (hQ g c c₁ hg hc hrow)).mpr ⟨d, hd, rfl, hmore⟩⟩
  error := by
    intro c e hc
    rw [bind_eq_error_iff, hx.error hc]
    constructor
    · rintro ((⟨rfl, g, hg, hends⟩ | hwrong) | ⟨a, c₁, hfirst, hsecond⟩)
      · -- the buffer ends within the first item, and so within any pair with it
        obtain ⟨d, hd⟩ := hfill g hg
        exact .inl ⟨rfl, (g, d), ⟨hg, hd⟩, ends_append_iff.mpr (.inl hends)⟩
      · exact .inr (.inl hwrong)
      · obtain ⟨g, hg, rfl, hrow⟩ := (hx.ok hc).mp hfirst
        rcases ((hf g hg).error (hQ g c c₁ hg hc hrow)).mp hsecond with ⟨rfl, d, hd, hends⟩ | hwrong
        · exact .inl ⟨rfl, (g, d), ⟨hg, hd⟩, ends_append_iff.mpr (.inr ⟨c₁, hrow, hends⟩)⟩
        · exact .inr (.inr ⟨g, c₁, hg, hrow, hwrong⟩)
    · rintro (⟨rfl, ⟨g, d⟩, ⟨hg, hd⟩, hends⟩ | hwrong | ⟨g, c₁, hg, hrow, hwrong⟩)
      · rcases ends_append_iff.mp hends with hends | ⟨c₁, hrow, hends⟩
        · exact .inl (.inl ⟨rfl, g, hg, hends⟩)
        · exact .inr ⟨value g, c₁, (hx.ok hc).mpr ⟨g, hg, rfl, hrow⟩,
            ((hf g hg).error (hQ g c c₁ hg hc hrow)).mpr (.inl ⟨rfl, d, hd, hends⟩)⟩
      · exact .inl (.inr hwrong)
      · exact .inr ⟨value g, c₁, (hx.ok hc).mpr ⟨g, hg, rfl, hrow⟩,
          ((hf g hg).error (hQ g c c₁ hg hc hrow)).mpr (.inr hwrong)⟩

/-- A function of what is read. -/
theorem map (h : Reads x P good value fields Wrong) (g : α → β) :
    Reads (x >>= fun a => Pure.pure (g a)) P good (fun i => g (value i)) fields Wrong := by
  have hpure : ∀ i, Reads (Pure.pure (g (value i))) Anywhere (fun _ : Unit => True) _ _ _ :=
    fun i => Reads.pure ⟨(), trivial⟩ fun _ _ => rfl
  refine (h.bind (fun i _ => hpure i) (fun _ _ _ _ _ _ => trivial) fun _ _ => ⟨(), trivial⟩).reindex
    ?_ ?_ ?_
  · rintro ⟨i, u⟩ ⟨hi, -⟩
    exact ⟨i, hi, rfl, (List.append_nil _).symm⟩
  · intro i hi
    exact ⟨(i, ()), ⟨hi, trivial⟩, rfl, List.append_nil _⟩
  · simp [NeverWrong]

/-- Reading several times over reads as many items. It goes wrong with the first that does. -/
theorem times (h : Reads x P good value fields Wrong)
    (hP : ∀ g c c', good g → P c → Row c (fields g) c' → P c') (hfill : ∃ g, good g) (n : Nat) :
    Reads ((List.replicate n ()).mapM fun _ => x) P
      (fun gs : List γ => (∀ g ∈ gs, good g) ∧ gs.length = n) (fun gs => gs.map value)
      (fun gs => gs.flatMap fields)
      fun c e => ∃ (gs : List γ) (c₁ : Cursor), (∀ g ∈ gs, good g) ∧ gs.length < n ∧
        Row c (gs.flatMap fields) c₁ ∧ Wrong c₁ e := by
  induction n with
  | zero =>
    rw [List.replicate_zero, List.mapM_nil]
    have hnone : Reads (Pure.pure ([] : List α)) P (fun _ : Unit => True) (fun _ => []) (fun _ => [])
        NeverWrong :=
      Reads.pure ⟨(), trivial⟩ fun _ _ => rfl
    refine hnone.reindex (fun _ _ => ⟨[], ⟨nofun, rfl⟩, rfl, rfl⟩) ?_ (by simp [NeverWrong])
    rintro gs ⟨-, hlen⟩
    obtain rfl := List.eq_nil_of_length_eq_zero hlen
    exact ⟨(), trivial, rfl, rfl⟩
  | succ n ih =>
    rw [List.replicate_succ, List.mapM_cons]
    obtain ⟨g₀, hg₀⟩ := hfill
    have hlist : ∃ gs : List γ, (∀ g ∈ gs, good g) ∧ gs.length = n :=
      ⟨List.replicate n g₀, fun g hg => List.eq_of_mem_replicate hg ▸ hg₀, List.length_replicate⟩
    -- a pair of an item and a list of items is a list with one item more
    refine (h.bind (fun g _ => ih.map (value g :: ·)) hP fun _ _ => hlist).reindex ?_ ?_ ?_
    · rintro ⟨g, gs⟩ ⟨hg, hgs, hlen⟩
      exact ⟨g :: gs, ⟨List.forall_mem_cons.mpr ⟨hg, hgs⟩, congrArg (· + 1) hlen⟩, rfl, rfl⟩
    · rintro gs ⟨hgs, hlen⟩
      obtain ⟨g, gs, rfl⟩ := List.exists_cons_of_length_eq_add_one hlen
      obtain ⟨hg, hgs⟩ := List.forall_mem_cons.mp hgs
      exact ⟨(g, gs), ⟨hg, hgs, Nat.succ.inj hlen⟩, rfl, rfl⟩
    · intro c e
      constructor
      · rintro (hwrong | ⟨g, c₁, hg, hrow, gs, c₂, hgs, hlen, hrows, hwrong⟩)
        · exact ⟨[], c, nofun, Nat.zero_lt_succ n, .nil c, hwrong⟩
        · exact ⟨g :: gs, c₂, List.forall_mem_cons.mpr ⟨hg, hgs⟩, Nat.succ_lt_succ hlen,
            row_append_iff.mpr ⟨c₁, hrow, hrows⟩, hwrong⟩
      · rintro ⟨gs, c₂, hgs, hlen, hrows, hwrong⟩
        cases gs with
        | nil =>
          cases hrows
          exact .inl hwrong
        | cons g gs =>
          obtain ⟨hg, hgs⟩ := List.forall_mem_cons.mp hgs
          obtain ⟨c₁, hrow, hrows⟩ := row_append_iff.mp hrows
          exact .inr ⟨g, c₁, hg, hrow, gs, c₂, hgs, Nat.lt_of_succ_lt_succ hlen, hrows, hwrong⟩

/-- Padding may be skipped before items that all begin with a field of that width. -/
theorem aligned {w : Nat} (h : Reads x (fun c => c.offset % w = 0) good value fields NeverWrong)
    (hw : 0 < w) (hfields : ∀ g, good g → ∃ f fs, fields g = f :: fs ∧ f.length = w) :
    Reads (align w >>= fun _ => x) Anywhere good value fields NeverWrong where
  ok := by
    intro c c' a _
    refine (h.ok (c.aligned_offset_mod hw)).trans ?_
    refine exists_congr fun g => and_congr_right fun hg => and_congr_right fun _ => ?_
    obtain ⟨f, fs, hcons, hf⟩ := hfields g hg
    rw [hcons, row_aligned_iff hw hf]
  error := by
    intro c e _
    refine (h.error (c.aligned_offset_mod hw)).trans (or_congr_left (and_congr_right fun _ => ?_))
    refine exists_congr fun g => and_congr_right fun hg => ?_
    obtain ⟨f, fs, hcons, hf⟩ := hfields g hg
    rw [hcons, ends_aligned_iff hw hf]

end Reads

/-! ## Fields -/

section

variable {w n : Nat}

/-- At an aligned place, a field is read with nothing before it. -/
theorem field_eq_ok_iff (h : c.offset % w = 0) :
    field w c = .ok (n, c') ↔ n < Nat.pow 256 w ∧ Row c [Bytes.little w n] c' := by
  rw [row_singleton_iff, Bytes.length_little, Bytes.gap_eq_zero h]
  simp only [field]
  constructor
  · intro hread
    split at hread
    · rename_i hlen
      cases hread
      -- bytes that are read as a number are the bytes of that number
      have hlt := Bytes.ofLittle_lt (c.rest.take w)
      have hbytes := Bytes.little_ofLittle (c.rest.take w)
      rw [hlen] at hlt hbytes
      refine ⟨hlt, [], rfl, ?_, rfl⟩
      rw [hbytes, List.nil_append, List.take_append_drop]
    · cases hread
  · rintro ⟨hn, pad, hpad, hrest, hoffset⟩
    obtain rfl := List.eq_nil_of_length_eq_zero hpad
    obtain ⟨offset, rest⟩ := c
    obtain ⟨offset', rest'⟩ := c'
    obtain rfl : rest = Bytes.little w n ++ rest' := hrest
    obtain rfl : offset' = offset + w := hoffset
    have hlen : (Bytes.little w n).length = w := Bytes.length_little w n
    have htake : (Bytes.little w n ++ rest').take w = Bytes.little w n := List.take_left' hlen
    have hdrop : (Bytes.little w n ++ rest').drop w = rest' := List.drop_left' hlen
    rw [htake, if_pos hlen, hdrop, Bytes.ofLittle_little_of_lt hn]

theorem field_eq_error_iff (h : c.offset % w = 0) :
    field w c = .error e ↔ c.Cuts w ∧ e = .headerCut := by
  unfold Cursor.Cuts
  rw [Bytes.gap_eq_zero h]
  simp only [field, List.length_take]
  split
  · constructor
    · nofun
    · intro hc
      omega
  · constructor
    · intro he
      exact ⟨by omega, (Except.error.inj he).symm⟩
    · rintro ⟨-, rfl⟩
      rfl

/-- A field that stands at an aligned place. -/
theorem reads_field : Reads (field w) (fun c => c.offset % w = 0) (fun n => n < Nat.pow 256 w)
    (fun n => n) (fun n => [Bytes.little w n]) NeverWrong where
  ok := by
    intro c c' n hc
    rw [field_eq_ok_iff hc]
    constructor
    · rintro ⟨hn, hrow⟩
      exact ⟨n, hn, rfl, hrow⟩
    · rintro ⟨n, hn, rfl, hrow⟩
      exact ⟨hn, hrow⟩
  error := by
    intro c e hc
    rw [field_eq_error_iff hc]
    constructor
    · rintro ⟨hcut, rfl⟩
      refine .inl ⟨rfl, 0, Nat.pow_pos (by decide), .here ?_⟩
      rwa [Bytes.length_little]
    · rintro (⟨rfl, n, -, hends⟩ | hwrong)
      · rcases ends_cons_iff.mp hends with hcut | ⟨c₁, -, hends⟩
        · rw [Bytes.length_little] at hcut
          exact ⟨hcut, rfl⟩
        · exact absurd hends ends_nil
      · exact hwrong.elim

end

/-! ## Bytes -/

theorem reads_byte : Reads byte Anywhere (fun _ => True) (fun v => v) (fun v => [[v]]) NeverWrong := by
  have hbyte : (field 1 >>= fun n => pure (UInt8.ofNat n)) = byte :=
    funext fun c => (map_apply _ _ c).symm
  have hlittle : ∀ n, n < Nat.pow 256 1 → Bytes.little 1 n = [UInt8.ofNat n] := by
    intro n hn
    have hn : n < 256 := hn
    rw [Bytes.little, Bytes.little, Nat.mod_eq_of_lt hn]
  rw [← hbyte]
  refine ((reads_field.map UInt8.ofNat).weaken fun c _ => Nat.mod_one _).reindex ?_ ?_ fun _ _ => Iff.rfl
  · intro n hn
    exact ⟨UInt8.ofNat n, trivial, rfl, by rw [hlittle n hn]⟩
  · intro v _
    exact ⟨v.toNat, v.toNat_lt, UInt8.ofNat_toNat, by rw [hlittle _ v.toNat_lt, UInt8.ofNat_toNat]⟩

/-- A byte that has to satisfy a condition before reading goes on to an item that it belongs to. -/
theorem reads_checked_byte {γ : Type} {f : UInt8 → Reader β} {good : γ → Prop} {value : γ → β}
    {fields : γ → List Bytes} (p : UInt8 → Prop) (lead : γ → UInt8) (err : UInt8 → DecodeError)
    (Wrong : UInt8 → Cursor → DecodeError → Prop)
    (hgood : ∀ v, p v → Reads (f v) Anywhere (fun g => good g ∧ lead g = v) value fields (Wrong v))
    (hbad : ∀ v c, ¬ p v → f v c = .error (err v)) (hlead : ∀ g, good g → p (lead g))
    (hfill : ∃ g, good g) :
    Reads (byte >>= f) Anywhere good value (fun g => [lead g] :: fields g)
      fun c e => ∃ v c₁, Row c [[v]] c₁ ∧ ((¬ p v ∧ e = err v) ∨ (p v ∧ Wrong v c₁ e)) where
  ok := by
    intro c c' b _
    rw [bind_eq_ok_iff]
    constructor
    · rintro ⟨v, c₁, hbyte, hmore⟩
      obtain ⟨v, -, rfl, hrow⟩ := (reads_byte.ok trivial).mp hbyte
      by_cases hv : p v
      · obtain ⟨g, ⟨hg, rfl⟩, rfl, hrows⟩ := ((hgood v hv).ok trivial).mp hmore
        exact ⟨g, hg, rfl, row_cons_iff.mpr ⟨c₁, hrow, hrows⟩⟩
      · rw [hbad v c₁ hv] at hmore
        cases hmore
    · rintro ⟨g, hg, rfl, hrow⟩
      obtain ⟨c₁, hrow, hrows⟩ := row_cons_iff.mp hrow
      exact ⟨lead g, c₁, (reads_byte.ok trivial).mpr ⟨_, trivial, rfl, hrow⟩,
        ((hgood _ (hlead g hg)).ok trivial).mpr ⟨g, ⟨hg, rfl⟩, rfl, hrows⟩⟩
  error := by
    intro c e _
    rw [bind_eq_error_iff, reads_byte.error trivial]
    constructor
    · rintro ((⟨rfl, v, -, hends⟩ | hwrong) | ⟨v, c₁, hbyte, hmore⟩)
      · -- whatever byte there should have been, it is missing
        obtain ⟨g, hg⟩ := hfill
        rcases ends_cons_iff.mp hends with hcut | ⟨c₁, -, hends⟩
        · exact .inl ⟨rfl, g, hg, .here hcut⟩
        · exact absurd hends ends_nil
      · exact hwrong.elim
      · obtain ⟨v, -, rfl, hrow⟩ := (reads_byte.ok trivial).mp hbyte
        by_cases hv : p v
        · rcases ((hgood v hv).error trivial).mp hmore with ⟨rfl, g, ⟨hg, rfl⟩, hends⟩ | hwrong
          · exact .inl ⟨rfl, g, hg, .later hrow hends⟩
          · exact .inr ⟨v, c₁, hrow, .inr ⟨hv, hwrong⟩⟩
        · rw [hbad v c₁ hv] at hmore
          cases hmore
          exact .inr ⟨v, c₁, hrow, .inl ⟨hv, rfl⟩⟩
    · rintro (⟨rfl, g, hg, hends⟩ | ⟨v, c₁, hrow, hv⟩)
      · rcases ends_cons_iff.mp hends with hcut | ⟨c₁, hrow, hends⟩
        · exact .inl (.inl ⟨rfl, lead g, trivial, .here hcut⟩)
        · exact .inr ⟨lead g, c₁, (reads_byte.ok trivial).mpr ⟨_, trivial, rfl, hrow⟩,
            ((hgood _ (hlead g hg)).error trivial).mpr (.inl ⟨rfl, g, ⟨hg, rfl⟩, hends⟩)⟩
      · refine .inr ⟨v, c₁, (reads_byte.ok trivial).mpr ⟨v, trivial, rfl, hrow⟩, ?_⟩
        rcases hv with ⟨hv, rfl⟩ | ⟨hv, hwrong⟩
        · exact hbad v c₁ hv
        · exact ((hgood v hv).error trivial).mpr (.inr hwrong)

end HistogramMonitor.Reader
