import HistogramMonitor.Proofs.Histogram.Containment

/-!
# What a mismatch names

Three errors name two numbers, one that was expected and one that was found (`DecodeError.compared?`). A buffer is
refused for a mismatch exactly if it holds the number that is named, and the number is wrong; for it holds bytes, and
what it is judged by are these bytes.

Parts that are put together are judged by more than is named. They may have any number of axes, of which only the
remainder in a byte is named; and their bins may have the size of the kind's bins without having their type. Parts with
which neither happens are `Tellable`; of others, a mismatch may say that a number differs from itself.
-/

namespace HistogramMonitor

/-- The number that was expected and the one that was found, of the errors that name both. -/
def DecodeError.compared? : DecodeError → Option (Nat × Nat)
  | dimensions k found => some (k.dimensions, found.toNat)
  | ordinateMismatch k found => some (k.element.size, found.toNat)
  | contentLength expected found => some (expected, found)
  | _ => none

/-- The number that such an error is about, as the parts have it. -/
def DecodeError.actual? (axes : List Axis) (content : Content) : DecodeError → Option Nat
  | dimensions _ _ => some axes.length
  | ordinateMismatch _ _ => some content.element.size
  | contentLength _ _ => some content.length
  | _ => none

/-! ## Parts -/

variable {kind : Kind} {axes : List Axis} {entries : UInt64} {content : Content} {e : DecodeError}

/-- The first way in which the parts of a snapshot disagree. -/
inductive Discord (kind : Kind) (axes : List Axis) (content : Content) : DecodeError → Prop
  | dimensions (wrong : axes.length ≠ kind.dimensions) :
      Discord kind axes content (.dimensions kind (UInt8.ofNat axes.length))
  | ordinateMismatch (fine : axes.length = kind.dimensions) (wrong : content.element ≠ kind.element) :
      Discord kind axes content (.ordinateMismatch kind (UInt8.ofNat content.element.size))
  | tooManyBins (fine : axes.length = kind.dimensions) (typed : content.element = kind.element)
      (wrong : totalBins axes = none) : Discord kind axes content .tooManyBins
  | contentLength {n : Nat} (fine : axes.length = kind.dimensions) (typed : content.element = kind.element)
      (counted : totalBins axes = some n) (wrong : content.length ≠ n) :
      Discord kind axes content (.contentLength n content.length)

/-- Parts that do not make a snapshot disagree, and the error tells how. -/
theorem make?_eq_error_iff :
    Snapshot.make? kind axes entries content = .error e ↔ Discord kind axes content e := by
  constructor
  · intro h
    rw [Snapshot.make?] at h
    split at h
    · rename_i haxes
      split at h
      · rename_i helement
        split at h
        · rename_i hnone
          cases h
          exact .tooManyBins haxes helement hnone
        · rename_i n hsome
          split at h
          · cases h
          · rename_i hlength
            cases h
            exact .contentLength haxes helement hsome hlength
      · rename_i helement
        cases h
        exact .ordinateMismatch haxes helement
    · rename_i haxes
      cases h
      exact .dimensions haxes
  · intro h
    rw [Snapshot.make?]
    cases h with
    | dimensions wrong => rw [dif_neg wrong]
    | ordinateMismatch fine wrong => rw [dif_pos fine, dif_neg wrong]
    | tooManyBins fine typed wrong =>
      rw [dif_pos fine, dif_pos typed]
      split
      · rfl
      · rename_i n hsome
        cases hsome.symm.trans wrong
    | contentLength fine typed counted wrong =>
      rw [dif_pos fine, dif_pos typed]
      split
      · rename_i hnone
        cases hnone.symm.trans counted
      · rename_i n hsome
        cases hsome.symm.trans counted
        rw [dif_neg wrong]

/-- A mismatch of these parts can be told: a byte holds the number of axes, and if that is right, the size of the bins
shows whether they have the right type. -/
def Tellable (kind : Kind) (axes : List Axis) (content : Content) : Prop :=
  axes.length < 256 ∧ (axes.length = kind.dimensions →
    content.element.size = kind.element.size → content.element = kind.element)

theorem toNat_ofNat_size (t : Element) : (UInt8.ofNat t.size).toNat = t.size := by cases t <;> rfl

theorem dimensions_lt (k : Kind) : k.dimensions < 256 := by cases k <;> decide

/-- A mismatch that can be told, and no other, is told by two different numbers of which one is right. -/
theorem Discord.compared_iff (h : Discord kind axes content e) {expected found : Nat}
    (he : e.compared? = some (expected, found)) :
    expected ≠ found ∧ e.actual? axes content = some found ↔ Tellable kind axes content := by
  cases h with
  | dimensions wrong =>
    cases he
    rw [DecodeError.actual?, Option.some_inj, UInt8.toNat_ofNat', Tellable, and_iff_left fun fine => absurd fine wrong]
    constructor
    · intro h
      exact h.2 ▸ Nat.mod_lt _ (by decide)
    · intro h
      rw [Nat.mod_eq_of_lt h]
      exact ⟨Ne.symm wrong, rfl⟩
  | ordinateMismatch fine wrong =>
    cases he
    rw [toNat_ofNat_size]
    exact ⟨fun h => ⟨fine ▸ dimensions_lt kind, fun _ hsize => absurd hsize.symm h.1⟩,
      fun h => ⟨fun hsize => wrong (h.2 fine hsize.symm), rfl⟩⟩
  | tooManyBins => cases he
  | contentLength fine typed _ wrong =>
    cases he
    exact iff_of_true ⟨Ne.symm wrong, rfl⟩ ⟨fine ▸ dimensions_lt kind, fun _ _ => typed⟩

theorem make?_eq_dimensions_iff {k : Kind} {found : UInt8} :
    Snapshot.make? kind axes entries content = .error (.dimensions k found) ↔
      k = kind ∧ axes.length ≠ kind.dimensions ∧ found.toNat = axes.length % 256 := by
  rw [make?_eq_error_iff, ← UInt8.toNat_ofNat']
  constructor
  · rintro ⟨⟩
    exact ⟨rfl, ‹_›, rfl⟩
  · rintro ⟨rfl, wrong, hfound⟩
    obtain rfl := UInt8.toNat_inj.mp hfound
    exact .dimensions wrong

theorem make?_eq_ordinateMismatch_iff {k : Kind} {found : UInt8} :
    Snapshot.make? kind axes entries content = .error (.ordinateMismatch k found) ↔
      k = kind ∧ axes.length = kind.dimensions ∧ content.element ≠ kind.element ∧
        found.toNat = content.element.size := by
  rw [make?_eq_error_iff, ← toNat_ofNat_size content.element]
  constructor
  · rintro ⟨⟩
    exact ⟨rfl, ‹_›, ‹_›, rfl⟩
  · rintro ⟨rfl, fine, wrong, hfound⟩
    obtain rfl := UInt8.toNat_inj.mp hfound
    exact .ordinateMismatch fine wrong

theorem make?_eq_contentLength_iff {expected found : Nat} :
    Snapshot.make? kind axes entries content = .error (.contentLength expected found) ↔
      axes.length = kind.dimensions ∧ content.element = kind.element ∧ totalBins axes = some expected ∧
        found = content.length ∧ expected ≠ found := by
  rw [make?_eq_error_iff]
  constructor
  · intro h
    cases h with
    | contentLength fine typed counted wrong => exact ⟨fine, typed, counted, rfl, Ne.symm wrong⟩
  · rintro ⟨fine, typed, counted, rfl, wrong⟩
    exact .contentLength fine typed counted (Ne.symm wrong)

/-! ## Buffers -/

variable {b : Bytes} {k : Kind} {found : UInt8}

theorem decode_eq_dimensions_iff : Snapshot.decode b = .error (.dimensions k found) ↔
    [1, k.tag, found] <+: b ∧ found.toNat ≠ k.dimensions := by
  rw [decode_eq_error_iff, ← row_bytes_iff]
  constructor
  · rintro (hfault | ⟨_, _, -, -, -, he⟩)
    · cases hfault with
      | invalid first =>
        cases first with
        | dimensions read wrong => exact ⟨⟨_, read⟩, wrong⟩
    · cases he
  · rintro ⟨⟨c, read⟩, wrong⟩
    exact .inl (.invalid (.dimensions read wrong))

/-- The bytes up to the size of the bins. -/
def Kind.leading (k : Kind) (sizes : List Nat) (size : UInt8) : Bytes :=
  [1, k.tag, UInt8.ofNat k.dimensions] ++ sizes.map UInt8.ofNat ++ [size]

theorem Kind.leading_fields (k : Kind) (sizes : List Nat) (size : UInt8) :
    ((k.leading sizes size).map fun x => [x]) = k.opening ++ (sizeFields sizes ++ [[size]]) := by
  rw [Kind.leading, List.map_append, List.map_append, List.map_map, List.append_assoc]
  rfl

theorem decode_eq_ordinateMismatch_iff : Snapshot.decode b = .error (.ordinateMismatch k found) ↔
    ∃ sizes : List Nat, (∀ n ∈ sizes, n = 4 ∨ n = 8) ∧ sizes.length = k.dimensions ∧
      k.leading sizes found <+: b ∧ (found = 4 ∨ found = 8) ∧ found.toNat ≠ k.element.size := by
  rw [decode_eq_error_iff]
  constructor
  · rintro (hfault | ⟨_, _, -, -, -, he⟩)
    · cases hfault with
      | invalid first =>
        cases first with
        | @ordinateMismatch _ sizes _ _ fine all read known wrong =>
          rw [← Kind.leading_fields] at read
          exact ⟨sizes, fine, all, row_bytes_iff.mp ⟨_, read⟩, known, wrong⟩
    · cases he
  · rintro ⟨sizes, fine, all, hb, known, wrong⟩
    obtain ⟨c, read⟩ := row_bytes_iff.mpr hb
    rw [Kind.leading_fields] at read
    exact .inl (.invalid (.ordinateMismatch fine all read known wrong))

theorem decode_compared_ne {expected found : Nat} (h : Snapshot.decode b = .error e)
    (he : e.compared? = some (expected, found)) : expected ≠ found := by
  cases e <;> cases he
  · exact Ne.symm (decode_eq_dimensions_iff.mp h).2
  · obtain ⟨_, -, -, -, -, wrong⟩ := decode_eq_ordinateMismatch_iff.mp h
    exact Ne.symm wrong
  · exact absurd h (decode_ne_contentLength b _ _)

/-- **What a mismatch names.**

* Parts are refused for their number of axes exactly if the kind has another; what is named as found is the remainder
  of the number in a byte. They are refused for the type of their bins exactly if that is the next thing wrong, and
  its size is named; and for their number of bins if that is, and the number is named.
* The two numbers that are named differ, and the parts have the one that is named as found, exactly if the parts are
  `Tellable`.
* A buffer is refused for its number of axes, or for the size of its bins, exactly if it holds a known kind and then,
  where the format has it, the number that is named, which is not the kind's. It is never refused for its number of
  bins. The two numbers that are named are never equal. -/
theorem mismatches_named (kind : Kind) (axes : List Axis) (entries : UInt64) (content : Content) (b : Bytes) :
    ((∀ k found, Snapshot.make? kind axes entries content = .error (.dimensions k found) ↔
        k = kind ∧ axes.length ≠ kind.dimensions ∧ found.toNat = axes.length % 256) ∧
      (∀ k found, Snapshot.make? kind axes entries content = .error (.ordinateMismatch k found) ↔
        k = kind ∧ axes.length = kind.dimensions ∧ content.element ≠ kind.element ∧
          found.toNat = content.element.size) ∧
      (∀ expected found, Snapshot.make? kind axes entries content = .error (.contentLength expected found) ↔
        axes.length = kind.dimensions ∧ content.element = kind.element ∧ totalBins axes = some expected ∧
          found = content.length ∧ expected ≠ found) ∧
      ∀ e expected found, Snapshot.make? kind axes entries content = .error e →
        e.compared? = some (expected, found) →
          (expected ≠ found ∧ e.actual? axes content = some found ↔ Tellable kind axes content)) ∧
    (∀ k found, Snapshot.decode b = .error (.dimensions k found) ↔
      [1, k.tag, found] <+: b ∧ found.toNat ≠ k.dimensions) ∧
    (∀ k found, Snapshot.decode b = .error (.ordinateMismatch k found) ↔
      ∃ sizes : List Nat, (∀ n ∈ sizes, n = 4 ∨ n = 8) ∧ sizes.length = k.dimensions ∧
        k.leading sizes found <+: b ∧ (found = 4 ∨ found = 8) ∧ found.toNat ≠ k.element.size) ∧
    (∀ expected found, Snapshot.decode b ≠ .error (.contentLength expected found)) ∧
    ∀ e expected found, Snapshot.decode b = .error e →
      e.compared? = some (expected, found) → expected ≠ found :=
  ⟨⟨fun _ _ => make?_eq_dimensions_iff, fun _ _ => make?_eq_ordinateMismatch_iff,
      fun _ _ => make?_eq_contentLength_iff, fun _ _ _ h => (make?_eq_error_iff.mp h).compared_iff⟩,
    fun _ _ => decode_eq_dimensions_iff, fun _ _ => decode_eq_ordinateMismatch_iff,
    decode_ne_contentLength b, fun _ _ _ => decode_compared_ne⟩

/-- An axis without a bin. -/
def bareAxis : Axis := ⟨0, ⟨0⟩, ⟨0⟩⟩

/-- A series of counters has one axis, and is told to have one if it is given 257 of them; two are told as two, also if
they are declared in a buffer. Its bins take four bytes, and so do singles. -/
theorem series_misnamed :
    (Snapshot.make? .seriesCount (List.replicate 257 bareAxis) 0 (.counts [0, 0]) =
        .error (.dimensions .seriesCount 1) ∧
      (DecodeError.dimensions .seriesCount 1).compared? = some (1, 1)) ∧
    (Snapshot.make? .seriesCount [bareAxis] 0 (.singles [⟨0⟩, ⟨0⟩]) = .error (.ordinateMismatch .seriesCount 4) ∧
      (DecodeError.ordinateMismatch .seriesCount 4).compared? = some (4, 4)) ∧
    Snapshot.make? .seriesCount [bareAxis, bareAxis] 0 (.counts [0, 0]) = .error (.dimensions .seriesCount 2) ∧
    Snapshot.decode [1, 3, 2] = .error (.dimensions .seriesCount 2) := by
  obtain ⟨⟨hmany, -⟩, -⟩ := mismatches_named .seriesCount (List.replicate 257 bareAxis) 0 (.counts [0, 0]) []
  obtain ⟨⟨-, hsingles, -⟩, -⟩ := mismatches_named .seriesCount [bareAxis] 0 (.singles [⟨0⟩, ⟨0⟩]) []
  obtain ⟨⟨htwo, -⟩, hdeclared, -⟩ :=
    mismatches_named .seriesCount [bareAxis, bareAxis] 0 (.counts [0, 0]) [1, 3, 2]
  rw [List.length_replicate] at hmany
  exact ⟨⟨(hmany _ _).mpr ⟨rfl, by decide, rfl⟩, rfl⟩, ⟨(hsingles _ _).mpr ⟨rfl, rfl, nofun, rfl⟩, rfl⟩,
    (htwo _ _).mpr ⟨rfl, nofun, rfl⟩, (hdeclared _ _).mpr ⟨⟨[], rfl⟩, by decide⟩⟩

/-- So a mismatch need not be told as one of different numbers. -/
theorem not_all_mismatches_differ :
    ¬ ∀ kind axes entries content e expected found, Snapshot.make? kind axes entries content = .error e →
      e.compared? = some (expected, found) → expected ≠ found := by
  intro h
  have hmany : Snapshot.make? .seriesCount (List.replicate 257 bareAxis) 0 (.counts [0, 0]) =
      .error (.dimensions .seriesCount 1) := by
    rw [make?_eq_dimensions_iff, List.length_replicate]
    decide
  exact h _ _ _ _ _ _ _ hmany rfl rfl

end HistogramMonitor
