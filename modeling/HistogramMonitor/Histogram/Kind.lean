/-!
# Histogram kinds

The seven kinds of histogram that the analyzer serializes. A kind fixes the number of axes and the type
of one bin; on the wire it is a one-byte tag.
-/

namespace HistogramMonitor

/-- The type of one bin. -/
inductive Element
  /-- a 32 bit floating point number -/
  | single
  /-- a 64 bit floating point number -/
  | double
  /-- an unsigned 32 bit counter -/
  | count
  deriving DecidableEq, Repr, Inhabited

/-- The bytes that one bin takes. -/
def Element.size : Element → Nat
  | .single | .count => 4
  | .double => 8

theorem Element.size_pos (e : Element) : 0 < e.size := by cases e <;> decide

/-- Where eight bytes are aligned, so is a bin. -/
theorem Element.size_dvd (e : Element) : e.size ∣ 8 := by cases e <;> decide

/-- The kinds of histogram. -/
inductive Kind
  | series32
  | series64
  | map32
  | seriesCount
  | mapCount
  /-- a map over a sliding window; by the time it is serialized, a plain `map32` -/
  | rollingMap32
  | map64
  deriving DecidableEq, Repr, Inhabited

namespace Kind

/-- Every kind, in the order of the tags. -/
def all : List Kind :=
  [.series32, .series64, .map32, .seriesCount, .mapCount, .rollingMap32, .map64]

/-- The tag that stands for a kind on the wire. -/
def tag : Kind → UInt8
  | .series32 => 0
  | .series64 => 1
  | .map32 => 2
  | .seriesCount => 3
  | .mapCount => 4
  | .rollingMap32 => 5
  | .map64 => 6

/-- The kind with this tag. -/
def ofTag? (tag : Nat) : Option Kind := all[tag]?

/-- The name of a kind in messages. -/
def name : Kind → String
  | .series32 => "Histogram1DF"
  | .series64 => "Histogram1DD"
  | .map32 => "Histogram2DF"
  | .seriesCount => "Histogram1DI"
  | .mapCount => "Histogram2DI"
  | .rollingMap32 => "RollingHistogram2DF"
  | .map64 => "Histogram2DD"

/-- The number of axes. -/
def dimensions : Kind → Nat
  | .series32 | .series64 | .seriesCount => 1
  | .map32 | .mapCount | .rollingMap32 | .map64 => 2

/-- The type of the bins. -/
def element : Kind → Element
  | .series32 | .map32 | .rollingMap32 => .single
  | .series64 | .map64 => .double
  | .seriesCount | .mapCount => .count

/-- The tags are read back. -/
@[simp] theorem ofTag?_tag (k : Kind) : ofTag? k.tag.toNat = some k := by cases k <;> rfl

theorem tag_inj {k k' : Kind} : k.tag = k'.tag ↔ k = k' := by
  constructor
  · intro h
    have hk := ofTag?_tag k
    rw [h, ofTag?_tag] at hk
    exact (Option.some.inj hk).symm
  · rintro rfl
    rfl

/-- A tag stands for no kind but the one that it is the tag of. -/
theorem ofTag?_eq_some_iff {tag : UInt8} {k : Kind} : ofTag? tag.toNat = some k ↔ k.tag = tag := by
  constructor
  · intro h
    have hall : ∀ n, n < 7 → (all[n]?).map (fun k => k.tag.toNat) = some n := by decide
    have hlt : tag.toNat < 7 := (List.getElem?_eq_some_iff.mp h).1
    have hmap := hall tag.toNat hlt
    rw [show all[tag.toNat]? = some k from h] at hmap
    exact UInt8.toNat_inj.mp (Option.some.inj hmap)
  · rintro rfl
    exact ofTag?_tag k

theorem ofTag?_eq_none_iff {tag : UInt8} : ofTag? tag.toNat = none ↔ ∀ k : Kind, k.tag ≠ tag := by
  rw [Option.eq_none_iff_forall_ne_some]
  exact forall_congr' fun k => not_congr ofTag?_eq_some_iff

theorem dimensions_pos (k : Kind) : 0 < k.dimensions := by cases k <;> decide

end Kind

end HistogramMonitor
