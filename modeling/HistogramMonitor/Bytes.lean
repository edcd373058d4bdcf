/-!
# Byte strings and fixed-width fields

A byte string is a list of bytes. Every number of the histogram format and of the transport header
is a field of fixed width, so one pair of functions carries all of them:

* `Bytes.little w n` writes the `w` low bytes of `n`, least significant first;
* `Bytes.ofLittle` reads any number of bytes back, and `ofLittle_little` says that reading undoes
  writing up to the bits that do not fit.

`Bytes.gap` is the alignment rule: the fewest bytes that bring an offset to a multiple of the
alignment.
-/

namespace HistogramMonitor

/-- A byte string. -/
abbrev Bytes := List UInt8

namespace Bytes

/-! ## Fields -/

/-- The `w` low bytes of `n`, least significant first. -/
def little : Nat → Nat → Bytes
  | 0, _ => []
  | w + 1, n => UInt8.ofNat (n % 256) :: little w (n / 256)

/-- The number whose bytes these are, least significant first. -/
def ofLittle : Bytes → Nat
  | [] => 0
  | b :: bs => b.toNat + 256 * ofLittle bs

/-- The `w` low bytes of `n`, most significant first. -/
def big (w n : Nat) : Bytes := (little w n).reverse

/-- The number whose bytes these are, most significant first. -/
def ofBig (b : Bytes) : Nat := ofLittle b.reverse

@[simp] theorem length_little (w n : Nat) : (little w n).length = w := by
  induction w generalizing n with
  | zero => rfl
  | succ w ih => simp [little, ih]

/-- Reading a field gives back what was written, up to the width of the field. -/
theorem ofLittle_little (w n : Nat) : ofLittle (little w n) = n % Nat.pow 256 w := by
  induction w generalizing n with
  | zero => simp [little, ofLittle, Nat.mod_one]
  | succ w ih =>
    have h : (UInt8.ofNat (n % 256)).toNat = n % 256 :=
      UInt8.toNat_ofNat_of_lt (Nat.mod_lt n (by decide))
    have hpow : Nat.pow 256 (w + 1) = 256 * Nat.pow 256 w := Nat.mul_comm _ _
    rw [little, ofLittle, ih, h, hpow, Nat.mod_mul]

/-- A number that fits its field is read back unchanged. -/
theorem ofLittle_little_of_lt {w n : Nat} (h : n < Nat.pow 256 w) : ofLittle (little w n) = n := by
  rw [ofLittle_little, Nat.mod_eq_of_lt h]

theorem ofLittle_lt (b : Bytes) : ofLittle b < Nat.pow 256 b.length := by
  induction b with
  | nil => simp [ofLittle]
  | cons x bs ih =>
    have hx : x.toNat < 256 := x.toNat_lt
    have hpow : Nat.pow 256 (x :: bs).length = Nat.pow 256 bs.length * 256 := rfl
    rw [ofLittle, hpow]
    omega

/-- Writing what was read gives back the bytes. -/
theorem little_ofLittle (b : Bytes) : little b.length (ofLittle b) = b := by
  induction b with
  | nil => rfl
  | cons x bs ih =>
    have hx : x.toNat < 256 := x.toNat_lt
    have hmod : (x.toNat + 256 * ofLittle bs) % 256 = x.toNat := by omega
    have hdiv : (x.toNat + 256 * ofLittle bs) / 256 = ofLittle bs := by omega
    rw [List.length_cons, ofLittle, little, hmod, hdiv, ih, UInt8.ofNat_toNat]

/-! ## Alignment -/

/-- The fewest bytes that bring `offset` to a multiple of `alignment`. -/
def gap (offset alignment : Nat) : Nat := (alignment - offset % alignment) % alignment

/-- That many zero bytes. -/
def zeros (n : Nat) : Bytes := List.replicate n 0

/-- A byte string, padded with zero bytes to a multiple of `alignment`. -/
def aligned (b : Bytes) (alignment : Nat) : Bytes := b ++ zeros (gap b.length alignment)

theorem gap_lt {alignment : Nat} (offset : Nat) (h : 0 < alignment) :
    gap offset alignment < alignment := Nat.mod_lt _ h

/-- The gap leads to a multiple of the alignment. -/
theorem add_gap_mod (offset : Nat) {alignment : Nat} (h : 0 < alignment) :
    (offset + gap offset alignment) % alignment = 0 := by
  have hle : offset % alignment ≤ alignment := Nat.le_of_lt (Nat.mod_lt offset h)
  rw [gap, Nat.add_mod_mod, ← Nat.mod_add_mod, Nat.add_sub_cancel' hle, Nat.mod_self]

/-- No fewer bytes lead to one. -/
theorem gap_le {offset alignment n : Nat} (h : 0 < alignment) (hn : (offset + n) % alignment = 0) :
    gap offset alignment ≤ n := by
  refine Nat.le_of_not_lt fun hlt => ?_
  have hgap : alignment ∣ offset + gap offset alignment := Nat.dvd_of_mod_eq_zero (add_gap_mod offset h)
  have hsub : alignment ∣ gap offset alignment - n := by
    have hdvd := Nat.dvd_sub hgap (Nat.dvd_of_mod_eq_zero hn)
    rwa [Nat.add_sub_add_left] at hdvd
  have hle := Nat.le_of_dvd (Nat.sub_pos_of_lt hlt) hsub
  exact Nat.not_lt_of_le (Nat.le_trans hle (Nat.sub_le _ _)) (gap_lt offset h)

/-- There is no gap where there need not be one. -/
theorem gap_eq_zero {offset alignment : Nat} (h : offset % alignment = 0) :
    gap offset alignment = 0 := by
  rw [gap, h, Nat.sub_zero, Nat.mod_self]

@[simp] theorem length_zeros (n : Nat) : (zeros n).length = n := by simp [zeros]

theorem length_le_aligned (b : Bytes) (alignment : Nat) : b.length ≤ (b.aligned alignment).length := by
  rw [aligned, List.length_append]
  exact Nat.le_add_right _ _

theorem length_aligned_mod (b : Bytes) {alignment : Nat} (h : 0 < alignment) :
    (b.aligned alignment).length % alignment = 0 := by
  rw [aligned, List.length_append, length_zeros, add_gap_mod b.length h]

/-- What is aligned needs no padding. -/
theorem aligned_eq_self {b : Bytes} {alignment : Nat} (h : b.length % alignment = 0) :
    b.aligned alignment = b := by
  rw [aligned, gap_eq_zero h]
  exact List.append_nil b

end Bytes

end HistogramMonitor
