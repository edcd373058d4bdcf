import HistogramMonitor.Floating

/-!
# From one width to the other and back

A single that is widened and narrowed again is the same, but for a NaN, which comes back quiet
(`narrow_widen`). What was narrowed once is quiet already, so narrowing a second time changes nothing
(`narrow_widen_narrow`), and neither does widening a second time (`widen_narrow_widen`).

The identity has one case for each class of a single: no number or infinite, zero, subnormal, normal. A
subnormal is a normal double. Its significand is shifted up to the hidden bit by as many places as narrowing
drops.
-/

namespace HistogramMonitor

/-! ## Words and their fields -/

namespace Single

section

variable {n : Bool} {e f : Nat}

theorem toNat_ofFields (h : e * 0x800000 + f < 0x80000000) :
    (ofFields n e f).bits.toNat = (if n then 0x80000000 else 0) + e * 0x800000 + f := by
  refine UInt32.toNat_ofNat_of_lt ?_
  have hsize : UInt32.size = 0x100000000 := rfl
  rw [hsize]
  split <;> omega

theorem negative_ofFields (h : e * 0x800000 + f < 0x80000000) : (ofFields n e f).negative = n := by
  rw [negative, toNat_ofFields h]
  cases n
  · exact decide_eq_false (by simp; omega)
  · exact decide_eq_true (by simp; omega)

theorem exponent_ofFields (h : e * 0x800000 + f < 0x80000000) :
    (ofFields n e f).exponent = e + f / 0x800000 := by
  rw [exponent, toNat_ofFields h]
  split <;> omega

theorem fraction_ofFields (h : e * 0x800000 + f < 0x80000000) :
    (ofFields n e f).fraction = f % 0x800000 := by
  rw [fraction, toNat_ofFields h]
  split <;> omega

end

/-- A significand that is too long runs over into the exponent. -/
theorem ofFields_zero {n : Bool} (e f : Nat) : ofFields n 0 (e * 0x800000 + f) = ofFields n e f := by
  rw [ofFields, ofFields, Nat.zero_mul, Nat.add_zero, Nat.add_assoc]

theorem exponent_lt (x : Single) : x.exponent < 0x100 := Nat.mod_lt _ (by decide)

theorem fraction_lt (x : Single) : x.fraction < 0x800000 := Nat.mod_lt _ (by decide)

/-- A word is known from its fields. -/
theorem ofFields_self (x : Single) : ofFields x.negative x.exponent x.fraction = x := by
  have hlt := x.bits.toNat_lt
  have he := x.exponent_lt
  have hf := x.fraction_lt
  have hbits : (ofFields x.negative x.exponent x.fraction).bits = x.bits := by
    rw [← UInt32.toNat_inj, toNat_ofFields (by omega), negative, exponent, fraction]
    split <;> rename_i h <;> simp only [decide_eq_true_eq] at h <;> omega
  exact congrArg Single.mk hbits

end Single

namespace Double

section

variable {n : Bool} {e f : Nat}

theorem toNat_ofFields (he : e < 0x800) (hf : f < 0x10000000000000) :
    (ofFields n e f).bits.toNat =
      (if n then 0x8000000000000000 else 0) + e * 0x10000000000000 + f := by
  refine UInt64.toNat_ofNat_of_lt ?_
  have hsize : UInt64.size = 0x10000000000000000 := rfl
  rw [hsize]
  split <;> omega

theorem negative_ofFields (he : e < 0x800) (hf : f < 0x10000000000000) :
    (ofFields n e f).negative = n := by
  rw [negative, toNat_ofFields he hf]
  cases n
  · exact decide_eq_false (by simp; omega)
  · exact decide_eq_true (by simp; omega)

theorem exponent_ofFields (he : e < 0x800) (hf : f < 0x10000000000000) :
    (ofFields n e f).exponent = e := by
  rw [exponent, toNat_ofFields he hf]
  split <;> omega

theorem fraction_ofFields (he : e < 0x800) (hf : f < 0x10000000000000) :
    (ofFields n e f).fraction = f := by
  rw [fraction, toNat_ofFields he hf]
  split <;> omega

end

end Double

/-! ## NaNs -/

/-- The same word, but for a NaN: that is made quiet. -/
def Single.quiet (x : Single) : Single :=
  if x.exponent = 255 ∧ x.fraction ≠ 0 then
    ofFields x.negative 255 (0x400000 + x.fraction % 0x400000)
  else x

/-! ## Narrowing what was widened -/

/-- A multiple is rounded to itself. -/
theorem roundHalfEven_mul (n : Nat) {d : Nat} (hd : 0 < d) : roundHalfEven (n * d) d = n := by
  rw [roundHalfEven, Nat.mul_div_cancel n hd, Nat.mul_mod_left]
  exact if_pos (by omega)

/-- Narrowing a finite double that is a single shifted up. -/
theorem narrow_ofFields {n : Bool} {e f : Nat} (m drop : Nat) (he : e < 2047) (hf : f < 0x10000000000000)
    (hsignificand : (if e = 0 then f else 0x10000000000000 + f) = m * Nat.pow 2 drop)
    (hdrop : drop = max 29 (925 - (e - 1)))
    (hsmall : (e - 1 + drop - 925) * 0x800000 + m < 255 * 0x800000) :
    (Double.ofFields n e f).narrow =
      Single.ofFields n 0 ((e - 1 + drop - 925) * 0x800000 + m) := by
  have hexponent : (Double.ofFields n e f).exponent = e := Double.exponent_ofFields (by omega) hf
  have hfraction : (Double.ofFields n e f).fraction = f := Double.fraction_ofFields (by omega) hf
  have hnegative : (Double.ofFields n e f).negative = n := Double.negative_ofFields (by omega) hf
  have hpow : 0 < Nat.pow 2 drop := Nat.pow_pos Nat.two_pos
  rw [Double.narrow, Double.power, Double.significand, hnegative, hexponent, hfraction,
    hsignificand, ← hdrop, if_neg (Nat.ne_of_lt he)]
  dsimp only
  rw [roundHalfEven_mul m hpow, if_neg (Nat.not_le_of_lt hsmall)]

/-- Narrowing an infinity or a NaN. -/
theorem narrow_ofFields_special {n : Bool} {f : Nat} (hf : f < 0x10000000000000) :
    (Double.ofFields n 2047 f).narrow = Single.ofFields n 255
      (if f = 0 then 0 else 0x400000 + f % 0x8000000000000 / 0x20000000) := by
  have hexponent : (Double.ofFields n 2047 f).exponent = 2047 := Double.exponent_ofFields (by decide) hf
  have hfraction : (Double.ofFields n 2047 f).fraction = f := Double.fraction_ofFields (by decide) hf
  have hnegative : (Double.ofFields n 2047 f).negative = n := Double.negative_ofFields (by decide) hf
  rw [Double.narrow, if_pos hexponent, hnegative, hfraction]

/-- The leading bit of a subnormal's significand, shifted up, becomes the hidden bit. -/
theorem shift_significand {f : Nat} (hpos : f ≠ 0) (hf : f < 0x800000) : f.log2 ≤ 22 ∧
    (f - Nat.pow 2 f.log2) * Nat.pow 2 (52 - f.log2) < 0x10000000000000 ∧
    0x10000000000000 + (f - Nat.pow 2 f.log2) * Nat.pow 2 (52 - f.log2) =
      f * Nat.pow 2 (52 - f.log2) := by
  have htop : f.log2 ≤ 22 := Nat.le_of_lt_succ (Nat.log2_lt hpos |>.mpr hf)
  have hlow : Nat.pow 2 f.log2 ≤ f := Nat.log2_self_le hpos
  have hhigh : f < Nat.pow 2 f.log2 * 2 := Nat.lt_log2_self
  have hwhole : Nat.pow 2 f.log2 * Nat.pow 2 (52 - f.log2) = 0x10000000000000 := by
    have hadd : f.log2 + (52 - f.log2) = 52 := by omega
    exact (Nat.pow_add 2 _ _).symm.trans (congrArg (Nat.pow 2) hadd)
  have hdouble : f * Nat.pow 2 (52 - f.log2) < Nat.pow 2 f.log2 * 2 * Nat.pow 2 (52 - f.log2) :=
    Nat.mul_lt_mul_of_pos_right hhigh (Nat.pow_pos Nat.two_pos)
  have hle : Nat.pow 2 f.log2 * Nat.pow 2 (52 - f.log2) ≤ f * Nat.pow 2 (52 - f.log2) :=
    Nat.mul_le_mul_right _ hlow
  rw [Nat.mul_right_comm, hwhole] at hdouble
  rw [hwhole] at hle
  rw [Nat.sub_mul, hwhole]
  exact ⟨htop, by omega, by omega⟩

/-- **A single that is widened and narrowed again is the same**, but for a NaN, which comes back quiet. -/
theorem Single.narrow_widen (x : Single) : x.widen.narrow = x.quiet := by
  have he := x.exponent_lt
  have hf := x.fraction_lt
  have hself := x.ofFields_self
  rw [widen]
  by_cases hmax : x.exponent = 255
  · rw [if_pos hmax]
    by_cases hzero : x.fraction = 0
    · -- an infinity
      have hquiet : x.quiet = x := if_neg fun h => h.2 hzero
      rw [if_pos hzero, hquiet, narrow_ofFields_special (by decide), if_pos rfl]
      rw [hmax, hzero] at hself
      exact hself
    · -- a NaN: the bits below the quiet one are shifted up and down again
      rw [if_neg hzero, quiet, if_pos ⟨hmax, hzero⟩, narrow_ofFields_special (by omega),
        if_neg (by omega)]
      congr 2
      omega
  · have hquiet : x.quiet = x := if_neg fun h => hmax h.1
    rw [if_neg hmax, hquiet]
    by_cases hmin : x.exponent = 0
    · rw [if_pos hmin]
      rw [hmin] at hself
      by_cases hzero : x.fraction = 0
      · obtain ⟨drop, hdrop⟩ : ∃ drop, drop = max 29 (925 - (0 - 1)) := ⟨_, rfl⟩
        rw [if_pos hzero, narrow_ofFields (n := x.negative) (e := 0) (f := 0) 0 drop (by decide)
          (by decide) (Nat.zero_mul _).symm hdrop (by omega), show 0 - 1 + drop - 925 = 0 by omega]
        rw [hzero] at hself
        exact hself
      · -- a subnormal, which drops as many places as it was shifted up
        obtain ⟨htop, hlt, hshift⟩ := shift_significand hzero hf
        rw [if_neg hzero]
        dsimp only
        rw [narrow_ofFields x.fraction (52 - x.fraction.log2) (by omega) hlt
          (by rw [if_neg (by omega), hshift]) (by omega) (by omega),
          show x.fraction.log2 + 874 - 1 + (52 - x.fraction.log2) - 925 = 0 by omega, ofFields_zero]
        exact hself
    · -- a normal number, whose hidden bit runs over into the exponent
      have hshift : 0x10000000000000 + x.fraction * 0x20000000 =
          (0x800000 + x.fraction) * Nat.pow 2 29 := by
        change _ = (0x800000 + x.fraction) * 0x20000000
        omega
      rw [if_neg hmin, narrow_ofFields (0x800000 + x.fraction) 29 (by omega) (by omega)
        (by rw [if_neg (by omega), hshift]) (by omega) (by omega), ← Nat.add_assoc,
        show (x.exponent + 896 - 1 + 29 - 925) * 0x800000 + 0x800000 = x.exponent * 0x800000 by omega,
        ofFields_zero]
      exact hself

/-! ## Once is enough -/

/-- What a double is narrowed to: a quiet NaN if it is one, and otherwise a word up to infinity. -/
theorem Double.narrow_cases (x : Double) :
    (x.isNaN = true ∧ ∃ f, f < 0x400000 ∧ x.narrow = Single.ofFields x.negative 255 (0x400000 + f)) ∨
    (x.isNaN = false ∧ ∃ m, m ≤ 255 * 0x800000 ∧ x.narrow = Single.ofFields x.negative 0 m) := by
  have hinfinity : Single.ofFields x.negative 255 0 = Single.ofFields x.negative 0 (255 * 0x800000) :=
    (Single.ofFields_zero 255 0).symm
  rw [narrow, isNaN]
  by_cases hmax : x.exponent = 2047
  · rw [if_pos hmax, hmax]
    by_cases hzero : x.fraction = 0
    · rw [if_pos hzero, hzero, hinfinity]
      exact .inr ⟨rfl, _, Nat.le_refl _, rfl⟩
    · rw [if_neg hzero]
      exact .inl ⟨by simpa using hzero, _, by omega, rfl⟩
  · rw [if_neg hmax]
    refine .inr ⟨by simp [hmax], ?_⟩
    dsimp only
    split
    · rw [hinfinity]
      exact ⟨_, Nat.le_refl _, rfl⟩
    · rename_i hsmall
      exact ⟨_, Nat.le_of_lt (Nat.lt_of_not_le hsmall), rfl⟩

theorem Double.isNaN_narrow (x : Double) : x.narrow.isNaN = x.isNaN := by
  rcases x.narrow_cases with ⟨hnan, f, hf, hnarrow⟩ | ⟨hnan, m, hm, hnarrow⟩
  · rw [hnan, hnarrow, Single.isNaN, Single.exponent_ofFields (by omega),
      Single.fraction_ofFields (by omega)]
    simp
    omega
  · rw [hnan, hnarrow, Single.isNaN, Single.exponent_ofFields (by omega),
      Single.fraction_ofFields (by omega)]
    simp
    omega

/-- Narrowing makes a NaN quiet. -/
theorem Double.quiet_narrow (x : Double) : x.narrow.quiet = x.narrow := by
  rcases x.narrow_cases with ⟨-, f, hf, hnarrow⟩ | ⟨-, m, hm, hnarrow⟩
  · rw [hnarrow, Single.quiet, Single.exponent_ofFields (by omega), Single.fraction_ofFields (by omega),
      Single.negative_ofFields (by omega), if_pos (by omega),
      show (0x400000 + f) % 0x800000 % 0x400000 = f by omega]
  · rw [hnarrow, Single.quiet, Single.exponent_ofFields (by omega), Single.fraction_ofFields (by omega),
      if_neg (by omega)]

/-- Widening makes a NaN quiet. -/
theorem Single.widen_quiet (x : Single) : x.quiet.widen = x.widen := by
  by_cases hnan : x.exponent = 255 ∧ x.fraction ≠ 0
  · have hf := x.fraction_lt
    rw [quiet, if_pos hnan, widen, widen, exponent_ofFields (by omega), fraction_ofFields (by omega),
      negative_ofFields (by omega), if_pos (by omega), if_neg (by omega), if_pos hnan.1, if_neg hnan.2,
      show (0x400000 + x.fraction % 0x400000) % 0x800000 % 0x400000 = x.fraction % 0x400000 by omega]
  · rw [quiet, if_neg hnan]

theorem Single.isNaN_widen {x : Single} (hx : x.isNaN = true) : x.widen.isNaN = true := by
  rw [isNaN, Bool.and_eq_true, beq_iff_eq, bne_iff_ne] at hx
  have hf := x.fraction_lt
  rw [widen, if_pos hx.1, if_neg hx.2, Double.isNaN, Double.exponent_ofFields (by decide) (by omega),
    Double.fraction_ofFields (by decide) (by omega)]
  simp

/-- **Narrowing a second time changes nothing.** -/
theorem Double.narrow_widen_narrow (x : Double) : x.narrow.widen.narrow = x.narrow := by
  rw [Single.narrow_widen, quiet_narrow]

/-- Neither does widening a second time. -/
theorem Single.widen_narrow_widen (x : Single) : x.widen.narrow.widen = x.widen := by
  rw [narrow_widen, widen_quiet]

/-! ## Doubles that are singles -/

namespace Double

/-- The same word, with one NaN for all of them. -/
def oneNaN (x : Double) : Double := if x.isNaN then ofFields false 2047 0x8000000000000 else x

/-- A single has this value. -/
def IsSingle (x : Double) : Prop := ∃ y : Single, x.oneNaN = y.widen.oneNaN

theorem oneNaN_of_isNaN {x : Double} (hx : x.isNaN = true) :
    x.oneNaN = ofFields false 2047 0x8000000000000 :=
  if_pos hx

theorem oneNaN_of_not_isNaN {x : Double} (hx : x.isNaN = false) : x.oneNaN = x :=
  if_neg (Bool.eq_false_iff.mp hx)

theorem isNaN_oneNaN (x : Double) : x.oneNaN.isNaN = x.isNaN := by
  cases hx : x.isNaN with
  | true =>
    rw [oneNaN_of_isNaN hx]
    decide
  | false => rw [oneNaN_of_not_isNaN hx, hx]

/-- A double survives being narrowed exactly if it is a single. -/
theorem oneNaN_narrow_widen_iff {x : Double} : x.narrow.widen.oneNaN = x.oneNaN ↔ x.IsSingle := by
  constructor
  · intro h
    exact ⟨x.narrow, h.symm⟩
  · rintro ⟨y, hy⟩
    cases hx : x.isNaN with
    | true =>
      have hwide : x.narrow.widen.isNaN = true := Single.isNaN_widen (x.isNaN_narrow.trans hx)
      rw [oneNaN_of_isNaN hwide, oneNaN_of_isNaN hx]
    | false =>
      have hwide : y.widen.isNaN = false := by rw [← isNaN_oneNaN, ← hy, isNaN_oneNaN, hx]
      rw [oneNaN_of_not_isNaN hx, oneNaN_of_not_isNaN hwide] at hy
      rw [hy, Single.widen_narrow_widen]

end Double

end HistogramMonitor
