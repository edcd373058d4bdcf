/-!
# Binary floating point words

Edges and bin contents travel as IEEE 754 words of 32 and 64 bits, and the words themselves are the
values here: two of them are equal exactly when their bits are. Converting between the two widths is
a function on words, computed in exact natural arithmetic:

* `Single.widen` is exact, every single being a double;
* `Double.narrow` rounds to the nearest single, a tie going to the even significand.

Both keep the sign and the leading payload bits of a NaN and make it quiet. Sums, differences and
quotients are those of the machine's double arithmetic.
-/

namespace HistogramMonitor

/-- A 32 bit floating point word. -/
structure Single where
  bits : UInt32
  deriving DecidableEq, Repr, Inhabited

/-- A 64 bit floating point word. -/
structure Double where
  bits : UInt64
  deriving DecidableEq, Repr, Inhabited

/-! ## Rounding -/

/-- The integer nearest to `num / den`; of two equally near ones, the even one. -/
def roundHalfEven (num den : Nat) : Nat :=
  let q := num / den
  let twice := 2 * (num % den)
  if twice < den then q
  else if den < twice then q + 1
  else if q % 2 = 0 then q else q + 1

/-! ## Fields of a word -/

namespace Single

/-- The sign bit. -/
def negative (x : Single) : Bool := decide (0x80000000 ≤ x.bits.toNat)

/-- The biased exponent, below `2 ^ 8`. -/
def exponent (x : Single) : Nat := x.bits.toNat / 0x800000 % 0x100

/-- The trailing significand, below `2 ^ 23`. -/
def fraction (x : Single) : Nat := x.bits.toNat % 0x800000

/-- The word with these fields. -/
def ofFields (negative : Bool) (exponent fraction : Nat) : Single :=
  ⟨UInt32.ofNat ((if negative then 0x80000000 else 0) + exponent * 0x800000 + fraction)⟩

/-- All exponent bits set and a fraction: not a number. -/
def isNaN (x : Single) : Bool := x.exponent == 255 && x.fraction != 0

end Single

namespace Double

/-- The sign bit. -/
def negative (x : Double) : Bool := decide (0x8000000000000000 ≤ x.bits.toNat)

/-- The biased exponent, below `2 ^ 11`. -/
def exponent (x : Double) : Nat := x.bits.toNat / 0x10000000000000 % 0x800

/-- The trailing significand, below `2 ^ 52`. -/
def fraction (x : Double) : Nat := x.bits.toNat % 0x10000000000000

/-- The word with these fields. -/
def ofFields (negative : Bool) (exponent fraction : Nat) : Double :=
  ⟨UInt64.ofNat ((if negative then 0x8000000000000000 else 0) + exponent * 0x10000000000000 + fraction)⟩

/-- All exponent bits set and a fraction: not a number. -/
def isNaN (x : Double) : Bool := x.exponent == 2047 && x.fraction != 0

/-- The whole significand of a finite word, hidden bit included. -/
def significand (x : Double) : Nat :=
  if x.exponent = 0 then x.fraction else 0x10000000000000 + x.fraction

/-- A finite word is `significand * 2 ^ (power - 1074)`. -/
def power (x : Double) : Nat := x.exponent - 1

end Double

/-! ## Conversions -/

/-- The double of the same value. -/
def Single.widen (x : Single) : Double :=
  if x.exponent = 255 then
    Double.ofFields x.negative 2047
      (if x.fraction = 0 then 0 else 0x8000000000000 + x.fraction % 0x400000 * 0x20000000)
  else if x.exponent = 0 then
    if x.fraction = 0 then Double.ofFields x.negative 0 0
    else
      let top := x.fraction.log2
      Double.ofFields x.negative (top + 874) ((x.fraction - Nat.pow 2 top) * Nat.pow 2 (52 - top))
  else Double.ofFields x.negative (x.exponent + 896) (x.fraction * 0x20000000)

/-- The single nearest to a double, a tie going to the even significand; what is too large becomes
an infinity. -/
def Double.narrow (x : Double) : Single :=
  if x.exponent = 2047 then
    Single.ofFields x.negative 255
      (if x.fraction = 0 then 0 else 0x400000 + x.fraction % 0x8000000000000 / 0x20000000)
  else
    -- The last place of a single lies at `2 ^ -149`, that of this double at `2 ^ (power - 1074)`.
    let drop := max 29 (925 - x.power)
    let rounded := roundHalfEven x.significand (Nat.pow 2 drop)
    -- Adding the significand onto the exponent field carries by itself when rounding reaches `2 ^ 24`.
    let magnitude := (x.power + drop - 925) * 0x800000 + rounded
    if 255 * 0x800000 ≤ magnitude then Single.ofFields x.negative 255 0
    else Single.ofFields x.negative 0 magnitude

/-- The double of a count. -/
def Double.ofCount (n : UInt32) : Double :=
  if n = 0 then ⟨0⟩
  else
    let top := n.toNat.log2
    Double.ofFields false (top + 1023) ((n.toNat - Nat.pow 2 top) * Nat.pow 2 (52 - top))

/-! ## Arithmetic -/

namespace Double

/-- The machine's double with these bits. -/
def toFloat (x : Double) : Float := Float.ofBits x.bits

/-- The bits of a machine double. -/
def ofFloat (x : Float) : Double := ⟨x.toBits⟩

instance : Add Double := ⟨fun x y => ofFloat (x.toFloat + y.toFloat)⟩
instance : Sub Double := ⟨fun x y => ofFloat (x.toFloat - y.toFloat)⟩
instance : Mul Double := ⟨fun x y => ofFloat (x.toFloat * y.toFloat)⟩
instance : Div Double := ⟨fun x y => ofFloat (x.toFloat / y.toFloat)⟩

/-- Zero with its sign bit set: the neutral element of addition. -/
def negativeZero : Double := ⟨0x8000000000000000⟩

/-- The most negative finite double. -/
def lowest : Double := ⟨0xffefffffffffffff⟩

/-- The larger of two doubles; one that is not a number gives way to the other. -/
def larger (x y : Double) : Double :=
  if x.isNaN then y
  else if x.toFloat < y.toFloat then y else x

end Double

end HistogramMonitor
