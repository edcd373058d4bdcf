import HistogramMonitor.Decimal
import HistogramMonitor.Text.Numeral

/-!
# Plain words

What a word without quotes stands for: nothing, a truth value, an integer, a number with a point or an
exponent, or itself. Integers may be written in base sixteen, eight or two after `0x`, `0o` or `0b`.
Digits after a leading zero are no number.
-/

namespace HistogramMonitor.Yaml.Word

/-- The words for nothing; so does the empty word. -/
def isNull (w : String) : Bool := ["null", "Null", "NULL", "~"].contains w

/-- The words for truth values. -/
def isBoolean (w : String) : Bool :=
  ["true", "True", "TRUE", "false", "False", "FALSE"].contains w

/-! ## Integers -/

/-- A word without its plus sign. -/
def unplussed : List Char → List Char
  | '+' :: w => w
  | w => w

/-- A word without its sign. -/
def unsigned : List Char → List Char
  | '+' :: w => w
  | '-' :: w => w
  | w => w

/-- Whether a word, its sign aside, consists of digits after a leading zero. -/
def zeroLed (w : List Char) : Bool :=
  match unsigned w with
  | '0' :: c :: ds => (c :: ds).all Char.isDigit
  | _ => false

/-- The number after a sign for its base, if there is such a sign. -/
def radixNumeral? : List Char → Option Nat
  | '0' :: 'x' :: ds => Text.numeral? 16 ds
  | '0' :: 'o' :: ds => Text.numeral? 8 ds
  | '0' :: 'b' :: ds => Text.numeral? 2 ds
  | _ => none

/-- The natural number that a word stands for. -/
def natural? (w : List Char) : Option Nat :=
  if zeroLed w then none
  else radixNumeral? (unplussed w) <|> Text.numeral? 10 (unplussed w)

/-- The natural number whose negative a word stands for. -/
def negated? : List Char → Option Nat
  | '-' :: w => if zeroLed w then none else radixNumeral? w <|> Text.numeral? 10 w
  | _ => none

/-- Whether a word stands for an integer of at most 128 bits. -/
def isInteger (w : List Char) : Bool :=
  (natural? w).any (· < Nat.pow 2 128) || (negated? w).any (· ≤ Nat.pow 2 127)

/-! ## Numbers -/

/-- The words for infinities and for no number. -/
def isSpecial (w : List Char) : Bool :=
  [".inf", ".Inf", ".INF"].contains (String.ofList (unsigned w))
    || [".nan", ".NaN", ".NAN"].contains (String.ofList w)

/-- The exponent at the end of a number; nothing counts as zero. -/
def exponent? : List Char → Option Int
  | [] => some 0
  | c :: w =>
    if c = 'e' ∨ c = 'E' then
      match w with
      | '-' :: ds => (Text.numeral? 10 ds).map fun n => -(n : Int)
      | '+' :: ds => (Text.numeral? 10 ds).map Int.ofNat
      | ds => (Text.numeral? 10 ds).map Int.ofNat
    else none

/-- The mantissa and the exponent of a number without its sign. -/
def scientific? (w : List Char) : Option (Nat × Int) :=
  let whole := w.takeWhile Char.isDigit
  let rest := w.dropWhile Char.isDigit
  let (places, rest) := match rest with
    | '.' :: rest => (rest.takeWhile Char.isDigit, rest.dropWhile Char.isDigit)
    | _ => ([], rest)
  match Text.numeral? 10 (whole ++ places), exponent? rest with
  | some m, some e => some (m, e - places.length)
  | _, _ => none

/-- Whether a word stands for a number in the range of a double, or for no number at all. -/
def isNumber (w : List Char) : Bool :=
  isSpecial w ||
    match scientific? (unsigned w) with
    | some (m, e) => !Decimal.exceedsDouble m e
    | none => false

/-! ## Texts -/

/-- Whether a word would not be read as itself, or looks as if it might not. -/
def needsQuotes (w : String) : Bool :=
  let cs := w.toList
  w.isEmpty || isNull w || isBoolean w || isInteger cs || zeroLed cs || isNumber cs

end HistogramMonitor.Yaml.Word
