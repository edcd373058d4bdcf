import HistogramMonitor.Decimal
import HistogramMonitor.Json.Value
import HistogramMonitor.Text.Numeral

/-!
# Reading JSON

Reading a JSON text to its end, and saying where and why it fails. Positions count bytes, as lines and
columns from one; a fault about a character that has not been taken yet lies one byte further on than
reading has come.

Nesting is limited to `depthLimit` levels. Of a number, only as many digits count as fit into 64 bits, and
its parts are rounded to doubles before they are put together; the result must not exceed their range.
-/

namespace HistogramMonitor.Json

/-- Why a text is no JSON. -/
inductive Cause
  | endInList
  | endInObject
  | endInString
  | endInValue
  | expectedColon
  | expectedListComma
  | expectedObjectComma
  | expectedIdent
  | expectedValue
  | invalidEscape
  | invalidNumber
  | numberRange
  | controlCharacter
  | keyNotString
  | loneSurrogate
  | trailingComma
  | trailingCharacters
  | endOfHexEscape
  | depth
  deriving DecidableEq, Repr

/-- The wording of a cause. -/
def Cause.message : Cause → String
  | endInList => "EOF while parsing a list"
  | endInObject => "EOF while parsing an object"
  | endInString => "EOF while parsing a string"
  | endInValue => "EOF while parsing a value"
  | expectedColon => "expected `:`"
  | expectedListComma => "expected `,` or `]`"
  | expectedObjectComma => "expected `,` or `\x7d`"
  | expectedIdent => "expected ident"
  | expectedValue => "expected value"
  | invalidEscape => "invalid escape"
  | invalidNumber => "invalid number"
  | numberRange => "number out of range"
  | controlCharacter => "control character (\\u0000-\\u001F) found while parsing a string"
  | keyNotString => "key must be a string"
  | loneSurrogate => "lone leading surrogate in hex escape"
  | trailingComma => "trailing comma"
  | trailingCharacters => "trailing characters"
  | endOfHexEscape => "unexpected end of hex escape"
  | depth => "recursion limit exceeded"

/-- A cause, and the number of bytes before it. -/
structure Fault where
  cause : Cause
  index : Nat
  deriving DecidableEq, Repr

/-- The text left to read, and the bytes read so far. -/
structure Position where
  rest : List Char
  index : Nat

/-- A step of reading. -/
abbrev Reader := StateT Position (Except Fault)

namespace Reader

variable {α : Type}

/-! ## Characters -/

/-- A fault at what has been taken. -/
def fail (c : Cause) : Reader α := fun p => .error ⟨c, p.index⟩

/-- A fault at the character to come. -/
def failNext (c : Cause) : Reader α := fun p =>
  .error ⟨c, match p.rest with | [] => p.index | _ :: _ => p.index + 1⟩

/-- The character to come. -/
def peek : Reader (Option Char) := fun p => .ok (p.rest.head?, p)

/-- Takes a character. -/
def advance : Reader Unit := fun p =>
  match p.rest with
  | [] => .ok ((), p)
  | c :: rest => .ok ((), ⟨rest, p.index + c.utf8Size⟩)

/-- A fault at the byte to come, which is taken as far as its position goes. -/
def failTaken (c : Cause) : Reader α := failNext c

/-- Blanks between tokens. -/
def blank (c : Char) : Bool := c = ' ' || c = '\n' || c = '\t' || c = '\r'

/-- Skips blanks; they all take one byte. -/
def skipBlanks : Reader Unit := fun p =>
  .ok ((), ⟨p.rest.dropWhile blank, p.index + (p.rest.takeWhile blank).length⟩)

/-- The first character that is no blank. -/
def peekToken : Reader (Option Char) := do skipBlanks; peek

/-- The rest of a word whose first character has been taken. -/
def word : List Char → Reader Unit
  | [] => return
  | expected :: more => do
    match ← peek with
    | none => fail .endInValue
    | some c => if c = expected then advance; word more else failTaken .expectedIdent

/-! ## Strings -/

/-- The number of bytes of some characters. -/
def byteCount (cs : List Char) : Nat := (cs.map Char.utf8Size).foldl (· + ·) 0

/-- Four hexadecimal digits. -/
def hexEscape : Reader Nat := fun p =>
  let digits := (p.rest.take 4).map Text.hexValue?
  match digits with
  | [some a, some b, some c, some d] =>
    .ok (((a * 16 + b) * 16 + c) * 16 + d, ⟨p.rest.drop 4, p.index + 4⟩)
  | _ =>
    let left := byteCount p.rest
    if left < 4 then .error ⟨.endInString, p.index + left⟩ else .error ⟨.invalidEscape, p.index + 4⟩

/-- The character of an escape by code unit; a leading surrogate needs its trailing one. -/
def unicodeEscape : Reader Char := do
  let n ← hexEscape
  if 0xdc00 ≤ n ∧ n ≤ 0xdfff then fail .loneSurrogate
  else if n < 0xd800 ∨ 0xdbff < n then return Char.ofNat n
  else
    match ← peek with
    | none => fail .endInString
    | some c =>
      if c = '\\' then
        advance
        match ← peek with
        | none => fail .endInString
        | some c =>
          if c = 'u' then
            advance
            let m ← hexEscape
            if m < 0xdc00 ∨ 0xdfff < m then fail .loneSurrogate
            else return Char.ofNat ((n - 0xd800) * 1024 + (m - 0xdc00) + 0x10000)
          else failTaken .endOfHexEscape
      else failTaken .endOfHexEscape

/-- The character of an escape, whose backslash has been taken. -/
def escape : Reader Char := do
  match ← peek with
  | none => fail .endInString
  | some c =>
    match c with
    | '"' => advance; return '"'
    | '\\' => advance; return '\\'
    | '/' => advance; return '/'
    | 'b' => advance; return '\x08'
    | 'f' => advance; return '\x0c'
    | 'n' => advance; return '\n'
    | 'r' => advance; return '\r'
    | 't' => advance; return '\t'
    | 'u' => advance; unicodeEscape
    | _ => failTaken .invalidEscape

/-- The rest of a string whose quote has been taken, the characters so far in reverse. -/
def stringRest : Nat → List Char → Reader String
  | 0, _ => fail .endInString
  | fuel + 1, done => do
    match ← peek with
    | none => fail .endInString
    | some '"' => advance; return String.ofList done.reverse
    | some '\\' =>
      advance
      let c ← escape
      stringRest fuel (c :: done)
    | some c =>
      if c.toNat < 0x20 then failTaken .controlCharacter
      else advance; stringRest fuel (c :: done)

/-! ## Numbers -/

/-- A number, unless it is too large. -/
def finish (negative : Bool) (mantissa : Nat) (exponent : Int) : Reader Json :=
  if Decimal.productExceedsDouble mantissa exponent then fail .numberRange
  else return .number (if negative then -(mantissa : Int) else mantissa) exponent

/-- The digits to come. -/
def digits : Reader (List Char) := fun p =>
  let ds := p.rest.takeWhile Char.isDigit
  .ok (ds, ⟨p.rest.dropWhile Char.isDigit, p.index + ds.length⟩)

/-- The number that digits spell after the digits of `n`, as far as it fits into 64 bits, and the digits
from the first that does not fit. -/
def fitting (n : Nat) : List Char → Nat × List Char
  | [] => (n, [])
  | d :: ds =>
    let next := n * 10 + (d.toNat - '0'.toNat)
    if next < 0x10000000000000000 then fitting next ds else (n, d :: ds)

/-- The digits of an exponent, one at a time: once they exceed 31 bits, only zero stays in range. -/
def exponentDigits (zero positive : Bool) : List Char → Nat → Reader Nat
  | [], n => return n
  | d :: ds, n => do
    advance
    let next := n * 10 + (d.toNat - '0'.toNat)
    if 0x80000000 ≤ next then
      if zero || !positive then
        let _ ← digits
        return next
      else fail .numberRange
    else exponentDigits zero positive ds next

/-- The exponent, whose letter has been taken. -/
def exponent (zero : Bool) : Reader Int := do
  let positive ← match ← peek with
    | some '+' => advance; pure true
    | some '-' => advance; pure false
    | _ => pure true
  match ← peek with
  | none => fail .endInValue
  | some c =>
    if c.isDigit then
      let ds : List Char ← fun p => .ok (p.rest.takeWhile Char.isDigit, p)
      let n ← exponentDigits zero positive ds 0
      return if positive then (n : Int) else -(n : Int)
    else failTaken .invalidNumber

/-- The rest of a number after the digits of its whole part. -/
def numberRest (negative : Bool) (whole : List Char) : Reader Json := do
  let (mantissa, left) := fitting 0 whole
  let (mantissa, power) ← match ← peek with
    | some '.' => do
      advance
      let ds ← digits
      if ds.isEmpty then
        match ← peek with
        | some _ => failNext .invalidNumber
        | none => failNext .endInValue
      else
        let (mantissa, more) := fitting mantissa ds
        pure (mantissa, (left.length + more.length : Int) - ds.length)
    | _ => pure (mantissa, (left.length : Int))
  match ← peek with
  | some c =>
    if c = 'e' ∨ c = 'E' then
      advance
      let e ← exponent (mantissa == 0)
      if mantissa = 0 then return .number 0 0 else finish negative mantissa (power + e)
    else finish negative mantissa power
  | none => finish negative mantissa power

/-- A number whose sign has been taken. -/
def number (negative : Bool) : Reader Json := do
  match ← peek with
  | none => fail .endInValue
  | some '0' =>
    advance
    match ← peek with
    | some c => if c.isDigit then failNext .invalidNumber else numberRest negative ['0']
    | none => numberRest negative ['0']
  | some c =>
    if c.isDigit then
      let ds ← digits
      numberRest negative ds
    else failTaken .invalidNumber

/-! ## Values -/

/-- The levels that may be open at a time. -/
def depthLimit : Nat := 127

mutual

/-- A value, with `depth` further levels allowed. -/
def value : Nat → Nat → Reader Json
  | 0, _ => failNext .endInValue
  | fuel + 1, depth => do
    match ← peekToken with
    | none => failNext .endInValue
    | some 'n' => advance; word "ull".toList; return .null
    | some 't' => advance; word "rue".toList; return .bool true
    | some 'f' => advance; word "alse".toList; return .bool false
    | some '-' => advance; number true
    | some '"' => advance; return .string (← stringRest fuel [])
    | some '[' =>
      if depth = 0 then failNext .depth
      else advance; elements fuel (depth - 1) true []
    | some '\x7b' =>
      if depth = 0 then failNext .depth
      else advance; members fuel (depth - 1) true []
    | some c => if c.isDigit then number false else failNext .expectedValue

/-- The rest of a list, the items so far in reverse. -/
def elements : Nat → Nat → Bool → List Json → Reader Json
  | 0, _, _, _ => failNext .endInList
  | fuel + 1, depth, first, done => do
    match ← peekToken with
    | none => failNext .endInList
    | some ']' => advance; return .array done.reverse
    | some c =>
      if first then
        let item ← value fuel depth
        elements fuel depth false (item :: done)
      else if c = ',' then
        advance
        match ← peekToken with
        | some ']' => failNext .trailingComma
        | none => failNext .endInValue
        | some _ =>
          let item ← value fuel depth
          elements fuel depth false (item :: done)
      else failNext .expectedListComma

/-- The rest of an object, the members so far in reverse. -/
def members : Nat → Nat → Bool → List (String × Json) → Reader Json
  | 0, _, _, _ => failNext .endInObject
  | fuel + 1, depth, first, done => do
    match ← peekToken with
    | none => failNext .endInObject
    | some '\x7d' => advance; return .object done.reverse
    | some c =>
      if first then
        if c = '"' then
          let m ← member fuel depth
          members fuel depth false (m :: done)
        else failNext .keyNotString
      else if c = ',' then
        advance
        match ← peekToken with
        | some '"' =>
          let m ← member fuel depth
          members fuel depth false (m :: done)
        | some '\x7d' => failNext .trailingComma
        | some _ => failNext .keyNotString
        | none => failNext .endInValue
      else failNext .expectedObjectComma

/-- One member, whose key is to come. -/
def member : Nat → Nat → Reader (String × Json)
  | 0, _ => failNext .endInObject
  | fuel + 1, depth => do
    advance
    let key ← stringRest fuel []
    match ← peekToken with
    | some ':' => advance; return (key, ← value fuel depth)
    | some _ => failNext .expectedColon
    | none => failNext .endInObject

end

/-- A value and nothing after it. -/
def document (fuel : Nat) : Reader Json := do
  let j ← value fuel depthLimit
  match ← peekToken with
  | none => return j
  | some _ => failNext .trailingCharacters

end Reader

/-! ## Texts -/

/-- Line and column of a byte position. -/
def lineAndColumn (text : List Char) (index : Nat) : Nat × Nat :=
  let step := fun (acc : Nat × Nat × Nat) (c : Char) =>
    let (i, line, start) := acc
    if c = '\n' ∧ i < index then (i + 1, line + 1, i + 1) else (i + c.utf8Size, line, start)
  let (_, line, start) := text.foldl step (0, 1, 0)
  (line, index - start)

/-- The value of a text, or the message that says where it fails. -/
def parse (text : String) : Except String Json :=
  let cs := text.toList
  match Reader.document (4 * cs.length + 4) ⟨cs, 0⟩ with
  | .ok (j, _) => .ok j
  | .error f =>
    let (line, column) := lineAndColumn cs f.index
    .error s!"{f.cause.message} at line {line} column {column}"

end HistogramMonitor.Json
