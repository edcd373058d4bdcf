import HistogramMonitor.Text.Numeral
import HistogramMonitor.Yaml.Scan

/-!
# Anchors, tags and directives

What may stand before a node, and the lines before a document that say what tags mean. A tag is spelled in
the signs of resource names; an octet that is not among them stands as two hexadecimal digits after a
percent sign, and the octets written so have to form whole characters. A null octet ends a tag.
-/

namespace HistogramMonitor.Yaml

namespace Reader

/-! ## Anchors -/

/-- The name of an anchor or an alias, after its sign. -/
def name : Reader String := do
  let name ← takeWhile isNameChar
  let next := (← get).rest.head?
  let ends := next.all fun c => isWhite c || ['?', ':', ',', ']', '\x7d', '%', '@', '\x60'].contains c
  if name.isEmpty || !ends then fail else return String.ofList name

/-! ## Tags -/

/-- The characters that stand for themselves in a tag. -/
def isTagChar (c : Char) : Bool :=
  isNameChar c || [';', '/', '?', ':', '@', '&', '=', '+', '$', '.', '!', '~', '*', '\'', '(', ')'].contains c

/-- The signs that do so only where a tag has an end of its own. -/
def isFlowTagChar (c : Char) : Bool := c = ',' || c = '[' || c = ']'

/-- An octet by its digits. -/
def octet : Reader UInt8 := do
  match (← get).rest with
  | '%' :: a :: b :: _ =>
    match Text.hexValue? a, Text.hexValue? b with
    | some a, some b => drop 3; return UInt8.ofNat (16 * a + b)
    | _, _ => fail
  | _ => fail

/-- The number of octets after the first octet of a character, if it can be the first. -/
def octetsAfter? (first : UInt8) : Option Nat :=
  let n := first.toNat
  if n < 0x80 then some 0
  else if 0xc0 ≤ n ∧ n < 0xe0 then some 1
  else if 0xe0 ≤ n ∧ n < 0xf0 then some 2
  else if 0xf0 ≤ n ∧ n < 0xf8 then some 3
  else none

/-- The further octets of a character. -/
def octetsRest : Nat → Reader Tag
  | 0 => return []
  | n + 1 => do
    let o ← octet
    if Utf8.continues o then return o :: (← octetsRest n) else fail

/-- A character by its octets. -/
def octets : Reader Tag := do
  let first ← octet
  match octetsAfter? first with
  | some n => return first :: (← octetsRest n)
  | none => fail

/-- The octets that a row of signs spells; `closed` if the tag has an end of its own. -/
def spelling (closed : Bool) : List Char → Reader Tag
  | [] => return []
  | _ :: ahead => do
    match ← peek with
    | some '%' => return (← octets) ++ (← spelling closed ahead)
    | some c =>
      if isTagChar c || (closed && isFlowTagChar c) then
        drop 1
        return UInt8.ofNat c.toNat :: (← spelling closed ahead)
      else return []
    | none => return []

/-- The octets that at least one sign spells. -/
def spelled (closed : Bool) : Reader Tag := do
  let t ← spelling closed (← get).rest
  if t.isEmpty then fail else return t.takeWhile (· ≠ 0)

/-- A tag from its sign on, up to what ends it. -/
def tagParts : Reader Token := do
  match (← get).rest with
  | '!' :: '<' :: _ =>
    drop 2
    let rest ← spelled true
    if (← peek) = some '>' then
      drop 1
      return .tag "" rest
    else fail
  | _ =>
    drop 1
    let name ← takeWhile isNameChar
    if (← peek) = some '!' then
      drop 1
      return .tag ("!" ++ String.ofList name ++ "!") (← spelled false)
    else
      let more ← spelling false (← get).rest
      let rest := (Utf8.encode name ++ more).takeWhile (· ≠ 0)
      return if rest.isEmpty then .tag "" Tag.unspecific else .tag "!" rest

/-- A tag, which a blank or the end of a line has to follow, or a comma between brackets. -/
def tag : Reader Token := do
  let t ← tagParts
  let s ← get
  if s.rest.head?.all fun c => isWhite c || (s.flow && c = ',') then return t else fail

/-! ## Directives -/

/-- A number in a version, of at most nine digits. -/
def versionNumber : Reader Nat := do
  let ds ← takeWhile Char.isDigit
  match Text.numeral? 10 ds with
  | some n => if ds.length ≤ 9 then return n else fail
  | none => fail

/-- The handle that a directive is about. -/
def handleName : Reader String := do
  if (← peek) = some '!' then
    drop 1
    let name ← takeWhile isNameChar
    if (← peek) = some '!' then
      drop 1
      return "!" ++ String.ofList name ++ "!"
    else if name.isEmpty then return "!"
    else fail
  else fail

/-- Blanks, at least one. -/
def blanks : Reader Unit := do
  if (← takeWhile isBlank).isEmpty then fail

/-- A directive, whose sign has been taken, to the end of its line. -/
def directive : Reader Token := do
  let word := String.ofList (← takeWhile isNameChar)
  if word = "YAML" then
    blanks
    let major ← versionNumber
    if (← peek) = some '.' then
      drop 1
      let minor ← versionNumber
      lineEnd
      return .version major minor
    else fail
  else if word = "TAG" then
    blanks
    let name ← handleName
    blanks
    let stem ← spelled true
    if Scan.wordEnds (← get).rest then
      lineEnd
      return .handle name stem
    else fail
  else fail

end Reader

end HistogramMonitor.Yaml
