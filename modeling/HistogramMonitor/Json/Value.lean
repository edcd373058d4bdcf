/-!
# JSON values and their compact text

Call arguments travel as JSON. The compact text has no blanks; inside a string, the quote, the backslash
and the control characters below the space are escaped, and every other character stands for itself.
-/

namespace HistogramMonitor

/-- A JSON value. Objects keep their members in the order of the text. -/
inductive Json
  | null
  | bool (b : Bool)
  /-- `mantissa * 10 ^ exponent` -/
  | number (mantissa exponent : Int)
  | string (s : String)
  | array (items : List Json)
  | object (members : List (String × Json))
  deriving Repr

namespace Json

/-- A natural number. -/
def ofNat (n : Nat) : Json := .number n 0

/-- The hexadecimal digit of a number below 16. -/
def hexDigit (n : Nat) : Char := Nat.digitChar n

/-- One character as it stands inside a string. -/
def escaped (c : Char) : List Char :=
  if c = '"' then ['\\', '"']
  else if c = '\\' then ['\\', '\\']
  else if c = '\x08' then ['\\', 'b']
  else if c = '\x0c' then ['\\', 'f']
  else if c = '\n' then ['\\', 'n']
  else if c = '\r' then ['\\', 'r']
  else if c = '\t' then ['\\', 't']
  else if c.toNat < 0x20 then
    ['\\', 'u', '0', '0', hexDigit (c.toNat / 16), hexDigit (c.toNat % 16)]
  else [c]

/-- A string between quotes. -/
def stringText (s : String) : List Char := '"' :: s.toList.flatMap escaped ++ ['"']

/-- A number: its digits, with the zeros of a positive exponent or a negative exponent spelled out. -/
def numberText (mantissa exponent : Int) : List Char :=
  let digits := (toString mantissa).toList
  if exponent = 0 then digits else digits ++ 'e' :: (toString exponent).toList

mutual

/-- The compact text, as characters. -/
def characters : Json → List Char
  | .null => "null".toList
  | .bool b => (if b then "true" else "false").toList
  | .number m e => numberText m e
  | .string s => stringText s
  | .array items => '[' :: itemsText items ++ [']']
  | .object members => '\x7b' :: membersText members ++ ['\x7d']

/-- The items of a list, commas between them. -/
def itemsText : List Json → List Char
  | [] => []
  | [j] => characters j
  | j :: js => characters j ++ ',' :: itemsText js

/-- The members of an object, commas between them. -/
def membersText : List (String × Json) → List Char
  | [] => []
  | [(k, v)] => stringText k ++ ':' :: characters v
  | (k, v) :: ms => stringText k ++ ':' :: characters v ++ ',' :: membersText ms

end

/-- The compact text. -/
def text (j : Json) : String := String.ofList j.characters

/-- The last member of an object with this key. -/
def member? (j : Json) (key : String) : Option Json :=
  match j with
  | .object members => (members.reverse.find? fun m => m.1 = key).map (·.2)
  | _ => none

end Json

end HistogramMonitor
