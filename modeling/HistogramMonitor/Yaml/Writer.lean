import HistogramMonitor.Yaml.Node
import HistogramMonitor.Yaml.Word

/-!
# Writing documents

A document is written as an outline: texts, numbers, lists and records. Every entry begins on a line of
its own, two columns to the right of the collection around it; only a list under a key stays in the column
of the key. A text of one line is written as it is where a reader would find it again, between single
quotes where it would not, and between double quotes where single ones cannot hold it. A text of several
lines becomes a block, unless blanks at the ends of its lines would be lost there.
-/

namespace HistogramMonitor.Yaml

/-- What can be written. -/
inductive Outline
  | text (s : String)
  | number (n : Nat)
  | list (items : List Outline)
  | record (members : List (String × Outline))
  deriving Repr

/-! ## What a text looks like -/

namespace Plain

/-- Whether two characters in a row have the two properties. -/
def adjacent (p q : Char → Bool) : List Char → Bool
  | c :: d :: cs => (p c && q d) || adjacent p q (d :: cs)
  | _ => false

/-- Whether a word ends before these characters. -/
def ends : List Char → Bool
  | [] => true
  | c :: _ => isWhite c

/-- Whether a text begins like something else. -/
def opensOther (s : List Char) : Bool :=
  match s with
  | '-' :: '-' :: '-' :: _ => true
  | '.' :: '.' :: '.' :: _ => true
  | c :: cs => isIndicator c || ((c = '?' || c = '-') && ends cs)
  | [] => false

/-- Whether a colon in a text would end a key. -/
def holdsColon (s : List Char) : Bool :=
  adjacent (· = ':') isWhite s || s.getLast? = some ':'

/-- Whether a sign in a text would open a comment. -/
def holdsComment (s : List Char) : Bool := adjacent isWhite (· = '#') s

/-- A space or the end of a line. -/
def isGap (c : Char) : Bool := c = ' ' || isBreak c

end Plain

/-- Whether a text can be written as it is. -/
def plainAllowed (s : List Char) : Bool :=
  !s.isEmpty && s.all (fun c => isPrintable c && !isBreak c)
    && !Plain.opensOther s && !Plain.holdsColon s && !Plain.holdsComment s
    && !s.head?.any Plain.isGap && !s.getLast?.any Plain.isGap

/-- Whether a text can be written between single quotes: spaces around a line end would be lost. -/
def singleAllowed (s : List Char) : Bool :=
  s.all isPrintable && !Plain.adjacent isBreak (· = ' ') s && !Plain.adjacent (· = ' ') isBreak s

/-- Whether a text can be written as a block. -/
def blockAllowed (s : List Char) : Bool :=
  !s.isEmpty && s.all isPrintable && !Plain.adjacent (· = ' ') isBreak s && s.getLast? ≠ some ' '

/-- The style in which a text is written. -/
def styleOf (s : String) : Style :=
  let cs := s.toList
  if cs.contains '\n' then
    if blockAllowed cs then .literal else .doubleQuoted
  else if !Word.needsQuotes s && plainAllowed cs then .plain
  else if singleAllowed cs then .singleQuoted
  else .doubleQuoted

/-! ## Scalars -/

/-- A row of spaces. -/
def indent (n : Nat) : List Char := List.replicate n ' '

/-- The inside of single quotes, where a quote is doubled and a line begins at the margin; `fresh` says
whether a line begins here. -/
def singleInside (margin : Nat) : Bool → List Char → List Char
  | fresh, [] => if fresh then indent margin else []
  | fresh, c :: cs =>
    if isBreak c then c :: singleInside margin true cs
    else
      (if fresh then indent margin else []) ++ (if c = '\'' then ['\'', '\''] else [c])
        ++ singleInside margin false cs

/-- The upper-case hexadecimal digits of a number, at least `width` of them. -/
def hexPadded (width n : Nat) : List Char :=
  let ds := (Nat.toDigits 16 n).map Char.toUpper
  List.replicate (width - ds.length) '0' ++ ds

/-- A character between double quotes. -/
def doubleEscaped (c : Char) : List Char :=
  if isPrintable c && !isBreak c && c ≠ '"' && c ≠ '\\' then [c]
  else
    '\\' :: match c with
      | '\x00' => ['0']
      | '\x07' => ['a']
      | '\x08' => ['b']
      | '\t' => ['t']
      | '\n' => ['n']
      | '\x0b' => ['v']
      | '\x0c' => ['f']
      | '\r' => ['r']
      | '\x1b' => ['e']
      | '"' => ['"']
      | '\\' => ['\\']
      | '\u0085' => ['N']
      | '\u2028' => ['L']
      | '\u2029' => ['P']
      | _ =>
        if c.toNat ≤ 0xff then 'x' :: hexPadded 2 c.toNat
        else if c.toNat ≤ 0xffff then 'u' :: hexPadded 4 c.toNat
        else 'U' :: hexPadded 8 c.toNat

/-- The lines of a block, each that is not blank at the margin; `fresh` says whether a line begins
here. -/
def blockInside (margin : Nat) : Bool → List Char → List Char
  | _, [] => []
  | fresh, c :: cs =>
    if isBreak c then c :: blockInside margin true cs
    else (if fresh then indent margin else []) ++ c :: blockInside margin false cs

/-- The header of a block: whether its first line begins with a blank, and what becomes of the line ends
after its last line. -/
def blockHeader (s : List Char) : List Char :=
  let first := if s.head?.any Plain.isGap then ['2'] else []
  let last := match s.reverse with
    | c :: d :: _ => if isBreak c then (if isBreak d then ['+'] else []) else ['-']
    | [c] => if isBreak c then ['+'] else ['-']
    | [] => ['-']
  '|' :: first ++ last

/-- A text in a style, with the end of its last line; further lines begin at the margin. -/
def textLines (margin : Nat) (style : Style) (s : List Char) : List Char :=
  match style with
  | .plain | .folded => s ++ ['\n']
  | .singleQuoted => '\'' :: singleInside margin false s ++ ['\'', '\n']
  | .doubleQuoted => '"' :: s.flatMap doubleEscaped ++ ['"', '\n']
  | .literal =>
    blockHeader s ++ '\n' :: blockInside margin true s
      ++ (if s.getLast?.any isBreak then [] else ['\n'])

namespace Outline

/-! ## Collections -/

mutual

/-- An outline that begins in this column, up to the end of its last line. -/
def lines (column : Nat) : Outline → List Char
  | .text s => textLines column (styleOf s) s.toList
  | .number n => (toString n).toList ++ ['\n']
  | .list [] => "[]\n".toList
  | .record [] => "\x7b\x7d\n".toList
  | .list (item :: items) => '-' :: ' ' :: lines (column + 2) item ++ itemLines column items
  | .record ((key, value) :: members) =>
    key.toList ++ ':' :: valueLines column value ++ memberLines column members

/-- What stands after the colon of a key in this column. -/
def valueLines (column : Nat) : Outline → List Char
  | .list (item :: items) =>
    '\n' :: indent column ++ '-' :: ' ' :: lines (column + 2) item ++ itemLines column items
  | .record ((key, value) :: members) =>
    '\n' :: indent (column + 2) ++ key.toList ++ ':' :: valueLines (column + 2) value
      ++ memberLines (column + 2) members
  | .list [] => " []\n".toList
  | .record [] => " \x7b\x7d\n".toList
  | .text s => ' ' :: textLines (column + 2) (styleOf s) s.toList
  | .number n => ' ' :: (toString n).toList ++ ['\n']

/-- The further items of a list in this column. -/
def itemLines (column : Nat) : List Outline → List Char
  | [] => []
  | item :: items => indent column ++ '-' :: ' ' :: lines (column + 2) item ++ itemLines column items

/-- The further members of a record in this column. -/
def memberLines (column : Nat) : List (String × Outline) → List Char
  | [] => []
  | (key, value) :: members =>
    indent column ++ key.toList ++ ':' :: valueLines column value ++ memberLines column members

end

/-- The text of a document. -/
def render (o : Outline) : String := String.ofList (o.lines 0)

/-! ## Reading back -/

mutual

/-- The node that a reader finds where an outline was written. -/
def node : Outline → Node
  | .text s => .scalar {} s (styleOf s)
  | .number n => .scalar {} (toString n) .plain
  | .list items => .sequence {} (itemNodes items)
  | .record members => .mapping {} (memberNodes members)

/-- The nodes of the items of a list. -/
def itemNodes : List Outline → List Node
  | [] => []
  | item :: items => item.node :: itemNodes items

/-- The nodes of the members of a record. -/
def memberNodes : List (String × Outline) → List (Node × Node)
  | [] => []
  | (key, value) :: members => (.scalar {} key .plain, value.node) :: memberNodes members

end

end Outline

end HistogramMonitor.Yaml
