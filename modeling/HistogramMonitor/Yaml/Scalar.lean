import HistogramMonitor.Text.Numeral
import HistogramMonitor.Yaml.Scan

/-!
# Reading scalars

The five styles of scalar. In the plain and the quoted ones, a single line end between two words reads as
a space, and of several the first is dropped. In a block scalar the lines stand as they are below a margin
of spaces; when it is folded, lines that begin with a word are joined in the same way. The indicators in
its header set the margin and say whether the line ends after the last line are dropped, clipped to one or
kept.
-/

namespace HistogramMonitor.Yaml

/-! ## Folding -/

/-- What the line ends between two words read as. -/
def foldBreaks : List Char → List Char
  | ['\n'] => [' ']
  | '\n' :: more => more
  | breaks => breaks

/-- What the blanks and line ends between two words read as: blanks around a line end are dropped. -/
def foldWhite (white : List Char) : List Char :=
  if white.any isBreak then foldBreaks (white.filter isBreak) else white

/-- Whether a tab stands left of the margin in a line after the first, where only spaces may. -/
def tabInMargin (margin : Nat) (white : List Char) : Bool :=
  let step := fun (acc : Option Nat × Bool) c =>
    match acc with
    | (column, found) =>
      if isBreak c then (some 0, found)
      else (column.map (· + 1), found || (c = '\t' && column.any (· < margin)))
  (white.foldl step (none, false)).2

namespace Reader

/-! ## Quoted scalars -/

/-- The rest of a single-quoted scalar, the characters so far in reverse. A quote in it is doubled. -/
def singleQuotedRest : List Char → List Char → Reader String
  | [], _ => fail
  | _ :: ahead, done => do
    let s ← get
    if s.atMarker then fail
    else match s.rest with
      | '\'' :: '\'' :: _ => drop 2; singleQuotedRest ahead ('\'' :: done)
      | '\'' :: _ => drop 1; return String.ofList done.reverse
      | c :: _ =>
        if isWhite c then
          let white ← takeWhile isWhite
          singleQuotedRest ahead ((foldWhite white).reverse ++ done)
        else drop 1; singleQuotedRest ahead (c :: done)
      | [] => fail

/-- The character whose code point the next `n` hexadecimal digits give. -/
def codePoint (n : Nat) : Reader Char := do
  let digits := ((← get).rest.take n).map Text.hexValue?
  if digits.length = n ∧ digits.all (·.isSome) then
    let value := digits.foldl (fun v d => v * 16 + d.getD 0) 0
    if (0xd800 ≤ value ∧ value ≤ 0xdfff) ∨ 0x10ffff < value then fail
    else
      drop n
      return Char.ofNat value
  else fail

/-- The escapes of one letter. -/
def letterEscape? : Char → Option Char
  | '0' => some '\x00'
  | 'a' => some '\x07'
  | 'b' => some '\x08'
  | 't' | '\t' => some '\t'
  | 'n' => some '\n'
  | 'v' => some '\x0b'
  | 'f' => some '\x0c'
  | 'r' => some '\r'
  | 'e' => some '\x1b'
  | ' ' => some ' '
  | '"' => some '"'
  | '/' => some '/'
  | '\\' => some '\\'
  | 'N' => some '\u0085'
  | '_' => some '\u00A0'
  | 'L' => some '\u2028'
  | 'P' => some '\u2029'
  | _ => none

/-- An escape, whose backslash has been taken. -/
def escape : Reader Char := do
  match (← get).rest with
  | 'x' :: _ => drop 1; codePoint 2
  | 'u' :: _ => drop 1; codePoint 4
  | 'U' :: _ => drop 1; codePoint 8
  | c :: _ =>
    match letterEscape? c with
    | some d => drop 1; return d
    | none => fail
  | [] => fail

/-- The rest of a double-quoted scalar, the characters so far in reverse. An escaped line end reads as
nothing. -/
def doubleQuotedRest : List Char → List Char → Reader String
  | [], _ => fail
  | _ :: ahead, done => do
    let s ← get
    if s.atMarker then fail
    else match s.rest with
      | '"' :: _ => drop 1; return String.ofList done.reverse
      | '\\' :: c :: _ =>
        drop 1
        if isBreak c then
          drop 1
          let white ← takeWhile isWhite
          doubleQuotedRest ahead ((white.filter isBreak).reverse ++ done)
        else
          let d ← escape
          doubleQuotedRest ahead (d :: done)
      | c :: _ =>
        if c = '\\' then fail
        else if isWhite c then
          let white ← takeWhile isWhite
          doubleQuotedRest ahead ((foldWhite white).reverse ++ done)
        else drop 1; doubleQuotedRest ahead (c :: done)
      | [] => fail

/-! ## Plain scalars -/

/-- The signs that end a plain scalar in a flow collection. -/
def isFlowSign (c : Char) : Bool := c = ',' || c = '[' || c = ']' || c = '\x7b' || c = '\x7d'

/-- The length of the word that a plain scalar goes on with, unless a colon stands in it where none
may. -/
def wordLength? (flow : Bool) : List Char → Option Nat
  | [] => some 0
  | c :: rest =>
    if isWhite c then some 0
    else if c = ':' ∧ Scan.wordEnds rest then some 0
    else if c = ':' ∧ flow ∧ rest.head?.any (fun d => isFlowSign d || d = '?') then none
    else if flow ∧ isFlowSign c then some 0
    else (· + 1) <$> wordLength? flow rest

/-- The rest of a plain scalar, the characters so far in reverse; `white` is what has been read since
the last word. Lines that begin left of the margin do not belong to it. -/
def plainRest (flow : Bool) (margin : Nat) : List Char → List Char → List Char → Reader String
  | [], _, _ => fail
  | _ :: ahead, white, done => do
    let s ← get
    let finish : Reader String := do
      setFresh (white.any isBreak)
      return String.ofList done.reverse
    if s.atMarker ∨ s.rest.head? = some '#' then finish
    else match wordLength? flow s.rest with
      | none => fail
      | some 0 => finish
      | some n =>
        let word ← take n
        let done := word.reverse ++ (foldWhite white).reverse ++ done
        let white ← takeWhile isWhite
        if tabInMargin margin white then fail
        else
          let s ← get
          if white.isEmpty || (!flow && s.column < margin) then
            setFresh (white.any isBreak)
            return String.ofList done.reverse
          else plainRest flow margin ahead white done

/-- Whether a plain scalar can begin here. -/
def plainBegins (flow : Bool) : List Char → Bool
  | [] => false
  | c :: rest =>
    if c = '-' then !rest.head?.any isBlank
    else if c = '?' || c = ':' then !flow && !Scan.wordEnds rest
    else !isWhite c && !isIndicator c

/-! ## Block scalars -/

/-- What becomes of the line ends after the last line. -/
inductive Chomping
  | strip
  | clip
  | keep
  deriving DecidableEq, Repr

/-- The header of a block scalar after its first sign: the chomping and the indentation, in either
order. -/
def blockHeader : Reader (Chomping × Nat) := do
  let chomping : Reader Chomping := do
    match ← peek with
    | some '+' => drop 1; return .keep
    | some '-' => drop 1; return .strip
    | _ => return .clip
  let indentation : Reader Nat := do
    match ← peek with
    | some c =>
      if c = '0' then fail
      else if c.isDigit then drop 1; return c.toNat - '0'.toNat
      else return 0
    | none => return 0
  let c ← chomping
  let n ← indentation
  let c ← if c = .clip then chomping else pure c
  lineEnd
  return (c, n)

/-- Takes the blank lines before the next line with text, in reverse in front of `done`, and the spaces
of its margin. Without a margin yet, all spaces are taken, and `widest` grows to the most of them. -/
def blankLines (margin : Option Nat) : List Char → Nat → List Char → Reader (Nat × List Char)
  | [], widest, done => return (widest, done)
  | _ :: ahead, widest, done => do
    let s ← get
    let spaces := (s.rest.takeWhile (· = ' ')).length
    drop (match margin with
      | none => spaces
      | some m => min spaces (m - s.column))
    let s ← get
    let widest := max widest s.column
    if s.rest.head? = some '\t' ∧ margin.all (s.column < ·) then fail
    else match s.rest with
      | c :: _ =>
        if isBreak c then
          drop 1
          blankLines margin ahead widest (c :: done)
        else return (widest, done)
      | [] => return (widest, done)

/-- What the line ends before a line of a block scalar read as. -/
def betweenLines (literal blankBefore blankAfter : Bool) (first more : List Char) : List Char :=
  if !literal && first = ['\n'] && !blankBefore && !blankAfter then
    if more.isEmpty then [' '] else more
  else first ++ more

/-- The lines of a block scalar, in reverse in front of `done`; `first` is the end of the line before
and `more` the line ends after it. -/
def blockLines (literal : Bool) (chomping : Chomping) (margin : Nat) (ahead : List Char)
    (blankBefore : Bool) (first more done : List Char) : Reader String := do
  let s ← get
  if s.column = margin ∧ ¬ s.rest.isEmpty then
    match ahead with
    | [] => fail
    | _ :: ahead =>
      let blank := s.rest.head?.any isBlank
      let line ← takeWhile (!isBreak ·)
      let between := betweenLines literal blankBefore blank first more
      let first ← take (if (← get).rest.isEmpty then 0 else 1)
      let (_, more) ← blankLines (some margin) (← get).rest 0 []
      blockLines literal chomping margin ahead blank first more.reverse
        (line.reverse ++ between.reverse ++ done)
  else
    setFresh true
    let tail := match chomping with
      | .strip => []
      | .clip => first
      | .keep => first ++ more
    return String.ofList (done.reverse ++ tail)

/-- A block scalar. Its lines begin at `margin` or further right, the more so if the header says so. -/
def blockScalar (literal : Bool) (margin : Nat) : Reader String := do
  drop 1
  let (chomping, n) ← blockHeader
  let ahead := (← get).rest
  if n = 0 then
    let (widest, breaks) ← blankLines none ahead 0 []
    blockLines literal chomping (max (max widest margin) 1) ahead false [] breaks.reverse []
  else
    let column := if margin = 0 then n else margin - 1 + n
    let (_, breaks) ← blankLines (some column) ahead 0 []
    blockLines literal chomping column ahead false [] breaks.reverse []

end Reader

end HistogramMonitor.Yaml
