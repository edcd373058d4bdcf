import HistogramMonitor.Yaml.Token

/-!
# Scanning a YAML text

The state of reading a document, and its steps on characters: how far reading has come, in which line and
column, which block collections and brackets are open, where keys may have begun, and the tokens so far. A
key may begin where a line does or after an indicator that opens an entry; after a value has begun on a
line, it may not.
-/

namespace HistogramMonitor.Yaml

/-- Why a text is no document. -/
inductive Fault
  /-- no token begins here, or one does not end as it should -/
  | noToken (line column : Nat)
  /-- the tokens make no document -/
  | noDocument
  deriving DecidableEq, Repr

/-- The wording of a fault. -/
def Fault.message : Fault → String
  | noToken line column => s!"no token at line {line + 1} column {column + 1}"
  | noDocument => "not a valid document"

/-- Where a key may have begun: it has if a colon follows on the same line before long. -/
structure KeyStart where
  /-- the number of tokens before it -/
  place : Nat
  index : Nat
  line : Nat
  column : Nat
  /-- whether nothing but a key can stand there -/
  required : Bool
  deriving DecidableEq, Repr

/-- The state of reading. -/
structure Scan where
  rest : List Char
  /-- the octets read so far -/
  index : Nat := 0
  line : Nat := 0
  column : Nat := 0
  /-- whether a key may begin here -/
  fresh : Bool := true
  /-- the columns of the block collections that are open, the innermost first -/
  blocks : List Nat := []
  /-- where a key may have begun that could end here -/
  key : Option KeyStart := none
  /-- the same for what stands around each open bracket, the innermost first -/
  outer : List (Option KeyStart) := []
  tokens : Array Token := #[]

/-- A step of reading. -/
abbrev Reader := StateT Scan (Except Fault)

namespace Scan

/-- Past one character. -/
def past (s : Scan) (c : Char) : Scan :=
  if isBreak c then { s with index := s.index + c.utf8Size, line := s.line + 1, column := 0 }
  else { s with index := s.index + c.utf8Size, column := s.column + 1 }

/-- Past the first `n` characters. -/
def skip (n : Nat) (s : Scan) : Scan :=
  { (s.rest.take n).foldl past s with rest := s.rest.drop n }

/-- Whether brackets are open. -/
def flow (s : Scan) : Bool := !s.outer.isEmpty

/-- The first column that lies inside the innermost block collection. -/
def margin (s : Scan) : Nat :=
  match s.blocks with
  | column :: _ => column + 1
  | [] => 0

/-- Whether a word ends before these characters. -/
def wordEnds : List Char → Bool
  | [] => true
  | c :: _ => isWhite c

/-- Whether three such characters stand at the start of the line as a word of their own. -/
def marker (c : Char) (s : Scan) : Bool :=
  s.column = 0 &&
    match s.rest with
    | x :: y :: z :: rest => x = c && y = c && z = c && wordEnds rest
    | _ => false

/-- Whether a document begins or ends here. -/
def atMarker (s : Scan) : Bool := s.marker '-' || s.marker '.'

/-- Past blanks, comments and line ends, at most as many lines of them as there are characters `ahead`.
Tabs do not count as blanks where a key may begin, except between brackets; a byte order mark does at the
start of a line. -/
def skipLines : List Char → Scan → Scan
  | [], s => s
  | _ :: ahead, s =>
    let s := if s.column = 0 ∧ s.rest.head? = some '\uFEFF' then s.skip 1 else s
    let blank := fun c => c = ' ' || (c = '\t' && (s.flow || !s.fresh))
    let s := s.skip (s.rest.takeWhile blank).length
    let s := match s.rest with
      | '#' :: _ => s.skip (s.rest.takeWhile (!isBreak ·)).length
      | _ => s
    match s.rest with
    | c :: _ =>
      if isBreak c then skipLines ahead { s.skip 1 with fresh := s.fresh || !s.flow } else s
    | [] => s

/-- Past everything before the next token. -/
def toToken (s : Scan) : Scan := s.skipLines s.rest

end Scan

namespace Reader

/-- Stops here. -/
def fail {α : Type} : Reader α := fun s => .error (.noToken s.line s.column)

/-- Takes `n` characters. -/
def take (n : Nat) : Reader (List Char) := fun s => .ok (s.rest.take n, s.skip n)

/-- Takes the characters with a property. -/
def takeWhile (p : Char → Bool) : Reader (List Char) := fun s =>
  let cs := s.rest.takeWhile p
  .ok (cs, s.skip cs.length)

/-- Leaves `n` characters out. -/
def drop (n : Nat) : Reader Unit := modify (Scan.skip n)

/-- The character to come. -/
def peek : Reader (Option Char) := return (← get).rest.head?

/-- Says whether a key may begin here. -/
def setFresh (fresh : Bool) : Reader Unit := modify fun s => { s with fresh := fresh }

/-- The rest of a line that may hold nothing but a comment, with its end. -/
def lineEnd : Reader Unit := do
  let _ ← takeWhile isBlank
  if (← peek) = some '#' then
    let _ ← takeWhile (!isBreak ·)
  match ← peek with
  | none => return
  | some c => if isBreak c then drop 1 else fail

end Reader

end HistogramMonitor.Yaml
