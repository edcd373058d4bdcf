import HistogramMonitor.Yaml.Property
import HistogramMonitor.Yaml.Scalar

/-!
# From text to tokens

The layout of a document. A block collection owns a column: its entries begin there, and what belongs to an
entry begins further right; the first token to the left of the column ends it. A collection between brackets
may be laid out freely.

A key is recognized by the colon after it, which must follow on the same line and within 1024 octets. Until
it does or no longer can, the place where the key may have begun is remembered, and the tokens for the key
and for the mapping that it may open are put in there.
-/

namespace HistogramMonitor.Yaml

/-- Whether a key that may have begun here can no longer end. -/
def KeyStart.expired (k : KeyStart) (s : Scan) : Bool :=
  k.line < s.line || k.index + 1024 < s.index

namespace Reader

/-! ## Tokens and places -/

/-- Adds a token. -/
def emit (t : Token) : Reader Unit := modify fun s => { s with tokens := s.tokens.push t }

/-- Adds a token that has `n` signs of its own. -/
def emitSigns (n : Nat) (t : Token) : Reader Unit := do
  drop n
  emit t

/-- Puts a token in after the first `place` ones. -/
def insert (place : Nat) (t : Token) : Reader Unit :=
  modify fun s => { s with tokens := s.tokens.insertIdxIfInBounds place t }

/-! ## Keys -/

/-- Forgets the keys that can no longer end. -/
def forgetExpired : Reader Unit := do
  let s ← get
  let expired := fun (k : KeyStart) => k.expired s
  if (s.key :: s.outer).any fun k => k.any fun k => k.required && expired k then fail
  else
    let kept := fun (k : Option KeyStart) => k.filter (!expired ·)
    set { s with key := kept s.key, outer := s.outer.map kept }

/-- Forgets the key that may have begun at this depth of brackets. -/
def forgetKey : Reader Unit := do
  match (← get).key with
  | some k => if k.required then fail else modify fun s => { s with key := none }
  | none => return

/-- Remembers that a key may begin here. Where the entries of a block begin, nothing else can. -/
def rememberKey : Reader Unit := do
  let s ← get
  if s.fresh then
    forgetKey
    let required := !s.flow && s.blocks.head? = some s.column
    modify fun s => { s with key := some ⟨s.tokens.size, s.index, s.line, s.column, required⟩ }

/-! ## Block collections -/

/-- Opens a block collection in this column, unless it is open; its token goes after the first `place`
ones. -/
def openBlock (column place : Nat) (t : Token) : Reader Unit := do
  let s ← get
  if !s.flow && s.margin ≤ column then
    insert place t
    modify fun s => { s with blocks := column :: s.blocks }

/-- Ends the block collections that own a column with a property. -/
def closeBlocks (beyond : Nat → Bool) : Reader Unit :=
  modify fun s =>
    if s.flow then s
    else
      let closed := s.blocks.takeWhile beyond
      { s with
        blocks := s.blocks.drop closed.length
        tokens := closed.foldl (fun ts _ => ts.push .blockEnd) s.tokens }

/-- An indicator that opens an entry of a block: it must stand where a key may begin. -/
def openEntry (t : Token) : Reader Unit := do
  let s ← get
  if !s.flow then
    if s.fresh then openBlock s.column s.tokens.size t else fail

/-! ## Indicators -/

/-- A dash before an item. -/
def dash : Reader Unit := do
  openEntry .sequenceStart
  forgetKey
  setFresh true
  emitSigns 1 .item

/-- A question mark before a key. -/
def question : Reader Unit := do
  openEntry .mappingStart
  forgetKey
  setFresh !(← get).flow
  emitSigns 1 .key

/-- A colon before a value, after the key that may have begun last or after none. -/
def colon : Reader Unit := do
  match (← get).key with
  | some k =>
    insert k.place .key
    openBlock k.column k.place .mappingStart
    modify fun s => { s with key := none, fresh := false }
  | none =>
    openEntry .mappingStart
    setFresh !(← get).flow
  emitSigns 1 .value

/-- An opening bracket or brace. -/
def openFlow (t : Token) : Reader Unit := do
  rememberKey
  modify fun s => { s with key := none, outer := s.key :: s.outer, fresh := true }
  emitSigns 1 t

/-- A closing bracket or brace. -/
def closeFlow (t : Token) : Reader Unit := do
  forgetKey
  modify fun s => { s with key := s.outer.head?.join, outer := s.outer.tail, fresh := false }
  emitSigns 1 t

/-- A comma between entries. -/
def comma : Reader Unit := do
  forgetKey
  setFresh true
  emitSigns 1 .comma

/-- The end of everything that is open, before a directive, the marker of a document or the end of the
text. -/
def closeDocument : Reader Unit := do
  closeBlocks fun _ => true
  forgetKey
  setFresh false

/-! ## Properties and scalars -/

/-- The first token of what may be a key. -/
def opening (t : Reader Token) : Reader Unit := do
  rememberKey
  setFresh false
  emit (← t)

/-- An anchor or an alias. -/
def named (t : String → Token) : Reader Token := do
  drop 1
  return t (← name)

/-- A scalar in one line or in several, but not as a block. -/
def flowScalar : Reader Token := do
  let s ← get
  match s.rest with
  | '"' :: ahead => drop 1; return .scalar (← doubleQuotedRest ahead []) .doubleQuoted
  | '\'' :: ahead => drop 1; return .scalar (← singleQuotedRest ahead []) .singleQuoted
  | ahead =>
    if plainBegins s.flow ahead then return .scalar (← plainRest s.flow s.margin ahead [] []) .plain
    else fail

/-- A scalar as a block; no key can be one. -/
def block (literal : Bool) : Reader Unit := do
  forgetKey
  emit (.scalar (← blockScalar literal (← get).margin) (if literal then .literal else .folded))

/-! ## The whole text -/

/-- The token that begins here. -/
def token : Reader Unit := do
  let s ← get
  match s.rest with
  | [] => fail
  | c :: rest =>
    let sign := Scan.wordEnds rest
    if s.column = 0 ∧ c = '%' then
      closeDocument
      drop 1
      emit (← directive)
    else if s.marker '-' then
      closeDocument
      emitSigns 3 .documentStart
    else if s.marker '.' then
      closeDocument
      emitSigns 3 .documentEnd
    else if c = '[' then openFlow .openBracket
    else if c = '\x7b' then openFlow .openBrace
    else if c = ']' then closeFlow .closeBracket
    else if c = '\x7d' then closeFlow .closeBrace
    else if c = ',' then comma
    else if c = '-' ∧ sign then dash
    else if c = '?' ∧ (s.flow ∨ sign) then question
    else if c = ':' ∧ (s.flow ∨ sign) then colon
    else if c = '*' then opening (named .aliased)
    else if c = '&' then opening (named .anchor)
    else if c = '!' then opening tag
    else if c = '|' ∧ ¬ s.flow then block true
    else if c = '>' ∧ ¬ s.flow then block false
    else opening flowScalar

/-- The tokens to the end of the text, at most `fuel` of them. -/
def tokens : Nat → Reader Unit
  | 0 => fail
  | fuel + 1 => do
    modify Scan.toToken
    forgetExpired
    let column := (← get).column
    closeBlocks (column < ·)
    if (← get).rest.isEmpty then closeDocument
    else
      token
      tokens fuel

end Reader

/-- The tokens of a text. -/
def tokensOf (text : String) : Except Fault (Array Token) :=
  let cs := text.toList
  if cs.all isAllowed then
    match Reader.tokens (cs.length + 1) { rest := unifyBreaks cs } with
    | .ok (_, s) => .ok s.tokens
    | .error f => .error f
  else .error .noDocument

end HistogramMonitor.Yaml
