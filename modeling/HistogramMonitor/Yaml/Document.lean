import HistogramMonitor.Yaml.Node
import HistogramMonitor.Yaml.Tokens

/-!
# From tokens to documents

How tokens make up nodes. A node is an alias, or a scalar or collection that may have an anchor and a tag
before it; a node with properties may be empty. The items of a sequence under a key may stand in the column
of the key, and then nothing marks where the sequence begins and ends but its dashes.

Marks are numbers of names: a new anchor gets the number of names that are in use, also if its own name is
one of them. `Yaml.parse` reads a text that holds exactly one document.
-/

namespace HistogramMonitor.Yaml

/-- The tokens left, and what has been said about names and handles. -/
structure Supply where
  rest : List Token
  /-- the names in use and the latest mark of each -/
  anchors : List (String × Nat) := []
  /-- the handles of tags and what they stand for -/
  handles : List (String × Tag) := []

/-- A step of making up nodes. -/
abbrev Builder := StateT Supply (Except Fault)

namespace Builder

/-- Stops here. -/
def fail {α : Type} : Builder α := fun _ => .error .noDocument

/-- The token to come. -/
def peek : Builder (Option Token) := return (← get).rest.head?

/-- Takes a token. -/
def advance : Builder Unit := modify fun s => { s with rest := s.rest.tail }

/-! ## Properties -/

/-- The mark of a new anchor. -/
def newMark (name : String) : Builder Nat := do
  let s ← get
  let mark := s.anchors.length
  set { s with anchors := (name, mark) :: s.anchors.filter (·.1 ≠ name) }
  return mark

/-- The mark that a name has. -/
def markOf (name : String) : Builder Nat := do
  match (← get).anchors.lookup name with
  | some mark => return mark
  | none => fail

/-- The handles that need no directive. -/
def usualHandles : List (String × Tag) :=
  [("!", Utf8.ofString "!"), ("!!", Utf8.ofString "tag:yaml.org,2002:")]

/-- A tag with what its handle stands for. -/
def wholeTag (handle : String) (rest : Tag) : Builder Tag := do
  if handle.isEmpty then return rest
  else match ((← get).handles ++ usualHandles).lookup handle with
    | some stem => return stem ++ rest
    | none => fail

/-- The anchor that may stand here. -/
def anchor? : Builder (Option Nat) := do
  match ← peek with
  | some (.anchor name) => advance; return some (← newMark name)
  | _ => return none

/-- The tag that may stand here. -/
def tag? : Builder (Option Tag) := do
  match ← peek with
  | some (.tag handle rest) => advance; return some (← wholeTag handle rest)
  | _ => return none

/-- The anchor and the tag that may stand here, in either order. -/
def label : Builder Label := do
  match ← anchor? with
  | some mark => return ⟨← tag?, some mark⟩
  | none =>
    match ← tag? with
    | some tag => return ⟨some tag, ← anchor?⟩
    | none => return {}

/-! ## Nodes -/

/-- Whether an entry of a block may end before this token. -/
def endsEntry : Option Token → Bool
  | some .key | some .value | some .blockEnd => true
  | _ => false

mutual

/-- A node. Block collections may stand in a block only, sequences without a start `under` a key. -/
def node : Nat → Bool → Bool → Builder Node
  | 0, _, _ => fail
  | fuel + 1, block, under => do
    match ← peek with
    | some (.aliased name) => advance; return .aliased (← markOf name)
    | _ =>
      let l ← label
      match ← peek, block, under with
      | some .item, _, true => return .sequence l (← looseItems fuel [])
      | some (.scalar text style), _, _ => advance; return .scalar l text style
      | some .openBracket, _, _ => advance; return .sequence l (← flowItems fuel true [])
      | some .openBrace, _, _ => advance; return .mapping l (← flowEntries fuel true [])
      | some .sequenceStart, true, _ => advance; return .sequence l (← blockItems fuel [])
      | some .mappingStart, true, _ => advance; return .mapping l (← blockEntries fuel [])
      | _, _, _ => if l = {} then fail else return .empty l

/-- The items of a sequence in block layout up to its end, the items so far in reverse. -/
def blockItems : Nat → List Node → Builder (List Node)
  | 0, _ => fail
  | fuel + 1, done => do
    match ← peek with
    | some .item =>
      advance
      let next ← peek
      let n ← if next = some .item ∨ next = some .blockEnd then pure (.empty {}) else node fuel true false
      blockItems fuel (n :: done)
    | some .blockEnd => advance; return done.reverse
    | _ => fail

/-- The items of a sequence in the column of its key, up to the first token that is no dash, the items so
far in reverse. -/
def looseItems : Nat → List Node → Builder (List Node)
  | 0, _ => fail
  | fuel + 1, done => do
    match ← peek with
    | some .item =>
      advance
      let next ← peek
      let n ← if next = some .item ∨ endsEntry next then pure (.empty {}) else node fuel true false
      looseItems fuel (n :: done)
    | _ => return done.reverse

/-- The entries of a mapping in block layout up to its end, the entries so far in reverse. -/
def blockEntries : Nat → List (Node × Node) → Builder (List (Node × Node))
  | 0, _ => fail
  | fuel + 1, done => do
    match ← peek with
    | some .key =>
      advance
      let key ← blockPart fuel
      let value ← if (← peek) = some .value then do advance; blockPart fuel else pure (.empty {})
      blockEntries fuel ((key, value) :: done)
    | some .blockEnd => advance; return done.reverse
    | _ => fail

/-- A key or a value of a mapping in block layout. -/
def blockPart : Nat → Builder Node
  | 0 => fail
  | fuel + 1 => do
    if endsEntry (← peek) then return .empty {} else node fuel true true

/-- The items of a sequence between brackets up to the closing one, the items so far in reverse. A single
entry of a mapping may stand for the mapping. -/
def flowItems : Nat → Bool → List Node → Builder (List Node)
  | 0, _, _ => fail
  | fuel + 1, first, done => do
    unless first || (← peek) = some .closeBracket do
      if (← peek) = some .comma then advance else fail
    match ← peek with
    | some .closeBracket => advance; return done.reverse
    | some .key =>
      advance
      let key ← flowKey fuel
      let value ← flowValue fuel .closeBracket
      flowItems fuel false (.mapping {} [(key, value)] :: done)
    | _ =>
      let n ← node fuel false false
      flowItems fuel false (n :: done)

/-- The key of a single entry. Where it is empty, the token after it is lost. -/
def flowKey : Nat → Builder Node
  | 0 => fail
  | fuel + 1 => do
    let next ← peek
    if next = some .value ∨ next = some .comma ∨ next = some .closeBracket then
      advance
      return .empty {}
    else node fuel false false

/-- The value after a key between brackets, of which `close` is the closing one. -/
def flowValue : Nat → Token → Builder Node
  | 0, _ => fail
  | fuel + 1, close => do
    if (← peek) = some .value then
      advance
      let next ← peek
      if next = some .comma ∨ next = some close then return .empty {} else node fuel false false
    else return .empty {}

/-- The entries of a mapping between braces up to the closing one, the entries so far in reverse. -/
def flowEntries : Nat → Bool → List (Node × Node) → Builder (List (Node × Node))
  | 0, _, _ => fail
  | fuel + 1, first, done => do
    unless first || (← peek) = some .closeBrace do
      if (← peek) = some .comma then advance else fail
    match ← peek with
    | some .closeBrace => advance; return done.reverse
    | some .key =>
      advance
      let next ← peek
      let key ←
        if next = some .value ∨ next = some .comma ∨ next = some .closeBrace then pure (.empty {})
        else node fuel false false
      let value ← flowValue fuel .closeBrace
      flowEntries fuel false ((key, value) :: done)
    | _ =>
      let key ← node fuel false false
      flowEntries fuel false ((key, .empty {}) :: done)

end

/-! ## Documents -/

/-- The directives before a document; at most one gives the version, and none repeats a handle. -/
def directives : Nat → Bool → Builder Unit
  | 0, _ => fail
  | fuel + 1, versioned => do
    match ← peek with
    | some (.version major minor) =>
      if versioned || major ≠ 1 || !(minor = 1 || minor = 2) then fail
      else
        advance
        directives fuel true
    | some (.handle name stem) =>
      let s ← get
      if (s.handles.lookup name).isSome then fail
      else
        set { s with rest := s.rest.tail, handles := (name, stem) :: s.handles }
        directives fuel versioned
    | _ => return

/-- Whether a document ends before this token. -/
def endsDocument : Option Token → Bool
  | some (.version _ _) | some (.handle _ _) | some .documentStart | some .documentEnd | none => true
  | _ => false

/-- A document, whose start has to be marked if there are directives or nothing in it. -/
def document (fuel : Nat) : Builder Node := do
  match ← peek with
  | some (.version _ _) | some (.handle _ _) | some .documentStart =>
    directives fuel false
    if (← peek) = some .documentStart then
      advance
      if endsDocument (← peek) then return .empty {} else node fuel true false
    else fail
  | _ => node fuel true false

/-- A document with nothing but ends of documents after it. -/
def onlyDocument (fuel : Nat) : Builder Node := do
  let n ← document fuel
  if (← get).rest.all (· = .documentEnd) then return n else fail

end Builder

/-- The document in a text that holds exactly one. -/
def parse (text : String) : Except Fault Document := do
  let ts := (← tokensOf text).toList
  match Builder.onlyDocument (4 * ts.length + 4) { rest := ts } with
  | .ok (n, _) => return { root := n }
  | .error f => throw f

end HistogramMonitor.Yaml
