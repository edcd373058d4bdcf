import HistogramMonitor.Yaml.Node
import HistogramMonitor.Yaml.Word

/-!
# Reading values from nodes

Texts are taken from scalars of any style, numbers only from plain words. Where a list belongs, an empty
value stands for the empty list; where something may be absent, so does an empty value or a word for
nothing, unless a tag says otherwise. The members of a record have texts as keys. Members that mean nothing
to the reader are passed over, but those that do may stand only once.

An alias is read as the node that it stands for. Since aliases can multiply, reading gives up when it has
followed them too often for the size of the document; those in members that are passed over do not count.
-/

namespace HistogramMonitor.Yaml

/-- A step of reading a document: it may follow some aliases, and tells how many it may still follow. -/
abbrev Decoding := ReaderT Document (StateT Nat (Except String))

/-- A reading of a node, or what was wrong with it. -/
abbrev Decoder (α : Type) := Node → Decoding α

namespace Decoder

variable {α : Type}

/-- The node that an alias stands for; any other node stands for itself. -/
def follow (n : Node) : Decoding Node := do
  match n with
  | .aliased mark =>
    match ← get with
    | 0 => throw "too many aliases"
    | left + 1 =>
      set left
      match (← read).node? mark with
      | some n => return n
      | none => throw "unknown alias"
  | n => return n

/-- A text. -/
def text : Decoder String := fun n => do
  match ← follow n with
  | .scalar _ s _ => return s
  | _ => throw "expected a text"

/-- A natural number below a bound. -/
def natural (bound : Nat) : Decoder Nat := fun n => do
  match ← follow n with
  | .scalar label s style =>
    if style = .plain ∨ (style = .literal ∧ label.tag = some Tag.integer) then
      match Word.natural? s.toList with
      | some n => if n < bound then return n else throw s!"{n} is out of range"
      | none => throw "expected a number"
    else throw "expected a number"
  | _ => throw "expected a number"

/-- The readings of some nodes, in order. -/
def each (decode : Decoder α) : List Node → Decoding (List α)
  | [] => return []
  | n :: ns => do
    let a ← decode n
    let as ← each decode ns
    return a :: as

/-- A list. -/
def list (decode : Decoder α) : Decoder (List α) := fun n => do
  match ← follow n with
  | .sequence _ items => each decode items
  | .scalar _ s style => if s.isEmpty && style = .plain then return [] else throw "expected a list"
  | _ => throw "expected a list"

/-- Something that may be absent. -/
def optional (decode : Decoder α) : Decoder (Option α) := fun n => do
  let n ← follow n
  match n with
  | .scalar label s .plain =>
    match label.tag with
    | none => if s.isEmpty || Word.isNull s then return none else some <$> decode n
    | some tag =>
      if tag ≠ Tag.null then some <$> decode n
      else if Word.isNull s then return none
      else throw "expected nothing"
  | _ => some <$> decode n

/-! ### Records -/

/-- The members of a record, whose keys are texts. -/
def members : Decoder (List (String × Node)) := fun n => do
  match ← follow n with
  | .mapping _ entries => entries.mapM fun (key, value) => return (← text key, value)
  | _ => throw "expected a record"

/-- The member under a key, which may stand only once. -/
def member? (ms : List (String × Node)) (key : String) : Decoding (Option Node) :=
  match ms.filter (·.1 = key) with
  | [] => return none
  | [m] => return some m.2
  | _ => throw s!"duplicate member {key}"

/-- The member under a key. -/
def required (ms : List (String × Node)) (key : String) (decode : Decoder α) : Decoding α := do
  match ← member? ms key with
  | some n => decode n
  | none => throw s!"missing member {key}"

/-- The member under a key, or a value in its place. -/
def orElse (ms : List (String × Node)) (key : String) (a : α) (decode : Decoder α) : Decoding α := do
  match ← member? ms key with
  | some n => decode n
  | none => return a

end Decoder

/-- The reading of a document. -/
def Document.decode {α : Type} (d : Document) (decode : Decoder α) : Except String α :=
  (·.1) <$> (decode d.root d).run d.patience

end HistogramMonitor.Yaml
