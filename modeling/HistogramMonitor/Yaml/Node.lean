import HistogramMonitor.Yaml.Token

/-!
# Nodes

What a document holds: scalars, sequences, mappings, and aliases of nodes that stand elsewhere in it. A
scalar keeps its style, since only a plain scalar can stand for a number or for nothing.

An anchored node carries a mark. Several nodes may carry the same one; an alias stands for the last of them
in the order of the text, wherever the alias itself stands.
-/

namespace HistogramMonitor.Yaml

/-- What is said about a node. -/
structure Label where
  tag : Option Tag := none
  mark : Option Nat := none
  deriving DecidableEq, Repr

/-- A node of a document. -/
inductive Node
  | scalar (label : Label) (text : String) (style : Style)
  | sequence (label : Label) (items : List Node)
  | mapping (label : Label) (entries : List (Node × Node))
  /-- the node with this mark -/
  | aliased (mark : Nat)
  deriving Repr

namespace Node

/-- The node that stands where nothing is written. -/
def empty (label : Label) : Node := .scalar label "" .plain

/-! ## Marked nodes -/

/-- A node under its mark. -/
def entry (label : Label) (n : Node) : List (Nat × Node) := (label.mark.map fun m => (m, n)).toList

mutual

/-- The marked nodes of a node, in the order of the text. -/
def marked : Node → List (Nat × Node)
  | .scalar label text style => entry label (.scalar label text style)
  | .sequence label items => entry label (.sequence label items) ++ markedItems items
  | .mapping label entries => entry label (.mapping label entries) ++ markedEntries entries
  | .aliased _ => []

/-- The marked nodes of some items. -/
def markedItems : List Node → List (Nat × Node)
  | [] => []
  | n :: ns => n.marked ++ markedItems ns

/-- The marked nodes of some entries. -/
def markedEntries : List (Node × Node) → List (Nat × Node)
  | [] => []
  | (key, value) :: entries => key.marked ++ value.marked ++ markedEntries entries

end

/-! ## Size -/

mutual

/-- The number of scalars and aliases of a node, and of starts and ends of collections. -/
def size : Node → Nat
  | .scalar _ _ _ => 1
  | .sequence _ items => sizeItems items + 2
  | .mapping _ entries => sizeEntries entries + 2
  | .aliased _ => 1

/-- The same for some items. -/
def sizeItems : List Node → Nat
  | [] => 0
  | n :: ns => n.size + sizeItems ns

/-- The same for some entries. -/
def sizeEntries : List (Node × Node) → Nat
  | [] => 0
  | (key, value) :: entries => key.size + value.size + sizeEntries entries

end

end Node

/-- A document: a node, and what its aliases stand for. -/
structure Document where
  root : Node
  /-- the marked nodes, the last first -/
  marked : List (Nat × Node) := root.marked.reverse

namespace Document

/-- The node that an alias stands for. -/
def node? (d : Document) (mark : Nat) : Option Node := d.marked.lookup mark

/-- How often aliases may be followed on reading the document. -/
def patience (d : Document) : Nat := 100 * d.root.size

end Document

end HistogramMonitor.Yaml
