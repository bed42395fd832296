import SourceNavigator.Markup.Kind
import SourceNavigator.Text.Point

/-!
# Nodes of a document

A document is a graph of nodes, because an alias names a node that stands elsewhere, and may name one
that it is a part of. Nodes are known by their numbers: `Graph.node` gives the node of a number,
`Graph.add` makes a new one, and `Graph.setContent` and `Graph.setKind` change one in its place, which
shows wherever it is named.
-/

namespace SourceNavigator.Markup

/-- What a node holds: a text, or the numbers of the nodes that are its items or its entries. -/
inductive Content where
  | scalar (text : Text.Points)
  | list (items : List Nat)
  | map (entries : List (Nat × Nat))
  deriving DecidableEq, Repr

/-- A node with the kind it is to be read as. -/
structure Node where
  kind : Kind
  content : Content
  deriving DecidableEq, Repr

/-- The node that stands where nothing is written. -/
def Node.nothing : Node := ⟨.null, .scalar []⟩

/-- The nodes of a document in the order of their numbers. -/
structure Graph where
  nodes : Array Node
  deriving Repr

namespace Graph

def empty : Graph := ⟨#[]⟩

def size (g : Graph) : Nat := g.nodes.size

def node (g : Graph) (i : Nat) : Node := (g.nodes[i]?).getD Node.nothing

def kind (g : Graph) (i : Nat) : Kind := (g.node i).kind

def content (g : Graph) (i : Nat) : Content := (g.node i).content

/-- The graph with one more node; its number is the number of nodes before. -/
def add (g : Graph) (n : Node) : Graph := ⟨g.nodes.push n⟩

def setContent (g : Graph) (i : Nat) (c : Content) : Graph :=
  ⟨g.nodes.modify i fun n => { n with content := c }⟩

def setKind (g : Graph) (i : Nat) (k : Kind) : Graph :=
  ⟨g.nodes.modify i fun n => { n with kind := k }⟩

@[simp] theorem size_add (g : Graph) (n : Node) : (g.add n).size = g.size + 1 := by
  simp [size, add]

@[simp] theorem size_setContent (g : Graph) (i : Nat) (c : Content) :
    (g.setContent i c).size = g.size := by
  simp [size, setContent]

@[simp] theorem size_setKind (g : Graph) (i : Nat) (k : Kind) : (g.setKind i k).size = g.size := by
  simp [size, setKind]

@[simp] theorem node_add (g : Graph) (n : Node) : (g.add n).node g.size = n := by
  simp [node, add, size]

end Graph

end SourceNavigator.Markup
