import ApiReference.Declaration.Walk

/-! # Declaration graphs

Declarations that are built one by one and adopted by others.  A declaration can be a child of
several; the last one that adopted it counts as its parent.  A name stands for the last declaration
that was given it, but one that loses its name keeps its place. -/

namespace ApiReference

/-- A declaration of a graph; others are meant by their numbers. -/
structure GraphNode where
  /-- The declaration itself, without children. -/
  declaration : Declaration
  children : List Nat
  parent : Option Nat := none

/-- Declarations in the order in which they were added, which numbers them. -/
structure Graph where
  nodes : List GraphNode := []
  /-- What names stand for, the last one given first. -/
  names : List (Text × Nat) := []

namespace Graph

/-- The number of the declaration that a name stands for. -/
def number? (graph : Graph) (name : Text) : Option Nat := graph.names.lookup name

/-- Makes one declaration the parent of another. -/
def adopt (graph : Graph) (parent child : Nat) : Graph :=
  { graph with nodes := graph.nodes.modify child fun node => { node with parent := some parent } }

/-- Adds a declaration under a name; it adopts its children. -/
def insert (graph : Graph) (name : Text) (declaration : Declaration) (children : List Nat) :
    Graph :=
  let number := graph.nodes.length
  children.foldl (fun graph child => graph.adopt number child)
    { nodes := graph.nodes ++ [⟨declaration, children, none⟩]
      names := (name, number) :: graph.names }

/-- Appends a child to a declaration, which adopts it. -/
def addChild (graph : Graph) (parent child : Nat) : Graph :=
  let nodes := graph.nodes.modify parent fun node =>
    { node with children := node.children ++ [child] }
  { graph with nodes }.adopt parent child

/-- The tree below a declaration, at most `fuel` levels deep. -/
def treeWithin (graph : Graph) : Nat → Nat → Declaration
  | 0, _ => default
  | fuel + 1, number =>
    match graph.nodes[number]? with
    | some node =>
      { node.declaration with children := node.children.map (graph.treeWithin fuel) }
    | none => default

/-- The tree below a declaration. -/
def tree (graph : Graph) (number : Nat) : Declaration :=
  graph.treeWithin (graph.nodes.length + 1) number

/-- The number of the parent of a declaration. -/
def parentNumber? (graph : Graph) (number : Nat) : Option Nat :=
  graph.nodes[number]?.bind (·.parent)

/-- The ancestors of a declaration, the parent first, and at most `fuel` of them. -/
def lineageWithin (graph : Graph) : Nat → Nat → List Ancestor
  | 0, _ => []
  | fuel + 1, number =>
    match graph.parentNumber? number with
    | some parent => (graph.tree parent).asAncestor :: graph.lineageWithin fuel parent
    | none => []

/-- A declaration with the tree below it and its ancestors. -/
def place (graph : Graph) (number : Nat) : Placed :=
  ⟨graph.tree number, graph.lineageWithin graph.nodes.length number⟩

/-- The parent of a declaration. -/
def parent? (graph : Graph) (number : Nat) : Option Declaration :=
  (graph.parentNumber? number).map graph.tree

/-- The numbers of a declaration and of those below it in pre-order, at most `fuel` levels deep. -/
def numbersWithin (graph : Graph) : Nat → Nat → List Nat
  | 0, _ => []
  | fuel + 1, number =>
    number ::
      ((graph.nodes[number]?.map (·.children)).getD []).flatMap (graph.numbersWithin fuel)

/-- A declaration and all its descendants in pre-order. -/
def walk (graph : Graph) (number : Nat) : List Placed :=
  (graph.numbersWithin (graph.nodes.length + 1) number).map graph.place

end Graph

end ApiReference
