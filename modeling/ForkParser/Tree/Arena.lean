import ForkParser.Tree.Basic

/-!
# ForkParser.Tree.Arena

Trees as arrays of nodes that refer to each other by number.  Nodes are
numbered from the root down and from left to right, so the root is number 0
and the numbers of a subtree are consecutive.
-/

namespace ForkParser

/-- A node that knows its parent and its children by number. -/
structure Arena.Node where
  symbol : Symbol
  text? : Option String
  position : Nat
  parent : Option Nat
  children : List Nat
deriving DecidableEq

/-- A tree as an array of nodes. -/
structure Arena where
  nodes : Array Arena.Node
deriving DecidableEq

namespace Arena

/-- The numbers of the roots of consecutive trees, the first being `index`. -/
def roots (index : Nat) : List Tree → List Nat
  | [] => []
  | t :: ts => index :: roots (index + t.size) ts

mutual

/-- The nodes of a tree whose root has number `index`, in front of `rest`. -/
def number (parent : Option Nat) (index : Nat) (rest : List Node) : Tree → List Node
  | .leaf s text p => ⟨s, some text, p, parent, []⟩ :: rest
  | .node s p cs =>
    ⟨s, none, p, parent, roots (index + 1) cs⟩ :: numberAll index (index + 1) rest cs

/-- The nodes of consecutive trees with one parent, in front of `rest`. -/
def numberAll (parent index : Nat) (rest : List Node) : List Tree → List Node
  | [] => rest
  | t :: ts => number (some parent) index (numberAll parent (index + t.size) rest ts) t

end

def ofTree (t : Tree) : Arena := ⟨(number none 0 [] t).toArray⟩

def size (a : Arena) : Nat := a.nodes.size

def isEmpty (a : Arena) : Bool := a.nodes.isEmpty

/-- The children of a node; none for a number without a node. -/
def childrenOf (a : Arena) (index : Nat) : List Nat :=
  match a.nodes[index]? with
  | some n => n.children
  | none => []

/-- Follows child links from the nodes still to be visited, each with its
depth, for at most `steps` nodes. -/
def follow (a : Arena) : (steps : Nat) → List (Nat × Nat) → List (Nat × Nat)
  | 0, _ => []
  | _, [] => []
  | steps + 1, (depth, index) :: todo =>
    (depth, index) :: a.follow steps ((a.childrenOf index).map (depth + 1, ·) ++ todo)

/-- Every node reached from the root with its depth, a node before its children
and those from left to right.  No walk visits more nodes than there are. -/
def depthFirst (a : Arena) : List (Nat × Nat) := a.follow a.size [(0, 0)]

/-! ## building in one pass -/

/-- Adds children behind those that a node has. -/
def link (parent : Option Nat) (children : List Nat) (nodes : Array Node) : Array Node :=
  match parent with
  | none => nodes
  | some index => nodes.modify index fun n => { n with children := n.children ++ children }

/-- Adds the node of a token.  Its children are linked to it when they are added themselves. -/
def grow (parent : Option Nat) (t : Token) (nodes : Array Node) : Array Node :=
  link parent [nodes.size] (nodes.push ⟨t.symbol, t.text?, t.position, parent, []⟩)

/-- Adds the tokens still to come, each with the number of its parent.  What stands below a
token comes next, and a token that is met again ends it all. -/
def buildFrom (nodes : Array Node) (seen : List Origin) :
    (todo : List (Token × Option Nat)) → Except Error Arena
  | [] => .ok ⟨nodes⟩
  | (t, parent) :: todo =>
    if t.origin ∈ seen then .error (.cycle t.symbol t.position)
    else
      buildFrom (grow parent t nodes) (t.origin :: seen)
        (t.children.map (·, some nodes.size) ++ todo)
termination_by todo => Tree.sizeAll (Token.shapes (todo.map Prod.fst))
decreasing_by
  -- a token is replaced by what stands below it
  have hfirst : (t.children.map (·, some nodes.size) ++ todo).map Prod.fst =
      t.children ++ todo.map Prod.fst := by simp [Function.comp_def]
  rw [hfirst, Token.sizeAll_shapes_append]
  simp only [List.map_cons, Token.shapes, Tree.sizeAll, Token.size_shape]
  omega

/-- The arena of a token in one pass, which looks for tokens met twice as it goes. -/
def build (root : Token) : Except Error Arena := buildFrom #[] [] [(root, none)]

end Arena

end ForkParser
