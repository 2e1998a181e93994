import ForkParser.Proofs.Numbering

/-!
# ForkParser.Proofs.Building

An arena can be built in one pass over a token.

The pass keeps the tokens that it has met and a list of those still to come, adds one node at
a time and links it to its parent.  When it comes to a token, it goes on behind that token with
the whole tree added (`Builds`), or ends at the token that a walk meets again.  This holds of a
token if it holds of its children (`buildFrom_children`), since a tree can be added from the root
down (`addTree_shape`) and the trees of one parent one by one (`addTrees_cons`).

`build_eq` is the main statement.
-/

namespace ForkParser

theorem Token.visit_eq (seen : List Origin) (t : Token) :
    t.visit seen =
      if t.origin ∈ seen then .error t else visitAll (t.origin :: seen) t.children := by
  cases t <;> rfl

namespace Arena

/-! ## links -/

/-- A link changes the children of one node and nothing else. -/
theorem getElem?_link (parent : Option Nat) (children : List Nat) (nodes : Array Node) (i : Nat) :
    (link parent children nodes)[i]? = nodes[i]?.map fun n =>
      if parent = some i then { n with children := n.children ++ children } else n := by
  cases parent with
  | none => simp [link]
  | some index => by_cases h : index = i <;> simp [link, Array.getElem?_modify, h]

@[simp] theorem size_link (parent : Option Nat) (children : List Nat) (nodes : Array Node) :
    (link parent children nodes).size = nodes.size := by
  cases parent <;> simp [link]

theorem link_nil (parent : Option Nat) (nodes : Array Node) : link parent [] nodes = nodes := by
  apply Array.ext_getElem?
  intro i
  simp [getElem?_link]

theorem link_link (parent : Option Nat) (children more : List Nat) (nodes : Array Node) :
    link parent more (link parent children nodes) = link parent (children ++ more) nodes := by
  apply Array.ext_getElem?
  intro i
  by_cases h : parent = some i <;> simp [getElem?_link, h, Function.comp_def]

/-- Links leave the nodes alone that were added later. -/
theorem link_append {parent : Option Nat} {nodes : Array Node}
    (hparent : ∀ index ∈ parent, index < nodes.size) (children : List Nat) (more : Array Node) :
    link parent children (nodes ++ more) = link parent children nodes ++ more := by
  apply Array.ext_getElem?
  intro i
  rw [getElem?_link, Array.getElem?_append, Array.getElem?_append, size_link]
  by_cases hi : i < nodes.size
  · rw [if_pos hi, if_pos hi, getElem?_link]
  · have hne : parent ≠ some i := fun h => hi (hparent i h)
    simp [hi, hne]

/-- Links to the node that was added last change only that node. -/
theorem link_push (children : List Nat) (n : Node) (nodes : Array Node) :
    link (some nodes.size) children (nodes.push n) =
      nodes.push { n with children := n.children ++ children } := by
  apply Array.ext_getElem?
  intro i
  rw [getElem?_link, Array.getElem?_push, Array.getElem?_push]
  by_cases h : i = nodes.size
  · simp [h]
  · simp [h, Ne.symm h]

/-! ## trees under a parent -/

/-- The nodes of a tree added, its root linked to its parent. -/
def addTree (parent : Option Nat) (t : Tree) (nodes : Array Node) : Array Node :=
  link parent [nodes.size] nodes ++ (number parent nodes.size [] t).toArray

/-- The nodes of consecutive trees added, all of them linked to one parent. -/
def addTrees (parent : Nat) (ts : List Tree) (nodes : Array Node) : Array Node :=
  link (some parent) (roots nodes.size ts) nodes ++ (numberAll parent nodes.size [] ts).toArray

theorem size_addTree (parent : Option Nat) (t : Tree) (nodes : Array Node) :
    (addTree parent t nodes).size = nodes.size + t.size := by
  simp [addTree, length_number]

theorem addTrees_nil (parent : Nat) (nodes : Array Node) : addTrees parent [] nodes = nodes := by
  simp [addTrees, roots, numberAll, link_nil]

/-- Consecutive trees can be added one by one. -/
theorem addTrees_cons {parent : Nat} {nodes : Array Node} (hparent : parent < nodes.size)
    (t : Tree) (ts : List Tree) :
    addTrees parent (t :: ts) nodes = addTrees parent ts (addTree (some parent) t nodes) := by
  have hlinked : ∀ index ∈ some parent, index < (link (some parent) [nodes.size] nodes).size := by
    simpa using hparent
  rw [addTrees, addTrees, size_addTree, addTree, link_append hlinked, link_link, roots, numberAll,
    number_append]
  simp [Array.append_assoc]

/-- Trees under the node that was added last stand right behind it. -/
theorem addTrees_push (ts : List Tree) (n : Node) (nodes : Array Node) :
    addTrees nodes.size ts (nodes.push n) =
      nodes ++ ({ n with children := n.children ++ roots (nodes.size + 1) ts } ::
        numberAll nodes.size (nodes.size + 1) [] ts).toArray := by
  rw [addTrees, link_push, Array.size_push]
  simp

/-- A tree can be added from the root down. -/
theorem addTree_shape {parent : Option Nat} {nodes : Array Node}
    (hparent : ∀ index ∈ parent, index < nodes.size) (t : Token) :
    addTree parent t.shape nodes =
      addTrees nodes.size (Token.shapes t.children) (grow parent t nodes) := by
  let n : Node := ⟨t.symbol, t.text?, t.position, parent, []⟩
  have hgrow : grow parent t nodes = (link parent [nodes.size] nodes).push n := by
    rw [grow, Array.push_eq_append, link_append hparent, ← Array.push_eq_append]
  have hpush := addTrees_push (Token.shapes t.children) n (link parent [nodes.size] nodes)
  rw [size_link] at hpush
  rw [hgrow, hpush, addTree]
  cases t <;> rfl

/-! ## the pass -/

/-- Coming to a token, the pass goes on behind it with its tree added, unless a walk meets a
token again. -/
def Builds (t : Token) : Prop :=
  ∀ (parent : Option Nat) (nodes : Array Node) (seen : List Origin)
    (todo : List (Token × Option Nat)), (∀ index ∈ parent, index < nodes.size) →
    buildFrom nodes seen ((t, parent) :: todo) =
      match t.visit seen with
      | .error again => .error (.cycle again.symbol again.position)
      | .ok seen => buildFrom (addTree parent t.shape nodes) seen todo

/-- The children of one parent are added one after the other. -/
theorem buildFrom_children {ts : List Token} (hts : ∀ t ∈ ts, Builds t) {parent : Nat}
    {nodes : Array Node} (hparent : parent < nodes.size) (seen : List Origin)
    (todo : List (Token × Option Nat)) :
    buildFrom nodes seen (ts.map (·, some parent) ++ todo) =
      match Token.visitAll seen ts with
      | .error again => .error (.cycle again.symbol again.position)
      | .ok seen => buildFrom (addTrees parent (Token.shapes ts) nodes) seen todo := by
  induction ts generalizing nodes seen with
  | nil =>
      rw [Token.shapes, addTrees_nil]
      rfl
  | cons t ts ih =>
      have ht := hts t (by simp) (some parent) nodes seen (ts.map (·, some parent) ++ todo)
        (by simpa using hparent)
      rw [List.map_cons, List.cons_append, ht, Token.visitAll]
      cases t.visit seen with
      | error again => rfl
      | ok seen =>
          have hroom : parent < (addTree (some parent) t.shape nodes).size := by
            rw [size_addTree]
            omega
          simp only [Token.shapes, addTrees_cons hparent]
          exact ih (fun t ht => hts t (by simp [ht])) hroom seen

theorem builds (t : Token) : Builds t := by
  induction t using Token.children_induction with
  | step t ih =>
      intro parent nodes seen todo hparent
      rw [buildFrom, Token.visit_eq]
      split
      · rfl
      · -- the children come next, and the node just added is their parent
        rw [addTree_shape hparent]
        exact buildFrom_children ih (by simp [grow]) _ todo

/-- **Building in one pass.**  Adding the tokens below a token one by one, each linked to its
parent when it is met, fails at the token that is met again if there is one, and otherwise
gives the arena of the token's tree. -/
theorem build_eq (root : Token) : build root = root.tree.map ofTree := by
  have hroot := builds root none #[] [] [] nofun
  rw [build, hroot, Token.tree]
  cases root.visit [] with
  | error again => rfl
  | ok seen => simp [buildFrom, addTree, link, ofTree, Except.map]

end Arena

end ForkParser
