import ForkParser.Error
import ForkParser.Text.Quoted
import ForkParser.Token

/-!
# ForkParser.Tree.Basic

Parse trees, and how a token becomes one.

A tree has no identities and no lookaheads: two trees are equal when they have
the same shape, symbols, texts and positions.  A token becomes a tree unless
it reaches some token twice.
-/

namespace ForkParser

/-- A parse tree: a leaf with its text, or a node with its children. -/
inductive Tree where
  | leaf (symbol : Symbol) (text : String) (position : Nat)
  | node (symbol : Symbol) (position : Nat) (children : List Tree)
deriving Inhabited

namespace Tree

mutual

/-- Equality of trees is decidable, node by node. -/
def decEq : (a b : Tree) → Decidable (a = b)
  | leaf s t p, leaf s' t' p' =>
    if h : s = s' ∧ t = t' ∧ p = p' then
      isTrue (by obtain ⟨rfl, rfl, rfl⟩ := h; rfl)
    else
      isFalse (by rintro ⟨⟩; exact h ⟨rfl, rfl, rfl⟩)
  | leaf .., node .. => isFalse (by simp)
  | node .., leaf .. => isFalse (by simp)
  | node s p cs, node s' p' cs' =>
    if h : s = s' ∧ p = p' then
      match decEqList cs cs' with
      | isTrue hcs => isTrue (by obtain ⟨rfl, rfl⟩ := h; rw [hcs])
      | isFalse hcs => isFalse (by rintro ⟨⟩; exact hcs rfl)
    else
      isFalse (by rintro ⟨⟩; exact h ⟨rfl, rfl⟩)

def decEqList : (as bs : List Tree) → Decidable (as = bs)
  | [], [] => isTrue rfl
  | [], _ :: _ => isFalse (by simp)
  | _ :: _, [] => isFalse (by simp)
  | a :: as, b :: bs =>
    match decEq a b, decEqList as bs with
    | isTrue h, isTrue hs => isTrue (by rw [h, hs])
    | isFalse h, _ => isFalse (by rintro ⟨⟩; exact h rfl)
    | _, isFalse hs => isFalse (by rintro ⟨⟩; exact hs rfl)

end

instance : DecidableEq Tree := decEq

def symbol : Tree → Symbol
  | leaf s _ _ => s
  | node s _ _ => s

/-- Where the tree starts in the source. -/
def position : Tree → Nat
  | leaf _ _ p => p
  | node _ p _ => p

def text? : Tree → Option String
  | leaf _ t _ => some t
  | node .. => none

def children : Tree → List Tree
  | leaf .. => []
  | node _ _ cs => cs

mutual

/-- The number of nodes of a tree, leaves included. -/
def size : Tree → Nat
  | leaf .. => 1
  | node _ _ cs => sizeAll cs + 1

def sizeAll : List Tree → Nat
  | [] => 0
  | t :: ts => t.size + sizeAll ts

end

end Tree

/-! ## from tokens -/

namespace Token

mutual

/-- The tree of a token: the token without its identities and lookaheads. -/
def shape : Token → Tree
  | leaf l text => .leaf l.symbol text l.position
  | node l cs => .node l.symbol l.position (shapes cs)

def shapes : List Token → List Tree
  | [] => []
  | t :: ts => t.shape :: shapes ts

end

theorem size_shape (t : Token) : t.shape.size = Tree.sizeAll (shapes t.children) + 1 := by
  cases t <;> rfl

theorem sizeAll_shapes_append (ts us : List Token) :
    Tree.sizeAll (shapes (ts ++ us)) = Tree.sizeAll (shapes ts) + Tree.sizeAll (shapes us) := by
  induction ts with
  | nil => simp [shapes, Tree.sizeAll]
  | cons t ts ih =>
      rw [List.cons_append, shapes, shapes, Tree.sizeAll, Tree.sizeAll, ih, Nat.add_assoc]

mutual

/-- Walks a token from the root down and from left to right, collecting the
tokens met.  The walk ends at the first token it meets for a second time. -/
def visit (seen : List Origin) : Token → Except Token (List Origin)
  | leaf l text =>
    if l.origin ∈ seen then .error (leaf l text) else .ok (l.origin :: seen)
  | node l cs =>
    if l.origin ∈ seen then .error (node l cs) else visitAll (l.origin :: seen) cs

def visitAll (seen : List Origin) : List Token → Except Token (List Origin)
  | [] => .ok seen
  | t :: ts =>
    match visit seen t with
    | .error repeated => .error repeated
    | .ok seen => visitAll seen ts

end

/-- The tree of a token, if no token can be reached twice from it. -/
def tree (t : Token) : Except Error Tree :=
  match t.visit [] with
  | .error repeated => .error (.cycle repeated.symbol repeated.position)
  | .ok _ => .ok t.shape

end Token

/-! ## forests -/

/-- Every tree that an input was accepted with, in the order of acceptance. -/
structure Forest where
  trees : List Tree
deriving DecidableEq

namespace Forest

def size (f : Forest) : Nat := f.trees.length

def isEmpty (f : Forest) : Bool := f.trees.isEmpty

def isAmbiguous (f : Forest) : Bool := 1 < f.trees.length

def isDistinct (f : Forest) : Bool := decide f.trees.Nodup

end Forest

end ForkParser
