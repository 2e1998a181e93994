/-!
# ForkParser.UndoStack

A stack that remembers what was done to it since the last commit, so that a
series of pushes and pops can be taken back as one.

The record holds the values that were popped but not those that were pushed:
undoing a push only needs to drop the top.
-/

namespace ForkParser

/-- One change to a stack. -/
inductive Change (α : Type) where
  | pushed
  | popped (value : α)
deriving DecidableEq

/-- A stack, top first, with the changes since the last commit, latest first. -/
structure UndoStack (α : Type) where
  items : List α := []
  changes : List (Change α) := []
deriving DecidableEq, Inhabited

namespace UndoStack

variable {α : Type}

def empty : UndoStack α := {}

def push (s : UndoStack α) (value : α) : UndoStack α :=
  ⟨value :: s.items, .pushed :: s.changes⟩

/-- Takes the top value off.  An empty stack stays as it is, and there is
nothing to undo about it. -/
def pop (s : UndoStack α) : Option α × UndoStack α :=
  match s.items with
  | [] => (none, s)
  | value :: rest => (some value, ⟨rest, .popped value :: s.changes⟩)

def peek? (s : UndoStack α) : Option α := s.items.head?

/-- Keeps the items as they are and forgets the changes. -/
def commit (s : UndoStack α) : UndoStack α := { s with changes := [] }

def undo (items : List α) : Change α → List α
  | .pushed => items.tail
  | .popped value => value :: items

/-- Takes back every change since the last commit. -/
def rollback (s : UndoStack α) : UndoStack α := ⟨s.changes.foldl undo s.items, []⟩

/-- The number of changes that a rollback would take back. -/
def pending (s : UndoStack α) : Nat := s.changes.length

def size (s : UndoStack α) : Nat := s.items.length

def isEmpty (s : UndoStack α) : Bool := s.items.isEmpty

/-- The items from the bottom to the top. -/
def toList (s : UndoStack α) : List α := s.items.reverse

/-! ## the view of each operation -/

@[simp] theorem toList_push (s : UndoStack α) (value : α) :
    (s.push value).toList = s.toList ++ [value] := by
  simp [push, toList]

@[simp] theorem toList_pop (s : UndoStack α) : s.pop.2.toList = s.toList.dropLast := by
  obtain ⟨items, changes⟩ := s
  cases items <;> simp [pop, toList]

@[simp] theorem fst_pop (s : UndoStack α) : s.pop.1 = s.toList.getLast? := by
  obtain ⟨items, changes⟩ := s
  cases items <;> simp [pop, toList]

/-- The top is the last item. -/
theorem peek?_eq_getLast? (s : UndoStack α) : s.peek? = s.toList.getLast? := by
  rw [peek?, toList, List.getLast?_reverse]

/-- Rolling back after a push is rolling back before it. -/
@[simp] theorem rollback_push (s : UndoStack α) (value : α) :
    (s.push value).rollback = s.rollback := by
  simp [push, rollback, undo]

/-- Rolling back after a pop is rolling back before it. -/
@[simp] theorem rollback_pop (s : UndoStack α) : s.pop.2.rollback = s.rollback := by
  simp only [pop]
  split
  · rfl
  · next h => simp [rollback, undo, h]

end UndoStack

end ForkParser
