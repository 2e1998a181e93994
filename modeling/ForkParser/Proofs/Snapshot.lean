import Mathlib.Data.List.DropRight
import ForkParser.UndoStack

/-!
# ForkParser.Proofs.Snapshot

A stack with undo is two plain lists.

`Snapshot` has the items of a stack and those it would be rolled back to, and no record of
what was done; pushing and popping change the one, a commit copies it to the other and a
rollback copies it back.  An `UndoStack` has the items only, with its record of changes in
place of the second list.  `UndoStack.Refines` ties the two: whatever has been pushed and
popped since, undoing the record gives the second list.  Every operation keeps that
(`Refines.apply`), and so does every series of operations (`Refines.foldl`).

The record is as long as there were changes: `Snapshot.edits` counts them in the plain
lists, where a pop of nothing is none.
-/

namespace ForkParser

variable {α : Type}

/-- What can be done to a stack. -/
inductive UndoStack.Operation (α : Type) where
  | push (value : α)
  | pop
  | commit
  | rollback
deriving DecidableEq

open UndoStack (Operation)

/-- Whether the operation is one that a rollback takes back. -/
def UndoStack.Operation.isEdit : Operation α → Bool
  | push _ => true
  | pop => true
  | commit => false
  | rollback => false

/-! ## plain lists -/

/-- The items of a stack and those it would be rolled back to, bottom to top. -/
structure Snapshot (α : Type) where
  saved : List α := []
  current : List α := []
deriving DecidableEq

namespace Snapshot

def apply (m : Snapshot α) : Operation α → Snapshot α
  | .push value => { m with current := m.current ++ [value] }
  | .pop => { m with current := m.current.dropLast }
  | .commit => { m with saved := m.current }
  | .rollback => { m with current := m.saved }

/-- The lists after some operations, nothing being there at first. -/
def after (ops : List (Operation α)) : Snapshot α := ops.foldl apply {}

/-- Whether the operation pushes a value or pops one. -/
def edited (m : Snapshot α) : Operation α → Bool
  | .push _ => true
  | .pop => !m.current.isEmpty
  | .commit => false
  | .rollback => false

/-- How many of some operations, made in turn, push a value or pop one. -/
def edits (m : Snapshot α) : List (Operation α) → Nat
  | [] => 0
  | op :: rest => (m.edited op).toNat + (m.apply op).edits rest

end Snapshot

/-! ## the stack -/

namespace UndoStack

def apply (s : UndoStack α) : Operation α → UndoStack α
  | .push value => s.push value
  | .pop => s.pop.2
  | .commit => s.commit
  | .rollback => s.rollback

/-- The stack after some operations on the empty one. -/
def after (ops : List (Operation α)) : UndoStack α := ops.foldl apply empty

/-- The stack holds the current list, and the saved one after a rollback. -/
structure Refines (s : UndoStack α) (m : Snapshot α) : Prop where
  items : s.toList = m.current
  undone : s.rollback.toList = m.saved

namespace Refines

variable {s : UndoStack α} {m : Snapshot α}

/-- Every operation does to the stack what it does to the lists. -/
theorem apply (h : s.Refines m) (op : Operation α) : (s.apply op).Refines (m.apply op) := by
  obtain ⟨hitems, hundone⟩ := h
  cases op with
  | push value =>
      constructor
      · simp only [UndoStack.apply, Snapshot.apply, toList_push, hitems]
      · simpa only [UndoStack.apply, Snapshot.apply, rollback_push] using hundone
  | pop =>
      constructor
      · simp only [UndoStack.apply, Snapshot.apply, toList_pop, hitems]
      · simpa only [UndoStack.apply, Snapshot.apply, rollback_pop] using hundone
  | commit => exact ⟨hitems, hitems⟩
  | rollback => exact ⟨hundone, hundone⟩

theorem foldl (h : s.Refines m) (ops : List (Operation α)) :
    (ops.foldl UndoStack.apply s).Refines (ops.foldl Snapshot.apply m) := by
  induction ops generalizing s m with
  | nil => exact h
  | cons op ops ih => exact ih (h.apply op)

/-! ## the number of changes -/

/-- A push or a pop makes the record longer, unless there is nothing to pop. -/
theorem pending_apply (h : s.Refines m) {op : Operation α} (hop : op.isEdit = true) :
    (s.apply op).pending = s.pending + (m.edited op).toNat := by
  cases op with
  | push value => rfl
  | pop =>
      have hempty : m.current.isEmpty = s.items.isEmpty := by
        rw [← h.items, toList, List.isEmpty_reverse]
      cases hs : s.items <;>
        simp [UndoStack.apply, pop, pending, Snapshot.edited, hempty, hs]
  | commit => contradiction
  | rollback => contradiction

theorem pending_foldl (h : s.Refines m) {ops : List (Operation α)}
    (hops : ∀ op ∈ ops, op.isEdit = true) :
    (ops.foldl UndoStack.apply s).pending = s.pending + m.edits ops := by
  induction ops generalizing s m with
  | nil => rfl
  | cons op ops ih =>
      obtain ⟨hop, hrest⟩ := List.forall_mem_cons.1 hops
      rw [List.foldl_cons, ih (h.apply op) hrest, h.pending_apply hop, Snapshot.edits,
        Nat.add_assoc]

end Refines

/-- Nothing is left to undo after a commit or a rollback. -/
theorem pending_apply_eq_zero (s : UndoStack α) {op : Operation α} (hop : op.isEdit = false) :
    (s.apply op).pending = 0 := by
  cases op with
  | push value => contradiction
  | pop => contradiction
  | commit => rfl
  | rollback => rfl

/-- Nor at first, so not after operations of which the last one is such. -/
theorem pending_after_rdropWhile (ops : List (Operation α)) :
    (after (ops.rdropWhile Operation.isEdit)).pending = 0 := by
  by_cases hnil : ops.rdropWhile Operation.isEdit = []
  · rw [hnil]
    rfl
  · have hlast := List.rdropWhile_last_not Operation.isEdit ops hnil
    rw [← List.dropLast_append_getLast hnil, after, List.foldl_append]
    exact pending_apply_eq_zero _ (by simpa using hlast)

/-- **A stack with undo is two plain lists.**  After any operations on an empty stack, also
pops of nothing, the stack has the items of the current list, and a rollback would leave it
with those of the saved one; popping and peeking give the last item of the current list; and
there are as many changes to undo as values have been pushed or popped since the last commit
or rollback. -/
theorem refines_snapshot (ops : List (Operation α)) :
    (after ops).toList = (Snapshot.after ops).current ∧
    (after ops).rollback.toList = (Snapshot.after ops).saved ∧
    (after ops).pop.1 = (Snapshot.after ops).current.getLast? ∧
    (after ops).peek? = (Snapshot.after ops).current.getLast? ∧
    (after ops).pending =
      (Snapshot.after (ops.rdropWhile Operation.isEdit)).edits
        (ops.rtakeWhile Operation.isEdit) := by
  have hempty : (empty : UndoStack α).Refines {} := ⟨rfl, rfl⟩
  obtain ⟨hitems, hundone⟩ := hempty.foldl ops
  refine ⟨hitems, hundone, ?_, ?_, ?_⟩
  · rw [fst_pop, after, hitems, Snapshot.after]
  · rw [peek?_eq_getLast?, after, hitems, Snapshot.after]
  · -- the operations since the last commit or rollback start from nothing to undo
    have hedits : ∀ op ∈ ops.rtakeWhile Operation.isEdit, op.isEdit = true :=
      fun op hop => List.mem_rtakeWhile_imp hop
    have hpending := (hempty.foldl (ops.rdropWhile Operation.isEdit)).pending_foldl hedits
    rw [← List.foldl_append, List.rdropWhile_append_rtakeWhile] at hpending
    have hnone := pending_after_rdropWhile ops
    rw [after] at hnone
    rw [after, hpending, hnone, Nat.zero_add, Snapshot.after]

end UndoStack

end ForkParser
